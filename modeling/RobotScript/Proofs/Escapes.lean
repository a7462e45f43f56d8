import RobotScript.Proofs.Words

/-!
# What quoted words stand for

A backslash in a quoted word takes the byte after it, and both together stand for one byte. The
bytes may as well be read as characters: a character above 127 has no byte that is a backslash, and
just its first byte can be taken by one.

Results:

* `Word.unescape_ofChars`: the bytes that the bytes of characters stand for are those of the
  characters that the characters stand for.
* `Word.isText_decode`: what the word of a text stands for is a text.
* `Word.length_decode_add_escapes`, `Word.decode_eq_self_iff`: each escape makes a word longer than
  what it stands for by one byte.
* `Word.unescape_append_of_body`: what bytes stand for does not depend on what follows them.
* `Word.getLast?_unescape_eq_quote_iff`: the bytes after an opening quote stand for bytes with a
  quote at the end in two cases.
-/

namespace RobotScript.Word

open Bytes (IsText ofChars)

/-! ## One byte after the other -/

/-- The bytes that the bytes after an opening quote stand for. -/
def unescape (s : Bytes) : Bytes := unescapeOnto [] s

theorem unescapeOnto_eq (found s : Bytes) : unescapeOnto found s = found.reverse ++ unescape s := by
  have h : ∀ found before : Bytes,
      unescapeOnto (found ++ before) s = before.reverse ++ unescapeOnto found s := by
    intro found before
    fun_induction unescapeOnto found s with
    | case1 found => rw [unescapeOnto, List.reverse_append]
    | case2 found b => rw [unescapeOnto, ← List.cons_append, List.reverse_append]
    | case3 found b c rest hb ih => rw [unescapeOnto, if_pos hb, ← List.cons_append, ih]
    | case4 found b c rest hb ih => rw [unescapeOnto, if_neg hb, ← List.cons_append, ih]
  exact h [] found

@[simp]
theorem unescape_nil : unescape [] = [] := rfl

@[simp]
theorem unescape_singleton (b : UInt8) : unescape [b] = [b] := rfl

theorem unescape_cons_of_ne {b : UInt8} (hb : b ≠ backslash) (s : Bytes) :
    unescape (b :: s) = b :: unescape s := by
  cases s with
  | nil => rfl
  | cons c rest =>
    rw [unescape, unescapeOnto, if_neg (by simpa using hb), unescapeOnto_eq]
    rfl

@[simp]
theorem unescape_backslash_cons (b : UInt8) (s : Bytes) :
    unescape (backslash :: b :: s) = unescapeByte b :: unescape s := by
  rw [unescape, unescapeOnto, if_pos (by simp), unescapeOnto_eq]
  rfl

theorem unescape_append_of_forall_ne {w : Bytes} (hw : ∀ b ∈ w, b ≠ backslash) (s : Bytes) :
    unescape (w ++ s) = w ++ unescape s := by
  induction w with
  | nil => rfl
  | cons b w ih =>
    obtain ⟨hb, hw⟩ := List.forall_mem_cons.1 hw
    rw [List.cons_append, unescape_cons_of_ne hb, ih hw, List.cons_append]

theorem decode_quote_cons (w : Bytes) : decode (quote :: w) = quote :: unescape w := rfl

theorem decode_cons_of_ne {b : UInt8} (hb : b ≠ quote) (w : Bytes) : decode (b :: w) = b :: w := by
  rw [decode, if_neg (by simpa using hb)]

/-- The first byte of a word stands for itself. -/
@[simp]
theorem head?_decode (w : Bytes) : (decode w).head? = w.head? := by
  cases w with
  | nil => rfl
  | cons b w =>
    rw [decode]
    split <;> rfl

theorem unescapeByte_eq_quote_iff {b : UInt8} : unescapeByte b = quote ↔ b = quote := by
  unfold unescapeByte
  split
  · simp_all [quote, Bytes.ascii]
  · split
    · simp_all [quote, Bytes.ascii]
    · split
      · simp_all [quote, Bytes.ascii]
      · rfl

/-! ## The number of escapes -/

theorem length_unescapeOnto_add_escapesFrom (found : Bytes) (n : Nat) (s : Bytes) :
    (unescapeOnto found s).length + escapesFrom n s = found.length + s.length + n := by
  fun_induction unescapeOnto found s generalizing n with
  | case1 found =>
    rw [escapesFrom, List.length_reverse, List.length_nil]
    omega
  | case2 found b =>
    rw [escapesFrom, List.length_reverse, List.length_cons, List.length_singleton]
  | case3 found b c rest hb ih =>
    have ih := ih (n + 1)
    rw [escapesFrom, if_pos hb]
    simp only [List.length_cons] at ih ⊢
    omega
  | case4 found b c rest hb ih =>
    have ih := ih n
    rw [escapesFrom, if_neg hb]
    simp only [List.length_cons] at ih ⊢
    omega

/-- An escape has one byte more than what it stands for. -/
theorem length_unescape_add_escapesFrom (s : Bytes) :
    (unescape s).length + escapesFrom 0 s = s.length := by
  have h := length_unescapeOnto_add_escapesFrom [] 0 s
  rwa [List.length_nil, Nat.zero_add, Nat.add_zero] at h

theorem le_escapesFrom (n : Nat) (s : Bytes) : n ≤ escapesFrom n s := by
  fun_induction escapesFrom n s with
  | case1 => exact Nat.le_refl _
  | case2 => exact Nat.le_refl _
  | case3 n b c rest hb ih => omega
  | case4 n b c rest hb ih => exact ih

/-- There are no escapes if there is no backslash, or just one as the last byte, which takes
nothing. -/
theorem escapesFrom_eq_iff {n : Nat} {s : Bytes} :
    escapesFrom n s = n ↔ backslash ∉ s.dropLast := by
  fun_induction escapesFrom n s with
  | case1 => simp
  | case2 => simp
  | case3 n b c rest hb ih =>
    have hle := le_escapesFrom (n + 1) rest
    rw [List.dropLast_cons_cons, List.mem_cons, not_or]
    refine iff_of_false (by omega) fun h => h.1 ?_
    exact (beq_iff_eq.1 hb).symm
  | case4 n b c rest hb ih =>
    rw [List.dropLast_cons_cons, List.mem_cons, not_or, ih]
    refine (and_iff_right ?_).symm
    rintro rfl
    exact hb (beq_self_eq_true _)

/-- Bytes without escapes are those that stand for themselves. -/
theorem unescape_eq_self_iff {w : Bytes} : unescape w = w ↔ backslash ∉ w.dropLast := by
  constructor
  · intro h
    have hlength := length_unescape_add_escapesFrom w
    rw [h] at hlength
    have hnone : escapesFrom 0 w = 0 := by omega
    exact escapesFrom_eq_iff.1 hnone
  · intro h
    rcases List.eq_nil_or_concat w with rfl | ⟨front, b, rfl⟩
    · rfl
    · rw [List.concat_eq_append, List.dropLast_concat] at h
      rw [List.concat_eq_append, unescape_append_of_forall_ne, unescape_singleton]
      rintro c hc rfl
      exact h hc

@[simp]
theorem escapes_nil : escapes [] = 0 := rfl

/-- A word is longer than what it stands for by the number of its escapes. -/
theorem length_decode_add_escapes (w : Bytes) : (decode w).length + escapes w = w.length := by
  cases w with
  | nil => rfl
  | cons b w =>
    by_cases hb : b = quote
    · subst hb
      have h := length_unescape_add_escapesFrom w
      rw [decode_quote_cons, escapes, if_pos (beq_self_eq_true _), List.length_cons,
        List.length_cons]
      omega
    · rw [decode_cons_of_ne hb, escapes, if_neg (by simpa using hb), Nat.add_zero]

/-- A word without escapes stands for itself. -/
theorem decode_eq_self_iff {w : Bytes} : decode w = w ↔ escapes w = 0 := by
  constructor
  · intro h
    have hlength := length_decode_add_escapes w
    rw [h] at hlength
    omega
  · intro h
    cases w with
    | nil => rfl
    | cons b w =>
      by_cases hb : b = quote
      · subst hb
        rw [escapes, if_pos (beq_self_eq_true _), escapesFrom_eq_iff, ← unescape_eq_self_iff] at h
        rw [decode_quote_cons, h]
      · exact decode_cons_of_ne hb w

/-- A word has an escape if it begins with a quote and has a backslash before its last byte. -/
theorem escapes_eq_zero_iff {w : Bytes} :
    escapes w = 0 ↔ ∀ rest, w = quote :: rest → backslash ∉ rest.dropLast := by
  cases w with
  | nil => simp [escapes]
  | cons b w =>
    by_cases hb : b = quote
    · subst hb
      rw [escapes, if_pos (beq_self_eq_true _), escapesFrom_eq_iff]
      simp
    · simp [escapes, hb]

/-! ## One character after the other -/

/-- The character that a backslash and a character after it stand for. -/
def unescapeChar (c : Char) : Char :=
  if c = 'n' then '\n' else if c = 'r' then '\r' else if c = 't' then '\t' else c

/-- The characters that the characters after an opening quote stand for. -/
def unescapeChars : List Char → List Char
  | [] => []
  | [c] => [c]
  | c :: d :: rest =>
    if c = '\\' then unescapeChar d :: unescapeChars rest else c :: unescapeChars (d :: rest)

theorem ne_backslash_of_isContinuation {b : UInt8} (h : Bytes.isContinuation b = true) :
    b ≠ backslash := by
  rintro rfl
  cases h

theorem ne_backslash_of_mem {c : Char} (hc : c ≠ '\\') :
    ∀ b ∈ String.utf8EncodeChar c, b ≠ backslash :=
  Bytes.ne_ascii_of_mem (by decide) hc

theorem unescapeByte_of_ne {b : UInt8} (hn : b ≠ Bytes.ascii 'n') (hr : b ≠ Bytes.ascii 'r')
    (ht : b ≠ Bytes.ascii 't') : unescapeByte b = b := by
  simp [unescapeByte, hn, hr, ht]

/-- A backslash changes the first byte of the character after it and leaves the others. -/
theorem utf8EncodeChar_unescapeChar {c : Char} {b : UInt8} {tail : Bytes}
    (h : String.utf8EncodeChar c = b :: tail) :
    String.utf8EncodeChar (unescapeChar c) = unescapeByte b :: tail := by
  have cases_ascii : ∀ d : Char, d.val.toNat ≤ 0x7f → c = d → b = Bytes.ascii d ∧ tail = [] := by
    rintro d hd rfl
    rw [Bytes.utf8EncodeChar_of_le hd] at h
    obtain ⟨hb, ht⟩ := List.cons.inj h
    exact ⟨hb.symm, ht.symm⟩
  by_cases hn : c = 'n'
  · obtain ⟨rfl, rfl⟩ := cases_ascii 'n' (by decide) hn
    rw [hn]
    rfl
  by_cases hr : c = 'r'
  · obtain ⟨rfl, rfl⟩ := cases_ascii 'r' (by decide) hr
    rw [hr]
    rfl
  by_cases ht : c = 't'
  · obtain ⟨rfl, rfl⟩ := cases_ascii 't' (by decide) ht
    rw [ht]
    rfl
  have ne_ascii : ∀ d : Char, d.val.toNat ≤ 0x7f → c ≠ d → b ≠ Bytes.ascii d := by
    rintro d hd hne rfl
    exact hne (Bytes.eq_of_utf8EncodeChar_eq_cons hd h)
  rw [unescapeByte_of_ne (ne_ascii 'n' (by decide) hn) (ne_ascii 'r' (by decide) hr)
    (ne_ascii 't' (by decide) ht), unescapeChar, if_neg hn, if_neg hr, if_neg ht, h]

theorem unescapeChars_cons_of_ne {c : Char} (hc : c ≠ '\\') (cs : List Char) :
    unescapeChars (c :: cs) = c :: unescapeChars cs := by
  cases cs with
  | nil => rfl
  | cons d rest => rw [unescapeChars, if_neg hc]

@[simp]
theorem unescapeChars_backslash_cons (c : Char) (cs : List Char) :
    unescapeChars ('\\' :: c :: cs) = unescapeChar c :: unescapeChars cs := by
  rw [unescapeChars, if_pos rfl]

/-- Bytes of characters stand for the bytes of the characters that these stand for. -/
theorem unescape_ofChars (cs : List Char) : unescape (ofChars cs) = ofChars (unescapeChars cs) := by
  fun_induction unescapeChars cs with
  | case1 => rfl
  | case2 c =>
    by_cases hc : c = '\\'
    · rw [hc]
      rfl
    · have := unescape_append_of_forall_ne (ne_backslash_of_mem hc) []
      rwa [unescape_nil] at this
  | case3 d rest ih =>
    obtain ⟨b, tail, he, -, ht, -⟩ := Bytes.utf8EncodeChar_shape d
    have hback : String.utf8EncodeChar '\\' = [backslash] := rfl
    have htail : ∀ x ∈ tail, x ≠ backslash := fun x hx => ne_backslash_of_isContinuation (ht x hx)
    rw [Bytes.ofChars_cons, Bytes.ofChars_cons, hback, he, List.cons_append, List.nil_append,
      List.cons_append, unescape_backslash_cons, unescape_append_of_forall_ne htail, ih,
      Bytes.ofChars_cons, utf8EncodeChar_unescapeChar he, List.cons_append]
  | case4 c d rest hc ih =>
    rw [Bytes.ofChars_cons, unescape_append_of_forall_ne (ne_backslash_of_mem hc), ih,
      Bytes.ofChars_cons]

theorem isText_unescape {s : Bytes} (h : IsText s) : IsText (unescape s) := by
  obtain ⟨cs, rfl⟩ := h
  rw [unescape_ofChars]
  exact Bytes.isText_ofChars _

/-- What the word of a text stands for is a text. -/
theorem isText_decode {w : Bytes} (h : IsText w) : IsText (decode w) := by
  cases w with
  | nil => exact IsText.nil
  | cons b w =>
    by_cases hb : b = quote
    · subst hb
      rw [decode_quote_cons]
      have hquote : IsText [quote] := ⟨['"'], rfl⟩
      exact hquote.append (isText_unescape (h.tail_of_lt (by decide)))
    · rwa [decode_cons_of_ne hb]

/-! ## The state after bytes -/

/-- A backslash that takes the byte to come is the last byte so far. -/
theorem foldlM_quotedStep_eq_escaped {w : Bytes}
    (h : w.foldlM quotedStep .body = some .escaped) :
    ∃ body, w = body ++ [backslash] ∧ body.foldlM quotedStep .body = some .body := by
  rcases List.eq_nil_or_concat w with rfl | ⟨body, b, rfl⟩
  · cases h
  · rw [List.concat_eq_append, foldlM_append_singleton_iff] at h
    obtain ⟨state, hbody, hb⟩ := h
    obtain ⟨rfl, rfl⟩ := quotedStep_eq_escaped_iff.1 hb
    exact ⟨body, List.concat_eq_append, hbody⟩

/-- A word that goes on has the state that its bytes lead to. -/
theorem quotedState_eq {w : Bytes} {state : QuotedState}
    (h : w.foldlM quotedStep .body = some state) : quotedState w = state := by
  have fold : ∀ (w : Bytes) (start : QuotedState), w.foldlM quotedStep start = some state →
      w.foldl (fun state b => (quotedStep state b).getD state) start = state := by
    intro w
    induction w with
    | nil =>
      intro start h
      simpa using h
    | cons b w ih =>
      intro start h
      rw [List.foldlM_cons, Option.bind_eq_bind, Option.bind_eq_some_iff] at h
      obtain ⟨next, hb, hw⟩ := h
      rw [List.foldl_cons, hb]
      exact ih next hw
  exact fold w .body h

/-- What follows bytes is read apart from them if they leave the scanner in the body. A backslash
before them is in the second part, where they are read from its taking a byte on. -/
theorem unescape_append_both (w s : Bytes) :
    (w.foldlM quotedStep .body = some .body → unescape (w ++ s) = unescape w ++ unescape s) ∧
      (w.foldlM quotedStep .escaped = some .body →
        unescape (backslash :: (w ++ s)) = unescape (backslash :: w) ++ unescape s) := by
  induction w with
  | nil => exact ⟨fun _ => rfl, fun h => by cases h⟩
  | cons b w ih =>
    obtain ⟨ih_body, ih_escaped⟩ := ih
    constructor
    · intro h
      rw [List.foldlM_cons, Option.bind_eq_bind, Option.bind_eq_some_iff] at h
      obtain ⟨next, hb, hw⟩ := h
      cases next with
      | body =>
        obtain hs | ⟨-, -, hne, -⟩ := quotedStep_eq_body_iff.1 hb
        · cases hs
        · rw [List.cons_append, unescape_cons_of_ne hne, unescape_cons_of_ne hne, ih_body hw,
            List.cons_append]
      | escaped =>
        obtain ⟨-, rfl⟩ := quotedStep_eq_escaped_iff.1 hb
        exact ih_escaped hw
      | closed => cases w <;> cases hw
    · intro h
      rw [List.foldlM_cons, Option.bind_eq_bind, quotedStep, Option.bind_some] at h
      rw [List.cons_append, unescape_backslash_cons, unescape_backslash_cons, ih_body h,
        List.cons_append]

/-- What bytes stand for does not depend on what follows them, unless the last of them is a
backslash that takes the next byte. -/
theorem unescape_append_of_body {w : Bytes} (h : w.foldlM quotedStep .body = some .body)
    (s : Bytes) : unescape (w ++ s) = unescape w ++ unescape s :=
  (unescape_append_both w s).1 h

/-- Whether the last byte of a quoted word is a quote that a backslash takes. -/
def endsInEscapedQuote (word : Bytes) : Bool :=
  word.getLast? == some quote && quotedState (word.drop 1).dropLast == .escaped

theorem endsInEscapedQuote_concat_iff {front : Bytes} {b : UInt8} {state : QuotedState}
    (h : front.foldlM quotedStep .body = some state) :
    endsInEscapedQuote (quote :: (front ++ [b])) = true ↔ b = quote ∧ state = .escaped := by
  have hlast : (quote :: (front ++ [b])).getLast? = some b := by
    rw [← List.cons_append, List.getLast?_concat]
  have hfront : ((quote :: (front ++ [b])).drop 1).dropLast = front := List.dropLast_concat
  rw [endsInEscapedQuote, hlast, hfront, quotedState_eq h]
  simp

theorem endsInEscapedQuote_of_closed {w : Bytes} (h : w.foldlM quotedStep .body = some .closed) :
    endsInEscapedQuote (quote :: w) = false := by
  obtain ⟨front, rfl, hfront⟩ := foldlM_quotedStep_eq_closed h
  rw [Bool.eq_false_iff, Ne, endsInEscapedQuote_concat_iff hfront]
  simp

/-- The bytes after an opening quote stand for bytes with a quote at the end if they close the word,
or if the last of them is an escaped quote. -/
theorem getLast?_unescape_eq_quote_iff {w : Bytes} {state : QuotedState}
    (h : w.foldlM quotedStep .body = some state) :
    (unescape w).getLast? = some quote ↔
      state = .closed ∨ endsInEscapedQuote (quote :: w) = true := by
  rcases List.eq_nil_or_concat w with rfl | ⟨body, b, rfl⟩
  · cases h
    simp [endsInEscapedQuote, quotedState]
  rw [List.concat_eq_append] at h ⊢
  obtain ⟨next, hbody, hb⟩ := foldlM_append_singleton_iff.1 h
  have hclosed : state = .closed ↔ next = .body ∧ b = quote := by
    rw [← quotedStep_eq_closed_iff, hb, Option.some.injEq]
  rw [endsInEscapedQuote_concat_iff hbody, hclosed]
  cases next with
  | body =>
    rw [unescape_append_of_body hbody, unescape_singleton, List.getLast?_concat]
    simp
  | escaped =>
    obtain ⟨front, rfl, hfront⟩ := foldlM_quotedStep_eq_escaped hbody
    rw [List.append_assoc, unescape_append_of_body hfront, List.cons_append, List.nil_append,
      unescape_backslash_cons, unescape_nil, List.getLast?_concat, Option.some.injEq,
      unescapeByte_eq_quote_iff]
    simp
  | closed => cases hb

/-- The same for characters. -/
theorem getLast?_unescapeChars_eq_quote_iff {cs : List Char} {state : QuotedState}
    (h : (ofChars cs).foldlM quotedStep .body = some state) :
    (unescapeChars cs).getLast? = some '"' ↔
      state = .closed ∨ endsInEscapedQuote (quote :: ofChars cs) = true := by
  have hlast := getLast?_unescape_eq_quote_iff h
  have hquote : '"'.val.toNat ≤ 0x7f := by decide
  rwa [unescape_ofChars, quote, Bytes.getLast?_ofChars_eq_iff hquote] at hlast

end RobotScript.Word
