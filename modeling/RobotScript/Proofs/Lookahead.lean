import RobotScript.Proofs.Lexemes

/-!
# How far the scanner looks ahead

Where a word or a gap ends is decided by the next two bytes at most: a machine and an item of a gap
look at one; an operator looks at one, and at the byte after it for the start of a character; and a
gap ends before a byte that is no white space and does not open a comment with the next. One byte
would not do: a slash after a word may be an operator or open a comment.

So a token stays the same when a source is changed beyond two bytes after the token and its
separator.

Results:

* `Word.length_append_of_sameFront`, `Gap.scan_append_of_sameFront`: a word and a gap before other
  bytes with the same two at their front.
* `Lexed.append_of_sameFront`: lexemes before other bytes with the same two at their front.
* `Stream.tokenize_of_same_prefix`: the tokens of two sources that begin alike.
-/

namespace RobotScript

open Bytes (IsText startsCharacter)

/-! ## Two bytes -/

/-- The same two bytes are at the front, or the same fewer bytes are all there are. -/
def Bytes.SameFront (s s' : Bytes) : Prop := s.take 2 = s'.take 2

namespace Bytes.SameFront

variable {s s' : Bytes}

theorem head?_eq (h : SameFront s s') : s.head? = s'.head? := by
  have := congrArg List.head? h
  rwa [List.head?_take, List.head?_take] at this

theorem eq_nil (h : SameFront [] s') : s' = [] :=
  List.head?_eq_none_iff.1 h.head?_eq.symm

/-- The byte after the first is the same, too. -/
theorem exists_cons {b : UInt8} (h : SameFront (b :: s) s') :
    ∃ r, s' = b :: r ∧ s.head? = r.head? := by
  cases s' with
  | nil => cases h
  | cons c r =>
    obtain ⟨rfl, hr⟩ := List.cons.inj h
    have := congrArg List.head? hr
    rw [List.head?_take, List.head?_take] at this
    exact ⟨r, rfl, this⟩

theorem symm (h : SameFront s s') : SameFront s' s := Eq.symm h

/-- Bytes before the ends are the same anyway. -/
theorem append (h : SameFront s s') (w : Bytes) : SameFront (w ++ s) (w ++ s') := by
  have hcut : ∀ n, n ≤ 2 → s.take n = s'.take n := by
    intro n hn
    have := congrArg (List.take n) h
    rwa [List.take_take, List.take_take, Nat.min_eq_left hn] at this
  unfold SameFront
  rw [List.take_append, List.take_append, hcut _ (Nat.sub_le 2 w.length)]

/-- What follows two bytes or more does not matter. -/
theorem of_length {w : Bytes} (hw : 2 ≤ w.length) (s s' : Bytes) :
    SameFront (w ++ s) (w ++ s') := by
  unfold SameFront
  rw [List.take_append_of_le_length hw, List.take_append_of_le_length hw]

end Bytes.SameFront

open Bytes (SameFront)

theorem Bytes.startsCharacter_of_head?_eq {s s' : Bytes} (h : s.head? = s'.head?) :
    startsCharacter s = startsCharacter s' := by
  cases s with
  | nil => rw [List.head?_eq_none_iff.1 h.symm]
  | cons b s =>
    obtain ⟨r, rfl⟩ := List.head?_eq_some_iff.1 h.symm
    rfl

/-! ## Words -/

namespace Word

variable {known : Bytes → Bool} {rest rest' : Bytes}

theorem Halts.of_head?_eq {σ : Type} {step : σ → UInt8 → Option σ} {state : σ}
    (hhalts : Halts step state rest) (h : rest.head? = rest'.head?) : Halts step state rest' := by
  unfold Halts at hhalts ⊢
  rwa [← h]

theorem stopsLike_of_sameFront (h : SameFront rest rest') (w : Bytes) :
    StopsLike known w rest rest' where
  quoted hhalts := hhalts.of_head?_eq h.head?_eq
  number hhalts := hhalts.of_head?_eq h.head?_eq
  hexadecimal hx := h.head?_eq.trans hx
  plain hstop := by rwa [← h.head?_eq]
  starts hstart := by rwa [← Bytes.startsCharacter_of_head?_eq h.head?_eq]
  operator hstop b r' he := by
    subst he
    -- the second byte is looked at here only: it tells whether a character ends with the first
    obtain ⟨r, rfl, hr⟩ := h.symm.exists_cons
    rw [Bytes.startsCharacter_of_head?_eq hr]
    exact hstop b r rfl

/-- A word ends before bytes with the same two at their front. -/
theorem length_append_of_sameFront {w : Bytes} (hw : w ≠ []) (hr : SameFront rest rest')
    (h : length known (w ++ rest) = w.length) : length known (w ++ rest') = w.length :=
  length_append_of_stopsLike hw (stopsLike_of_sameFront hr w) h

end Word

/-! ## Gaps -/

namespace Gap

/-- Whether a gap begins is told by two bytes. -/
theorem begins_of_sameFront {s s' : Bytes} (h : SameFront s s') : begins s = begins s' := by
  cases s with
  | nil => rw [h.eq_nil]
  | cons b s =>
    obtain ⟨r, rfl, hr⟩ := h.exists_cons
    simp only [begins, hr]

/-- A run of bytes of one kind ends before the same byte. -/
theorem takeWhile_append_of_head?_eq {p : UInt8 → Bool} {s rest' : Bytes}
    (hr : (s.dropWhile p).head? = rest'.head?) :
    (s.takeWhile p ++ rest').takeWhile p = s.takeWhile p ∧
      (s.takeWhile p ++ rest').dropWhile p = rest' := by
  have hrun : ∀ b ∈ s.takeWhile p, p b = true := List.all_eq_true.1 List.all_takeWhile
  rw [List.takeWhile_append_of_pos hrun, List.dropWhile_append_of_pos hrun]
  cases rest' with
  | nil => simp
  | cons b r =>
    have hb := List.head?_dropWhile_not p s
    rw [hr] at hb
    simp only [List.head?_cons] at hb
    simp [hb]

theorem lt_blockLength (taken : Nat) {s : Bytes} (hs : s ≠ []) : taken < (blockLength taken s).1 := by
  fun_cases blockLength taken s with
  | case1 => exact absurd rfl hs
  | case2 => exact Nat.lt_succ_self taken
  | case3 => exact Nat.lt_add_of_pos_right Nat.two_pos
  | case4 a b rest => exact le_blockLength (taken + 1) (b :: rest)

theorem blockLength_le (taken : Nat) (s : Bytes) : (blockLength taken s).1 ≤ taken + s.length := by
  fun_induction blockLength taken s with
  | case1 => exact Nat.le_refl _
  | case2 => exact Nat.le_refl _
  | case3 => simp
  | case4 _ _ _ _ _ ih =>
    simp only [List.length_cons] at ih ⊢
    omega

/-- A block comment that goes to the end of `w` goes so far before the same byte: it is closed
there, or nothing follows. -/
theorem blockLength_append_of_head?_eq {taken : Nat} {closed : Bool} {w rest rest' : Bytes}
    (h : blockLength taken (w ++ rest) = (taken + w.length, closed))
    (hr : rest.head? = rest'.head?) :
    blockLength taken (w ++ rest') = (taken + w.length, closed) := by
  induction w generalizing taken with
  | nil =>
    cases rest with
    | nil => rwa [List.head?_eq_none_iff.1 hr.symm]
    | cons b rest =>
      have hlt := lt_blockLength taken (List.cons_ne_nil b rest)
      rw [← List.nil_append (b :: rest), h] at hlt
      exact absurd hlt (Nat.lt_irrefl taken)
  | cons a w ih =>
    have hhead : (w ++ rest).head? = (w ++ rest').head? := by
      rw [List.head?_append, List.head?_append, hr]
    cases hs : w ++ rest with
    | nil =>
      obtain ⟨rfl, rfl⟩ := List.append_eq_nil_iff.1 hs
      rwa [List.head?_eq_none_iff.1 hr.symm]
    | cons b r =>
      rw [hs] at hhead
      obtain ⟨r', hs'⟩ := List.head?_eq_some_iff.1 hhead.symm
      rw [List.cons_append, hs, blockLength] at h
      rw [List.cons_append, hs', blockLength]
      by_cases hend : (a == star && b == slash) = true
      · rwa [if_pos hend] at h ⊢
      · rw [if_neg hend, ← hs, List.length_cons, Nat.add_comm w.length, ← Nat.add_assoc] at h
        rw [if_neg hend, ← hs', List.length_cons, Nat.add_comm w.length, ← Nat.add_assoc]
        exact ih h

theorem blockLength_take_append {n : Nat} {closed : Bool} {s rest' : Bytes}
    (h : blockLength 0 s = (n, closed)) (hr : (s.drop n).head? = rest'.head?) :
    (s.take n).length = n ∧ blockLength 0 (s.take n ++ rest') = (n, closed) := by
  have hlen : (s.take n).length = n := by
    have hle := blockLength_le 0 s
    rw [h, Nat.zero_add] at hle
    exact List.length_take_of_le hle
  have hwhole : blockLength 0 (s.take n ++ s.drop n) = (0 + (s.take n).length, closed) := by
    rw [List.take_append_drop, h, hlen, Nat.zero_add]
  have hblock := blockLength_append_of_head?_eq hwhole hr
  rw [hlen, Nat.zero_add] at hblock
  exact ⟨hlen, hblock⟩

/-- A block comment is no shorter than its opening. -/
theorem two_le_of_blockLength {n : Nat} {closed : Bool} {s : Bytes}
    (h : blockLength 0 (slash :: star :: s) = (n, closed)) : 2 ≤ n := by
  have hlt := lt_blockLength 1 (List.cons_ne_nil star s)
  have hstep : blockLength 0 (slash :: star :: s) = blockLength 1 (star :: s) := rfl
  rwa [← hstep, h] at hlt

/-- An item of a gap ends before the same byte. -/
theorem next?_append_of_head?_eq {s rest rest' : Bytes} {item : GapItem}
    (h : next? s = some (item, rest)) (hr : rest.head? = rest'.head?) :
    next? (item.bytes ++ rest') = some (item, rest') := by
  rcases next?_cases h with ⟨a, s, rfl, ha, rfl, rfl⟩ | ⟨s, rfl, rfl, rfl⟩ |
    ⟨s, n, closed, rfl, hn, rfl, rfl⟩
  · obtain ⟨htake, hdrop⟩ := takeWhile_append_of_head?_eq hr
    rw [GapItem.bytes, List.cons_append, next?_blank ha, htake, hdrop]
  · obtain ⟨htake, hdrop⟩ := takeWhile_append_of_head?_eq hr
    have hopen : (slash :: slash :: s).takeWhile inLine = slash :: slash :: s.takeWhile inLine := rfl
    simp only [GapItem.bytes]
    rw [hopen] at htake hdrop ⊢
    rw [List.cons_append, List.cons_append, next?_line, ← List.cons_append, ← List.cons_append,
      htake, hdrop]
  · obtain ⟨hlen, hblock⟩ := blockLength_take_append hn hr
    obtain ⟨m, rfl⟩ := Nat.exists_eq_add_of_le' (two_le_of_blockLength hn)
    have hopen : (slash :: star :: s).take (m + 2) = slash :: star :: s.take m := rfl
    simp only [GapItem.bytes]
    rw [hopen] at hblock hlen ⊢
    rw [List.cons_append, List.cons_append] at hblock ⊢
    rw [next?_block hblock, ← List.cons_append, ← List.cons_append, List.take_left' hlen,
      List.drop_left' hlen]

/-- A gap ends before bytes with the same two at their front. -/
theorem scan_append_of_sameFront {gap : List GapItem} {rest rest' : Bytes}
    (h : scan (bytes gap ++ rest) = (gap, rest)) (hr : SameFront rest rest') :
    scan (bytes gap ++ rest') = (gap, rest') := by
  induction gap with
  | nil =>
    have hend : begins rest = false := by
      have := next?_scan (bytes [] ++ rest)
      rwa [h, next?_eq_none_iff] at this
    rw [begins_of_sameFront hr] at hend
    exact scan_of_next?_eq_none (next?_eq_none_iff.2 hend)
  | cons item gap ih =>
    cases hnext : next? (bytes (item :: gap) ++ rest) with
    | none =>
      rw [scan_of_next?_eq_none hnext] at h
      cases h
    | some found =>
      obtain ⟨item', rest₁⟩ := found
      rw [scan_of_next?_eq_some hnext] at h
      obtain ⟨hitems, hrest⟩ := Prod.mk.inj h
      obtain ⟨rfl, hgap⟩ := List.cons.inj hitems
      have hbytes : bytes (item' :: gap) = item'.bytes ++ bytes gap := List.flatMap_cons
      have happ := next?_append hnext
      rw [hbytes, List.append_assoc, List.append_cancel_left_eq] at happ
      subst happ
      have hscan := ih (Prod.ext hgap hrest)
      have hfirst := next?_append_of_head?_eq hnext (hr.append (bytes gap)).head?_eq
      rw [hbytes, List.append_assoc, scan_of_next?_eq_some hfirst, hscan]

end Gap

/-! ## Lexemes -/

/-- A word and its gap are taken before bytes with the same two at their front. -/
theorem Lexeme.take_append_of_sameFront {known : Bytes → Bool} {l : Lexeme} {rest rest' : Bytes}
    (h : take known false (l.bytes ++ rest) = (l, rest)) (hne : l.word ≠ [])
    (hr : SameFront rest rest') : take known false (l.bytes ++ rest') = (l, rest') := by
  have hlen := length_of_take h
  rw [bytes, List.append_assoc] at hlen
  have hlen' := Word.length_append_of_sameFront hne (hr.append l.separator) hlen
  rw [← List.append_assoc] at hlen'
  exact take_false_eq hlen' (Gap.scan_append_of_sameFront (scan_of_take h) hr)

/-- Lexemes are taken before bytes with the same two at their front. -/
theorem Lexed.append_of_sameFront {known : Bytes → Bool} {s rest' : Bytes}
    {ls₁ ls₂ ls₂' : List Lexeme} (h : Lexed known s (ls₁ ++ ls₂)) (h' : Lexed known rest' ls₂')
    (hr : SameFront (ls₂.flatMap Lexeme.bytes) rest') :
    Lexed known (ls₁.flatMap Lexeme.bytes ++ rest') (ls₁ ++ ls₂') := by
  induction ls₁ generalizing s with
  | nil => exact h'
  | cons l ls₁ ih =>
    cases h with
    | @cons _ rest _ _ hbegins hne htake hrest =>
      have hs := Lexeme.bytes_append_of_take htake
      have hafter : SameFront rest (ls₁.flatMap Lexeme.bytes ++ rest') := by
        rw [← hrest.bytes_eq, List.append_eq, List.flatMap_append]
        exact hr.append _
      rw [← hs] at hbegins htake
      rw [Gap.begins_of_sameFront (hafter.append l.bytes)] at hbegins
      rw [List.flatMap_cons, List.append_assoc]
      exact .cons hbegins hne (Lexeme.take_append_of_sameFront htake hne hafter) (ih hrest)

/-- A source that has other bytes after some lexemes is cut into the same lexemes up to there. -/
theorem Cut.exists_of_sameFront {known : Bytes → Bool} {source source' : String}
    {gap : List GapItem} {ls₁ ls₂ : List Lexeme} {rest' : Bytes}
    (h : Cut known source gap (ls₁ ++ ls₂))
    (hs : Bytes.ofText source' = Gap.bytes gap ++ (ls₁.flatMap Lexeme.bytes ++ rest'))
    (hr : SameFront (ls₂.flatMap Lexeme.bytes) rest') :
    ∃ ls₂', Cut known source' gap (ls₁ ++ ls₂') := by
  have hbegins : Gap.begins rest' = false := by
    rw [← Gap.begins_of_sameFront hr]
    exact h.lexed.of_append.begins_eq_false
  obtain ⟨ls₂', hls₂'⟩ := Lexed.exists_lexed known rest' hbegins
  have hlexed := h.lexed.append_of_sameFront hls₂' hr
  have hall : (ls₁ ++ ls₂').flatMap Lexeme.bytes = ls₁.flatMap Lexeme.bytes ++ rest' := by
    rw [List.flatMap_append, hls₂'.bytes_eq]
  have hafter : SameFront ((ls₁ ++ ls₂).flatMap Lexeme.bytes)
      ((ls₁ ++ ls₂').flatMap Lexeme.bytes) := by
    rw [hall, List.flatMap_append]
    exact hr.append _
  have hscan := h.scan
  rw [← h.bytes_eq] at hscan
  refine ⟨ls₂', ?_, by rwa [hall]⟩
  rw [hs, ← hall]
  exact Gap.scan_append_of_sameFront hscan hafter

/-- A source that is changed two bytes or more after some lexemes is cut into the same lexemes up to
there. -/
theorem Cut.exists_of_same_prefix {known : Bytes → Bool} {p a : String} (b : String)
    {gap : List GapItem} {ls₁ ls₂ : List Lexeme} (h : Cut known (p ++ a) gap (ls₁ ++ ls₂))
    (hroom : (Gap.bytes gap).length + (ls₁.flatMap Lexeme.bytes).length + 2 ≤ p.utf8ByteSize) :
    ∃ ls₂', Cut known (p ++ b) gap (ls₁ ++ ls₂') := by
  have hbytes := h.bytes_eq
  rw [Text.ofText_append, List.flatMap_append, ← List.append_assoc] at hbytes
  rw [← Text.length_ofText] at hroom
  rcases List.append_eq_append_iff.1 hbytes with ⟨q, hp, hrest⟩ | ⟨q, hp, -⟩
  · -- what is left of `p` after the lexemes has the two bytes that are looked at
    simp only [hp, List.length_append] at hroom
    have hfront : SameFront (ls₂.flatMap Lexeme.bytes) (q ++ Bytes.ofText b) := by
      rw [hrest]
      exact SameFront.of_length (by omega) _ _
    have hchanged : Bytes.ofText (p ++ b) =
        Gap.bytes gap ++ (ls₁.flatMap Lexeme.bytes ++ (q ++ Bytes.ofText b)) := by
      rw [Text.ofText_append, hp, List.append_assoc, List.append_assoc]
    exact h.exists_of_sameFront hchanged hfront
  · have hlen := congrArg List.length hp
    simp only [List.length_append] at hlen
    omega

/-! ## Tokens -/

/-- The head and the tokens of the same lexemes are the same. -/
theorem Vocabulary.get?_stream_of_le (v : Vocabulary) (gap : List GapItem)
    (ls₁ ls₂ ls₂' : List Lexeme) (size size' : Nat) {j : Nat} (hj : j ≤ ls₁.length) :
    (v.stream gap (ls₁ ++ ls₂) size).get? j = (v.stream gap (ls₁ ++ ls₂') size').get? j := by
  simp only [Stream.get?, ← Array.getElem?_toList, toList_stream, tokens_append, List.append_assoc]
  cases j with
  | zero => rfl
  | succ j =>
    have hlt : j < (v.tokens (Gap.bytes gap).length ls₁).length := by rwa [length_tokens]
    rw [List.getElem?_cons_succ, List.getElem?_cons_succ, List.getElem?_append_left hlt,
      List.getElem?_append_left hlt]

/-- A token ends where the lexemes up to it end, or is the terminator. -/
theorem Cut.stop_of_get? {v : Vocabulary} {source : String} {gap : List GapItem}
    {ls : List Lexeme} {i : Nat} {t : Token} (h : Cut v.knows source gap ls)
    (ht : (v.stream gap ls source.utf8ByteSize).get? i = some t) :
    (∃ ls₁ ls₂, ls = ls₁ ++ ls₂ ∧ ls₁.length = i ∧ t.span.stop + t.separator.utf8ByteSize =
        (Gap.bytes gap).length + (ls₁.flatMap Lexeme.bytes).length) ∨
      t.span.stop = source.utf8ByteSize := by
  rcases Vocabulary.get?_stream_cases ht with ⟨rfl, rfl⟩ | ⟨ls₁, l, ls₂, rfl, rfl, rfl⟩ | rfl
  · refine Or.inl ⟨[], ls, rfl, rfl, ?_⟩
    simp [Vocabulary.token, Lexeme.separator, h.isText_gap.utf8ByteSize_toText]
  · refine Or.inl ⟨ls₁ ++ [l], ls₂, by rw [List.append_assoc, List.singleton_append], by simp, ?_⟩
    have hsep := (h.isText l (by simp)).2
    rw [List.flatMap_append, List.flatMap_singleton, List.length_append, Lexeme.length_bytes]
    simp only [Vocabulary.token, hsep.utf8ByteSize_toText, Lexeme.length]
    omega
  · exact Or.inr rfl

/-- Tokens that end, with their separators, two bytes or more before the end of a prefix are the
same in all sources with the prefix, and so are the tokens before them. -/
theorem Stream.tokenize_of_same_prefix (v : Vocabulary) (p a b : String) (stream : Stream) (i : Nat)
    (t : Token) (hstream : Stream.tokenize v (p ++ a) = some stream)
    (ht : stream.get? i = some t)
    (hroom : t.span.stop + t.separator.utf8ByteSize + 2 ≤ p.utf8ByteSize) :
    ∃ stream', Stream.tokenize v (p ++ b) = some stream' ∧
      ∀ j ≤ i, stream'.get? j = stream.get? j := by
  have hne : p ++ b ≠ "" := by
    intro hempty
    have hsize := congrArg String.utf8ByteSize hempty
    rw [String.utf8ByteSize_append, String.utf8ByteSize_empty] at hsize
    omega
  obtain ⟨gap, ls, hcut, rfl⟩ := Stream.exists_cut hstream
  rcases hcut.stop_of_get? ht with ⟨ls₁, ls₂, rfl, rfl, hstop⟩ | hstop
  · rw [hstop] at hroom
    obtain ⟨ls₂', hcut'⟩ := hcut.exists_of_same_prefix b hroom
    exact ⟨_, hcut'.tokenize_eq hne, fun j hj => v.get?_stream_of_le gap ls₁ ls₂' ls₂ _ _ hj⟩
  · -- the terminator stands at the end of the source, and so not before that of the prefix
    rw [String.utf8ByteSize_append] at hstop
    omega

/-- The bound is met with nothing to spare by the operator before `0x`, and the number after it is
another in the two sources. -/
theorem Stream.tokenize_of_same_prefix_standard :
    let v : Vocabulary := ⟨(Keyword.populate Keyword.standard).entries, .empty⟩
    ∃ stream t, Stream.tokenize v ("a<=/**/0x" ++ "1F") = some stream ∧
      stream.get? 2 = some t ∧
      t.span.stop + t.separator.utf8ByteSize + 2 = "a<=/**/0x".utf8ByteSize ∧
      ∃ stream', Stream.tokenize v ("a<=/**/0x" ++ ".5") = some stream' ∧
        ∀ j ≤ 2, stream'.get? j = stream.get? j := by
  intro v
  have hroom : (Stream.tokenize v ("a<=/**/0x" ++ "1F")).map (fun stream =>
      (stream.get? 2).map fun t => t.span.stop + t.separator.utf8ByteSize) = some (some 7) := by
    decide +kernel
  obtain ⟨stream, hstream, hroom⟩ := Option.map_eq_some_iff.1 hroom
  obtain ⟨t, ht, hstop⟩ := Option.map_eq_some_iff.1 hroom
  have hsize : t.span.stop + t.separator.utf8ByteSize + 2 = "a<=/**/0x".utf8ByteSize := by
    rw [hstop]
    decide +kernel
  exact ⟨stream, t, hstream, ht, hsize, Stream.tokenize_of_same_prefix v "a<=/**/0x" "1F" ".5" stream
    2 t hstream ht (Nat.le_of_eq hsize)⟩

/-- One byte after a token and its separator is not enough: what follows may open a comment. -/
example : (Stream.tokenize ⟨.empty, .empty⟩ ("a/" ++ "")).bind (fun stream => stream.get? 1) ≠
    (Stream.tokenize ⟨.empty, .empty⟩ ("a/" ++ "/")).bind (fun stream => stream.get? 1) := by
  decide +kernel

end RobotScript
