import RobotScript.Text.Bytes

/-!
# Texts and their bytes

The bytes of a text are those of its characters, one character after the other. The first byte of a
character does not continue a character, all others do, and a byte below 128 is a whole character.
So the bytes of a text can be cut wherever a character begins: both parts are the bytes of texts.

Results:

* `Bytes.exists_of_ofChars_eq_append`: a cut where a character begins is one between characters.
* `Bytes.IsText.ofText_toText`: bytes of a text are the bytes of the text that they stand for.
* `Bytes.IsText.startsCharacter_of_lt`: a character begins after each byte below 128.
* `Text.slice?_eq_some`: the part of a text between two such cuts.
-/

namespace RobotScript.Bytes

/-! ## One character -/

theorem isContinuation_ofNat : ∀ n < 0xc0, 0x80 ≤ n → isContinuation (UInt8.ofNat n) = true := by
  decide +kernel

theorem isContinuation_ofNat_lead : ∀ n < 0x100, 0xc0 ≤ n →
    isContinuation (UInt8.ofNat n) = false ∧ ¬UInt8.ofNat n < 0x80 := by
  decide +kernel

theorem isContinuation_eq_false_of_lt {b : UInt8} (h : b < 0x80) : isContinuation b = false := by
  simp only [isContinuation, Bool.and_eq_false_iff, decide_eq_false_iff_not]
  exact Or.inl (UInt8.not_le.2 h)

theorem utf8EncodeChar_of_le {c : Char} (h : c.val.toNat ≤ 0x7f) :
    String.utf8EncodeChar c = [ascii c] := by
  simp only [String.utf8EncodeChar, h, ite_true, ascii]
  rw [UInt8.ofNat_uInt32ToNat]

theorem ascii_lt_of_le {c : Char} (h : c.val.toNat ≤ 0x7f) : ascii c < 0x80 := by
  rw [UInt8.lt_iff_toNat_lt, ascii, UInt32.toNat_toUInt8]
  have : (0x80 : UInt8).toNat = 128 := rfl
  omega

/-- The bytes of a character above 127: one that begins it, and bytes that continue it. -/
theorem utf8EncodeChar_of_lt {c : Char} (h : 0x7f < c.val.toNat) :
    ∃ b tail, String.utf8EncodeChar c = b :: tail ∧ isContinuation b = false ∧ ¬b < 0x80 ∧
      ∀ x ∈ tail, isContinuation x = true := by
  unfold String.utf8EncodeChar
  simp only [show ¬c.val.toNat ≤ 0x7f by omega, ite_false]
  split
  · have hb := isContinuation_ofNat_lead (c.val.toNat / 64 % 0x20 + 0xc0) (by omega) (by omega)
    refine ⟨_, _, rfl, hb.1, hb.2, ?_⟩
    simp only [List.mem_singleton, forall_eq]
    exact isContinuation_ofNat _ (by omega) (by omega)
  · split
    · have hb := isContinuation_ofNat_lead (c.val.toNat / 4096 % 0x10 + 0xe0) (by omega) (by omega)
      refine ⟨_, _, rfl, hb.1, hb.2, ?_⟩
      simp only [List.mem_cons, List.not_mem_nil, or_false, forall_eq_or_imp, forall_eq]
      constructor <;> exact isContinuation_ofNat _ (by omega) (by omega)
    · have hb := isContinuation_ofNat_lead (c.val.toNat / 262144 % 0x08 + 0xf0) (by omega) (by omega)
      refine ⟨_, _, rfl, hb.1, hb.2, ?_⟩
      simp only [List.mem_cons, List.not_mem_nil, or_false, forall_eq_or_imp, forall_eq]
      refine ⟨?_, ?_, ?_⟩ <;> exact isContinuation_ofNat _ (by omega) (by omega)

/-- The bytes of a character: the first one begins it, the others continue it, and there are no
others if the first one is below 128. -/
theorem utf8EncodeChar_shape (c : Char) :
    ∃ b tail, String.utf8EncodeChar c = b :: tail ∧ isContinuation b = false ∧
      (∀ x ∈ tail, isContinuation x = true) ∧ (b < 0x80 → tail = [] ∧ b = ascii c) := by
  by_cases h : c.val.toNat ≤ 0x7f
  · exact ⟨ascii c, [], utf8EncodeChar_of_le h, isContinuation_eq_false_of_lt (ascii_lt_of_le h),
      by simp, fun _ => ⟨rfl, rfl⟩⟩
  · obtain ⟨b, tail, he, hb, hn, ht⟩ := utf8EncodeChar_of_lt (c := c) (by omega)
    exact ⟨b, tail, he, hb, ht, fun hlt => absurd hlt hn⟩

/-! ## Many characters -/

/-- The bytes of characters, one character after the other. -/
def ofChars (cs : List Char) : Bytes := cs.flatMap String.utf8EncodeChar

@[simp]
theorem ofChars_nil : ofChars [] = [] := rfl

theorem ofChars_cons (c : Char) (cs : List Char) :
    ofChars (c :: cs) = String.utf8EncodeChar c ++ ofChars cs := rfl

@[simp]
theorem ofChars_append (cs ds : List Char) : ofChars (cs ++ ds) = ofChars cs ++ ofChars ds :=
  List.flatMap_append

theorem ofText_ofList (cs : List Char) : ofText (String.ofList cs) = ofChars cs := by
  simp only [ofText, String.toUTF8_eq_toByteArray, String.toByteArray_ofList]
  exact List.toList_data_toByteArray

theorem ofText_eq_ofChars (s : String) : ofText s = ofChars s.toList := by
  conv => lhs; rw [← String.ofList_toList (s := s)]
  exact ofText_ofList _

theorem fromUTF8?_eq_some_iff {bytes : ByteArray} {text : String} :
    String.fromUTF8? bytes = some text ↔ text.toUTF8 = bytes := by
  unfold String.fromUTF8?
  constructor
  · intro h
    split at h
    · obtain rfl := Option.some.inj h
      rfl
    · cases h
  · rintro rfl
    rw [String.toUTF8_eq_toByteArray, dif_pos text.isValidUTF8]
    exact congrArg some (String.toByteArray_inj.1 rfl)

theorem fromUTF8?_eq_none_iff {bytes : ByteArray} :
    String.fromUTF8? bytes = none ↔ ∀ text : String, text.toUTF8 ≠ bytes := by
  rw [Option.eq_none_iff_forall_ne_some]
  exact forall_congr' fun text => not_congr fromUTF8?_eq_some_iff

theorem toText?_ofChars (cs : List Char) : toText? (ofChars cs) = some (String.ofList cs) := by
  refine fromUTF8?_eq_some_iff.2 ?_
  rw [String.toUTF8_eq_toByteArray, String.toByteArray_ofList]
  exact ByteArray.ext List.data_toByteArray

@[simp]
theorem toText_ofChars (cs : List Char) : toText (ofChars cs) = String.ofList cs := by
  simp [toText, toText?_ofChars]

theorem ofChars_injective {cs ds : List Char} (h : ofChars cs = ofChars ds) : cs = ds := by
  have hs := toText?_ofChars cs
  rw [h, toText?_ofChars, Option.some.injEq, String.ofList_inj] at hs
  exact hs.symm

/-- A character is known by its bytes, whatever follows them. -/
theorem utf8EncodeChar_append_inj {c d : Char} {s t : Bytes}
    (h : String.utf8EncodeChar c ++ s = String.utf8EncodeChar d ++ t) : c = d ∧ s = t := by
  have hc := ByteArray.utf8DecodeChar?_utf8EncodeChar_append (b := s.toByteArray) (c := c)
  rw [← List.toByteArray_append, h, List.toByteArray_append,
    ByteArray.utf8DecodeChar?_utf8EncodeChar_append] at hc
  obtain rfl := Option.some.inj hc
  exact ⟨rfl, List.append_cancel_left h⟩

/-- A character is known by its first byte if that is below 128. -/
theorem eq_of_utf8EncodeChar_eq_cons {c d : Char} {tail : Bytes} (hd : d.val.toNat ≤ 0x7f)
    (h : String.utf8EncodeChar c = ascii d :: tail) : c = d := by
  obtain ⟨b, tail', he, -, -, hb⟩ := utf8EncodeChar_shape c
  rw [h] at he
  obtain ⟨rfl, rfl⟩ := List.cons.inj he
  obtain ⟨rfl, -⟩ := hb (ascii_lt_of_le hd)
  have hcs : ofChars [c] = ofChars [d] := by
    simp [ofChars, h, utf8EncodeChar_of_le hd]
  simpa using ofChars_injective hcs

/-- A character below 128 has no byte in common with any other. -/
theorem ne_ascii_of_mem {c d : Char} (hd : d.val.toNat ≤ 0x7f) (hc : c ≠ d) :
    ∀ b ∈ String.utf8EncodeChar c, b ≠ ascii d := by
  obtain ⟨b, tail, he, -, ht, -⟩ := utf8EncodeChar_shape c
  rw [he, List.forall_mem_cons]
  constructor
  · rintro rfl
    exact hc (eq_of_utf8EncodeChar_eq_cons hd he)
  · rintro x hx rfl
    have hcont := ht _ hx
    rw [isContinuation_eq_false_of_lt (ascii_lt_of_le hd)] at hcont
    cases hcont

/-- The last byte of characters is one below 128 if the last character is. -/
theorem getLast?_ofChars_eq_iff {cs : List Char} {d : Char} (hd : d.val.toNat ≤ 0x7f) :
    (ofChars cs).getLast? = some (ascii d) ↔ cs.getLast? = some d := by
  rcases List.eq_nil_or_concat cs with rfl | ⟨cs, c, rfl⟩
  · simp
  rw [List.concat_eq_append, ofChars_append, List.getLast?_concat, Option.some.injEq]
  obtain ⟨b, tail, he, hb, ht, hc⟩ := utf8EncodeChar_shape c
  have hchar : ofChars [c] = b :: tail := by rw [ofChars_cons, he, ofChars_nil, List.append_nil]
  rw [hchar, List.getLast?_append, List.getLast?_cons, Option.some_or, Option.some.injEq]
  rcases List.eq_nil_or_concat tail with rfl | ⟨tail, x, rfl⟩
  · constructor
    · rintro rfl
      exact eq_of_utf8EncodeChar_eq_cons hd he
    · rintro rfl
      rw [utf8EncodeChar_of_le hd] at he
      exact (List.cons.inj he).1.symm
  · rw [List.concat_eq_append, List.getLast?_concat, Option.getD_some]
    constructor
    · rintro rfl
      have hcont := ht (ascii d) (by simp)
      rw [isContinuation_eq_false_of_lt (ascii_lt_of_le hd)] at hcont
      cases hcont
    · rintro rfl
      rw [utf8EncodeChar_of_le hd, List.concat_eq_append] at he
      simp at he

/-! ## Where characters begin -/

theorem startsCharacter_cons_iff {b : UInt8} {s : Bytes} :
    startsCharacter (b :: s) = true ↔ isContinuation b = false := by
  simp [startsCharacter]

theorem startsCharacter_of_lt {b : UInt8} {s : Bytes} (h : b < 0x80) :
    startsCharacter (b :: s) = true :=
  startsCharacter_cons_iff.2 (isContinuation_eq_false_of_lt h)

theorem startsCharacter_ofChars (cs : List Char) : startsCharacter (ofChars cs) = true := by
  cases cs with
  | nil => rfl
  | cons c cs =>
    obtain ⟨b, tail, he, hb, -⟩ := utf8EncodeChar_shape c
    rw [ofChars_cons, he, List.cons_append]
    exact startsCharacter_cons_iff.2 hb

/-- A cut of the bytes of a text where a character begins is a cut between two characters. -/
theorem exists_of_ofChars_eq_append {cs : List Char} {pre post : Bytes}
    (h : ofChars cs = pre ++ post) (hp : startsCharacter post = true) :
    ∃ cs₁ cs₂, cs = cs₁ ++ cs₂ ∧ ofChars cs₁ = pre ∧ ofChars cs₂ = post := by
  induction cs generalizing pre with
  | nil =>
    obtain ⟨rfl, rfl⟩ := List.append_eq_nil_iff.1 h.symm
    exact ⟨[], [], rfl, rfl, rfl⟩
  | cons c cs ih =>
    rcases pre with _ | ⟨p, pre⟩
    · exact ⟨[], c :: cs, rfl, rfl, h⟩
    rw [ofChars_cons] at h
    rcases List.append_eq_append_iff.1 h with ⟨mid, hpre, hcs⟩ | ⟨mid, hc, hpost⟩
    · obtain ⟨cs₁, cs₂, rfl, h₁, h₂⟩ := ih hcs
      exact ⟨c :: cs₁, cs₂, rfl, by rw [ofChars_cons, h₁, hpre], h₂⟩
    · rcases mid with _ | ⟨m, mid⟩
      · exact ⟨[c], cs, rfl, by simpa [ofChars_cons] using hc, by simpa using hpost.symm⟩
      · -- the cut would be inside `c`, where a byte continues the character
        obtain ⟨b, tail, he, -, ht, -⟩ := utf8EncodeChar_shape c
        rw [he, List.cons_append] at hc
        obtain ⟨-, rfl⟩ := List.cons.inj hc
        have hm := ht m (by simp)
        rw [hpost, List.cons_append, startsCharacter_cons_iff, hm] at hp
        cases hp

/-! ## Bytes of texts -/

/-- The bytes are those of a text. -/
def IsText (b : Bytes) : Prop := ∃ cs, ofChars cs = b

theorem isText_ofChars (cs : List Char) : IsText (ofChars cs) := ⟨cs, rfl⟩

theorem isText_ofText (s : String) : IsText (ofText s) := ⟨s.toList, (ofText_eq_ofChars s).symm⟩

namespace IsText

variable {b pre post : Bytes}

theorem nil : IsText [] := ⟨[], rfl⟩

theorem append (h : IsText pre) (h' : IsText post) : IsText (pre ++ post) := by
  obtain ⟨cs, rfl⟩ := h
  obtain ⟨ds, rfl⟩ := h'
  exact ⟨cs ++ ds, ofChars_append cs ds⟩

theorem startsCharacter (h : IsText b) : startsCharacter b = true := by
  obtain ⟨cs, rfl⟩ := h
  exact startsCharacter_ofChars cs

/-- Both parts of a text that is cut where a character begins are texts. -/
theorem of_append (h : IsText (pre ++ post)) (hp : Bytes.startsCharacter post = true) :
    IsText pre ∧ IsText post := by
  obtain ⟨cs, hcs⟩ := h
  obtain ⟨cs₁, cs₂, -, h₁, h₂⟩ := exists_of_ofChars_eq_append hcs hp
  exact ⟨⟨cs₁, h₁⟩, ⟨cs₂, h₂⟩⟩

/-- What follows a text within a text is a text. -/
theorem right_of_append (h : IsText (pre ++ post)) (hpre : IsText pre) : IsText post := by
  obtain ⟨cs, rfl⟩ := hpre
  induction cs with
  | nil => exact h
  | cons c cs ih =>
    obtain ⟨ds, hds⟩ := h
    rw [ofChars_cons, List.append_assoc] at hds
    cases ds with
    | nil =>
      obtain ⟨x, tail, he, -⟩ := utf8EncodeChar_shape c
      rw [he] at hds
      cases hds
    | cons d ds =>
      rw [ofChars_cons] at hds
      exact ih ⟨ds, (utf8EncodeChar_append_inj hds).2⟩

/-- A byte below 128 at the front of a text is a whole character. -/
theorem tail_of_lt {a : UInt8} (h : IsText (a :: b)) (ha : a < 0x80) : IsText b := by
  obtain ⟨cs, hcs⟩ := h
  cases cs with
  | nil => cases hcs
  | cons c cs =>
    obtain ⟨x, tail, he, -, -, hx⟩ := utf8EncodeChar_shape c
    rw [ofChars_cons, he, List.cons_append] at hcs
    obtain ⟨rfl, htail⟩ := List.cons.inj hcs
    rw [(hx ha).1, List.nil_append] at htail
    exact ⟨cs, htail⟩

/-- A character begins after each byte below 128. -/
theorem startsCharacter_of_lt {a : UInt8} (h : IsText (pre ++ a :: post)) (ha : a < 0x80) :
    Bytes.startsCharacter post = true :=
  ((h.of_append (Bytes.startsCharacter_of_lt ha)).2.tail_of_lt ha).startsCharacter

/-- Bytes below 128 at the front of a text are whole characters. -/
theorem of_forall_lt (h : IsText (pre ++ post)) (hpre : ∀ b ∈ pre, b < 0x80) : IsText post := by
  induction pre with
  | nil => exact h
  | cons b pre ih =>
    have hb := h.tail_of_lt (hpre b (by simp))
    exact ih hb fun x hx => hpre x (List.mem_cons_of_mem b hx)

/-- Bytes of a text are the bytes of the text that they stand for. -/
theorem ofText_toText (h : IsText b) : ofText (toText b) = b := by
  obtain ⟨cs, rfl⟩ := h
  rw [toText_ofChars, ofText_ofList]

/-- Bytes of a text that stand for no character are none. -/
theorem eq_nil_of_toText (h : IsText b) (hb : toText b = "") : b = [] := by
  rw [← h.ofText_toText, hb]
  rfl

theorem utf8ByteSize_toText (h : IsText b) : (toText b).utf8ByteSize = b.length := by
  obtain ⟨cs, rfl⟩ := h
  rw [toText_ofChars, ← String.size_toByteArray, String.toByteArray_ofList]
  exact List.size_toByteArray

theorem toText_append (h : IsText pre) (h' : IsText post) :
    toText (pre ++ post) = toText pre ++ toText post := by
  obtain ⟨cs, rfl⟩ := h
  obtain ⟨ds, rfl⟩ := h'
  rw [← ofChars_append, toText_ofChars, toText_ofChars, toText_ofChars, String.ofList_append]

theorem toText?_eq_some (h : IsText b) : toText? b = some (toText b) := by
  obtain ⟨cs, rfl⟩ := h
  rw [toText?_ofChars, toText_ofChars]

end IsText

end RobotScript.Bytes

/-! ## Parts of a text -/

namespace RobotScript.Text

open Bytes (ofText)

@[simp]
theorem length_ofText (s : String) : (ofText s).length = s.utf8ByteSize := by
  simp only [ofText, String.toUTF8_eq_toByteArray, Array.length_toList]
  rfl

theorem ofText_append (s t : String) : ofText (s ++ t) = ofText s ++ ofText t := by
  simp only [Bytes.ofText_eq_ofChars, String.toList_append, Bytes.ofChars_append]

theorem ofText_injective {s t : String} (h : ofText s = ofText t) : s = t := by
  have hs := Bytes.toText_ofChars s.toList
  rw [← Bytes.ofText_eq_ofChars, h, Bytes.ofText_eq_ofChars, Bytes.toText_ofChars] at hs
  simpa using hs.symm

@[simp]
theorem toText_ofText (s : String) : Bytes.toText (ofText s) = s := by
  rw [Bytes.ofText_eq_ofChars, Bytes.toText_ofChars, String.ofList_toList]

/-- An offset is at a boundary if it is in the text and a character begins there, or at its end. -/
theorem isBoundary_iff (s : String) (i : Nat) :
    isBoundary s i = true ↔
      i ≤ s.utf8ByteSize ∧ Bytes.startsCharacter ((ofText s).drop i) = true := by
  have hsize : s.toUTF8.size = s.utf8ByteSize := rfl
  unfold isBoundary
  by_cases h : i < s.toUTF8.size
  · have hl : i < (ofText s).length := by rw [length_ofText]; omega
    rw [List.drop_eq_getElem_cons hl, Bytes.startsCharacter_cons_iff]
    simp only [h, dite_true, Bool.not_eq_true']
    exact ⟨fun hb => ⟨by omega, hb⟩, fun hb => hb.2⟩
  · simp only [h, dite_false, beq_iff_eq]
    constructor
    · rintro rfl
      refine ⟨by omega, ?_⟩
      rw [List.drop_eq_nil_of_le (by rw [length_ofText]; omega)]
      rfl
    · rintro ⟨hle, -⟩
      omega

/-- The part of a text between two offsets where characters begin stands for the bytes there. -/
theorem slice?_eq_some {s : String} {pre mid post : Bytes} (h : ofText s = pre ++ mid ++ post)
    (hm : Bytes.startsCharacter (mid ++ post) = true) (hp : Bytes.startsCharacter post = true) :
    slice? s pre.length (pre.length + mid.length) = some (Bytes.toText mid) := by
  have hlen : s.utf8ByteSize = pre.length + mid.length + post.length := by
    rw [← length_ofText, h, List.length_append, List.length_append]
  have h₁ : isBoundary s pre.length = true := by
    refine (isBoundary_iff s _).2 ⟨by omega, ?_⟩
    rwa [h, List.append_assoc, List.drop_left']
    rfl
  have h₂ : isBoundary s (pre.length + mid.length) = true := by
    refine (isBoundary_iff s _).2 ⟨by omega, ?_⟩
    rwa [h, List.drop_left' (by rw [List.length_append])]
  have htext : Bytes.IsText mid := by
    have := Bytes.isText_ofText s
    rw [h, List.append_assoc] at this
    exact ((this.of_append hm).2.of_append hp).1
  have hbytes : s.toUTF8.extract pre.length (pre.length + mid.length) = ⟨mid.toArray⟩ := by
    apply ByteArray.ext
    rw [ByteArray.data_extract, ← Array.toList_inj, Array.toList_extract]
    show ((ofText s).drop pre.length).take (pre.length + mid.length - pre.length) = mid
    rw [h, List.append_assoc, List.drop_left' rfl, List.take_left' (by omega)]
  unfold slice?
  rw [h₁, h₂, hbytes, decide_eq_true (Nat.le_add_right _ _)]
  exact htext.toText?_eq_some

/-- A character begins where the bytes of a text are cut into those of two. -/
theorem isBoundary_of_append {s : String} {pre post : Bytes} (h : ofText s = pre ++ post)
    (hp : Bytes.IsText post) : isBoundary s pre.length = true := by
  refine (isBoundary_iff s _).2 ⟨?_, ?_⟩
  · rw [← length_ofText, h, List.length_append]
    omega
  · rw [h, List.drop_left]
    exact hp.startsCharacter

/-- What stands in a text from such a cut on. -/
theorem slice?_of_append {s : String} {pre post : Bytes} (h : ofText s = pre ++ post)
    (hp : Bytes.IsText post) : slice? s pre.length s.utf8ByteSize = some (Bytes.toText post) := by
  have hsize : s.utf8ByteSize = pre.length + post.length := by
    rw [← length_ofText, h, List.length_append]
  rw [← List.append_nil (pre ++ post)] at h
  rw [hsize]
  exact slice?_eq_some h (hp.append Bytes.IsText.nil).startsCharacter rfl

/-- There is nothing at the end of a text. -/
theorem slice?_end (s : String) : slice? s s.utf8ByteSize s.utf8ByteSize = some "" := by
  have hslice := slice?_of_append (List.append_nil (ofText s)).symm Bytes.IsText.nil
  rwa [length_ofText] at hslice

end RobotScript.Text
