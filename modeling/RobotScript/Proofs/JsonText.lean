import RobotScript.Json.Parser
import RobotScript.Json.Printer
import RobotScript.Proofs.Decimals

/-!
# JSON texts

The reader reads what the writer writes. A value that is written in compact form is read back from
the front of any text in which its last number ends, so arrays and objects of any depth are read
back from their items and fields. Numbers that are no integers are kept as texts, and are left out.

Results:

* `Json.readUnsigned_toDigits`: a number is read back from its digits.
* `Json.escaped_escapeChar`, `Json.readQuoted_of_escaped`: what stands for a character in quotes,
  and that it is read back.
* `Json.readValue_chars`: a value is read back from its compact form, with fuel for its length.
* `Json.parse?_compact`: the compact form of a value stands for the value.
-/

namespace RobotScript.Json

/-! ## Numbers -/

/-- A text in which a number before it ends. -/
def EndsNumber (rest : List Char) : Prop :=
  ∀ c ∈ rest.head?, c.isDigit = false ∧ c ≠ '.' ∧ c ≠ 'e' ∧ c ≠ 'E'

theorem endsNumber_nil : EndsNumber [] := by simp [EndsNumber]

theorem takeDigits_append {ds rest : List Char} (hds : ∀ c ∈ ds, c.isDigit = true)
    (hrest : EndsNumber rest) : takeDigits (ds ++ rest) = (ds, rest) := by
  have htake : rest.takeWhile Char.isDigit = [] ∧ rest.dropWhile Char.isDigit = rest := by
    cases rest with
    | nil => simp
    | cons c rest => simp [(hrest c rfl).1]
  unfold takeDigits
  rw [List.takeWhile_append_of_pos hds, List.dropWhile_append_of_pos hds, htake.1, htake.2,
    List.append_nil]

theorem readFraction_of_endsNumber {rest : List Char} (h : EndsNumber rest) :
    readFraction rest = some ([], rest) := by
  unfold readFraction
  split
  · exact absurd rfl (h '.' rfl).2.1
  · rfl

theorem readExponent_of_endsNumber {rest : List Char} (h : EndsNumber rest) :
    readExponent rest = some ([], rest) := by
  unfold readExponent
  split
  · rename_i c rest
    have hc := h c rfl
    rw [if_neg (by simp [hc.2.2])]
  · rfl

theorem digitChar_ne_zero : ∀ d < 10, 0 < d → d.digitChar ≠ '0' := by decide

/-- Only zero has a zero as its first digit. -/
theorem head?_toDigits_ne_zero {n : Nat} (hn : 0 < n) : (Nat.toDigits 10 n).head? ≠ some '0' := by
  induction n using Nat.strongRecOn with
  | ind n ih =>
    rw [Nat.toDigits_eq_if (by omega)]
    split
    · simpa using digitChar_ne_zero n ‹n < 10› hn
    · have hhigh := ih (n / 10) (by omega) (by omega)
      rw [List.head?_append, List.head?_eq_some_head Nat.toDigits_ne_nil] at *
      simpa using hhigh

/-- A number is read back from its digits, with its sign, unless it is negative zero. -/
theorem readUnsigned_toDigits {negative : Bool} {n : Nat} {rest : List Char}
    (hzero : ¬(negative = true ∧ n = 0)) (hrest : EndsNumber rest) :
    readUnsigned negative (Nat.toDigits 10 n ++ rest) =
      some (.int (if negative then -(n : Int) else n), rest) := by
  have hdigits : takeDigits (Nat.toDigits 10 n ++ rest) = (Nat.toDigits 10 n, rest) :=
    takeDigits_append (fun c hc => Text.isDigit_of_mem_toDigits hc) hrest
  have hvalue : digitsValue (Nat.toDigits 10 n) = n := Nat.ofDigitChars_ten_toDigits
  have hlead : ((Nat.toDigits 10 n).isEmpty || ((Nat.toDigits 10 n).head? == some '0' &&
      decide ((Nat.toDigits 10 n).length > 1))) = false := by
    have hne : Nat.toDigits 10 n ≠ [] := Nat.toDigits_ne_nil
    by_cases hn : n = 0
    · subst hn
      decide
    · simp [hne, head?_toDigits_ne_zero (Nat.pos_of_ne_zero hn)]
  have hminus : (negative && n == 0) = false := by simpa using hzero
  unfold readUnsigned
  rw [hdigits]
  dsimp only
  rw [hlead, if_neg Bool.false_ne_true, readFraction_of_endsNumber hrest, Option.bind_eq_bind,
    Option.bind_some, readExponent_of_endsNumber hrest, Option.bind_some, hvalue, hminus]
  rfl

/-! ## Texts in quotes -/

/-- The characters with a letter for their escape: quote, backslash, backspace, tab, line feed, form
feed and carriage return. -/
def escapeLetters : List (Char × Char) :=
  [ ('"', '"'), ('\\', '\\'), ('\x08', 'b'), ('\t', 't'), ('\n', 'n'), ('\x0c', 'f'),
    ('\r', 'r') ]

/-- What stands for a character in quotes: its letter after a backslash, its number in four small
hexadecimal digits if it comes before the space, and otherwise the character itself. -/
inductive Escaped : Char → List Char → Prop
  | letter {c letter : Char} : (c, letter) ∈ escapeLetters → Escaped c ['\\', letter]
  | number {c : Char} : c ∉ escapeLetters.map Prod.fst → c.toNat < 0x20 →
      Escaped c ['\\', 'u', '0', '0', (c.toNat / 16).digitChar, (c.toNat % 16).digitChar]
  | itself {c : Char} : c ∉ escapeLetters.map Prod.fst → 0x20 ≤ c.toNat → Escaped c [c]

theorem hexDigit_eq {n : Nat} (hn : n < 16) : hexDigit n = n.digitChar := by
  unfold hexDigit
  rw [Nat.toDigits_of_lt_base hn]
  rfl

theorem escaped_escapeChar (c : Char) : Escaped c (escapeChar c) := by
  by_cases hletter : c ∈ escapeLetters.map Prod.fst
  · have hcases : c = '"' ∨ c = '\\' ∨ c = '\x08' ∨ c = '\t' ∨ c = '\n' ∨ c = '\x0c' ∨
        c = '\r' := by simpa [escapeLetters] using hletter
    rcases hcases with rfl | rfl | rfl | rfl | rfl | rfl | rfl <;> exact .letter (by decide)
  · have hother : ∀ d ∈ escapeLetters.map Prod.fst, c ≠ d := by
      intro d hd heq
      exact hletter (heq ▸ hd)
    have hchar : escapeChar c = if c.toNat < 0x20 then
        ['\\', 'u', '0', '0', hexDigit (c.toNat / 16), hexDigit (c.toNat % 16)] else [c] := by
      simp only [escapeLetters, List.map_cons, List.map_nil, List.forall_mem_cons] at hother
      simp only [escapeChar, hother, if_false]
    rw [hchar]
    split
    · rw [hexDigit_eq (by omega), hexDigit_eq (by omega)]
      exact .number hletter ‹_›
    · exact .itself hletter (by omega)

theorem hexValue?_digitChar : ∀ n < 16, hexValue? n.digitChar = some n := by decide

theorem readEscape_of_mem {c letter : Char} (h : (c, letter) ∈ escapeLetters) (rest : List Char) :
    readEscape (letter :: rest) = some (c, rest) := by
  simp only [escapeLetters, List.mem_cons, Prod.mk.injEq, List.not_mem_nil, or_false] at h
  rcases h with ⟨rfl, rfl⟩ | ⟨rfl, rfl⟩ | ⟨rfl, rfl⟩ | ⟨rfl, rfl⟩ | ⟨rfl, rfl⟩ | ⟨rfl, rfl⟩ |
    ⟨rfl, rfl⟩ <;> rfl

/-- A character before the space is read back from its number. -/
theorem readEscape_number {c : Char} (hc : c.toNat < 0x20) (rest : List Char) :
    readEscape ('u' :: '0' :: '0' :: (c.toNat / 16).digitChar :: (c.toNat % 16).digitChar :: rest) =
      some (c, rest) := by
  have hunit :
      readUnit ('0' :: '0' :: (c.toNat / 16).digitChar :: (c.toNat % 16).digitChar :: rest) =
        some (c.toNat, rest) := by
    have hhigh := hexValue?_digitChar (c.toNat / 16) (by omega)
    have hlow := hexValue?_digitChar (c.toNat % 16) (by omega)
    have hzero : hexValue? '0' = some 0 := by decide
    have hsum : 256 * (16 * 0 + 0) + (16 * (c.toNat / 16) + c.toNat % 16) = c.toNat := by omega
    simp only [readUnit, hhigh, hlow, hzero, Option.bind_eq_bind, Option.bind_some, hsum]
  show readEscapedUnit _ = _
  have hsmall : ¬0xD800 ≤ c.toNat ∧ ¬0xDC00 ≤ c.toNat := by omega
  unfold readEscapedUnit
  rw [hunit, Option.bind_eq_bind, Option.bind_some]
  simp [hsmall, Char.ofNat_toNat]

/-- What stands for a character is read as this character. -/
theorem readQuoted_of_escaped {c : Char} {form : List Char} (h : Escaped c form) (fuel : Nat)
    (found rest : List Char) :
    readQuoted (fuel + 1) found (form ++ rest) = readQuoted fuel (c :: found) rest := by
  cases h with
  | letter h => simp [readQuoted, readEscape_of_mem h]
  | number _ hc => simp [readQuoted, readEscape_number hc]
  | itself hletter hc =>
    have hother : c ≠ '"' ∧ c ≠ '\\' := by
      constructor <;> rintro rfl <;> exact hletter (by decide)
    have hplain : ¬c.toNat < 0x20 := by omega
    simp only [List.singleton_append, readQuoted, hother.1, hother.2, hplain, if_false]

theorem readQuoted_flatMap (cs found rest : List Char) (fuel : Nat) (hfuel : cs.length < fuel) :
    readQuoted fuel found (cs.flatMap escapeChar ++ '"' :: rest) =
      some (String.ofList (found.reverse ++ cs), rest) := by
  induction cs generalizing found fuel with
  | nil =>
    obtain ⟨fuel, rfl⟩ := Nat.exists_eq_add_of_lt hfuel
    simp [readQuoted]
  | cons c cs ih =>
    obtain ⟨fuel, rfl⟩ : ∃ n, fuel = n + 1 := ⟨fuel - 1, by omega⟩
    rw [List.length_cons] at hfuel
    rw [List.flatMap_cons, List.append_assoc, readQuoted_of_escaped (escaped_escapeChar c),
      ih _ _ (by omega)]
    simp

/-- A text is read back from its form in quotes. -/
theorem readString_quote (s : String) (rest : List Char) :
    readString (s.toList.flatMap escapeChar ++ '"' :: rest) = some (s, rest) := by
  have hlength : s.toList.length ≤ (s.toList.flatMap escapeChar).length := by
    generalize s.toList = cs
    induction cs with
    | nil => simp
    | cons c cs ih =>
      have hc : 0 < (escapeChar c).length := by
        cases h : escapeChar c with
        | nil => exact absurd (h ▸ escaped_escapeChar c) nofun
        | cons => simp
      rw [List.flatMap_cons, List.length_append, List.length_cons]
      omega
  unfold readString
  rw [readQuoted_flatMap _ _ _ _ (by rw [List.length_append]; omega)]
  simp

/-! ## Values -/

/-- A value whose numbers are integers. -/
inductive Integral : Json → Prop
  | null : Integral .null
  | bool (b : Bool) : Integral (.bool b)
  | int (i : Int) : Integral (.int i)
  | str (s : String) : Integral (.str s)
  | array {items : List Json} : (∀ item ∈ items, Integral item) → Integral (.array items)
  | object {fields : List (String × Json)} : (∀ field ∈ fields, Integral field.2) →
      Integral (.object fields)

/-- The characters of an integer. -/
theorem chars_int (i : Int) :
    chars (.int i) =
      if i < 0 then '-' :: Nat.toDigits 10 i.natAbs else Nat.toDigits 10 i.natAbs := by
  rw [chars, Text.toList_toString]

/-- A character with which no value begins, or with which an array ends. -/
def isBetween (c : Char) : Bool := isSpace c || c == ']'

theorem isBetween_of_isDigit {c : Char} (h : c.isDigit = true) : isBetween c = false := by
  have hne : ∀ d : Char, d.isDigit = false → c ≠ d := by
    rintro d hd rfl
    rw [h] at hd
    cases hd
  simp [isBetween, isSpace, hne]

theorem exists_cons_chars {j : Json} (h : j.Integral) :
    ∃ c cs, chars j = c :: cs ∧ isBetween c = false := by
  cases h with
  | null => exact ⟨'n', _, rfl, by decide⟩
  | bool b => cases b <;> exact ⟨_, _, rfl, by decide⟩
  | str s => exact ⟨'"', _, rfl, by decide⟩
  | array => exact ⟨'[', _, by rw [chars], by decide⟩
  | object => exact ⟨'\x7b', _, by rw [chars], by decide⟩
  | int i =>
    rw [chars_int]
    split
    · exact ⟨'-', _, rfl, by decide⟩
    · cases hds : Nat.toDigits 10 i.natAbs with
      | nil => exact absurd hds Nat.toDigits_ne_nil
      | cons d ds =>
        have hd : d ∈ Nat.toDigits 10 i.natAbs := by simp [hds]
        have hdigit : d.isDigit = true := Text.isDigit_of_mem_toDigits hd
        exact ⟨d, ds, rfl, isBetween_of_isDigit hdigit⟩

theorem skipSpace_cons {c : Char} (h : isSpace c = false) (rest : List Char) :
    skipSpace (c :: rest) = c :: rest := by
  simp [skipSpace, h]

/-- A value is read back from the front of a text in which a number ends. -/
def ReadsBack (j : Json) : Prop :=
  ∀ fuel rest, (chars j).length ≤ fuel → EndsNumber rest →
    readValue fuel (chars j ++ rest) = some (j, rest)

theorem endsNumber_cons {c : Char} (h : c ∈ [',', ']', '\x7d']) (rest : List Char) :
    EndsNumber (c :: rest) := by
  have hcases : c = ',' ∨ c = ']' ∨ c = '\x7d' := by simpa using h
  intro d hd
  obtain rfl : c = d := by simpa using hd
  rcases hcases with rfl | rfl | rfl <;> decide

/-- Items that are read back one by one are read back together. -/
theorem readItems_chars {items : List Json} (hne : items ≠ [])
    (hitems : ∀ item ∈ items, item.ReadsBack) (fuel : Nat)
    (hfuel : (itemChars items).length < fuel) (found : List Json) (rest : List Char) :
    readItems fuel found (itemChars items ++ ']' :: rest) =
      some (found.reverse ++ items, rest) := by
  induction items generalizing fuel found with
  | nil => exact absurd rfl hne
  | cons item items ih =>
    obtain ⟨hitem, hrest⟩ := List.forall_mem_cons.1 hitems
    obtain ⟨fuel, rfl⟩ : ∃ n, fuel = n + 1 := ⟨fuel - 1, by omega⟩
    cases items with
    | nil =>
      rw [itemChars] at hfuel ⊢
      have hread := hitem fuel (']' :: rest) (by omega) (endsNumber_cons (by decide) rest)
      have hspace : skipSpace (']' :: rest) = ']' :: rest := skipSpace_cons (by decide) rest
      simp [readItems, hread, hspace]
    | cons next items =>
      rw [itemChars, List.length_append, List.length_cons] at hfuel
      have htail := ih (List.cons_ne_nil _ _) hrest fuel (by omega) (item :: found)
      have hread := hitem fuel (',' :: (itemChars (next :: items) ++ ']' :: rest)) (by omega)
        (endsNumber_cons (by decide) _)
      have hspace : skipSpace (',' :: (itemChars (next :: items) ++ ']' :: rest)) = _ :=
        skipSpace_cons (by decide) _
      rw [itemChars, List.append_assoc, List.cons_append]
      simp only [readItems, hread, hspace, htail]
      simp

section

variable {fuel : Nat} {name : String} {value : Json} {found : List (String × Json)}
  {more rest : List Char}

theorem quote_append (name : String) (more : List Char) :
    quote name ++ more = '"' :: (name.toList.flatMap escapeChar ++ '"' :: more) := by
  simp [quote]

/-- A field with another one after it. -/
theorem readFields_comma (h : readValue fuel more = some (value, ',' :: rest)) :
    readFields (fuel + 1) found (quote name ++ ':' :: more) =
      readFields fuel ((name, value) :: found) rest := by
  have hcolon : skipSpace (':' :: more) = ':' :: more := skipSpace_cons (by decide) more
  have hcomma : skipSpace (',' :: rest) = ',' :: rest := skipSpace_cons (by decide) rest
  rw [quote_append, readFields, skipSpace_cons (by decide)]
  simp only [readString_quote, hcolon, h, hcomma]

/-- The last field. -/
theorem readFields_brace (h : readValue fuel more = some (value, '\x7d' :: rest)) :
    readFields (fuel + 1) found (quote name ++ ':' :: more) =
      some (((name, value) :: found).reverse, rest) := by
  have hcolon : skipSpace (':' :: more) = ':' :: more := skipSpace_cons (by decide) more
  have hbrace : skipSpace ('\x7d' :: rest) = '\x7d' :: rest := skipSpace_cons (by decide) rest
  rw [quote_append, readFields, skipSpace_cons (by decide)]
  simp only [readString_quote, hcolon, h, hbrace]

end

/-- Fields whose values are read back one by one are read back together. -/
theorem readFields_chars {fields : List (String × Json)} (hne : fields ≠ [])
    (hfields : ∀ field ∈ fields, field.2.ReadsBack) (fuel : Nat)
    (hfuel : (fieldChars fields).length < fuel) (found : List (String × Json))
    (rest : List Char) :
    readFields fuel found (fieldChars fields ++ '\x7d' :: rest) =
      some (found.reverse ++ fields, rest) := by
  induction fields generalizing fuel found with
  | nil => exact absurd rfl hne
  | cons field fields ih =>
    obtain ⟨name, value⟩ := field
    obtain ⟨(hvalue : value.ReadsBack), hrest⟩ := List.forall_mem_cons.1 hfields
    obtain ⟨fuel, rfl⟩ : ∃ n, fuel = n + 1 := ⟨fuel - 1, by omega⟩
    cases fields with
    | nil =>
      rw [fieldChars, List.length_append, List.length_cons] at hfuel
      have hread := hvalue fuel ('\x7d' :: rest) (by omega) (endsNumber_cons (by decide) rest)
      rw [fieldChars, List.append_assoc, List.cons_append, readFields_brace hread]
      simp
    | cons next fields =>
      rw [fieldChars, List.length_append, List.length_cons, List.length_append,
        List.length_cons] at hfuel
      have hread := hvalue fuel (',' :: (fieldChars (next :: fields) ++ '\x7d' :: rest)) (by omega)
        (endsNumber_cons (by decide) _)
      rw [fieldChars, List.append_assoc, List.cons_append, List.append_assoc, List.cons_append,
        readFields_comma hread, ih (List.cons_ne_nil _ _) hrest fuel (by omega)]
      simp

theorem isSpace_of_isBetween {c : Char} (h : isBetween c = false) :
    isSpace c = false ∧ c ≠ ']' := by
  simpa [isBetween] using h

/-- A value that begins with a digit is a number without a sign. -/
theorem readValue_of_isDigit {c : Char} (hc : c.isDigit = true) (fuel : Nat) (cs : List Char) :
    readValue (fuel + 1) (c :: cs) = readUnsigned false (c :: cs) := by
  have hspace := skipSpace_cons (isSpace_of_isBetween (isBetween_of_isDigit hc)).1 cs
  rw [readValue, hspace]
  split <;> first | rfl | skip
  all_goals
    rename_i heq
    cases heq
    cases hc

/-- An integer is read back. -/
theorem readsBack_int (i : Int) : (Json.int i).ReadsBack := by
  intro fuel rest hfuel hrest
  obtain ⟨c, cs, hcs, -⟩ := exists_cons_chars (.int i)
  rw [hcs, List.length_cons] at hfuel
  obtain ⟨fuel, rfl⟩ : ∃ n, fuel = n + 1 := ⟨fuel - 1, by omega⟩
  rw [chars_int] at hcs ⊢
  split at hcs
  case isTrue hi =>
    have hread : readUnsigned true (Nat.toDigits 10 i.natAbs ++ rest) = _ :=
      readUnsigned_toDigits (by omega) hrest
    have hvalue : -(i.natAbs : Int) = i := by omega
    rw [if_pos hi, List.cons_append, readValue, skipSpace_cons (by decide)]
    simp only [hread, if_true, hvalue]
  case isFalse hi =>
    have hread : readUnsigned false (Nat.toDigits 10 i.natAbs ++ rest) = _ :=
      readUnsigned_toDigits (by simp) hrest
    have hmem : c ∈ Nat.toDigits 10 i.natAbs := by simp [hcs]
    have hdigit : c.isDigit = true := Text.isDigit_of_mem_toDigits hmem
    have hvalue : (i.natAbs : Int) = i := by omega
    rw [if_neg hi]
    rw [hcs, List.cons_append] at hread ⊢
    rw [readValue_of_isDigit hdigit, hread, if_neg Bool.false_ne_true, hvalue]

/-- An array is read back if its items are. -/
theorem readsBack_array {items : List Json} (hitems : ∀ item ∈ items, item.ReadsBack)
    (hfirst : ∀ item ∈ items, item.Integral) : (Json.array items).ReadsBack := by
  intro fuel rest hfuel _
  rw [chars, List.length_cons, List.length_append, List.length_singleton] at hfuel
  obtain ⟨fuel, rfl⟩ : ∃ n, fuel = n + 1 := ⟨fuel - 1, by omega⟩
  rw [chars, List.cons_append, readValue, skipSpace_cons (by decide), List.append_assoc]
  cases items with
  | nil => simp [itemChars, skipSpace_cons (c := ']') (by decide)]
  | cons item items =>
    have hread := readItems_chars (List.cons_ne_nil item items) hitems fuel (by omega) []
      rest
    obtain ⟨c, cs, hcs, hc⟩ := exists_cons_chars (hfirst item List.mem_cons_self)
    obtain ⟨hspace, hclose⟩ := isSpace_of_isBetween hc
    obtain ⟨cs', hitem⟩ : ∃ cs', itemChars (item :: items) = c :: cs' := by
      cases items <;> simp [itemChars, hcs]
    rw [hitem] at hread ⊢
    rw [List.cons_append] at hread ⊢
    simp only [List.singleton_append, skipSpace_cons hspace] at hread ⊢
    split
    · rename_i heq
      cases heq
      exact absurd rfl hclose
    · simp [hread]

/-- An object is read back if the values of its fields are. -/
theorem readsBack_object {fields : List (String × Json)}
    (hfields : ∀ field ∈ fields, field.2.ReadsBack) : (Json.object fields).ReadsBack := by
  intro fuel rest hfuel _
  rw [chars, List.length_cons, List.length_append, List.length_singleton] at hfuel
  obtain ⟨fuel, rfl⟩ : ∃ n, fuel = n + 1 := ⟨fuel - 1, by omega⟩
  rw [chars, List.cons_append, readValue, skipSpace_cons (by decide), List.append_assoc]
  cases fields with
  | nil => simp [fieldChars, skipSpace_cons (c := '\x7d') (by decide)]
  | cons field fields =>
    have hread := readFields_chars (List.cons_ne_nil field fields) hfields fuel (by omega)
      [] rest
    obtain ⟨cs, hfield⟩ : ∃ cs, fieldChars (field :: fields) = '"' :: cs := by
      cases fields <;> simp [fieldChars, quote]
    rw [hfield] at hread ⊢
    rw [List.cons_append] at hread ⊢
    simp only [List.singleton_append, skipSpace_cons (c := '"') (by decide)] at hread ⊢
    simp [hread]

/-- A value is read back from the front of any text in which a number ends. -/
theorem readValue_chars {j : Json} (h : j.Integral) : j.ReadsBack := by
  induction h with
  | int i => exact readsBack_int i
  | array hitems ih => exact readsBack_array ih hitems
  | object _ ih => exact readsBack_object ih
  | null =>
    intro fuel rest hfuel _
    obtain ⟨fuel, rfl⟩ : ∃ n, fuel = n + 1 := ⟨fuel - 1, by simp [chars] at hfuel; omega⟩
    simp [chars, readValue, skipSpace_cons (c := 'n') (by decide), dropWord]
  | bool b =>
    intro fuel rest hfuel _
    have hlength : 0 < (chars (.bool b)).length := by cases b <;> simp [chars]
    obtain ⟨fuel, rfl⟩ : ∃ n, fuel = n + 1 := ⟨fuel - 1, by omega⟩
    cases b
    · simp [chars, readValue, skipSpace_cons (c := 'f') (by decide), dropWord]
    · simp [chars, readValue, skipSpace_cons (c := 't') (by decide), dropWord]
  | str s =>
    intro fuel rest hfuel _
    rw [chars] at hfuel ⊢
    obtain ⟨fuel, rfl⟩ : ∃ n, fuel = n + 1 := ⟨fuel - 1, by simp [quote] at hfuel; omega⟩
    rw [quote_append, readValue, skipSpace_cons (by decide)]
    simp only [readString_quote]
    rfl

/-- The compact form of a value stands for the value. -/
theorem parse?_compact {j : Json} (h : j.Integral) : parse? j.compact = some j := by
  have hread := readValue_chars h (2 * j.compact.length + 2) [] (by simp [compact]; omega)
    endsNumber_nil
  rw [List.append_nil] at hread
  unfold parse?
  rw [compact, String.toList_ofList, ← compact, hread]
  rfl

end RobotScript.Json
