import Mathlib.Data.List.Infix
import Mathlib.Order.Bounds.Defs
import RobotScript.Proofs.OpenStrings
import RobotScript.Proofs.Tiling
import RobotScript.Proofs.WholeWords

/-!
# How far numbers and operators go

A machine takes as many bytes as drive it on, so a number is the longest one of its grammar that
stands at its place, or the mark of hexadecimal numbers and all digits after it. An operator grows
byte by byte, and each step has to be a loaded spelling. This finds the longest loaded spelling only
if all parts that are on the way to one are loaded, too.

Results:

* `Word.exists_foldlM_take_iff`, `Word.le_operatorLength_iff`: how many bytes a machine and an
  operator take at least.
* `Word.frontNumber_take`: the number at the front of bytes.
* `Word.isGreatest_operatorLength`, `Keyword.frontOperator_take`: the operator at the front of
  bytes.
* `Scanner.At.takes_number`: numbers at all places in a source.
* `Scanner.At.takes_operator`: operators at all places in a source, for any keywords.
-/

namespace RobotScript

open Bytes (IsText startsCharacter)

/-- The longest of the parts at the front of bytes that have a property. -/
structure Bytes.IsLongest (P : Bytes → Prop) (s w : Bytes) : Prop where
  front : w <+: s
  holds : P w
  longest : ∀ u, u <+: s → P u → u.length ≤ w.length

namespace Word

/-! ## Machines -/

/-- A machine takes `n` bytes or more just if the first `n` drive it on. -/
theorem exists_foldlM_take_iff {σ : Type} (step : σ → UInt8 → Option σ) (state : σ) (taken : Nat)
    {s : Bytes} {n : Nat} (hn : n ≤ s.length) :
    (∃ next, (s.take n).foldlM step state = some next) ↔ taken + n ≤ munch step state taken s := by
  induction s generalizing state taken n with
  | nil =>
    obtain rfl := Nat.le_zero.1 hn
    exact iff_of_true ⟨state, rfl⟩ (Nat.le_refl _)
  | cons b s ih =>
    cases n with
    | zero => exact iff_of_true ⟨state, rfl⟩ (le_munch step state taken (b :: s))
    | succ n =>
      rw [List.take_succ_cons, List.foldlM_cons, munch]
      cases step state b with
      | none =>
        have hstop : ¬taken + (n + 1) ≤ taken := by omega
        refine iff_of_false ?_ hstop
        rintro ⟨next, hnext⟩
        cases hnext
      | some next =>
        have := ih next (taken + 1) (Nat.le_of_succ_le_succ hn)
        rw [show taken + (n + 1) = taken + 1 + n by omega, ← this]
        rfl

/-! ## Numbers -/

/-- The mark at the front of hexadecimal numbers. -/
def hexadecimalMark : Bytes := ['0', 'x'].map Bytes.ascii

/-- The machine among hexadecimal digits takes all of them. -/
theorem munch_hexadecimal (taken : Nat) (s : Bytes) :
    munch numberStep .hexadecimal taken s = taken + (s.takeWhile isHexDigit).length := by
  induction s generalizing taken with
  | nil => rfl
  | cons b s ih =>
    rw [munch, numberStep]
    cases hb : isHexDigit b with
    | false => simp [hb]
    | true =>
      simp only [if_true, ih, List.takeWhile_cons, hb, List.length_cons]
      omega

theorem numberLength_hexadecimal (s : Bytes) :
    numberLength (hexadecimalMark ++ s) = 2 + (s.takeWhile isHexDigit).length :=
  munch_hexadecimal 2 s

theorem numberLength_decimal {s : Bytes} (h : ¬hexadecimalMark <+: s) :
    numberLength s = munch numberStep (.decimal false false) 0 s := by
  match s with
  | [] => rfl
  | [_] => rfl
  | a :: b :: rest =>
    rw [numberLength, if_neg]
    intro hmark
    simp only [Bool.and_eq_true, beq_iff_eq] at hmark
    obtain ⟨rfl, rfl⟩ := hmark
    exact h ⟨rest, rfl⟩

/-- The bytes of a decimal number drive the machine on, and no others that begin with a digit do. -/
theorem exists_foldlM_decimal_iff {b : UInt8} {w : Bytes} (hb : isDigit b = true) :
    (∃ next, (b :: w).foldlM numberStep (.decimal false false) = some next) ↔
      IsDecimal (b :: w) := by
  rw [isDecimal_cons_iff hb]
  apply exists_foldlM_numberStep_iff
  simp

/-- The number at the front of bytes: the mark of hexadecimal numbers with all hexadecimal digits
after it, or else the longest decimal number. -/
inductive FrontNumber : Bytes → Bytes → Prop
  | hexadecimal {rest : Bytes} :
      FrontNumber (hexadecimalMark ++ rest) (hexadecimalMark ++ rest.takeWhile isHexDigit)
  | decimal {s w : Bytes} : ¬hexadecimalMark <+: s → Bytes.IsLongest IsDecimal s w →
      FrontNumber s w

theorem isDecimal_singleton {b : UInt8} (hb : isDigit b = true) : IsDecimal [b] := by
  have hnext : ∃ next, [b].foldlM numberStep (.decimal false false) = some next := by
    simp [numberStep, decimalStep, hb]
  exact (exists_foldlM_decimal_iff hb).1 hnext

/-- Without the mark, a number has as many bytes as are a decimal number. -/
theorem isDecimal_take_iff {b : UInt8} {s : Bytes} (hb : isDigit b = true)
    (hmark : ¬hexadecimalMark <+: b :: s) {n : Nat} (hn : n + 1 ≤ (b :: s).length) :
    IsDecimal (b :: s.take n) ↔ n + 1 ≤ numberLength (b :: s) := by
  have htake := exists_foldlM_take_iff numberStep (.decimal false false) 0 hn
  rw [List.take_succ_cons, exists_foldlM_decimal_iff hb, Nat.zero_add] at htake
  rw [htake, numberLength_decimal hmark]

/-- Without the mark, a number is the longest decimal one. -/
theorem isLongest_take_numberLength {b : UInt8} {s : Bytes} (hb : isDigit b = true)
    (hmark : ¬hexadecimalMark <+: b :: s) :
    Bytes.IsLongest IsDecimal (b :: s) ((b :: s).take (numberLength (b :: s))) := by
  have hle : numberLength (b :: s) ≤ (b :: s).length := by
    rw [numberLength_decimal hmark]
    simpa using munch_le numberStep (.decimal false false) 0 (b :: s)
  -- the digit at the front is a number, so the longest one has a byte
  have hone : 1 ≤ numberLength (b :: s) :=
    (isDecimal_take_iff hb hmark (Nat.le_add_left 1 _)).1 (isDecimal_singleton hb)
  obtain ⟨n, hn⟩ := Nat.exists_eq_add_of_le' hone
  refine ⟨List.take_prefix _ _, ?_, fun u hu hnumber => ?_⟩
  · rw [hn] at hle ⊢
    rw [List.take_succ_cons]
    exact (isDecimal_take_iff hb hmark hle).2 (Nat.le_of_eq hn.symm)
  · rw [List.length_take_of_le hle]
    obtain ⟨c, u, rfl, -⟩ := hnumber.digit
    obtain ⟨rfl, hu'⟩ := List.cons_prefix_cons.1 hu
    rw [List.prefix_iff_eq_take.1 hu'] at hnumber
    exact (isDecimal_take_iff hb hmark hu.length_le).1 hnumber

theorem frontNumber_take {b : UInt8} {s : Bytes} (hb : isDigit b = true) :
    FrontNumber (b :: s) ((b :: s).take (numberLength (b :: s))) := by
  by_cases hmark : hexadecimalMark <+: b :: s
  · obtain ⟨rest, hrest⟩ := hmark
    have htake : (hexadecimalMark ++ rest).take (2 + (rest.takeWhile isHexDigit).length) =
        hexadecimalMark ++ rest.takeWhile isHexDigit := by
      have hlen : hexadecimalMark.length = 2 := rfl
      rw [← hlen, List.take_length_add_append]
      have hdigits := List.prefix_iff_eq_take.1 (List.takeWhile_prefix (l := rest) isHexDigit)
      rw [← hdigits]
    rw [← hrest, numberLength_hexadecimal, htake]
    exact .hexadecimal
  · exact .decimal hmark (isLongest_take_numberLength hb hmark)

/-! ## Operators -/

/-- An operator grows by `n` bytes or more just if each step on the way there ends where a character
ends and is known. -/
theorem le_operatorLength_iff (known : Bytes → Bool) (taken : Bytes) {s : Bytes} {n : Nat}
    (hn : n ≤ s.length) : taken.length + n ≤ operatorLength known taken s ↔
      ∀ m, 1 ≤ m → m ≤ n →
        startsCharacter (s.drop m) = true ∧ known (taken ++ s.take m) = true := by
  induction s generalizing taken n with
  | nil =>
    obtain rfl := Nat.le_zero.1 hn
    refine iff_of_true (Nat.le_refl _) fun m hm hm' => ?_
    omega
  | cons b s ih =>
    cases n with
    | zero =>
      refine iff_of_true (le_operatorLength known taken (b :: s)) fun m hm hm' => ?_
      omega
    | succ n =>
      have ih := ih (taken ++ [b]) (Nat.le_of_succ_le_succ hn)
      rw [List.length_append, List.length_singleton] at ih
      rw [operatorLength]
      by_cases hb : (startsCharacter s && known (taken ++ [b])) = true
      · rw [if_pos hb, show taken.length + (n + 1) = taken.length + 1 + n by omega, ih]
        constructor
        · intro h m hm hm'
          obtain ⟨m, rfl⟩ := Nat.exists_eq_add_of_le' hm
          cases m with
          | zero => simpa using hb
          | succ m => simpa using h (m + 1) (by omega) (by omega)
        · intro h m hm hm'
          simpa using h (m + 1) (by omega) (by omega)
      · rw [if_neg hb]
        refine iff_of_false (by omega) fun h => hb ?_
        simpa using h 1 (Nat.le_refl 1) (by omega)

/-- An operator is as long as all of its parts of two bytes or more are known and end where a
character ends. -/
theorem isGreatest_operatorLength (known : Bytes → Bool) (b : UInt8) (s : Bytes) :
    IsGreatest {n | 1 ≤ n ∧ ∀ m, 2 ≤ m → m ≤ n → m ≤ (b :: s).length ∧
        startsCharacter ((b :: s).drop m) = true ∧ known ((b :: s).take m) = true}
      (operatorLength known [b] s) := by
  have hpos := le_operatorLength known [b] s
  have hle := operatorLength_le known [b] s
  rw [List.length_singleton] at hpos hle
  obtain ⟨k, hk⟩ := Nat.exists_eq_add_of_le hpos
  have hgrow {n : Nat} (hn : n ≤ s.length) := le_operatorLength_iff known [b] hn
  simp only [List.length_singleton] at hgrow
  constructor
  · refine ⟨hpos, fun m hm hm' => ⟨by rw [List.length_cons]; omega, ?_⟩⟩
    have hone : 1 ≤ m := by omega
    obtain ⟨m, rfl⟩ := Nat.exists_eq_add_of_le' hone
    have hlen : k ≤ s.length := by omega
    exact (hgrow hlen).1 (Nat.le_of_eq hk.symm) m (by omega) (by omega)
  · rintro n ⟨hn, hparts⟩
    obtain ⟨n, rfl⟩ := Nat.exists_eq_add_of_le' hn
    have hlen : n ≤ s.length := by
      by_contra hlt
      have := (hparts (n + 1) (by omega) (Nat.le_refl _)).1
      rw [List.length_cons] at this
      omega
    rw [Nat.add_comm]
    exact (hgrow hlen).2 fun m hm hm' => (hparts (m + 1) (by omega) (by omega)).2

end Word

/-! ## Words at places in a source -/

/-- The token of a word that stands for itself: its bytes are in the source from an offset on. -/
structure Token.IsVerbatim (source : String) (offset : Nat) (t : Token) (word : Bytes) : Prop where
  span_eq : t.span = ⟨offset, offset + word.length⟩
  word?_eq : t.word? source = some word
  text_eq : t.text = Bytes.toText word

namespace Scanner

variable {source : String} {s : Scanner} {b : UInt8}

/-- A call for a word takes one, which stands for itself unless it is quoted. -/
theorem At.exists_isVerbatim (v : Vocabulary) (h : At source s) (hb : b ∈ s.rest.head?)
    (hquote : b ≠ Word.quote) (hblank : Word.isBlank b = false) :
    ∃ t after, s.next? v false = some (t, after) ∧
      t.IsVerbatim source s.offset (s.rest.take (Word.length v.knows s.rest)) := by
  obtain ⟨r, hr⟩ := List.head?_eq_some_iff.1 hb
  have hend : s.offset ≠ source.utf8ByteSize := by
    rw [Ne, h.offset_eq_iff, hr]
    simp
  have hsome : s.next? v false ≠ none := mt h.next?_eq_none_iff.1 hend
  obtain ⟨⟨t, after⟩, hnext⟩ := Option.ne_none_iff_exists'.1 hsome
  obtain ⟨pre, l, rest, htake, hsource, hlen, ⟨hword, hsep, hrest⟩, rfl, -⟩ := h.exists_take hnext
  have hbytes : s.rest.take (Word.length v.knows s.rest) = l.word := by
    cases htake
    simp
  refine ⟨_, after, hnext, ?_⟩
  rw [hbytes]
  refine ⟨rfl, ?_, ?_⟩
  · rw [List.append_assoc pre] at hsource
    rw [← hlen]
    exact Vocabulary.word?_token hsource hword hsep hrest
  · obtain ⟨k, hk⟩ := Nat.exists_eq_add_of_le' (Word.length_pos v.knows b r hblank)
    have hfirst : l.word = b :: r.take k := by rw [← hbytes, hr, hk, List.take_succ_cons]
    have hdecode : Word.decode l.word = l.word := by
      rw [hfirst]
      exact Word.decode_cons_of_ne hquote _
    rw [Vocabulary.token, Lexeme.text, hdecode]

/-- Wherever a source has a digit, a call for a word takes the number there: the longest one that
the grammar has for what is left. -/
theorem At.takes_number (v : Vocabulary) (h : At source s) (hb : b ∈ s.rest.head?)
    (hdigit : Word.isDigit b = true) :
    ∃ t after word, s.next? v false = some (t, after) ∧ t.IsVerbatim source s.offset word ∧
      Word.FrontNumber s.rest word := by
  have hkind := Word.ofByte_eq_number_iff.2 hdigit
  have hquote : b ≠ Word.quote := by
    rintro rfl
    cases hdigit
  obtain ⟨t, after, hnext, hverbatim⟩ :=
    h.exists_isVerbatim v hb hquote (Word.isBlank_eq_false_of_ofByte_ne (by simp [hkind]))
  refine ⟨t, after, _, hnext, hverbatim, ?_⟩
  obtain ⟨r, hr⟩ := List.head?_eq_some_iff.1 hb
  rw [hr, Word.length]
  simp only [hkind]
  exact Word.frontNumber_take hdigit

/-- A point may follow the exponent, and a second exponent mark ends the number with the sign after
it. -/
theorem takes_number_with_exponent :
    let source := "é=1e5.3e+2"
    let s : Scanner := ⟨Bytes.ofText "1e5.3e+2", 3, 0, none⟩
    let one := Bytes.ascii '1'
    At source s ∧ one ∈ s.rest.head? ∧ Word.isDigit one = true ∧
      ∃ t after word, s.next? ⟨.empty, .empty⟩ false = some (t, after) ∧ t.text = "1e5.3" ∧
        t.IsVerbatim source s.offset word ∧ Word.FrontNumber s.rest word := by
  intro source s one
  have hat : At source s := by
    refine ⟨⟨Bytes.ofText "é=", ?_, ?_⟩, Bytes.isText_ofText _⟩
    · exact Text.ofText_append "é=" "1e5.3e+2"
    · decide +kernel
  have hone : one ∈ s.rest.head? := by decide +kernel
  have hdigit : Word.isDigit one = true := by decide
  obtain ⟨t, after, word, hnext, hverbatim, hnumber⟩ :=
    At.takes_number ⟨.empty, .empty⟩ hat hone hdigit
  have htext : (s.next? ⟨.empty, .empty⟩ false).map (fun taken => taken.1.text) = some "1e5.3" := by
    decide +kernel
  rw [hnext, Option.map_some, Option.some.injEq] at htext
  exact ⟨hat, hone, hdigit, t, after, word, hnext, htext, hverbatim, hnumber⟩

end Scanner

/-! ## Loaded spellings -/

namespace Keyword

/-- The bytes at an offset of a source, `m` of them, are a loaded spelling. -/
def Entries.SpellsAt (entries : Entries) (source : String) (offset m : Nat) : Prop :=
  ∃ entry ∈ entries, Text.slice? source offset (offset + m) = some entry.1

/-- The parts at the front of loaded spellings that begin like an operator are loaded, if they have
two bytes or more. -/
def Entries.ClosedUnderParts (entries : Entries) : Prop :=
  ∀ entry ∈ entries, (∃ b ∈ (Bytes.ofText entry.1).head?, Word.isOperator b = true) →
    ∀ u ∈ (Bytes.ofText entry.1).inits, 2 ≤ u.length → entries.Spells u

instance (entries : Entries) : Decidable entries.ClosedUnderParts :=
  inferInstanceAs (Decidable (∀ entry ∈ entries, _ → ∀ u ∈ _, _ → _))

/-- The operator at the front of bytes: the longest loaded spelling there, or just the first byte if
there is none. -/
inductive Entries.FrontOperator (entries : Entries) : Bytes → Bytes → Prop
  | loaded {s w : Bytes} : Bytes.IsLongest entries.Spells s w → FrontOperator entries s w
  | single {b : UInt8} {rest : Bytes} : (∀ u, u <+: b :: rest → ¬entries.Spells u) →
      FrontOperator entries (b :: rest) [b]

theorem Entries.ClosedUnderParts.spells_take {entries : Entries} (h : entries.ClosedUnderParts)
    {b : UInt8} {w : Bytes} (hw : entries.Spells (b :: w)) (hop : Word.isOperator b = true)
    {m : Nat} (hm : 2 ≤ m) (hm' : m ≤ (b :: w).length) : entries.Spells ((b :: w).take m) := by
  obtain ⟨entry, hentry, hbytes⟩ := hw
  have hlen : ((b :: w).take m).length = m := List.length_take_of_le hm'
  refine h entry hentry ?_ _ ?_ (by omega)
  · rw [hbytes]
    exact ⟨b, rfl, hop⟩
  · rw [hbytes]
    exact (List.mem_inits _ _).2 (List.take_prefix _ _)

variable {spellings : Spellings}

/-- Where a text has a part at its front that a table knows, which ends where a character ends. -/
theorem knows_take_iff {s : Bytes} (hs : IsText s) (m : Nat) :
    startsCharacter (s.drop m) = true ∧
        (populate spellings).entries.knows (Bytes.toText (s.take m)) = true ↔
      (populate spellings).entries.Spells (s.take m) := by
  rw [← List.take_append_drop m s] at hs
  constructor
  · rintro ⟨hstart, hknown⟩
    exact (knows_toText_iff (hs.of_append hstart).1).1 hknown
  · intro hspells
    exact ⟨(hs.right_of_append hspells.isText).startsCharacter,
      (knows_toText_iff hspells.isText).2 hspells⟩

/-- No spelling is empty, so one that stands at the front of bytes has their first byte. -/
theorem exists_cons_of_spells {b : UInt8} {s u : Bytes} (hu : u <+: b :: s)
    (hspells : (populate spellings).entries.Spells u) : ∃ w, u = b :: w := by
  obtain ⟨entry, hentry, rfl⟩ := hspells
  have hne : Bytes.ofText entry.1 ≠ [] := by
    intro hnil
    exact ((ordered_populate spellings).spelled entry hentry).1 (Text.ofText_injective hnil)
  obtain ⟨c, w, hw⟩ := List.exists_cons_of_ne_nil hne
  rw [hw] at hu ⊢
  exact ⟨w, by rw [(List.cons_prefix_cons.1 hu).1]⟩

/-- No loaded spelling is longer than an operator that grows as long as its parts are loaded, if all
parts on the way to a spelling are loaded. -/
theorem length_le_of_spells {b : UInt8} {s u : Bytes} {n : Nat} (hop : Word.isOperator b = true)
    (hclosed : (populate spellings).entries.ClosedUnderParts)
    (hn : IsGreatest {n | 1 ≤ n ∧ ∀ m, 2 ≤ m → m ≤ n → m ≤ (b :: s).length ∧
      (populate spellings).entries.Spells ((b :: s).take m)} n) (hu : u <+: b :: s)
    (hspells : (populate spellings).entries.Spells u) : u.length ≤ n := by
  obtain ⟨w, rfl⟩ := exists_cons_of_spells hu hspells
  refine hn.2 ⟨Nat.le_add_left 1 _, fun m hm hm' => ?_⟩
  have hpart := hclosed.spells_take hspells hop hm hm'
  rw [List.prefix_iff_eq_take.1 hu, List.take_take, Nat.min_eq_left hm'] at hpart
  exact ⟨Nat.le_trans hm' hu.length_le, hpart⟩

/-- An operator that grows as long as its parts are loaded is the longest loaded spelling if all
parts on the way to one are loaded. -/
theorem frontOperator_take {b : UInt8} {s : Bytes} {n : Nat} (hop : Word.isOperator b = true)
    (hclosed : (populate spellings).entries.ClosedUnderParts)
    (hn : IsGreatest {n | 1 ≤ n ∧ ∀ m, 2 ≤ m → m ≤ n → m ≤ (b :: s).length ∧
      (populate spellings).entries.Spells ((b :: s).take m)} n) :
    (populate spellings).entries.FrontOperator (b :: s) ((b :: s).take n) := by
  have hlongest := fun u => length_le_of_spells (u := u) hop hclosed hn
  obtain ⟨⟨hpos, hparts⟩, -⟩ := hn
  by_cases htwo : 2 ≤ n
  · obtain ⟨hle, hspells⟩ := hparts n htwo (Nat.le_refl n)
    refine .loaded ⟨List.take_prefix _ _, hspells, ?_⟩
    rw [List.length_take_of_le hle]
    exact hlongest
  · obtain rfl : n = 1 := by omega
    rw [List.take_succ_cons, List.take_zero]
    by_cases hb : (populate spellings).entries.Spells [b]
    · exact .loaded ⟨⟨s, rfl⟩, hb, hlongest⟩
    · refine .single fun u hu hspells => hb ?_
      -- a spelling of one byte at most can only be the first byte
      obtain ⟨w, rfl⟩ := exists_cons_of_spells hu hspells
      have hw : w.length = 0 := Nat.le_zero.1 (Nat.le_of_succ_le_succ (hlongest _ hu hspells))
      rwa [List.length_eq_zero_iff.1 hw] at hspells

end Keyword

namespace Scanner

variable {source : String} {s : Scanner} {spellings : Keyword.Spellings}

/-- When a text stands in a source from the place of the scanner on. -/
theorem At.slice?_eq_some_iff (h : At source s) {m : Nat} {word : String} :
    Text.slice? source s.offset (s.offset + m) = some word ↔
      m ≤ s.rest.length ∧ s.rest.take m = Bytes.ofText word := by
  obtain ⟨pre, hsplit, hlen⟩ := h.split
  have hrest := h.isText
  rw [← List.take_append_drop m s.rest] at hrest
  have hcut : Bytes.ofText source = pre ++ s.rest.take m ++ s.rest.drop m := by
    rw [List.append_assoc, List.take_append_drop, hsplit]
  have hslice (hm : m ≤ s.rest.length) (hstart : startsCharacter (s.rest.drop m) = true) :
      Text.slice? source s.offset (s.offset + m) = some (Bytes.toText (s.rest.take m)) := by
    have := Text.slice?_eq_some hcut hrest.startsCharacter hstart
    rwa [hlen, List.length_take_of_le hm] at this
  constructor
  · intro hword
    have hboundary : Text.isBoundary source (s.offset + m) = true := by
      unfold Text.slice? at hword
      split_ifs at hword with hends
      exact (Bool.and_eq_true_iff.1 hends).2
    obtain ⟨hle, hstart⟩ := (Text.isBoundary_iff _ _).1 hboundary
    have hm : m ≤ s.rest.length := by
      have := h.offset_add_length
      omega
    rw [hsplit, ← hlen, List.drop_length_add_append] at hstart
    rw [hslice hm hstart, Option.some.injEq] at hword
    rw [← hword, (hrest.of_append hstart).1.ofText_toText]
    exact ⟨hm, rfl⟩
  · rintro ⟨hm, hword⟩
    rw [hword] at hrest
    have hstart := (hrest.right_of_append (Bytes.isText_ofText word)).startsCharacter
    rw [hslice hm hstart, hword, Text.toText_ofText]

theorem At.spellsAt_iff (h : At source s) {entries : Keyword.Entries} {m : Nat} :
    entries.SpellsAt source s.offset m ↔ m ≤ s.rest.length ∧ entries.Spells (s.rest.take m) := by
  constructor
  · rintro ⟨entry, hentry, hslice⟩
    obtain ⟨hm, htake⟩ := h.slice?_eq_some_iff.1 hslice
    exact ⟨hm, entry, hentry, htake.symm⟩
  · rintro ⟨hm, entry, hentry, hbytes⟩
    exact ⟨entry, hentry, h.slice?_eq_some_iff.2 ⟨hm, hbytes.symm⟩⟩

/-- Wherever a source has the byte of an operator, a call for a word takes the operator there: as
many bytes as have all parts of two bytes or more loaded, whatever keywords there are. If all parts
of loaded operators are loaded, this is the longest loaded spelling. -/
theorem At.takes_operator {b : UInt8} (spellings : Keyword.Spellings) (constants : Constant.Table)
    (h : At source s) (hb : b ∈ s.rest.head?) (hop : Word.isOperator b = true) :
    let entries := (Keyword.populate spellings).entries
    ∃ t after word, s.next? ⟨entries, constants⟩ false = some (t, after) ∧
      t.IsVerbatim source s.offset word ∧
      IsGreatest {n | 1 ≤ n ∧ ∀ m, 2 ≤ m → m ≤ n → entries.SpellsAt source s.offset m}
        word.length ∧
      (entries.ClosedUnderParts → entries.FrontOperator s.rest word) := by
  intro entries
  have hkind := Word.ofByte_eq_operator_iff.2 hop
  have hquote : b ≠ Word.quote := by
    rintro rfl
    cases hop
  obtain ⟨t, after, hnext, hverbatim⟩ := h.exists_isVerbatim ⟨entries, constants⟩ hb hquote
    (Word.isBlank_eq_false_of_ofByte_ne (by simp [hkind]))
  obtain ⟨r, hr⟩ := List.head?_eq_some_iff.1 hb
  have htext := h.isText
  rw [hr] at htext hverbatim
  have hlength : Word.length (Vocabulary.knows ⟨entries, constants⟩) (b :: r) =
      Word.operatorLength (Vocabulary.knows ⟨entries, constants⟩) [b] r := by
    simp only [Word.length, hkind]
  have hgreatest := Word.isGreatest_operatorLength (Vocabulary.knows ⟨entries, constants⟩) b r
  simp only [Vocabulary.knows, entries, Keyword.knows_take_iff htext] at hgreatest
  refine ⟨t, after, _, hnext, hverbatim, ?_, fun hclosed => ?_⟩
  · rw [List.length_take_of_le (Word.length_le _ _), hlength]
    simp only [h.spellsAt_iff, hr]
    exact hgreatest
  · rw [hr, hlength]
    exact Keyword.frontOperator_take hop hclosed hgreatest

end Scanner

/-- Operators of two bytes and three, with just the longer parts at their fronts loaded. -/
def Keyword.arrows : Keyword.Spellings :=
  .ofLists fun c => if c = .operator then ["=>", "=>>", ">>"] else ["while"]

/-- The longest of the operators is taken though its first byte alone is none, and no more. -/
theorem Scanner.takes_operator_among_arrows :
    let source := "é=>>>"
    let s : Scanner := ⟨Bytes.ofText "=>>>", 2, 0, none⟩
    let equals := Bytes.ascii '='
    let entries := (Keyword.populate Keyword.arrows).entries
    At source s ∧ equals ∈ s.rest.head? ∧ Word.isOperator equals = true ∧
      entries.ClosedUnderParts ∧
      ∃ t after word, s.next? ⟨entries, .empty⟩ false = some (t, after) ∧ t.text = "=>>" ∧
        t.IsVerbatim source s.offset word ∧
        IsGreatest {n | 1 ≤ n ∧ ∀ m, 2 ≤ m → m ≤ n → entries.SpellsAt source s.offset m}
          word.length ∧
        entries.FrontOperator s.rest word := by
  intro source s equals entries
  have hat : At source s := by
    refine ⟨⟨Bytes.ofText "é", ?_, ?_⟩, Bytes.isText_ofText _⟩
    · exact Text.ofText_append "é" "=>>>"
    · decide +kernel
  have hequals : equals ∈ s.rest.head? := by decide +kernel
  have hop : Word.isOperator equals = true := by decide
  have hclosed : entries.ClosedUnderParts := by decide +kernel
  obtain ⟨t, after, word, hnext, hverbatim, hgreatest, hfront⟩ :=
    At.takes_operator Keyword.arrows .empty hat hequals hop
  have htext : (s.next? ⟨entries, .empty⟩ false).map (fun taken => taken.1.text) = some "=>>" := by
    decide +kernel
  rw [hnext, Option.map_some, Option.some.injEq] at htext
  exact ⟨hat, hequals, hop, hclosed, t, after, word, hnext, htext, hverbatim, hgreatest,
    hfront hclosed⟩

/-- The ellipsis is a standard keyword without a part of two points. -/
example : ¬(Keyword.populate Keyword.standard).entries.ClosedUnderParts := by decide +kernel

end RobotScript
