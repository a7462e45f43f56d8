import Mathlib.Data.List.Chain
import Mathlib.Tactic.MkIffOfInductiveProp
import RobotScript.Proofs.Words

/-!
# What a number is

The machine of numbers decides from byte to byte. Its decisions come to a grammar that speaks of a
number as a whole: how many points and exponent marks it has, and where its signs stand.

Results:

* `Word.exists_foldlM_numberStep_iff`: which bytes drive the machine on from a state.
* `Word.exists_numberRun_iff`: the machine takes exactly the words of the grammar.
-/

namespace RobotScript.Word

/-! ## The grammar -/

/-- What a byte can be in a decimal number. -/
inductive Numeral where
  | digit
  | point
  /-- The mark of an exponent. -/
  | mark
  | sign
  deriving DecidableEq

namespace Numeral

/-- What a byte is in a decimal number, if it can be in one. -/
def ofByte? (b : UInt8) : Option Numeral :=
  if isDigit b then some .digit
  else if b == Bytes.ascii '.' then some .point
  else if b == Bytes.ascii 'e' || b == Bytes.ascii 'E' then some .mark
  else if b == Bytes.ascii '+' || b == Bytes.ascii '-' then some .sign
  else none

/-- How many bytes are a numeral. -/
def count (n : Numeral) (w : Bytes) : Nat := w.countP fun b => ofByte? b == some n

/-- The bytes are digits, points, marks and signs, and each sign comes right after a mark. -/
structure Aligned (w : Bytes) : Prop where
  bytes : ∀ b ∈ w, ofByte? b ≠ none
  signs : w.IsChain fun a b => ofByte? b = some .sign → ofByte? a = some .mark

end Numeral

open Numeral (ofByte?)

/-- A decimal number begins with a digit. It has one point and one exponent mark at most, in any
order, and signs right after the mark only. -/
structure IsDecimal (w : Bytes) : Prop where
  digit : ∃ b rest, w = b :: rest ∧ isDigit b = true
  points : Numeral.count .point w ≤ 1
  marks : Numeral.count .mark w ≤ 1
  aligned : Numeral.Aligned w

/-- A hexadecimal number is a zero, the mark of hexadecimal numbers, and digits, if any. -/
def IsHexadecimal (w : Bytes) : Prop :=
  ∃ digits, w = Bytes.ascii '0' :: Bytes.ascii 'x' :: digits ∧ ∀ b ∈ digits, isHexDigit b = true

/-- A number in one of the two forms. -/
def IsNumber (w : Bytes) : Prop := IsHexadecimal w ∨ IsDecimal w

namespace Numeral

@[simp] theorem count_nil (n : Numeral) : count n [] = 0 := rfl

theorem count_cons (n : Numeral) (b : UInt8) (w : Bytes) :
    count n (b :: w) = count n w + if ofByte? b = some n then 1 else 0 := by
  simp [count, List.countP_cons]

theorem aligned_nil : Aligned [] := ⟨nofun, .nil⟩

theorem aligned_cons_iff {b : UInt8} {w : Bytes} : Aligned (b :: w) ↔
    ofByte? b ≠ none ∧ (∀ c ∈ w.head?, ofByte? c = some .sign → ofByte? b = some .mark) ∧
      Aligned w := by
  constructor
  · rintro ⟨hbytes, hsigns⟩
    rw [List.forall_mem_cons] at hbytes
    rw [List.isChain_cons] at hsigns
    exact ⟨hbytes.1, hsigns.1, hbytes.2, hsigns.2⟩
  · rintro ⟨hb, hfront, hbytes, hsigns⟩
    exact ⟨List.forall_mem_cons.2 ⟨hb, hbytes⟩, List.isChain_cons.2 ⟨hfront, hsigns⟩⟩

theorem ofByte?_of_isDigit {b : UInt8} (h : isDigit b = true) : ofByte? b = some .digit := if_pos h

end Numeral

/-! ## The machine -/

namespace NumberState

/-- Whether there was a point. -/
def hasPoint : NumberState → Bool
  | .decimal point _ | .sign point => point
  | .hexadecimal => false

/-- Whether there was an exponent mark. -/
def hasMark : NumberState → Bool
  | .decimal _ exponent => exponent
  | .sign _ => true
  | .hexadecimal => false

/-- Whether the byte before was the exponent mark. -/
def isSign : NumberState → Bool
  | .sign _ => true
  | _ => false

theorem hasMark_of_isSign {state : NumberState} (h : state.isSign = true) :
    state.hasMark = true := by
  cases state with
  | sign => rfl
  | decimal => cases h
  | hexadecimal => cases h

/-- What may follow a state among decimal digits: no more points and marks than one of each with
those before, and no sign in front unless the mark is right before it. -/
@[mk_iff] structure Continues (state : NumberState) (w : Bytes) : Prop where
  points : Numeral.count .point w + state.hasPoint.toNat ≤ 1
  marks : Numeral.count .mark w + state.hasMark.toNat ≤ 1
  front : ∀ b ∈ w.head?, ofByte? b = some .sign → state.isSign = true
  aligned : Numeral.Aligned w

end NumberState

theorem decimalStep_eq (point exponent : Bool) (b : UInt8) :
    decimalStep point exponent b =
      match ofByte? b with
      | some .digit => some (.decimal point exponent)
      | some .point => if point then none else some (.decimal true exponent)
      | some .mark => if exponent then none else some (.sign point)
      | _ => none := by
  unfold decimalStep ofByte?
  by_cases hdigit : isDigit b = true
  · rw [if_pos hdigit, if_pos hdigit]
  rw [if_neg hdigit, if_neg hdigit]
  by_cases hpoint : (b == Bytes.ascii '.') = true
  · have hb : b = Bytes.ascii '.' := beq_iff_eq.1 hpoint
    subst hb
    cases point <;> rfl
  rw [if_neg hpoint]
  by_cases hmark : (b == Bytes.ascii 'e' || b == Bytes.ascii 'E') = true
  · rw [if_pos hmark]
    cases exponent <;> simp [hpoint, hmark]
  · rw [if_neg hmark]
    rw [Bool.not_eq_true] at hpoint hmark
    simp only [hpoint, hmark, Bool.false_and, Bool.false_eq_true, if_false]
    cases b == Bytes.ascii '+' || b == Bytes.ascii '-' <;> rfl

/-- The machine among decimal digits, by what a byte is in a decimal number. -/
theorem numberStep_eq {state : NumberState} (h : state ≠ .hexadecimal) (b : UInt8) :
    numberStep state b =
      match ofByte? b with
      | some .digit => some (.decimal state.hasPoint state.hasMark)
      | some .point => if state.hasPoint then none else some (.decimal true state.hasMark)
      | some .mark => if state.hasMark then none else some (.sign state.hasPoint)
      | some .sign => if state.isSign then some (.decimal state.hasPoint true) else none
      | none => none := by
  cases state with
  | decimal point exponent =>
    rw [numberStep, decimalStep_eq]
    cases ofByte? b with
    | none => rfl
    | some n => cases n <;> rfl
  | sign point =>
    by_cases hsign : (b == Bytes.ascii '+' || b == Bytes.ascii '-') = true
    · have hb : ofByte? b = some .sign := by
        rcases Bool.or_eq_true_iff.1 hsign with h | h <;> rw [beq_iff_eq.1 h] <;> rfl
      rw [numberStep, if_pos hsign, hb]
      rfl
    · have hb : ofByte? b ≠ some .sign := by
        unfold ofByte?
        rw [if_neg hsign]
        split_ifs <;> simp
      rw [numberStep, if_neg hsign, decimalStep_eq]
      cases hn : ofByte? b with
      | none => rfl
      | some n =>
        cases n with
        | sign => exact absurd hn hb
        | _ => rfl
  | hexadecimal => exact absurd rfl h

/-- The bytes that drive the machine on from a state among decimal digits. -/
theorem exists_foldlM_numberStep_iff {state : NumberState} (h : state ≠ .hexadecimal) (w : Bytes) :
    (∃ next, w.foldlM numberStep state = some next) ↔ state.Continues w := by
  induction w generalizing state with
  | nil =>
    have hpoint : Numeral.count .point [] + state.hasPoint.toNat ≤ 1 := by
      rw [Numeral.count_nil, Nat.zero_add]
      exact Bool.toNat_le _
    have hmark : Numeral.count .mark [] + state.hasMark.toNat ≤ 1 := by
      rw [Numeral.count_nil, Nat.zero_add]
      exact Bool.toNat_le _
    exact iff_of_true ⟨state, rfl⟩ ⟨hpoint, hmark, nofun, Numeral.aligned_nil⟩
  | cons b w ih =>
    have decimal (point exponent : Bool) :
        (∃ next, w.foldlM numberStep (.decimal point exponent) = some next) ↔
          (NumberState.decimal point exponent).Continues w := ih nofun
    have sign (point : Bool) : (∃ next, w.foldlM numberStep (.sign point) = some next) ↔
        (NumberState.sign point).Continues w := ih nofun
    simp only [NumberState.continues_iff, NumberState.hasPoint, NumberState.hasMark,
      NumberState.isSign] at decimal sign
    rw [List.foldlM_cons, numberStep_eq h, NumberState.continues_iff, Numeral.count_cons,
      Numeral.count_cons, Numeral.aligned_cons_iff]
    -- what `b` counts for and what it lets follow is what the state after it says
    cases hb : ofByte? b with
    | none => simp
    | some n =>
      cases n with
      | digit => simp [decimal, hb]
      | point => cases state.hasPoint <;> simp [decimal, hb]
      | mark => cases state.hasMark <;> simp [sign, hb]
      | sign =>
        cases hs : state.isSign with
        | false => simp [hb]
        | true => simp [decimal, NumberState.hasMark_of_isSign hs]

/-- After the digit at its front, a decimal number goes on like any digits. -/
theorem isDecimal_cons_iff {b : UInt8} {w : Bytes} (hb : isDigit b = true) :
    IsDecimal (b :: w) ↔ (NumberState.decimal false false).Continues (b :: w) := by
  have hdigit := Numeral.ofByte?_of_isDigit hb
  constructor
  · rintro ⟨-, hpoints, hmarks, haligned⟩
    refine ⟨hpoints, hmarks, fun c hc hsign => ?_, haligned⟩
    cases hc
    rw [hdigit] at hsign
    cases hsign
  · rintro ⟨hpoints, hmarks, -, haligned⟩
    exact ⟨⟨b, w, rfl, hb⟩, hpoints, hmarks, haligned⟩

theorem exists_foldlM_hexadecimal_iff {w : Bytes} :
    (∃ next, w.foldlM numberStep .hexadecimal = some next) ↔ ∀ b ∈ w, isHexDigit b = true := by
  induction w with
  | nil => simp
  | cons b w ih =>
    rw [List.foldlM_cons, List.forall_mem_cons, ← ih]
    cases hb : isHexDigit b <;> simp [numberStep, hb]

/-- A word that begins with a digit is a number for the machine if it is one of the grammar. -/
theorem exists_numberRun_iff {b : UInt8} {w : Bytes} (hb : isDigit b = true) :
    (∃ state, numberRun (b :: w) = some state) ↔ IsNumber (b :: w) := by
  have decimal : (∃ state, (b :: w).foldlM numberStep (.decimal false false) = some state) ↔
      IsDecimal (b :: w) := by
    rw [isDecimal_cons_iff hb]
    apply exists_foldlM_numberStep_iff
    simp
  cases w with
  | nil =>
    have hnot : ¬IsHexadecimal [b] := by simp [IsHexadecimal]
    rw [IsNumber, or_iff_right hnot]
    exact decimal
  | cons c w =>
    rw [numberRun]
    by_cases hx : (b == Bytes.ascii '0' && c == Bytes.ascii 'x') = true
    · obtain ⟨h0, hx'⟩ := Bool.and_eq_true_iff.1 hx
      obtain rfl := beq_iff_eq.1 h0
      obtain rfl := beq_iff_eq.1 hx'
      have hnot : ¬IsDecimal (Bytes.ascii '0' :: Bytes.ascii 'x' :: w) := fun h =>
        h.aligned.bytes (Bytes.ascii 'x') (by simp) rfl
      rw [if_pos hx, exists_foldlM_hexadecimal_iff, IsNumber, or_iff_left hnot]
      simp [IsHexadecimal]
    · have hnot : ¬IsHexadecimal (b :: c :: w) := by
        rintro ⟨digits, heq, -⟩
        cases heq
        exact hx rfl
      rw [if_neg hx, decimal, IsNumber, or_iff_right hnot]

end RobotScript.Word
