import RobotScript.Text.Blank
import RobotScript.Text.Decimal

/-!
# Integers written down

An integer is written with its decimal digits, after a minus sign if it is negative, and it is read
back. No digit is white space, and neither is the sign, so that trimming leaves it as it is.

Results:

* `Text.toList_toString`: the characters of an integer.
* `Text.trimChars_eq_self`: a text without white space at its ends.
* `Text.int64?_trim_toString`: an integer is read back, also from a trimmed text.
-/

namespace RobotScript.Text

/-- The characters of an integer. -/
theorem toList_toString (i : Int) : (toString i).toList =
    if i < 0 then '-' :: Nat.toDigits 10 i.natAbs else Nat.toDigits 10 i.natAbs := by
  rw [Int.toString_eq_repr, Int.repr_eq_if]
  by_cases hi : 0 ≤ i
  · rw [if_pos hi, if_neg (by omega), Nat.repr_eq_ofList_toDigits, String.toList_ofList,
      show i.toNat = i.natAbs by omega]
  · rw [if_neg hi, if_pos (by omega), Nat.repr_eq_ofList_toDigits, String.toList_append,
      String.toList_ofList, show (-i).toNat = i.natAbs by omega]
    simp

theorem isDigit_of_mem_toDigits {c : Char} {n : Nat} (h : c ∈ Nat.toDigits 10 n) :
    c.isDigit = true :=
  Nat.isDigit_of_mem_toDigits (by omega) (by omega) h

/-! ## White space around a text -/

theorem isBlank_of_isDigit {c : Char} (h : c.isDigit = true) : isBlank c = false := by
  simp only [Char.isDigit, Bool.and_eq_true, decide_eq_true_eq, ge_iff_le, UInt32.le_iff_toNat_le]
    at h
  have hlow : 48 ≤ c.toNat := h.1
  have hhigh : c.toNat ≤ 57 := h.2
  simp [isBlank]
  omega

/-- Characters with no white space at their ends are left by trimming as they are. -/
theorem trimChars_eq_self {cs : List Char} (hfirst : ∀ c ∈ cs.head?, isBlank c = false)
    (hlast : ∀ c ∈ cs.getLast?, isBlank c = false) : trimChars cs = cs := by
  have hdrop (ds : List Char) (h : ∀ c ∈ ds.head?, isBlank c = false) :
      ds.dropWhile isBlank = ds := by
    cases ds with
    | nil => rfl
    | cons d ds => rw [List.dropWhile_cons_of_neg (by simp [h d rfl])]
  rw [trimChars, hdrop cs hfirst, hdrop, List.reverse_reverse]
  rwa [List.head?_reverse]

theorem trim_toString (i : Int) : trim (toString i) = toString i := by
  have hblank : ∀ c ∈ (toString i).toList, isBlank c = false := by
    intro c hc
    rw [toList_toString] at hc
    split at hc
    · rcases List.mem_cons.1 hc with rfl | hc
      · rfl
      · exact isBlank_of_isDigit (isDigit_of_mem_toDigits hc)
    · exact isBlank_of_isDigit (isDigit_of_mem_toDigits hc)
  rw [trim, trimChars_eq_self, String.ofList_toList]
  · exact fun c hc => hblank c (List.mem_of_mem_head? hc)
  · exact fun c hc => hblank c (List.mem_of_mem_getLast? hc)

/-! ## Reading -/

theorem digits?_toDigits (n : Nat) : digits? (Nat.toDigits 10 n) = some n := by
  have hdigits : (Nat.toDigits 10 n).all Char.isDigit = true := by
    rw [List.all_eq_true]
    exact fun c hc => isDigit_of_mem_toDigits hc
  have hne : (Nat.toDigits 10 n).isEmpty = false := by
    simp [Nat.toDigits_ne_nil]
  have hvalue : Nat.ofDigitChars 10 (Nat.toDigits 10 n) 0 = n := Nat.ofDigitChars_ten_toDigits
  rw [digits?, hdigits, hne, Bool.not_true, Bool.or_false, if_neg Bool.false_ne_true]
  exact congrArg some hvalue

/-- A sign is no digit. -/
theorem ne_sign_of_isDigit {c : Char} (h : c.isDigit = true) : c ≠ '-' ∧ c ≠ '+' := by
  constructor <;>
  · rintro rfl
    cases h

/-- Without a sign, there are digits only. -/
theorem integer?_of_head? {cs : List Char} (h : ∀ c ∈ cs.head?, c ≠ '-' ∧ c ≠ '+') :
    integer? cs = (digits? cs).map Int.ofNat := by
  unfold integer?
  split
  · exact absurd rfl (h '-' rfl).1
  · exact absurd rfl (h '+' rfl).2
  · cases digits? cs <;> rfl

theorem integer?_plus_cons (cs : List Char) :
    integer? ('+' :: cs) = (digits? cs).map Int.ofNat := by
  rw [integer?]
  cases digits? cs <;> rfl

theorem integer?_neg_cons (cs : List Char) :
    integer? ('-' :: cs) = (digits? cs).map fun n => -Int.ofNat n := by
  rw [integer?]
  cases digits? cs <;> rfl

theorem integer?_toString (i : Int) : integer? (toString i).toList = some i := by
  rw [toList_toString]
  split
  · rw [integer?_neg_cons, digits?_toDigits, Option.map_some, Option.some.injEq,
      Int.ofNat_eq_natCast]
    omega
  · have hdigit : ∀ c ∈ (Nat.toDigits 10 i.natAbs).head?, c ≠ '-' ∧ c ≠ '+' :=
      fun c hc => ne_sign_of_isDigit (isDigit_of_mem_toDigits (List.mem_of_mem_head? hc))
    rw [integer?_of_head? hdigit, digits?_toDigits, Option.map_some, Option.some.injEq,
      Int.ofNat_eq_natCast]
    omega

/-- A 64-bit integer that is written down is read back. -/
theorem int64?_trim_toString {i : Int} (h : fitsInt64 i = true) :
    int64? (trim (toString i)) = some i := by
  rw [trim_toString, int64?, integer?_toString, Option.filter_some, if_pos h]

end RobotScript.Text
