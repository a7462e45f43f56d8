import Mathlib.Data.Nat.Digits.Lemmas
import RobotScript.Proofs.CommandLines
import RobotScript.Proofs.ListEnds

/-!
# Words that define constants

A word defines a constant if it has an equals sign and what stands after the first one is an integer
with a 64-bit form, apart from white space around it. An integer is written with decimal digits,
with any number of zeros before them and with one sign or none. What such a word looks like is said
here without the functions that read it, and the functions accept just these words.

Results:

* `Text.trimChars_eq_iff`: what is left of a text without the white space around it.
* `Text.digits?_eq_some_iff`, `Text.integer?_eq_some_iff`: the numerals, and what they stand for.
* `CommandLine.splitEquals_eq_some_iff`: the parts of a word around its first equals sign.
* `CommandLine.parseConstant_eq_error_iff`: the words that are refused, and with which error.
* `CommandLine.parseConstant_padded`: an integer with zeros before it is read if it fits.
* `CommandLine.parseConstant_accepts`: the words that define constants, with all of the limits.
-/

namespace RobotScript

/-! ## White space around a text -/

namespace Text

/-- Some characters are others with white space around them. -/
structure Stripped (cs inner : List Char) : Prop where
  around : ∃ before after, cs = before ++ inner ++ after ∧
    (∀ c ∈ before, isBlank c = true) ∧ ∀ c ∈ after, isBlank c = true
  first : ∀ c ∈ inner.head?, isBlank c = false
  last : ∀ c ∈ inner.getLast?, isBlank c = false

theorem trimChars_eq (cs : List Char) :
    trimChars cs = (cs.dropWhile isBlank).rdropWhile isBlank := rfl

/-- White space around a text does not change what is left of it. -/
theorem trimChars_append {before after : List Char} (inner : List Char)
    (hbefore : ∀ c ∈ before, isBlank c = true) (hafter : ∀ c ∈ after, isBlank c = true) :
    trimChars (before ++ inner ++ after) = trimChars inner := by
  rw [trimChars_eq, trimChars_eq, List.append_assoc, List.dropWhile_append_of_pos hbefore,
    List.dropWhile_append]
  split
  · next hempty =>
    rw [List.isEmpty_iff.1 hempty, List.dropWhile_eq_nil_iff.2 hafter]
  · exact rdropWhile_append hafter _

theorem stripped_trimChars (cs : List Char) : Stripped cs (trimChars cs) := by
  rw [trimChars_eq]
  constructor
  case around =>
    refine ⟨cs.takeWhile isBlank, (cs.dropWhile isBlank).rtakeWhile isBlank, ?_, ?_, ?_⟩
    · rw [List.append_assoc, List.rdropWhile_append_rtakeWhile, List.takeWhile_append_dropWhile]
    · exact fun c hc => List.mem_takeWhile_imp hc
    · exact fun c hc => List.mem_rtakeWhile_imp hc
  case first =>
    intro c hc
    -- what is left has the first character of what is left of the front
    obtain ⟨after, hafter⟩ := @List.rdropWhile_prefix _ isBlank (cs.dropWhile isBlank)
    have hhead : (cs.dropWhile isBlank).head? = some c := by
      rw [← hafter, List.head?_append, hc, Option.some_or]
    have hnot := List.head?_dropWhile_not isBlank cs
    rwa [hhead] at hnot
  case last =>
    intro c hc
    obtain ⟨hne, rfl⟩ := List.mem_getLast?_eq_getLast hc
    simpa using List.rdropWhile_last_not isBlank _ hne

/-- What is left of a text without the white space around it. -/
theorem trimChars_eq_iff {cs inner : List Char} : trimChars cs = inner ↔ Stripped cs inner := by
  constructor
  · rintro rfl
    exact stripped_trimChars cs
  · rintro ⟨⟨before, after, rfl, hbefore, hafter⟩, hfirst, hlast⟩
    rw [trimChars_append inner hbefore hafter, trimChars_eq_self hfirst hlast]

theorem trim_ofList_eq_iff {cs : List Char} {s : String} :
    trim (String.ofList cs) = s ↔ Stripped cs s.toList := by
  rw [trim, String.toList_ofList, ← trimChars_eq_iff, ← String.toList_inj, String.toList_ofList]

/-! ## Numerals -/

/-- The value of a digit. -/
def digitValue (c : Char) : Nat := c.toNat - '0'.toNat

/-- Characters are decimal digits, one at least, that stand for a number: the last digit counts
once, the one before it ten times, and so on. -/
structure IsNumeral (cs : List Char) (n : Nat) : Prop where
  ne_nil : cs ≠ []
  isDigit : ∀ c ∈ cs, c.isDigit = true
  value : Nat.ofDigits 10 (cs.reverse.map digitValue) = n

/-- Characters are a numeral for an integer, with one sign or none. -/
inductive IsInteger : List Char → Int → Prop
  | unsigned {cs : List Char} {n : Nat} : IsNumeral cs n → IsInteger cs n
  | plus {cs : List Char} {n : Nat} : IsNumeral cs n → IsInteger ('+' :: cs) n
  | minus {cs : List Char} {n : Nat} : IsNumeral cs n → IsInteger ('-' :: cs) (-n)

/-- Reading digits from the left gives the number that they stand for. -/
theorem foldl_digitValue (cs : List Char) :
    cs.foldl (fun n c => 10 * n + digitValue c) 0 =
      Nat.ofDigits 10 (cs.reverse.map digitValue) := by
  induction cs using List.reverseRecOn with
  | nil => rfl
  | append_singleton cs c ih =>
    rw [List.foldl_append, List.foldl_cons, List.foldl_nil, ih, List.reverse_append,
      List.reverse_singleton, List.singleton_append, List.map_cons, Nat.ofDigits_cons, Nat.add_comm]

theorem digits?_eq_some_iff {cs : List Char} {n : Nat} :
    digits? cs = some n ↔ IsNumeral cs n := by
  have hread : digits? cs = if cs.isEmpty || !cs.all Char.isDigit then none
      else some (Nat.ofDigits 10 (cs.reverse.map digitValue)) := by
    rw [← foldl_digitValue]
    rfl
  rw [hread]
  constructor
  · intro h
    split at h
    · cases h
    · next hdigits =>
      simp only [Bool.or_eq_true, List.isEmpty_iff, Bool.not_eq_true', not_or,
        Bool.not_eq_false, List.all_eq_true] at hdigits
      exact ⟨hdigits.1, hdigits.2, Option.some.inj h⟩
  · rintro ⟨hne, hdigits, rfl⟩
    rw [if_neg]
    simpa [hne] using hdigits

theorem IsNumeral.head?_ne {cs : List Char} {n : Nat} (h : IsNumeral cs n) :
    ∀ c ∈ cs.head?, c ≠ '-' ∧ c ≠ '+' :=
  fun c hc => ne_sign_of_isDigit (h.isDigit c (List.mem_of_mem_head? hc))

theorem integer?_eq_some_iff {cs : List Char} {i : Int} :
    integer? cs = some i ↔ IsInteger cs i := by
  constructor
  · intro h
    by_cases hsign : ∀ c ∈ cs.head?, c ≠ '-' ∧ c ≠ '+'
    · rw [integer?_of_head? hsign] at h
      obtain ⟨n, hn, rfl⟩ := Option.map_eq_some_iff.1 h
      exact .unsigned (digits?_eq_some_iff.1 hn)
    · cases cs with
      | nil => simp at hsign
      | cons c cs =>
        obtain rfl | rfl : c = '+' ∨ c = '-' := by simpa [imp_iff_or_not] using hsign
        · rw [integer?_plus_cons] at h
          obtain ⟨n, hn, rfl⟩ := Option.map_eq_some_iff.1 h
          exact .plus (digits?_eq_some_iff.1 hn)
        · rw [integer?_neg_cons] at h
          obtain ⟨n, hn, rfl⟩ := Option.map_eq_some_iff.1 h
          exact .minus (digits?_eq_some_iff.1 hn)
  · rintro (h | h | h)
    · rw [integer?_of_head? h.head?_ne, digits?_eq_some_iff.2 h]
      rfl
    · rw [integer?_plus_cons, digits?_eq_some_iff.2 h]
      rfl
    · rw [integer?_neg_cons, digits?_eq_some_iff.2 h]
      rfl

theorem fitsInt64_iff {i : Int} : fitsInt64 i = true ↔ -2 ^ 63 ≤ i ∧ i ≤ 2 ^ 63 - 1 := by
  rw [fitsInt64, Bool.and_eq_true, decide_eq_true_eq, decide_eq_true_eq]
  omega

theorem int64?_eq_some_iff {s : String} {i : Int} :
    int64? s = some i ↔ IsInteger s.toList i ∧ -2 ^ 63 ≤ i ∧ i ≤ 2 ^ 63 - 1 := by
  rw [int64?, Option.filter_eq_some_iff, integer?_eq_some_iff, fitsInt64_iff]

/-! ### Zeros before a numeral -/

/-- The characters of an integer with zeros before its digits. -/
def padded (zeros : Nat) (i : Int) : List Char :=
  (if i < 0 then ['-'] else []) ++ (List.replicate zeros '0' ++ Nat.toDigits 10 i.natAbs)

theorem isNumeral_padded (zeros n : Nat) :
    IsNumeral (List.replicate zeros '0' ++ Nat.toDigits 10 n) n := by
  obtain ⟨hne, hdigits, hvalue⟩ := digits?_eq_some_iff.1 (digits?_toDigits n)
  constructor
  case ne_nil => simp [hne]
  case isDigit =>
    intro c hc
    rcases List.mem_append.1 hc with hzero | hdigit
    · obtain rfl := List.eq_of_mem_replicate hzero
      rfl
    · exact hdigits c hdigit
  case value =>
    rw [List.reverse_append, List.reverse_replicate, List.map_append, List.map_replicate]
    exact (Nat.ofDigits_append_replicate_zero _).trans hvalue

theorem isInteger_padded (zeros : Nat) (i : Int) : IsInteger (padded zeros i) i := by
  have hnumeral := isNumeral_padded zeros i.natAbs
  unfold padded
  split
  · next hi =>
    have hminus := IsInteger.minus hnumeral
    rwa [show -(i.natAbs : Int) = i by omega] at hminus
  · next hi =>
    have hunsigned := IsInteger.unsigned hnumeral
    rwa [show (i.natAbs : Int) = i by omega] at hunsigned

/-- A numeral stands for one integer. -/
theorem IsInteger.unique {cs : List Char} {i j : Int} (hi : IsInteger cs i)
    (hj : IsInteger cs j) : i = j :=
  Option.some.inj ((integer?_eq_some_iff.2 hi).symm.trans (integer?_eq_some_iff.2 hj))

theorem IsInteger.isBlank_eq_false {cs : List Char} {i : Int} (h : IsInteger cs i) :
    ∀ c ∈ cs, isBlank c = false := by
  have hdigits {ds : List Char} {n : Nat} (hds : IsNumeral ds n) : ∀ c ∈ ds, isBlank c = false :=
    fun c hc => isBlank_of_isDigit (hds.isDigit c hc)
  cases h with
  | unsigned h => exact hdigits h
  | plus h => exact List.forall_mem_cons.2 ⟨rfl, hdigits h⟩
  | minus h => exact List.forall_mem_cons.2 ⟨rfl, hdigits h⟩

end Text

/-! ## Words -/

namespace CommandLine

open Text (Stripped IsInteger padded)

theorem splitEquals_eq_some_iff {cs front back : List Char} :
    splitEquals cs = some (front, back) ↔ cs = front ++ '=' :: back ∧ '=' ∉ front := by
  constructor
  · intro h
    unfold splitEquals at h
    split at h
    · cases h
    · next c value hdrop =>
      obtain ⟨rfl, rfl⟩ := Prod.mk.inj (Option.some.inj h)
      have hc : c = '=' := by
        have hnot := List.head?_dropWhile_not (fun c => decide (c ≠ '=')) cs
        rw [hdrop] at hnot
        simpa using hnot
      subst hc
      refine ⟨?_, fun hmem => by simpa using List.mem_takeWhile_imp hmem⟩
      rw [← hdrop, List.takeWhile_append_dropWhile]
  · rintro ⟨rfl, hfront⟩
    exact splitEquals_append hfront back

theorem splitEquals_eq_none_iff {cs : List Char} : splitEquals cs = none ↔ '=' ∉ cs := by
  constructor
  · intro h hmem
    obtain ⟨front, back, rfl, hfront⟩ := List.eq_append_cons_of_mem hmem
    rw [splitEquals_append hfront back] at h
    cases h
  · intro h
    cases hsplit : splitEquals cs with
    | none => rfl
    | some parts =>
      have hcs := (splitEquals_eq_some_iff.1 hsplit).1
      rw [hcs] at h
      simp at h

/-- A word defines a constant: a name stands before its first equals sign and an integer with a
64-bit form after it, each with white space around it. -/
def DefinesConstant (word name : String) (value : Int) : Prop :=
  ∃ front back inner, word.toList = front ++ '=' :: back ∧ '=' ∉ front ∧
    Stripped front name.toList ∧ Stripped back inner ∧ IsInteger inner value ∧
    -2 ^ 63 ≤ value ∧ value ≤ 2 ^ 63 - 1

/-- The words that are accepted, and what they define. -/
theorem parseConstant_eq_ok_iff {word name : String} {value : Int} :
    parseConstant word = .ok (name, value) ↔ DefinesConstant word name value := by
  constructor
  · intro h
    unfold parseConstant at h
    split at h
    · cases h
    · next front back hsplit =>
      split at h
      · cases h
      · next i hi =>
        obtain ⟨rfl, rfl⟩ := Prod.mk.inj (Except.ok.inj h)
        obtain ⟨hword, hfront⟩ := splitEquals_eq_some_iff.1 hsplit
        obtain ⟨hinteger, hfits⟩ := Text.int64?_eq_some_iff.1 hi
        exact ⟨front, back, _, hword, hfront, Text.trim_ofList_eq_iff.1 rfl,
          Text.trim_ofList_eq_iff.1 rfl, hinteger, hfits⟩
  · rintro ⟨front, back, inner, hword, hfront, hname, hback, hinteger, hfits⟩
    have hinner : Text.trim (String.ofList back) = String.ofList inner :=
      Text.trim_ofList_eq_iff.2 (by rwa [String.toList_ofList])
    have hvalue : Text.int64? (String.ofList inner) = some value :=
      Text.int64?_eq_some_iff.2 ⟨by rwa [String.toList_ofList], hfits⟩
    rw [parseConstant, hword, splitEquals_append hfront]
    simp only [hinner, hvalue, Text.trim_ofList_eq_iff.2 hname]

/-- The words that are refused: those without an equals sign, and those that define nothing. -/
theorem parseConstant_eq_error_iff {word : String} {e : OptionError} :
    parseConstant word = .error e ↔
      e = .noName word ∧ '=' ∉ word.toList ∨
        e = .noInteger word ∧ '=' ∈ word.toList ∧ ∀ name value, ¬DefinesConstant word name value := by
  have hdefines (name : String) (value : Int) :
      DefinesConstant word name value ↔ parseConstant word = .ok (name, value) :=
    parseConstant_eq_ok_iff.symm
  simp only [hdefines]
  unfold parseConstant
  split
  · next hsplit =>
    have hnone := splitEquals_eq_none_iff.1 hsplit
    simp [hnone, eq_comm]
  · next front back hsplit =>
    have hmem : '=' ∈ word.toList := by
      rw [(splitEquals_eq_some_iff.1 hsplit).1]
      simp
    split
    · simp [hmem, eq_comm]
    · simp [hmem]

/-- An integer that is written after an equals sign, with zeros before its digits, is the value of a
constant if it has a 64-bit form. If it has none, the word is refused. -/
theorem parseConstant_padded {name : String} (hname : '=' ∉ name.toList) (zeros : Nat) (i : Int) :
    let word := String.ofList (name.toList ++ '=' :: padded zeros i)
    parseConstant word =
      if -2 ^ 63 ≤ i ∧ i ≤ 2 ^ 63 - 1 then .ok (Text.trim name, i) else .error (.noInteger word) := by
  intro word
  have hword : word.toList = name.toList ++ '=' :: padded zeros i := String.toList_ofList
  have hinteger := Text.isInteger_padded zeros i
  have hpadded : Stripped (padded zeros i) (padded zeros i) := by
    have hblank := hinteger.isBlank_eq_false
    exact ⟨⟨[], [], by simp, by simp, by simp⟩, fun c hc => hblank c (List.mem_of_mem_head? hc),
      fun c hc => hblank c (List.mem_of_mem_getLast? hc)⟩
  split
  · next hfits =>
    have hstripped : Stripped name.toList (Text.trim name).toList := by
      rw [← Text.trimChars_eq_iff, Text.trim, String.toList_ofList]
    exact parseConstant_eq_ok_iff.2
      ⟨_, _, _, hword, hname, hstripped, hpadded, hinteger, hfits⟩
  · next hfits =>
    refine parseConstant_eq_error_iff.2 (.inr ⟨rfl, by simp [hword], ?_⟩)
    rintro name' value ⟨front, back, inner, hword', hfront, -, hback, hinner, hvalue⟩
    -- the word has one first equals sign, so the numeral after it is the one that was written
    have hsame := splitEquals_append hfront back
    rw [← hword', hword, splitEquals_append hname] at hsame
    obtain ⟨-, rfl⟩ := Prod.mk.inj (Option.some.inj hsame)
    obtain rfl : padded zeros i = inner :=
      (Text.trimChars_eq_iff.2 hpadded).symm.trans (Text.trimChars_eq_iff.2 hback)
    rw [hinteger.unique hinner] at hfits
    exact hfits hvalue

/-- A word defines a constant just if a name, an equals sign that is the first one and an integer
with a 64-bit form stand in it, with white space around the name and the integer. Zeros before the
digits do not matter: integers up to the limits are read, and those beyond are refused. -/
theorem parseConstant_accepts :
    (∀ word name value,
      parseConstant word = .ok (name, value) ↔ DefinesConstant word name value) ∧
    ∀ (name : String) (zeros : Nat) (i : Int), '=' ∉ name.toList →
      let word := String.ofList (name.toList ++ '=' :: padded zeros i)
      parseConstant word =
        if -2 ^ 63 ≤ i ∧ i ≤ 2 ^ 63 - 1 then .ok (Text.trim name, i)
        else .error (.noInteger word) :=
  ⟨fun _ _ _ => parseConstant_eq_ok_iff, fun _ zeros i hname => parseConstant_padded hname zeros i⟩

/-- White space of several kinds around a name and an integer, the two limits with zeros before
them, and their neighbours. -/
theorem parseConstant_accepts_limits :
    parseConstant "\u00a0Max\t=\u3000+020\n" = .ok ("Max", 20) ∧
    '=' ∉ " Max ".toList ∧
      parseConstant " Max =-009223372036854775808" = .ok ("Max", -9223372036854775808) ∧
      parseConstant " Max =009223372036854775807" = .ok ("Max", 9223372036854775807) ∧
      parseConstant " Max =-009223372036854775809" =
        .error (.noInteger " Max =-009223372036854775809") ∧
      parseConstant " Max =009223372036854775808" =
        .error (.noInteger " Max =009223372036854775808") := by
  have hplus : DefinesConstant "\u00a0Max\t=\u3000+020\n" "Max" 20 := by
    refine ⟨"\u00a0Max\t".toList, "\u3000+020\n".toList, "+020".toList, by decide, by decide,
      Text.trimChars_eq_iff.1 (by decide), Text.trimChars_eq_iff.1 (by decide), ?_, by decide,
      by decide⟩
    exact .plus ⟨by decide, List.all_eq_true.1 rfl, by decide⟩
  have hname : '=' ∉ " Max ".toList := by decide
  have hread := fun i => parseConstant_accepts.2 " Max " 2 i hname
  refine ⟨(parseConstant_accepts.1 _ _ _).2 hplus, hname, ?_, ?_, ?_, ?_⟩
  · exact hread (-9223372036854775808)
  · exact hread 9223372036854775807
  · exact hread (-9223372036854775809)
  · exact hread 9223372036854775808

end CommandLine

end RobotScript
