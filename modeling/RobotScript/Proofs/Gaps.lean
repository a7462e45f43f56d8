import RobotScript.Lexeme.Gap
import RobotScript.Proofs.Encoding

/-!
# What a gap takes

A gap is taken item by item, and ends where no item begins: before a word or at the end of the
source. All its items end before or after a byte below 128, so a gap ends where a character begins.

Results:

* `Gap.next?_eq_none_iff`: no item begins exactly before a byte that is no white space and opens no
  comment.
* `Gap.next?_cases`: the three ways in which an item is taken.
* `Gap.scan_of_next?_eq_some`, `Gap.scan_of_next?_eq_none`: a gap is its first item and the gap
  after it, or empty.
* `Gap.next?_scan`: no item begins after a gap.
* `Gap.isText_scan_fst`, `Gap.isText_scan_snd`: a gap at the front of a text is a text, and so is
  what follows it.
-/

namespace RobotScript.Gap

open Bytes (IsText)

/-! ## Where an item begins -/

/-- Whether bytes begin with white space or open a comment. -/
def begins : Bytes → Bool
  | [] => false
  | a :: rest => Word.isBlank a || a == slash && (rest.head? == some slash || rest.head? == some star)

theorem next?_eq_none_iff {s : Bytes} : next? s = none ↔ begins s = false := by
  cases s with
  | nil => simp [next?, begins]
  | cons a rest =>
    simp only [next?, begins]
    cases Word.isBlank a <;> cases a == slash <;> cases rest.head? == some slash <;>
      cases rest.head? == some star <;> simp

theorem isBlank_eq_false_of_begins {b : UInt8} {s : Bytes} (h : begins (b :: s) = false) :
    Word.isBlank b = false := by
  simp only [begins, Bool.or_eq_false_iff] at h
  exact h.1

/-- Bytes that begin no item begin none either when what follows them is changed to something that
does not make a lone slash the opening of a comment. -/
theorem begins_append_congr {w rest rest' : Bytes} (hw : w ≠ [])
    (h : begins (w ++ rest) = false) (hs : rest'.head? ≠ some slash)
    (hr : rest'.head? ≠ some star) : begins (w ++ rest') = false := by
  obtain ⟨a, w, rfl⟩ := List.exists_cons_of_ne_nil hw
  cases w with
  | nil =>
    simp only [begins, List.cons_append, List.nil_append, isBlank_eq_false_of_begins h] at h ⊢
    simp [hs, hr]
  | cons b w => simpa [begins] using h

/-! ## Items by their first bytes -/

theorem next?_blank {a : UInt8} (ha : Word.isBlank a = true) (s : Bytes) :
    next? (a :: s) = some (.blank (a :: s.takeWhile Word.isBlank), s.dropWhile Word.isBlank) := by
  rw [next?, if_pos ha]

theorem next?_line (s : Bytes) :
    next? (slash :: slash :: s) = some (.line ((slash :: slash :: s).takeWhile inLine),
      (slash :: slash :: s).dropWhile inLine) := rfl

theorem next?_block {s : Bytes} {n : Nat} {closed : Bool}
    (h : blockLength 0 (slash :: star :: s) = (n, closed)) :
    next? (slash :: star :: s) = some (.block ((slash :: star :: s).take n) closed,
      (slash :: star :: s).drop n) := by
  have hline : ¬(slash == slash && (star :: s).head? == some slash) = true := Bool.false_ne_true
  have hblock : (slash == slash && (star :: s).head? == some star) = true := rfl
  rw [next?, if_neg (by decide), if_neg hline, if_pos hblock, h]

/-- The three ways in which an item is taken. -/
theorem next?_cases {s rest : Bytes} {item : GapItem} (h : next? s = some (item, rest)) :
    (∃ a s', s = a :: s' ∧ Word.isBlank a = true ∧
      item = .blank (a :: s'.takeWhile Word.isBlank) ∧ rest = s'.dropWhile Word.isBlank) ∨
    (∃ s', s = slash :: slash :: s' ∧ item = .line (s.takeWhile inLine) ∧
      rest = s.dropWhile inLine) ∨
    (∃ s' n closed, s = slash :: star :: s' ∧ blockLength 0 s = (n, closed) ∧
      item = .block (s.take n) closed ∧ rest = s.drop n) := by
  cases s with
  | nil => cases h
  | cons a s =>
    simp only [next?] at h
    split at h
    · rename_i ha
      cases h
      exact Or.inl ⟨a, s, rfl, ha, rfl, rfl⟩
    · split at h
      · rename_i hopen
        simp only [Bool.and_eq_true, beq_iff_eq] at hopen
        obtain ⟨rfl, hhead⟩ := hopen
        obtain ⟨s', rfl⟩ := List.head?_eq_some_iff.1 hhead
        cases h
        exact Or.inr (Or.inl ⟨s', rfl, rfl, rfl⟩)
      · split at h
        · rename_i hopen
          simp only [Bool.and_eq_true, beq_iff_eq] at hopen
          obtain ⟨rfl, hhead⟩ := hopen
          obtain ⟨s', rfl⟩ := List.head?_eq_some_iff.1 hhead
          cases h
          exact Or.inr (Or.inr ⟨s', _, _, rfl, rfl, rfl, rfl⟩)
        · cases h

/-! ## Items one after the other -/

theorem scanOnto_of_eq_none {s : Bytes} (h : next? s = none) (found : List GapItem) :
    scanOnto found s = (found.reverse, s) := by
  rw [scanOnto]
  split
  · rfl
  · simp_all

theorem scanOnto_of_eq_some {s rest : Bytes} {item : GapItem} (h : next? s = some (item, rest))
    (found : List GapItem) : scanOnto found s = scanOnto (item :: found) rest := by
  rw [scanOnto]
  split
  · simp_all
  · rename_i h'
    rw [h] at h'
    cases h'
    rfl

/-- The items found before are in front of those that are found from here on. -/
theorem scanOnto_append_found (found before : List GapItem) (s : Bytes) :
    scanOnto (found ++ before) s =
      (before.reverse ++ (scanOnto found s).1, (scanOnto found s).2) := by
  fun_induction scanOnto found s with
  | case1 found s h => rw [scanOnto_of_eq_none h, List.reverse_append]
  | case2 found s item rest h ih => rw [scanOnto_of_eq_some h, ← List.cons_append, ih]

theorem scan_of_next?_eq_none {s : Bytes} (h : next? s = none) : scan s = ([], s) :=
  scanOnto_of_eq_none h []

theorem scan_of_next?_eq_some {s rest : Bytes} {item : GapItem} (h : next? s = some (item, rest)) :
    scan s = (item :: (scan rest).1, (scan rest).2) := by
  rw [scan, scanOnto_of_eq_some h, ← List.nil_append [item], scanOnto_append_found]
  rfl

/-- Nothing more can be taken after a gap. -/
theorem next?_scan (s : Bytes) : next? (scan s).2 = none := by
  unfold scan
  fun_induction scanOnto [] s with
  | case1 found s h => exact h
  | case2 found s item rest h ih => exact ih

/-! ## Where an item ends -/

theorem slash_lt : slash < 0x80 := by decide

theorem lt_of_isBlank {b : UInt8} (h : Word.isBlank b = true) : b < 0x80 := by
  have all : ∀ b ∈ Word.blankBytes, b < 0x80 := by decide +kernel
  exact all b (List.contains_iff_mem.1 h)

theorem startsCharacter_dropWhile_inLine (s : Bytes) :
    Bytes.startsCharacter (s.dropWhile inLine) = true := by
  cases h : s.dropWhile inLine with
  | nil => rfl
  | cons b rest =>
    have hb := List.head_dropWhile_not inLine (l := s) (by simp [h])
    simp only [h, List.head_cons, inLine, bne_eq_false_iff_eq] at hb
    rw [hb]
    exact Bytes.startsCharacter_of_lt (by decide)

/-- A block comment goes up to a star and a slash, or up to the end if there are none. -/
theorem drop_blockLength (taken : Nat) (s : Bytes) :
    (blockLength taken s).1 - taken = s.length ∨
      ∃ pre, s = pre ++ slash :: s.drop ((blockLength taken s).1 - taken) := by
  fun_induction blockLength taken s with
  | case1 => simp
  | case2 => simp
  | case3 taken a b rest h =>
    simp only [Bool.and_eq_true, beq_iff_eq] at h
    exact Or.inr ⟨[a], by simp [h.2]⟩
  | case4 taken a b rest h ih =>
    have hle := le_blockLength (taken + 1) (b :: rest)
    have hsub : (blockLength (taken + 1) (b :: rest)).1 - taken =
        (blockLength (taken + 1) (b :: rest)).1 - (taken + 1) + 1 := by omega
    rw [hsub, List.drop_succ_cons]
    rcases ih with hend | ⟨pre, hpre⟩
    · exact Or.inl (by rw [hend, List.length_cons (a := a)])
    · exact Or.inr ⟨a :: pre, by rw [List.cons_append, ← hpre]⟩

/-- What follows an item at the front of a text is a text. -/
theorem isText_of_next? {s rest : Bytes} {item : GapItem} (hs : IsText s)
    (h : next? s = some (item, rest)) : IsText rest := by
  have happ := next?_append h
  rcases next?_cases h with ⟨a, s, rfl, ha, rfl, rfl⟩ | ⟨s', rfl, rfl, rfl⟩ |
    ⟨s', n, closed, rfl, hn, rfl, rfl⟩
  · rw [← happ] at hs
    refine hs.of_forall_lt fun b hb => ?_
    rcases List.mem_cons.1 hb with rfl | hb
    · exact lt_of_isBlank ha
    · exact lt_of_isBlank (List.all_eq_true.1 List.all_takeWhile b hb)
  · rw [← happ] at hs
    exact (hs.of_append (startsCharacter_dropWhile_inLine _)).2
  · have hdrop := drop_blockLength 0 (slash :: star :: s')
    rw [hn, Nat.sub_zero] at hdrop
    rcases hdrop with hend | ⟨pre, hpre⟩
    · rw [List.drop_of_length_le (Nat.le_of_eq hend.symm)]
      exact IsText.nil
    · rw [hpre] at hs
      exact (hs.of_append (Bytes.startsCharacter_of_lt slash_lt)).2.tail_of_lt slash_lt

/-- What follows a gap at the front of a text is a text. -/
theorem isText_scan_snd {s : Bytes} (hs : IsText s) : IsText (scan s).2 := by
  unfold scan
  fun_induction scanOnto [] s with
  | case1 found s h => exact hs
  | case2 found s item rest h ih => exact ih (isText_of_next? hs h)

/-- The bytes of a gap at the front of a text are a text. -/
theorem isText_scan_fst {s : Bytes} (hs : IsText s) : IsText (bytes (scan s).1) := by
  rw [← scan_append s] at hs
  exact (hs.of_append (isText_scan_snd (by rwa [scan_append] at hs)).startsCharacter).1

end RobotScript.Gap
