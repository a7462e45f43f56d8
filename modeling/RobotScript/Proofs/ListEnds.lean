import Mathlib.Data.List.DropRight

/-!
# Ends of lists

A list is cut before the longest part at its end whose members all have a property. Members that are
added to its end with the property do not move the cut, and a member without it fixes the cut.
-/

namespace RobotScript.Text

variable {α : Type} {p : α → Bool} {back : List α} {c : α}

theorem rdropWhile_append (h : ∀ c ∈ back, p c = true) (front : List α) :
    (front ++ back).rdropWhile p = front.rdropWhile p := by
  rw [List.rdropWhile, List.reverse_append, List.dropWhile_append_of_pos]
  · rfl
  · intro c hc
    exact h c (List.mem_reverse.1 hc)

theorem rdropWhile_append_cons (hc : p c = false) (front back : List α) :
    (front ++ c :: back).rdropWhile p = front ++ c :: back.rdropWhile p := by
  induction back using List.reverseRecOn with
  | nil => exact List.rdropWhile_concat_neg _ _ _ (by simp [hc])
  | append_singleton back x ih =>
    rw [← List.cons_append, ← List.append_assoc]
    by_cases hx : p x = true
    · rw [List.rdropWhile_concat_pos _ _ _ hx, List.rdropWhile_concat_pos _ _ _ hx, ih]
    · rw [List.rdropWhile_concat_neg _ _ _ hx, List.rdropWhile_concat_neg _ _ _ hx,
        List.append_assoc, List.cons_append]

theorem rtakeWhile_append_cons (hc : p c = false) (h : ∀ c ∈ back, p c = true) (front : List α) :
    (front ++ c :: back).rtakeWhile p = back := by
  have hback : ∀ c ∈ back.reverse, p c = true := fun c hc => h c (List.mem_reverse.1 hc)
  rw [List.rtakeWhile, List.reverse_append, List.reverse_cons, List.append_assoc,
    List.takeWhile_append_of_pos hback, List.singleton_append, List.takeWhile_cons_of_neg,
    List.append_nil, List.reverse_reverse]
  simp [hc]

/-- Before the part at the end of a list stands a member without the property, or nothing. -/
theorem rtakeWhile_eq_self_or_exists (p : α → Bool) (cs : List α) :
    cs.rtakeWhile p = cs ∨ ∃ front c, p c = false ∧ cs = front ++ c :: cs.rtakeWhile p := by
  have hcs : cs.rdropWhile p ++ cs.rtakeWhile p = cs := List.rdropWhile_append_rtakeWhile
  by_cases hne : cs.rdropWhile p = []
  · rw [hne, List.nil_append] at hcs
    exact .inl hcs
  · refine .inr ⟨(cs.rdropWhile p).dropLast, (cs.rdropWhile p).getLast hne, ?_, ?_⟩
    · simpa using List.rdropWhile_last_not p cs hne
    · rw [List.append_cons, List.dropLast_append_getLast, hcs]

end RobotScript.Text
