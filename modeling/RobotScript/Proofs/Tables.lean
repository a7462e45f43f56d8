import RobotScript.Proofs.Constants
import RobotScript.Proofs.Loading
import RobotScript.Scanner

/-!
# What tables hold

No table has the empty text among its words: a category of keywords ends before it, and it is no
name for a constant. So the head of a source, which has no word, is in no table.

Results:

* `Keyword.knows_populate_iff`, `Keyword.lookup_empty`: the words that a loaded table knows.
* `Constant.Table.Named.resolve_empty`: the empty text is no name of a constant.
* `Vocabulary.classify_head`: the kind of the head of a source.
-/

namespace RobotScript

/-! ## Keywords -/

namespace Keyword

/-- A table knows just the spellings that are loaded: their ids are positive. -/
theorem knows_populate_iff {spellings : Spellings} {word : String} :
    (populate spellings).entries.knows word = true ↔
      word ∈ (populate spellings).entries.ordered.map Prod.fst := by
  rw [Entries.knows, decide_eq_true_iff]
  rcases Entries.lookup_eq_iff.1 (Eq.refl ((populate spellings).entries.lookup word)) with
    hmem | ⟨hid, hno⟩
  · have hrange := ((ordered_populate spellings).spelled _ hmem).2
    exact iff_of_true (by omega) (List.mem_map_of_mem hmem)
  · exact iff_of_false (by omega) hno

theorem lookup_eq_neg_one {entries : Entries} {word : String}
    (h : ∀ entry ∈ entries, entry.1 ≠ word) : entries.lookup word = -1 := by
  rw [Entries.lookup_eq_iff]
  refine Or.inr ⟨rfl, fun hmem => ?_⟩
  obtain ⟨entry, hentry, hword⟩ := List.mem_map.1 hmem
  exact h entry hentry hword

/-- The empty text is no keyword. -/
theorem lookup_empty (spellings : Spellings) : (populate spellings).entries.lookup "" = -1 :=
  lookup_eq_neg_one fun entry h => ((ordered_populate spellings).spelled entry h).1

end Keyword

/-! ## Constants -/

namespace Constant

theorem Table.Named.resolve_empty {t : Table} (h : t.Named) : t.resolve "" = none := by
  rw [Option.eq_none_iff_forall_ne_some]
  intro value hvalue
  exact h _ (Table.resolve_eq_some_iff.1 hvalue) rfl

end Constant

/-! ## Words and the head of a source -/

namespace Vocabulary

/-- The keywords of spellings, and the constants after commands on a table without any. -/
def afterCommands (spellings : Keyword.Spellings) (limit : Nat)
    (commands : List Constant.Command) : Vocabulary :=
  ⟨(Keyword.populate spellings).entries, .afterCommands limit commands⟩

variable {spellings : Keyword.Spellings} {limit : Nat} {commands : List Constant.Command}

/-- The head of a source is neither a keyword nor a constant. -/
theorem classify_head :
    (afterCommands spellings limit commands).classify true "" = (.leading, -1) := by
  have hconstants := (Constant.Table.named_afterCommands limit commands).resolve_empty
  simp only [classify, afterCommands, Keyword.lookup_empty, hconstants]
  rfl

end Vocabulary

end RobotScript
