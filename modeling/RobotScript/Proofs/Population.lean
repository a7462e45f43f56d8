import Mathlib.Data.List.DropRight
import RobotScript.Proofs.Loading

/-!
# When a keyword table asks for spellings

A table asks for spellings when a command first needs its keywords, and again when a command first
needs them after a reset. Each time it asks for the same ids: in each category up to the first id
without a spelling, whether or not there is still room for keywords. No other command asks for
anything, and what is answered from the keywords does not show whether there were resets.

Results:

* `Keyword.asked_populate`: the ids that are asked for.
* `Keyword.populate_congr`: what is loaded and reported follows from the spellings of these ids.
* `Keyword.Table.Faithful.effects_run`: what a command asks for and reports.
* `Keyword.Table.isPopulated_afterCommands`, `Keyword.Table.Faithful.asked_eq`: what the commands
  before it say about a table, and what it asks for in all.
* `Keyword.Table.asksOnce_afterCommands`: all of this for a table after any commands.
-/

namespace RobotScript.Keyword

/-! ## The ids that are asked for -/

/-- The ids whose spellings show all keywords on offer: in each category, those before which every
id of the category has a spelling. -/
def enumerated (spellings : Spellings) : List Int :=
  Category.all.flatMap fun c =>
    ((List.range categoryWidth).filter fun (i : Nat) => ∀ j < i, spellings (c.base + j) ≠ "").map
      fun (i : Nat) => c.base + i

theorem filter_range_forall_lt (p : Nat → Bool) (n : Nat) :
    ((List.range n).filter fun i => ∀ j < i, p j = true) =
      (List.range n).take (((List.range n).takeWhile p).length + 1) := by
  induction n with
  | zero => rfl
  | succ n ih =>
    rw [List.range_succ, List.filter_append, ih]
    by_cases hall : ∀ j < n, p j = true
    · have hrange : (List.range n).takeWhile p = List.range n :=
        List.takeWhile_eq_self_iff.2 fun j hj => hall j (List.mem_range.1 hj)
      rw [hrange, List.takeWhile_append_of_pos fun j hj => hall j (List.mem_range.1 hj),
        List.take_of_length_le (by simp), List.take_of_length_le (by simp)]
      simpa using hall
    · -- an id without a spelling ends both lists before the last id
      have hlt : ((List.range n).takeWhile p).length < (List.range n).length := by
        refine (List.takeWhile_prefix p).length_le.lt_of_ne fun hlength => hall fun j hj => ?_
        have hrange := (List.takeWhile_prefix p).eq_of_length hlength
        exact List.takeWhile_eq_self_iff.1 hrange j (List.mem_range.2 hj)
      rw [List.takeWhile_append, if_neg hlt.ne, List.take_append_of_le_length hlt]
      simp [hall]

theorem askedFor_eq (spellings : Spellings) (c : Category) :
    askedFor spellings c =
      ((List.range categoryWidth).filter fun (i : Nat) =>
        ∀ j < i, spellings (c.base + j) ≠ "").map fun (i : Nat) => c.base + i := by
  have hfilter := filter_range_forall_lt (fun (i : Nat) => spellings (c.base + i) != "")
    categoryWidth
  simp only [bne_iff_ne] at hfilter
  rw [hfilter, askedFor, offered, Category.ids, List.map_map, List.takeWhile_map, List.length_map,
    List.map_take]
  rfl

/-- Loading asks for the ids whose spellings show all keywords on offer, also when the table is
full. -/
theorem asked_populate (spellings : Spellings) :
    (populate spellings).asked = enumerated spellings :=
  congrArg (List.flatMap · Category.all) (funext (askedFor_eq spellings))

theorem takeWhile_congr_of_take {α : Type} {p q : α → Bool} {l : List α}
    (h : ∀ a ∈ l.take ((l.takeWhile p).length + 1), q a = p a) : l.takeWhile q = l.takeWhile p := by
  induction l with
  | nil => rfl
  | cons a l ih =>
    have ha := h a List.mem_cons_self
    rw [List.takeWhile_cons, List.takeWhile_cons, ha]
    cases hp : p a with
    | false => rfl
    | true =>
      rw [List.takeWhile_cons, hp] at h
      exact congrArg (a :: ·) (ih fun b hb => h b (List.mem_cons_of_mem a hb))

variable {spellings other : Spellings}

theorem offered_eq (spellings : Spellings) (c : Category) :
    offered spellings c =
      (c.ids.takeWhile fun id => spellings id != "").map fun id => (spellings id, id) := by
  rw [offered, List.takeWhile_map]
  rfl

/-- Spellings that agree on the ids that are asked for offer the same keywords. -/
theorem offered_congr {c : Category} (h : ∀ id ∈ askedFor spellings c, other id = spellings id) :
    offered other c = offered spellings c := by
  have hasked : askedFor spellings c =
      c.ids.take ((c.ids.takeWhile fun id => spellings id != "").length + 1) := by
    rw [askedFor, offered_eq, List.length_map]
  rw [hasked] at h
  rw [offered_eq, offered_eq, takeWhile_congr_of_take fun id hid => by rw [h id hid]]
  refine List.map_congr_left fun id hid => ?_
  have hbefore : id ∈ c.ids.take (c.ids.takeWhile fun id => spellings id != "").length := by
    rwa [← List.prefix_iff_eq_take.1 (List.takeWhile_prefix _)]
  rw [h id (List.take_subset_take_left _ (Nat.le_succ _) hbefore)]

/-- What is loaded, asked for and reported follows from the spellings of the ids that are asked
for. -/
theorem populate_congr (h : ∀ id ∈ enumerated spellings, other id = spellings id) :
    populate other = populate spellings := by
  have hoffered (c : Category) : offered other c = offered spellings c := by
    refine offered_congr fun id hid => h id ?_
    rw [← asked_populate]
    exact List.mem_flatMap.2 ⟨c, by cases c <;> decide, hid⟩
  have hadd : Loading.addCategory other = Loading.addCategory spellings := by
    funext l c
    rw [Loading.addCategory, Loading.addCategory, hoffered]
  have hasked : askedFor other = askedFor spellings := by
    funext c
    rw [askedFor, askedFor, hoffered]
  rw [populate, populate, hadd, hasked]

/-! ## Commands -/

namespace Table

variable {t t' : Table}

/-- A command that needs keywords fills the table if it is not filled, and no other command asks
for or reports anything. -/
theorem Faithful.effects_run (h : t.Faithful spellings) (c : Command) :
    (c.run t).2.2 =
      if c.needsEntries = true ∧ t.isPopulated = false then
        ⟨(populate spellings).asked, (populate spellings).events⟩
      else ⟨[], []⟩ := by
  cases hc : c.needsEntries with
  | true =>
    unfold Command.run
    rw [if_pos hc, Table.force, isPopulated, ← h.spellings_eq]
    cases t.loaded <;> rfl
  | false => cases c <;> first | rfl | cases hc

theorem isPopulated_run (t : Table) (c : Command) :
    (c.run t).2.1.isPopulated = (c != .reset && (c.needsEntries || t.isPopulated)) := by
  have hforce : t.force.2.1.isPopulated = true := by
    unfold force isPopulated
    cases hl : t.loaded <;> simp [hl]
  cases c with
  | lookup | isKeyword | spelling | populate | size | isEmpty | listing => exact hforce
  | isPopulated | describe | reset => rfl

/-- The answer to a command that needs keywords follows from the spellings. -/
theorem Faithful.fst_run_eq (h : t.Faithful spellings) (h' : t'.Faithful spellings) {c : Command}
    (hc : c.needsEntries = true) : (c.run t).1 = (c.run t').1 := by
  rw [h.fst_run hc, h'.fst_run hc]
  cases c <;> first | rfl | cases hc

/-! ## Histories -/

/-- Whether a command needed keywords after the last reset. -/
def filledBy (commands : List Command) : Bool :=
  (commands.rtakeWhile fun c => c != .reset).any Command.needsEntries

/-- A table is filled if a command needed its keywords after the last reset. -/
theorem isPopulated_afterCommands (spellings : Spellings) (commands : List Command) :
    (afterCommands spellings commands).isPopulated = filledBy commands := by
  induction commands using List.reverseRecOn with
  | nil => rfl
  | append_singleton commands c ih =>
    have hrun := isPopulated_run (afterCommands spellings commands) c
    rw [ih] at hrun
    rw [afterCommands, List.foldl_append, List.foldl_cons, List.foldl_nil, ← afterCommands, hrun,
      filledBy, filledBy, List.rtakeWhile_concat]
    cases hreset : c != .reset with
    | false => rfl
    | true => simp [Bool.or_comm]

/-- The ids that commands ask for, one command after the other. -/
def asked (t : Table) : List Command → List Int
  | [] => []
  | c :: commands => (c.run t).2.2.asked ++ asked (c.run t).2.1 commands

/-- The commands between resets. -/
def stretches (commands : List Command) : List (List Command) :=
  commands.splitOnP fun c => c == .reset

/-- How often a table is filled: once between two resets, if a command there needs keywords. -/
def fillings (commands : List Command) : Nat :=
  (stretches commands).countP fun stretch => stretch.any Command.needsEntries

/-- A table asks for the same ids whenever it is filled. If it is filled at the start, the commands
up to the first reset do not count. -/
theorem Faithful.asked_eq (h : t.Faithful spellings) (commands : List Command) :
    t.asked commands =
      (List.replicate
        ((if t.isPopulated then (stretches commands).tail else stretches commands).countP
          fun stretch => stretch.any Command.needsEntries)
        (populate spellings).asked).flatten := by
  induction commands generalizing t with
  | nil => cases t.isPopulated <;> rfl
  | cons c commands ih =>
    obtain ⟨stretch, rest, hrest⟩ := List.exists_cons_of_ne_nil
      (List.splitOnP_ne_nil (fun c => c == Command.reset) commands)
    have hstretches : stretches (c :: commands) =
        if c == .reset then [] :: stretch :: rest else (c :: stretch) :: rest := by
      rw [stretches, List.splitOnP_cons_eq_if_modifyHead, hrest]
      rfl
    rw [asked, ih (h.run c), isPopulated_run, h.effects_run, hstretches, stretches, hrest]
    by_cases hreset : c = .reset
    · subst hreset
      cases t.isPopulated <;> simp [Command.needsEntries, List.countP_cons]
    · cases hneeds : c.needsEntries <;> cases t.isPopulated <;>
        simp [hreset, hneeds, List.countP_cons, List.replicate_succ]

/-- What a table asks for when further commands are run after given ones. -/
structure AsksOnce (spellings : Spellings) (commands : List Command) : Prop where
  /-- A command asks for spellings if it is the first one after construction or a reset that needs
  keywords. -/
  asked_run (c : Command) : (c.run (afterCommands spellings commands)).2.2.asked =
    if c.needsEntries = true ∧ filledBy commands = false then enumerated spellings else []
  /-- All that was asked for, in order. -/
  asked_eq : (ofSpellings spellings).asked commands =
    (List.replicate (fillings commands) (enumerated spellings)).flatten
  length_asked : ((ofSpellings spellings).asked commands).length =
    fillings commands * (enumerated spellings).length
  isPopulated : (Command.isPopulated.run (afterCommands spellings commands)).1 =
    .truth (filledBy commands)
  /-- What is answered from keywords is answered as if the table had never been reset. -/
  reply (c : Command) : c.needsEntries = true →
    (c.run (afterCommands spellings commands)).1 =
      (c.run (afterCommands spellings (commands.filter fun d => d != .reset))).1

/-- Whatever was asked of a table, it asks for spellings once, when its keywords are first needed,
and once more after each reset after which they are needed. -/
theorem asksOnce_afterCommands (spellings : Spellings) (commands : List Command) :
    AsksOnce spellings commands := by
  have hasked : (ofSpellings spellings).asked commands =
      (List.replicate (fillings commands) (enumerated spellings)).flatten := by
    rw [← asked_populate]
    exact (faithful_ofSpellings spellings).asked_eq commands
  refine ⟨fun c => ?_, hasked, ?_, ?_, fun c hc => ?_⟩
  · rw [(faithful_afterCommands spellings commands).effects_run, isPopulated_afterCommands,
      asked_populate]
    split <;> rfl
  · rw [hasked]
    simp
  · exact congrArg Reply.truth (isPopulated_afterCommands spellings commands)
  · exact (faithful_afterCommands spellings commands).fst_run_eq
      (faithful_afterCommands spellings _) hc

end Table

end RobotScript.Keyword
