import RobotScript.Keyword.Table
import RobotScript.Proofs.WriteOnce

/-!
# What a keyword table holds

Spellings offer keywords, category by category and id by id. A table takes the first offer of each
spelling, as many as there is room for, and answers from these for good.

Results:

* `Keyword.mem_offers`, `Keyword.pairwise_offers`: the keywords on offer and the order of their ids.
* `Keyword.entries_populate`, `Keyword.ordered_populate`: the keywords that are loaded.
* `Keyword.Entries.lookup_eq_iff`, `Keyword.Ordered.spelling?_eq_some_iff`: spellings and ids of
  loaded keywords lead to each other.
* `Keyword.Table.Faithful.run`: a table holds what its spellings offer, or nothing.
* `Keyword.Table.holds_afterCommands`: the answers of a table after any commands.
-/

namespace RobotScript.Keyword

/-! ## Offers -/

/-- The keywords that spellings offer, one category after the other: its ids from the base on, as
long as they have a spelling. -/
def offers (spellings : Spellings) : Bindings :=
  Category.all.flatMap fun c =>
    ((List.range categoryWidth).takeWhile fun (i : Nat) => spellings (c.base + i) != "").map
      fun (i : Nat) => (spellings (c.base + i), c.base + i)

variable {spellings : Spellings}

theorem flatMap_offered (spellings : Spellings) :
    Category.all.flatMap (offered spellings) = offers spellings := by
  unfold offers offered Category.ids
  refine congrArg (List.flatMap · Category.all) (funext fun c => ?_)
  rw [List.map_map, List.takeWhile_map]
  rfl

/-- A keyword on offer has the id of a category, and the spelling of that id, which is one. -/
theorem mem_offers {entry : String × Int} (h : entry ∈ offers spellings) :
    entry.1 ≠ "" ∧ entry.1 = spellings entry.2 ∧
      ∃ c : Category, c.base ≤ entry.2 ∧ entry.2 < c.base + categoryWidth := by
  obtain ⟨c, -, h⟩ := List.mem_flatMap.1 h
  obtain ⟨i, hi, rfl⟩ := List.mem_map.1 h
  have hspelling := List.all_eq_true.1 List.all_takeWhile i hi
  have hrange : (i : Int) < categoryWidth :=
    Int.ofNat_lt.2 (List.mem_range.1 ((List.takeWhile_sublist _).subset hi))
  refine ⟨by simpa using hspelling, rfl, c, ?_, ?_⟩
  · show c.base ≤ c.base + (i : Int)
    omega
  · show c.base + (i : Int) < c.base + categoryWidth
    omega

/-- The ids of the keywords on offer increase. -/
theorem pairwise_offers (spellings : Spellings) :
    (offers spellings).Pairwise fun a b => a.2 < b.2 := by
  have hbases : Category.all.Pairwise fun c d => c.base + (categoryWidth : Int) ≤ d.base := by
    decide
  refine List.pairwise_flatMap.2 ⟨fun c _ => ?_, hbases.imp fun {c d} hcd => ?_⟩
  · refine List.Pairwise.map _ (fun i j hij => ?_)
      (List.pairwise_lt_range.sublist (List.takeWhile_sublist _))
    simpa using hij
  · intro a ha b hb
    obtain ⟨i, hi, rfl⟩ := List.mem_map.1 ha
    obtain ⟨j, -, rfl⟩ := List.mem_map.1 hb
    have hrange := List.mem_range.1 ((List.takeWhile_sublist _).subset hi)
    simp only
    omega

/-! ## Loading -/

/-- Loading takes a keyword as a list with room for some names does. -/
theorem entries_add (l : Loading) (spelling : String) (id : Int) :
    (l.add spelling id).entries.ordered =
      Bindings.bind Limits.built.maxKeywords l.entries.ordered (spelling, id) := by
  have hcontains : l.entries.bySpelling.contains spelling = true ↔
      spelling ∈ l.entries.ordered.map Prod.fst := l.entries.inStep.contains_iff
  unfold Loading.add Bindings.bind Entries.size
  by_cases hroom : l.entries.ordered.length < Limits.built.maxKeywords
  · rw [if_neg (by omega)]
    by_cases hmem : spelling ∈ l.entries.ordered.map Prod.fst
    · rw [dif_pos (hcontains.2 hmem), if_neg fun h => h.2 hmem]
    · rw [dif_neg fun h => hmem (hcontains.1 h), if_pos ⟨hroom, hmem⟩]
      rfl
  · rw [if_pos (by omega), if_neg fun h => hroom h.1]

theorem entries_foldl_add (keywords : Bindings) (l : Loading) :
    (keywords.foldl (fun l keyword => l.add keyword.1 keyword.2) l).entries.ordered =
      keywords.foldl (Bindings.bind Limits.built.maxKeywords) l.entries.ordered :=
  (List.foldl_hom (fun l : Loading => l.entries.ordered)
    fun l keyword => (entries_add l keyword.1 keyword.2).symm).symm

theorem entries_addCategory (spellings : Spellings) (l : Loading) (c : Category) :
    (l.addCategory spellings c).entries.ordered =
      (offered spellings c).foldl (Bindings.bind Limits.built.maxKeywords) l.entries.ordered := by
  rw [← entries_foldl_add]
  simp only [Loading.addCategory]
  split <;> rfl

/-- What is loaded is the first offer of each spelling, as far as there is room. -/
theorem entries_populate (spellings : Spellings) :
    (populate spellings).entries.ordered =
      (Bindings.firsts (offers spellings)).take Limits.built.maxKeywords := by
  rw [← Bindings.foldl_bind, ← flatMap_offered, List.foldl_flatMap]
  exact (List.foldl_hom (fun l : Loading => l.entries.ordered)
    fun l c => (entries_addCategory spellings l c).symm).symm

/-! ## Loaded keywords -/

theorem sublist_populate (spellings : Spellings) :
    (populate spellings).entries.ordered.Sublist (offers spellings) := by
  rw [entries_populate]
  exact (List.take_sublist _ _).trans (Bindings.firsts_sublist _)

/-- Keywords as they are loaded: with increasing ids of the categories, and with spellings that
differ and are no empty texts. -/
structure Ordered (loaded : Bindings) : Prop where
  increasing : (loaded.map Prod.snd).Pairwise (· < ·)
  distinct : (loaded.map Prod.fst).Nodup
  spelled : ∀ entry ∈ loaded, entry.1 ≠ "" ∧ 2000 ≤ entry.2 ∧ entry.2 < 2400

namespace Entries

variable {entries : Entries}

/-- A spelling is found as in the list. -/
theorem lookup_eq (entries : Entries) (word : String) :
    entries.lookup word =
      ((entries.ordered.find? fun entry => entry.1 == word).map Prod.snd).getD (-1) := by
  rw [lookup, entries.inStep.getElem?_eq]

/-- A spelling has the id that it is loaded with. -/
theorem lookup_eq_iff {word : String} {id : Int} : entries.lookup word = id ↔
    (word, id) ∈ entries.ordered ∨ id = -1 ∧ word ∉ entries.ordered.map Prod.fst := by
  have hmem : entries.bySpelling[word]? = some id ↔ (word, id) ∈ entries.ordered :=
    entries.inStep.getElem?_eq_some_iff
  rw [lookup, ← entries.inStep.contains_iff, Std.TreeMap.contains_eq_isSome_getElem?, ← hmem]
  cases entries.bySpelling[word]? with
  | some number => simp
  | none => simp [eq_comm]

/-- An id has the spelling that is loaded with it. -/
theorem spelling?_eq_some_iff (h : Ordered entries.ordered) {word : String} {id : Int} :
    entries.spelling? id = some word ↔ (word, id) ∈ entries.ordered := by
  have hnodup : (entries.ordered.map Prod.snd).Nodup := h.increasing.imp fun hlt => Int.ne_of_lt hlt
  rw [spelling?, map_find?_eq_some_iff_of_nodup hnodup]
  simp

theorem spelling?_eq_none_iff {id : Int} :
    entries.spelling? id = none ↔ id ∉ entries.ordered.map Prod.snd := by
  rw [spelling?, Option.map_eq_none_iff, find?_eq_none_iff_notMem_map]

end Entries

/-- Loaded keywords are in order, whatever the spellings are. -/
theorem ordered_populate (spellings : Spellings) :
    Ordered (populate spellings).entries.ordered where
  increasing := List.pairwise_map.2 ((pairwise_offers spellings).sublist (sublist_populate spellings))
  distinct := (populate spellings).entries.inStep.nodup
  spelled entry hentry := by
    obtain ⟨hne, -, c, hbase, hwidth⟩ := mem_offers ((sublist_populate spellings).subset hentry)
    rw [categoryWidth] at hwidth
    refine ⟨hne, ?_⟩
    cases c <;> simp only [Category.base] at hbase hwidth <;> omega

/-! ## Tables -/

namespace Table

/-- The table has the spellings, and if it is filled, the keywords that they offer. -/
structure Faithful (spellings : Spellings) (t : Table) : Prop where
  spellings_eq : t.spellings = spellings
  loaded : ∀ entries ∈ t.loaded, entries = (populate spellings).entries

variable {t : Table}

theorem faithful_ofSpellings (spellings : Spellings) : (ofSpellings spellings).Faithful spellings :=
  ⟨rfl, nofun⟩

theorem Faithful.reset (h : t.Faithful spellings) : t.reset.Faithful spellings :=
  ⟨h.spellings_eq, nofun⟩

/-- A table answers from the keywords that its spellings offer, and keeps them. -/
theorem Faithful.force (h : t.Faithful spellings) :
    t.force.1 = (populate spellings).entries ∧ t.force.2.1.Faithful spellings := by
  unfold Table.force
  cases hl : t.loaded with
  | some entries => exact ⟨h.loaded entries hl, h⟩
  | none =>
    refine ⟨by rw [h.spellings_eq], h.spellings_eq, fun entries he => ?_⟩
    rw [← Option.some.inj he, h.spellings_eq]

/-- A command leaves a table that holds what its spellings offer, or nothing. -/
theorem Faithful.run (h : t.Faithful spellings) (c : Command) :
    (c.run t).2.1.Faithful spellings := by
  unfold Command.run
  split
  · exact h.force.2
  · cases c with
    | reset => exact h.reset
    | _ => exact h

/-- What is answered from keywords is answered from those that the spellings offer. -/
theorem Faithful.fst_run (h : t.Faithful spellings) {c : Command} (hc : c.needsEntries = true) :
    (c.run t).1 = c.answer (populate spellings).entries t.force.2.1 := by
  unfold Command.run
  rw [if_pos hc, ← h.force.1]

/-- The table of spellings after commands. -/
def afterCommands (spellings : Spellings) (commands : List Command) : Table :=
  commands.foldl (fun t c => (c.run t).2.1) (ofSpellings spellings)

theorem faithful_afterCommands (spellings : Spellings) (commands : List Command) :
    (afterCommands spellings commands).Faithful spellings := by
  refine List.foldlRecOn commands _ (faithful_ofSpellings spellings) fun t h c _ => h.run c

/-- What a table answers that holds given keywords. -/
structure Holds (t : Table) (loaded : Bindings) : Prop where
  listing : (Command.listing.run t).1 = .entries loaded
  lookup (word : String) (id : Int) : ((Command.lookup word).run t).1 = .id id ↔
    (word, id) ∈ loaded ∨ id = -1 ∧ word ∉ loaded.map Prod.fst
  spelling_some (id : Int) (word : String) :
    ((Command.spelling id).run t).1 = .spelling (some word) ↔ (word, id) ∈ loaded
  spelling_none (id : Int) :
    ((Command.spelling id).run t).1 = .spelling none ↔ id ∉ loaded.map Prod.snd
  /-- Loaded spellings and ids lead to each other. -/
  inverse (word : String) (id : Int) : id ≠ -1 → (((Command.lookup word).run t).1 = .id id ↔
    ((Command.spelling id).run t).1 = .spelling (some word))

/-- Whatever was asked of a table before, it holds the first offer of each spelling, as far as there
is room, and these are in order. -/
theorem holds_afterCommands (spellings : Spellings) (commands : List Command) :
    let loaded : Bindings := (Bindings.firsts (offers spellings)).take Limits.built.maxKeywords
    (afterCommands spellings commands).Holds loaded ∧ Ordered loaded := by
  intro loaded
  have ht := faithful_afterCommands spellings commands
  have hloaded : (populate spellings).entries.ordered = loaded := entries_populate spellings
  have hordered := ordered_populate spellings
  have hlookup (word : String) (id : Int) :
      ((Command.lookup word).run (afterCommands spellings commands)).1 = .id id ↔
        (word, id) ∈ loaded ∨ id = -1 ∧ word ∉ loaded.map Prod.fst := by
    rw [ht.fst_run rfl, Command.answer, Reply.id.injEq, Entries.lookup_eq_iff, hloaded]
  have hspelling (id : Int) (word : String) :
      ((Command.spelling id).run (afterCommands spellings commands)).1 = .spelling (some word) ↔
        (word, id) ∈ loaded := by
    rw [ht.fst_run rfl, Command.answer, Reply.spelling.injEq,
      Entries.spelling?_eq_some_iff hordered, hloaded]
  refine ⟨⟨?_, hlookup, hspelling, fun id => ?_, fun word id hid => ?_⟩, hloaded ▸ hordered⟩
  · rw [ht.fst_run rfl, Command.answer, hloaded]
  · rw [ht.fst_run rfl, Command.answer, Reply.spelling.injEq, Entries.spelling?_eq_none_iff,
      hloaded]
  · rw [hlookup, hspelling]
    simp [hid]

end Table

end RobotScript.Keyword
