import RobotScript.Keyword.File
import RobotScript.Proofs.Loading

/-!
# Keywords of lists

Four lists of spellings are accepted if each of them fits into the ids of its category and has no
empty spelling. The places in accepted lists and the ids on offer are the same, so a table finds
each spelling at its first place, unless there are more spellings than a table has room for.

Results:

* `Keyword.Lists.spellings_eq_ok_iff`, `Keyword.Lists.spellings_eq_error_iff`: which lists are
  accepted, and what is reported about all others.
* `Keyword.offers_ofLists`: accepted lists are on offer as a whole.
* `Keyword.find?_keywords`: a spelling is found at its first place.
* `Keyword.Lists.keeps_keywords`: a table of accepted lists finds all spellings.
-/

namespace RobotScript.Keyword

/-! ## Accepted lists -/

/-- The list fits into the ids of a category, and each of its spellings is one. -/
def FitsCategory (spellings : List String) : Prop :=
  spellings.length ≤ categoryWidth ∧ "" ∉ spellings

instance (spellings : List String) : Decidable (FitsCategory spellings) :=
  inferInstanceAs (Decidable (_ ∧ _))

/-- What is wrong with the list of a category: its length, or else its first empty spelling. -/
inductive ListFault (c : Category) (spellings : List String) : ListError → Prop
  | tooMany : categoryWidth < spellings.length →
      ListFault c spellings (.tooMany c spellings.length)
  | emptySpelling {index : Nat} : spellings.length ≤ categoryWidth →
      spellings[index]? = some "" → (∀ j < index, spellings[j]? ≠ some "") →
      ListFault c spellings (.emptySpelling c index)

theorem findIdx?_eq_some_iff_getElem? {spellings : List String} {index : Nat} :
    (spellings.findIdx? fun s => s == "") = some index ↔
      spellings[index]? = some "" ∧ ∀ j < index, spellings[j]? ≠ some "" := by
  rw [List.findIdx?_eq_some_iff_getElem]
  constructor
  · rintro ⟨hlt, hindex, hbefore⟩
    refine ⟨List.getElem?_eq_some_iff.2 ⟨hlt, by simpa using hindex⟩, fun j hj hempty => ?_⟩
    obtain ⟨_, hempty⟩ := List.getElem?_eq_some_iff.1 hempty
    exact hbefore j hj (by simpa using hempty)
  · rintro ⟨hindex, hbefore⟩
    obtain ⟨hlt, hindex⟩ := List.getElem?_eq_some_iff.1 hindex
    refine ⟨hlt, by simpa using hindex, fun j hj hempty => hbefore j hj ?_⟩
    exact List.getElem?_eq_some_iff.2 ⟨Nat.lt_trans hj hlt, by simpa using hempty⟩

theorem checkCategory_eq_ok_iff {c : Category} {spellings : List String} :
    checkCategory c spellings = .ok () ↔ FitsCategory spellings := by
  unfold checkCategory FitsCategory
  by_cases hlength : categoryWidth < spellings.length
  · rw [if_pos hlength]
    simp only [reduceCtorEq, false_iff]
    omega
  · rw [if_neg hlength, and_iff_right (Nat.le_of_not_lt hlength)]
    cases hempty : spellings.findIdx? fun s => s == "" with
    | none =>
      refine iff_of_true rfl fun hmem => ?_
      have hne := List.findIdx?_eq_none_iff.1 hempty "" hmem
      cases hne
    | some index =>
      have hmem := List.mem_of_getElem? (findIdx?_eq_some_iff_getElem?.1 hempty).1
      simp [hmem]

theorem checkCategory_eq_error_iff {c : Category} {spellings : List String} {e : ListError} :
    checkCategory c spellings = .error e ↔ ListFault c spellings e := by
  unfold checkCategory
  constructor
  · intro h
    split at h
    · rename_i hlength
      cases h
      exact .tooMany hlength
    · rename_i hlength
      split at h
      · rename_i hempty
        cases h
        obtain ⟨hindex, hbefore⟩ := findIdx?_eq_some_iff_getElem?.1 hempty
        exact .emptySpelling (Nat.le_of_not_lt hlength) hindex hbefore
      · cases h
  · rintro (hlength | ⟨hlength, hindex, hbefore⟩)
    · rw [if_pos hlength]
    · rw [if_neg (Nat.not_lt.2 hlength), findIdx?_eq_some_iff_getElem?.2 ⟨hindex, hbefore⟩]

section

variable {ε α : Type} {check : α → Except ε Unit} {cs : List α}

theorem forM_eq_ok_iff : cs.forM check = .ok () ↔ ∀ c ∈ cs, check c = .ok () := by
  induction cs with
  | nil => simp [pure, Except.pure]
  | cons c cs ih =>
    rw [show (c :: cs).forM check = (check c >>= fun _ => cs.forM check) from rfl,
      List.forall_mem_cons, ← ih]
    cases check c with
    | error e => simp [bind, Except.bind]
    | ok => simp [bind, Except.bind]

/-- Checks report the first error. -/
theorem forM_eq_error_iff {e : ε} : cs.forM check = .error e ↔
    ∃ before c after, cs = before ++ c :: after ∧ (∀ d ∈ before, check d = .ok ()) ∧
      check c = .error e := by
  induction cs with
  | nil => simp [pure, Except.pure]
  | cons c cs ih =>
    rw [show (c :: cs).forM check = (check c >>= fun _ => cs.forM check) from rfl]
    cases hc : check c with
    | error e' =>
      simp only [bind, Except.bind, Except.error.injEq]
      constructor
      · rintro rfl
        exact ⟨[], c, cs, rfl, nofun, hc⟩
      · rintro ⟨before, d, after, heq, hbefore, hd⟩
        cases before with
        | nil =>
          obtain ⟨rfl, -⟩ := List.cons.inj heq
          exact Except.error.inj (hc.symm.trans hd)
        | cons b before =>
          obtain ⟨rfl, -⟩ := List.cons.inj heq
          have hok := hbefore c List.mem_cons_self
          rw [hc] at hok
          cases hok
    | ok =>
      simp only [bind, Except.bind]
      rw [ih]
      constructor
      · rintro ⟨before, d, after, rfl, hbefore, hd⟩
        exact ⟨c :: before, d, after, rfl, List.forall_mem_cons.2 ⟨hc, hbefore⟩, hd⟩
      · rintro ⟨before, d, after, heq, hbefore, hd⟩
        cases before with
        | nil =>
          obtain ⟨rfl, -⟩ := List.cons.inj heq
          rw [hc] at hd
          cases hd
        | cons b before =>
          obtain ⟨rfl, rfl⟩ := List.cons.inj heq
          exact ⟨before, d, after, rfl, (List.forall_mem_cons.1 hbefore).2, hd⟩

end

namespace Lists

variable {lists : Lists}

/-- The error is what is wrong with the first list that is not accepted. -/
def FirstFault (lists : Lists) (e : ListError) : Prop :=
  ∃ before c after, Category.all = before ++ c :: after ∧
    (∀ d ∈ before, FitsCategory (lists.get d)) ∧ ListFault c (lists.get c) e

theorem spellings_eq_ok_iff {spellings : Spellings} :
    lists.spellings = .ok spellings ↔
      (∀ c, FitsCategory (lists.get c)) ∧ spellings = Spellings.ofLists lists.get := by
  have hall (c : Category) : c ∈ Category.all := by cases c <;> decide
  have hcheck : (Category.all.forM fun c => checkCategory c (lists.get c)) = .ok () ↔
      ∀ c, FitsCategory (lists.get c) := by
    rw [forM_eq_ok_iff]
    simp only [checkCategory_eq_ok_iff, hall, forall_const]
  rw [← hcheck, Lists.spellings]
  cases Category.all.forM fun c => checkCategory c (lists.get c) with
  | error e => simp [bind, Except.bind]
  | ok => simp [bind, Except.bind, pure, Except.pure, eq_comm]

theorem spellings_eq_error_iff {e : ListError} :
    lists.spellings = .error e ↔ lists.FirstFault e := by
  have hcheck : (Category.all.forM fun c => checkCategory c (lists.get c)) = .error e ↔
      lists.FirstFault e := by
    rw [forM_eq_error_iff]
    simp only [checkCategory_eq_ok_iff, checkCategory_eq_error_iff, FirstFault]
  rw [← hcheck, Lists.spellings]
  cases Category.all.forM fun c => checkCategory c (lists.get c) with
  | error e => simp [bind, Except.bind]
  | ok => simp [bind, Except.bind, pure, Except.pure]

end Lists

/-! ## Places in lists -/

/-- The keywords of a list: each spelling with the id of its place. -/
def Category.keywords (c : Category) (spellings : List String) : Bindings :=
  spellings.mapIdx fun i spelling => (spelling, c.base + i)

/-- The ids of a category belong to no other category. -/
theorem Category.ofId?_base_add (c : Category) {i : Nat} (hi : i < categoryWidth) :
    ofId? (c.base + i) = some c := by
  rw [categoryWidth] at hi
  have hhas (d : Category) : d.has (c.base + i) = decide (d = c) := by
    rw [has, ← Bool.decide_and, decide_eq_decide, categoryWidth]
    cases c <;> cases d <;> simp only [base, reduceCtorEq, iff_false, iff_true] <;> omega
  simp only [ofId?, hhas]
  cases c <;> rfl

/-- The ids of a category have the spellings of its list. -/
theorem ofLists_base_add (lists : Category → List String) (c : Category) {i : Nat}
    (hi : i < categoryWidth) :
    Spellings.ofLists lists (c.base + i) = ((lists c)[i]?).getD "" := by
  rw [Spellings.ofLists, Category.ofId?_base_add c hi]
  have hplace : (c.base + (i : Int) - c.base).toNat = i := by omega
  show ((lists c)[(c.base + (i : Int) - c.base).toNat]?).getD "" = _
  rw [hplace]

theorem takeWhile_range_eq {p : Nat → Bool} {n m : Nat} (hnm : n ≤ m) (hp : ∀ i < n, p i = true)
    (hend : n < m → p n = false) : (List.range m).takeWhile p = List.range n := by
  obtain ⟨k, rfl⟩ := Nat.exists_eq_add_of_le hnm
  rw [List.range_add, List.takeWhile_append_of_pos fun i hi => hp i (List.mem_range.1 hi)]
  cases k with
  | zero => simp
  | succ k =>
    rw [List.range_succ_eq_map]
    simp [hend (by omega)]

/-- A list that fits into its category has a spelling for as many ids as it is long. -/
theorem takeWhile_range_ofLists {lists : Category → List String} {c : Category}
    (h : FitsCategory (lists c)) :
    ((List.range categoryWidth).takeWhile fun (i : Nat) =>
      Spellings.ofLists lists (c.base + i) != "") = List.range (lists c).length := by
  obtain ⟨hlength, hempty⟩ := h
  refine takeWhile_range_eq hlength (fun i hi => ?_) fun hlt => ?_
  · rw [ofLists_base_add lists c (by omega), List.getElem?_eq_getElem hi, Option.getD_some]
    rw [bne_iff_ne]
    intro heq
    exact hempty (heq ▸ List.getElem_mem hi)
  · rw [ofLists_base_add lists c hlt, List.getElem?_eq_none (Nat.le_refl _)]
    rfl

theorem length_offered_ofLists {lists : Category → List String} {c : Category}
    (h : FitsCategory (lists c)) :
    (offered (Spellings.ofLists lists) c).length = (lists c).length := by
  have hspelled := congrArg List.length (takeWhile_range_ofLists h)
  rw [List.length_range] at hspelled
  rw [offered, Category.ids, List.map_map, List.takeWhile_map, List.length_map]
  exact hspelled

/-- Lists that fit into their categories are on offer as a whole. -/
theorem offers_ofLists {lists : Category → List String} (h : ∀ c, FitsCategory (lists c)) :
    offers (Spellings.ofLists lists) = Category.all.flatMap fun c => c.keywords (lists c) := by
  unfold offers
  refine congrArg (List.flatMap · Category.all) (funext fun c => ?_)
  have hlength := (h c).1
  rw [takeWhile_range_ofLists (h c)]
  refine List.ext_getElem (by simp [Category.keywords]) fun i hi _ => ?_
  have hi : i < (lists c).length := by simpa using hi
  simp [Category.keywords, ofLists_base_add lists c (Nat.lt_of_lt_of_le hi hlength), hi]

/-- A spelling is found at its first place in a list. -/
theorem find?_keywords (c : Category) (spellings : List String) (word : String) :
    ((c.keywords spellings).find? fun entry => entry.1 == word) =
      if word ∈ spellings then some (word, c.base + spellings.idxOf word) else none := by
  unfold Category.keywords
  generalize c.base = base
  induction spellings generalizing base with
  | nil => rfl
  | cons s spellings ih =>
    have hshift : (fun (i : Nat) (spelling : String) => (spelling, base + ((i + 1 : Nat) : Int))) =
        fun (i : Nat) (spelling : String) => (spelling, base + 1 + (i : Int)) := by
      funext i spelling
      rw [Prod.mk.injEq]
      exact ⟨rfl, by omega⟩
    rw [List.mapIdx_cons, hshift, List.find?_cons, ih (base + 1), List.idxOf_cons]
    by_cases hs : s = word
    · simp [hs]
    · have hplace : base + 1 + (spellings.idxOf word : Int) =
          base + ((spellings.idxOf word + 1 : Nat) : Int) := by omega
      rw [beq_false_of_ne hs, hplace]
      simp [Ne.symm hs]

theorem findSome?_ite_eq_map_find? {α β : Type} (p : α → Bool) (f : α → β) (l : List α) :
    (l.findSome? fun a => if p a then some (f a) else none) = (l.find? p).map f := by
  induction l with
  | nil => rfl
  | cons a l ih =>
    rw [List.findSome?_cons, List.find?_cons, ih]
    cases p a <;> rfl

namespace Lists

/-- The spellings of all lists, each once. -/
def distinct (lists : Lists) : List String := (Category.all.flatMap lists.get).eraseDups

/-- The id of a word: that of its first place in the first list that has it. -/
def idOf (lists : Lists) (word : String) : Int :=
  match Category.all.find? fun c => (lists.get c).contains word with
  | some c => c.base + (lists.get c).idxOf word
  | none => -1

/-- What accepted lists offer first for a word has the id of the word. -/
theorem lookup_flatMap_keywords (lists : Lists) (word : String) :
    (((Category.all.flatMap fun c => c.keywords (lists.get c)).find? fun entry =>
      entry.1 == word).map Prod.snd).getD (-1) = lists.idOf word := by
  have hfind (c : Category) :
      ((c.keywords (lists.get c)).find? fun entry => entry.1 == word) =
        if (lists.get c).contains word then some (word, c.base + (lists.get c).idxOf word)
        else none := by
    rw [find?_keywords]
    simp only [List.contains_iff_mem]
  rw [List.find?_flatMap, funext hfind, findSome?_ite_eq_map_find?, idOf]
  cases Category.all.find? fun c => (lists.get c).contains word <;> rfl

theorem map_fst_flatMap_keywords (lists : Lists) :
    (Category.all.flatMap fun c => c.keywords (lists.get c)).map Prod.fst =
      Category.all.flatMap lists.get := by
  rw [List.map_flatMap]
  refine congrArg (List.flatMap · Category.all) (funext fun c => ?_)
  exact List.ext_getElem (by simp [Category.keywords]) fun i _ _ => by simp [Category.keywords]

/-- A table with room for all spellings of accepted lists finds each of them. -/
theorem entries_populate_ofLists {lists : Lists} (h : ∀ c, FitsCategory (lists.get c))
    (hroom : lists.distinct.length ≤ Limits.built.maxKeywords) :
    (populate (Spellings.ofLists lists.get)).entries.size = lists.distinct.length ∧
      ∀ word, (populate (Spellings.ofLists lists.get)).entries.lookup word = lists.idOf word := by
  have hnames : (Bindings.firsts (offers (Spellings.ofLists lists.get))).map Prod.fst =
      lists.distinct := by
    rw [Bindings.map_fst_firsts, offers_ofLists h, map_fst_flatMap_keywords, distinct]
  have hlength := congrArg List.length hnames
  rw [List.length_map] at hlength
  have hloaded : (populate (Spellings.ofLists lists.get)).entries.ordered =
      Bindings.firsts (offers (Spellings.ofLists lists.get)) := by
    rw [entries_populate, List.take_of_length_le (by omega)]
  refine ⟨by rw [Entries.size, hloaded, hlength], fun word => ?_⟩
  rw [← lookup_flatMap_keywords, ← offers_ofLists h, Entries.lookup_eq, hloaded,
    Bindings.find?_firsts]

/-- Lists are accepted if they fit into their categories, or else the first that does not is
reported. No spelling of accepted lists is lost if a table has room for all of them. -/
theorem keeps_keywords (lists : Lists) :
    ((∃ spellings, lists.spellings = .ok spellings) ↔ ∀ c, FitsCategory (lists.get c)) ∧
      (∀ e, lists.spellings = .error e ↔ lists.FirstFault e) ∧
      ∀ spellings, lists.spellings = .ok spellings →
        lists.distinct.length ≤ Limits.built.maxKeywords → ∀ commands : List Command,
          (Command.populate.run (Table.afterCommands spellings commands)).1 =
              .count lists.distinct.length ∧
            ∀ word, ((Command.lookup word).run (Table.afterCommands spellings commands)).1 =
              .id (lists.idOf word) := by
  refine ⟨?_, fun e => spellings_eq_error_iff, fun spellings hspellings hroom commands => ?_⟩
  · simp only [spellings_eq_ok_iff, exists_and_left, exists_eq, and_true]
  · obtain ⟨hfits, rfl⟩ := spellings_eq_ok_iff.1 hspellings
    obtain ⟨hcount, hlookup⟩ := entries_populate_ofLists hfits hroom
    have ht := Table.faithful_afterCommands (Spellings.ofLists lists.get) commands
    refine ⟨?_, fun word => ?_⟩
    · rw [ht.fst_run rfl, Command.answer, hcount]
    · rw [ht.fst_run rfl, Command.answer, hlookup]

/-- A list with as many spellings as there are ids loses none of them, and a spelling of two lists
has its id in the first. -/
theorem keeps_full_list :
    let lists : Lists := ⟨(List.range categoryWidth).map toString, ["x", "7"], [], ["x", "y"]⟩
    ∃ spellings, lists.spellings = .ok spellings ∧
      (Command.populate.run (Table.ofSpellings spellings)).1 = .count 102 ∧
      ∀ entry ∈ [("99", 2099), ("7", 2007), ("x", 2100), ("y", 2301), ("z", -1)],
        ((Command.lookup entry.1).run (Table.ofSpellings spellings)).1 = .id entry.2 := by
  intro lists
  obtain ⟨haccepted, -, hkeeps⟩ := keeps_keywords lists
  have hfits (c : Category) : FitsCategory (lists.get c) := by cases c <;> decide +kernel
  have hdistinct : lists.distinct.length = 102 := by decide +kernel
  obtain ⟨spellings, hspellings⟩ := haccepted.2 hfits
  obtain ⟨hcount, hlookup⟩ := hkeeps spellings hspellings (by rw [hdistinct]; decide) []
  have hids : ∀ entry ∈ [("99", 2099), ("7", 2007), ("x", 2100), ("y", 2301), ("z", -1)],
      lists.idOf entry.1 = entry.2 := by decide +kernel
  rw [hdistinct] at hcount
  refine ⟨spellings, hspellings, hcount, fun entry hentry => ?_⟩
  rw [← hids entry hentry]
  exact hlookup entry.1

end Lists

end RobotScript.Keyword
