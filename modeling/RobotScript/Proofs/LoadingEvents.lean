import RobotScript.Proofs.KeywordLists
import RobotScript.Proofs.Population

/-!
# What is reported when a keyword table is filled

Two warnings can be among the events. One is about a category all of whose ids have a spelling; it
does not tell a category that is just full from one with too many spellings. The other is about
keywords that found the table full, with their number; it counts spellings that are in the table
already like those that are lost.

Results:

* `Keyword.filter_events_populate`: the events with a code other than that of plain details.
* `Keyword.dropped_eq`: what the number of dropped keywords counts.
* `Keyword.Table.full_warning`: the warning about keywords that found the table full.
* `Keyword.Lists.range_warnings`: the warnings about categories of lists that are accepted.
-/

namespace RobotScript.Keyword

open Log (Event Code)

variable {spellings : Spellings}

/-! ## Events by their codes -/

namespace Loading

@[simp]
theorem code_rangeWarning (c : Category) : (rangeWarning c).code = .keywordRangeExceeded :=
  Event.code_withEntries _ _

@[simp]
theorem code_fullWarning (dropped : Nat) : (fullWarning dropped).code = .keywordTableFull :=
  Event.code_withEntries _ _

@[simp]
theorem code_completed (entries : Entries) : (completed entries).code = .keywordsLoaded :=
  Event.code_withEntries _ _

variable {code : Code}

/-- Taking a keyword reports nothing but plain details. -/
theorem filter_events_add (hcode : code ≠ .plainDebug) (l : Loading) (spelling : String)
    (id : Int) :
    (l.add spelling id).events.filter (fun e => e.code = code) =
      l.events.filter fun e => e.code = code := by
  unfold add
  split
  · rfl
  split
  · have hevent : (Event.debug "Duplicate keyword spelling ignored").code ≠ code := hcode.symm
    simp [hevent]
  · rfl

theorem filter_events_foldl_add (hcode : code ≠ .plainDebug) (keywords : Bindings) (l : Loading) :
    (keywords.foldl (fun l keyword => l.add keyword.1 keyword.2) l).events.filter
        (fun e => e.code = code) =
      l.events.filter fun e => e.code = code := by
  induction keywords generalizing l with
  | nil => rfl
  | cons keyword keywords ih =>
    rw [List.foldl_cons, ih, filter_events_add hcode]

/-- The warnings about those of some categories all of whose ids have a spelling. -/
def rangeWarnings (spellings : Spellings) (cs : List Category) : List Event :=
  (cs.filter fun c => (offered spellings c).length = categoryWidth).map rangeWarning

theorem filter_events_foldl_addCategory (hcode : code ≠ .plainDebug) (spellings : Spellings)
    (cs : List Category) (l : Loading) :
    (cs.foldl (addCategory spellings) l).events.filter (fun e => e.code = code) =
      (l.events ++ rangeWarnings spellings cs).filter fun e => e.code = code := by
  induction cs generalizing l with
  | nil => simp [rangeWarnings]
  | cons c cs ih =>
    have hkeywords := filter_events_foldl_add hcode (offered spellings c) l
    have hcons : rangeWarnings spellings (c :: cs) =
        (if (offered spellings c).length = categoryWidth then [rangeWarning c] else []) ++
          rangeWarnings spellings cs := by
      unfold rangeWarnings
      rw [List.filter_cons]
      by_cases hfull : (offered spellings c).length = categoryWidth <;> simp [hfull]
    rw [List.foldl_cons, ih, hcons, addCategory]
    split <;> simp only [List.filter_append, List.append_assoc, hkeywords, List.nil_append]

end Loading

/-- How many keywords find the table full while it is filled. -/
def dropped (spellings : Spellings) : Nat :=
  (Category.all.foldl (Loading.addCategory spellings) .empty).dropped

/-- The events with a code, in the order in which they are reported. -/
theorem filter_events_populate {code : Code} (hcode : code ≠ .plainDebug)
    (spellings : Spellings) :
    (populate spellings).events.filter (fun e => e.code = code) =
      (Loading.rangeWarnings spellings Category.all ++
        (if 0 < dropped spellings then [Loading.fullWarning (dropped spellings)] else []) ++
        [Loading.completed (populate spellings).entries]).filter fun e => e.code = code := by
  have hevents : (populate spellings).events =
      (Category.all.foldl (Loading.addCategory spellings) .empty).events ++
        (if 0 < dropped spellings then [Loading.fullWarning (dropped spellings)] else []) ++
        [Loading.completed (populate spellings).entries] := rfl
  rw [hevents, List.filter_append, List.filter_append,
    Loading.filter_events_foldl_addCategory hcode, ← List.filter_append, ← List.filter_append]
  rfl

/-! ## Full categories -/

/-- A warning is reported about each category all of whose ids have a spelling. -/
theorem filter_events_keywordRangeExceeded (spellings : Spellings) :
    (populate spellings).events.filter (fun e => e.code = .keywordRangeExceeded) =
      Loading.rangeWarnings spellings Category.all := by
  have hself : (Loading.rangeWarnings spellings Category.all).filter
      (fun e => e.code = .keywordRangeExceeded) = Loading.rangeWarnings spellings Category.all := by
    refine List.filter_eq_self.2 fun e he => ?_
    obtain ⟨c, -, rfl⟩ := List.mem_map.1 he
    simp
  rw [filter_events_populate (by decide), List.filter_append, List.filter_append, hself]
  split <;> simp [Code.keywordRangeExceeded, Code.keywordTableFull, Code.keywordsLoaded]

/-! ## Full tables -/

/-- Whether a table had no more room when the spelling of an id was asked for: it is full, and the
ids of its keywords come before that id. -/
def isFullBefore (loaded : Bindings) (id : Int) : Bool :=
  Limits.built.maxKeywords ≤ loaded.length && loaded.all fun entry => entry.2 < id

theorem isFullBefore_iff {loaded : Bindings} {id : Int} :
    isFullBefore loaded id = true ↔
      Limits.built.maxKeywords ≤ loaded.length ∧ ∀ entry ∈ loaded, entry.2 < id := by
  simp [isFullBefore]

theorem not_isFullBefore_of_room {loaded : Bindings}
    (hroom : loaded.length < Limits.built.maxKeywords) (id : Int) :
    ¬isFullBefore loaded id = true := fun hbefore =>
  Nat.not_le_of_lt hroom (isFullBefore_iff.1 hbefore).1

namespace Loading

/-- The keywords that are loaded, and how many found no room. -/
def counted (l : Loading) : Bindings × Nat := (l.entries.ordered, l.dropped)

/-- The keywords that are loaded, and how many found no room, after one more keyword. -/
def count (s : Bindings × Nat) (keyword : String × Int) : Bindings × Nat :=
  (Bindings.bind Limits.built.maxKeywords s.1 keyword,
    if Limits.built.maxKeywords ≤ s.1.length then s.2 + 1 else s.2)

theorem count_counted (l : Loading) (keyword : String × Int) :
    count l.counted keyword = (l.add keyword.1 keyword.2).counted := by
  have hdropped : (l.add keyword.1 keyword.2).dropped =
      if Limits.built.maxKeywords ≤ l.entries.ordered.length then l.dropped + 1
      else l.dropped := by
    unfold add Entries.size
    split
    · rfl
    · split <;> rfl
  exact Prod.ext (entries_add l keyword.1 keyword.2).symm hdropped.symm

theorem foldl_count_counted (spellings : Spellings) (l : Loading) (c : Category) :
    (offered spellings c).foldl count l.counted = (l.addCategory spellings c).counted := by
  rw [List.foldl_hom counted count_counted, addCategory]
  split <;> rfl

end Loading

/-- The keywords on offer are taken and counted one after the other. -/
theorem foldl_count_offers (spellings : Spellings) :
    (offers spellings).foldl Loading.count ([], 0) =
      ((populate spellings).entries.ordered, dropped spellings) := by
  have hcounted : Category.all.foldl (fun s c => (offered spellings c).foldl Loading.count s)
      Loading.empty.counted =
        (Category.all.foldl (Loading.addCategory spellings) .empty).counted :=
    List.foldl_hom Loading.counted fun l c => Loading.foldl_count_counted spellings l c
  rw [← flatMap_offered, List.foldl_flatMap]
  exact hcounted

/-- What has been counted of keywords: those found no room before which the table is full, and all
keywords are among them whose spelling is not loaded. -/
structure Tally (keywords : Bindings) (s : Bindings × Nat) : Prop where
  subset : s.1 ⊆ keywords
  count_eq : s.2 = (keywords.filter fun keyword => isFullBefore s.1 keyword.2).length
  missing : ∀ keyword ∈ keywords,
    keyword.1 ∉ s.1.map Prod.fst → isFullBefore s.1 keyword.2 = true

namespace Tally

variable {keywords : Bindings} {s : Bindings × Nat} {last : String × Int}

/-- A keyword that finds the table full is dropped, and nothing else changes. -/
theorem count_of_full (h : Tally keywords s) (hlast : ∀ keyword ∈ keywords, keyword.2 < last.2)
    (hfull : Limits.built.maxKeywords ≤ s.1.length) :
    Tally (keywords ++ [last]) (Loading.count s last) := by
  have hcount : Loading.count s last = (s.1, s.2 + 1) := by
    rw [Loading.count, Bindings.bind, if_pos hfull, if_neg fun hroom => by omega]
  have hbefore : isFullBefore s.1 last.2 = true :=
    isFullBefore_iff.2 ⟨hfull, fun entry hentry => hlast entry (h.subset hentry)⟩
  rw [hcount]
  refine ⟨List.subset_append_of_subset_left _ h.subset, ?_, List.forall_mem_append.2
    ⟨h.missing, List.forall_mem_singleton.2 fun _ => hbefore⟩⟩
  rw [List.filter_append, List.length_append, ← h.count_eq]
  simp [hbefore]

/-- Keywords that are all loaded before the table is full count nothing. -/
theorem of_names (hsubset : s.1 ⊆ keywords) (hnone : s.2 = 0)
    (hbefore : ∀ keyword ∈ keywords, ¬isFullBefore s.1 keyword.2 = true)
    (hnames : ∀ keyword ∈ keywords, keyword.1 ∈ s.1.map Prod.fst) : Tally keywords s where
  subset := hsubset
  count_eq := by rw [hnone, List.filter_eq_nil_iff.2 hbefore, List.length_nil]
  missing := fun keyword hkeyword hnot => absurd (hnames keyword hkeyword) hnot

/-- As long as there is room, all keywords are loaded. -/
theorem names_of_room (h : Tally keywords s) (hroom : s.1.length < Limits.built.maxKeywords) :
    s.2 = 0 ∧ ∀ keyword ∈ keywords, keyword.1 ∈ s.1.map Prod.fst := by
  have hnever := not_isFullBefore_of_room hroom
  refine ⟨?_, fun keyword hkeyword => ?_⟩
  · rw [h.count_eq, List.filter_eq_nil_iff.2 fun keyword _ => hnever keyword.2, List.length_nil]
  · by_contra hnot
    exact hnever keyword.2 (h.missing keyword hkeyword hnot)

/-- A keyword that finds room is loaded, if its spelling is not loaded already. -/
theorem count_of_room (h : Tally keywords s) (hlast : ∀ keyword ∈ keywords, keyword.2 < last.2)
    (hroom : s.1.length < Limits.built.maxKeywords) :
    Tally (keywords ++ [last]) (Loading.count s last) := by
  obtain ⟨hnone, hnames⟩ := h.names_of_room hroom
  by_cases hmem : last.1 ∈ s.1.map Prod.fst
  · have hcount : Loading.count s last = s := by
      rw [Loading.count, Bindings.bind, if_neg fun hnew => hnew.2 hmem, if_neg (by omega)]
    rw [hcount]
    exact of_names (List.subset_append_of_subset_left _ h.subset) hnone
      (fun keyword _ => not_isFullBefore_of_room hroom keyword.2)
      (List.forall_mem_append.2 ⟨hnames, List.forall_mem_singleton.2 hmem⟩)
  · have hcount : Loading.count s last = (s.1 ++ [last], 0) := by
      rw [Loading.count, Bindings.bind, if_pos ⟨hroom, hmem⟩, if_neg (by omega), hnone]
    -- the table may be full now, but no id comes after that of the last keyword
    have hlate : ∀ keyword ∈ keywords ++ [last], ¬last.2 < keyword.2 :=
      List.forall_mem_append.2 ⟨fun keyword hkeyword =>
        Int.not_lt.2 (Int.le_of_lt (hlast keyword hkeyword)),
        List.forall_mem_singleton.2 (Int.lt_irrefl _)⟩
    rw [hcount]
    refine of_names (List.append_subset.2 ⟨List.subset_append_of_subset_left _ h.subset, by simp⟩)
      rfl (fun keyword hkeyword hbefore => ?_) ?_
    · exact hlate keyword hkeyword ((isFullBefore_iff.1 hbefore).2 last (by simp))
    · rw [List.map_append]
      exact List.forall_mem_append.2
        ⟨fun keyword hkeyword => List.mem_append_left _ (hnames keyword hkeyword),
          List.forall_mem_singleton.2 (List.mem_append_right _ List.mem_cons_self)⟩

end Tally

/-- Keywords with increasing ids are counted. -/
theorem tally_foldl_count {keywords : Bindings} (h : keywords.Pairwise fun a b => a.2 < b.2) :
    Tally keywords (keywords.foldl Loading.count ([], 0)) := by
  induction keywords using List.reverseRecOn with
  | nil => exact ⟨List.Subset.refl _, rfl, nofun⟩
  | append_singleton keywords last ih =>
    obtain ⟨hkeywords, -, hlast⟩ := List.pairwise_append.1 h
    have hlast : ∀ keyword ∈ keywords, keyword.2 < last.2 := fun keyword hkeyword =>
      hlast keyword hkeyword last List.mem_cons_self
    rw [List.foldl_append, List.foldl_cons, List.foldl_nil]
    by_cases hfull :
        Limits.built.maxKeywords ≤ (keywords.foldl Loading.count ([], 0)).1.length
    · exact (ih hkeywords).count_of_full hlast hfull
    · exact (ih hkeywords).count_of_room hlast (Nat.lt_of_not_le hfull)

theorem tally_populate (spellings : Spellings) :
    Tally (offers spellings) ((populate spellings).entries.ordered, dropped spellings) := by
  rw [← foldl_count_offers]
  exact tally_foldl_count (pairwise_offers spellings)

/-- A spelling that is not loaded is answered with -1. -/
theorem lookup_populate_eq_neg_one_iff {word : String} :
    (populate spellings).entries.lookup word = -1 ↔
      word ∉ (populate spellings).entries.ordered.map Prod.fst := by
  rw [Entries.lookup_eq_iff]
  refine ⟨fun hlookup => ?_, fun hno => Or.inr ⟨rfl, hno⟩⟩
  rcases hlookup with hmem | ⟨-, hno⟩
  · have hid := ((ordered_populate spellings).spelled _ hmem).2.1
    omega
  · exact hno

/-- The keywords that find no room are those that are not found afterwards, and those that are
found but are offered again when the table is full. -/
theorem dropped_eq (spellings : Spellings) :
    let loaded := (populate spellings).entries
    dropped spellings =
      ((offers spellings).filter fun offer => loaded.lookup offer.1 = -1).length +
        ((offers spellings).filter fun offer =>
          loaded.lookup offer.1 ≠ -1 && isFullBefore loaded.ordered offer.2).length := by
  intro loaded
  obtain ⟨-, hcount, hmissing⟩ := tally_populate spellings
  have hlost : (offers spellings).filter (fun offer => loaded.lookup offer.1 = -1) =
      (offers spellings).filter fun offer =>
        decide (loaded.lookup offer.1 = -1) && isFullBefore loaded.ordered offer.2 := by
    refine List.filter_congr fun offer hoffer => ?_
    by_cases hlookup : loaded.lookup offer.1 = -1
    · rw [hmissing offer hoffer (lookup_populate_eq_neg_one_iff.1 hlookup), Bool.and_true]
    · simp [hlookup]
  rw [hlost, ← List.filter_filter, ← List.filter_filter, ← List.countP_eq_length_filter,
    ← List.countP_eq_length_filter]
  refine hcount.trans
    ((List.length_eq_countP_add_countP fun offer => loaded.lookup offer.1 = -1).trans ?_)
  simp [loaded]

theorem filter_events_keywordTableFull (spellings : Spellings) :
    (populate spellings).events.filter (fun e => e.code = .keywordTableFull) =
      if 0 < dropped spellings then [Loading.fullWarning (dropped spellings)] else [] := by
  have hnone : (Loading.rangeWarnings spellings Category.all).filter
      (fun e => e.code = .keywordTableFull) = [] := by
    refine List.filter_eq_nil_iff.2 fun e he => ?_
    obtain ⟨c, -, rfl⟩ := List.mem_map.1 he
    simp [Code.keywordRangeExceeded, Code.keywordTableFull]
  rw [filter_events_populate (by decide), List.filter_append, List.filter_append, hnone]
  split <;> simp [Code.keywordTableFull, Code.keywordsLoaded]

/-- If a table is just full with the spellings that are offered first, all later offers find no
room. -/
theorem populate_of_offers_eq_append {keywords later : Bindings}
    (hoffers : offers spellings = keywords ++ later) (hnodup : (keywords.map Prod.fst).Nodup)
    (hlength : keywords.length = Limits.built.maxKeywords) :
    (populate spellings).entries.ordered = keywords ∧ dropped spellings = later.length := by
  have hprefix := Bindings.firsts_prefix_append keywords later
  rw [Bindings.firsts_eq_self_of_nodup hnodup] at hprefix
  have hentries : (populate spellings).entries.ordered = keywords := by
    rw [entries_populate, hoffers, ← hlength, ← List.prefix_iff_eq_take.1 hprefix]
  have hincreasing := pairwise_offers spellings
  rw [hoffers, List.pairwise_append] at hincreasing
  have hbefore : ∀ keyword ∈ keywords, ¬isFullBefore keywords keyword.2 = true := by
    intro keyword hkeyword hfull
    exact Int.lt_irrefl _ ((isFullBefore_iff.1 hfull).2 keyword hkeyword)
  have hafter : ∀ offer ∈ later, isFullBefore keywords offer.2 = true := fun offer hoffer =>
    isFullBefore_iff.2 ⟨hlength.ge, fun keyword hkeyword =>
      hincreasing.2.2 keyword hkeyword offer hoffer⟩
  have hcount := (tally_populate spellings).count_eq
  rw [hentries, hoffers, List.filter_append, List.filter_eq_nil_iff.2 hbefore,
    List.filter_eq_self.2 hafter] at hcount
  exact ⟨hentries, hcount⟩

theorem toString_injective : Function.Injective fun n : Nat => toString n := by
  intro a b hab
  have hdigits : Nat.toDigits 10 a = Nat.toDigits 10 b := by
    simpa only [Nat.toString_eq_ofList_toDigits, String.ofList_inj] using hab
  calc
    a = Nat.ofDigitChars 10 (Nat.toDigits 10 a) 0 := Nat.ofDigitChars_ten_toDigits.symm
    _ = Nat.ofDigitChars 10 (Nat.toDigits 10 b) 0 := by rw [hdigits]
    _ = b := Nat.ofDigitChars_ten_toDigits

/-! ## Tables -/

namespace Table

/-- A command reports the events of loading if it fills the table, and none otherwise. -/
theorem events_run (spellings : Spellings) (commands : List Command) (c : Command) :
    (c.run (afterCommands spellings commands)).2.2.events =
      if c.needsEntries = true ∧ (afterCommands spellings commands).isPopulated = false then
        (populate spellings).events
      else [] := by
  rw [(faithful_afterCommands spellings commands).effects_run]
  split <;> rfl

theorem Faithful.lookup_run {t : Table} (h : t.Faithful spellings) {word : String} {id : Int} :
    ((Command.lookup word).run t).1 = .id id ↔ (populate spellings).entries.lookup word = id := by
  rw [h.fst_run rfl, Command.answer, Reply.id.injEq]

/-- A table warns when it is filled and has no room for some keywords. It counts those that are not
found afterwards, and also those that are found but are offered again at a later id, when the table
is full. -/
theorem full_warning (spellings : Spellings) (commands : List Command) (c : Command) :
    let t := afterCommands spellings commands
    let missing := (offers spellings).filter fun offer =>
      ((Command.lookup offer.1).run (c.run t).2.1).1 = .id (-1)
    let repeated := (offers spellings).filter fun offer =>
      ((Command.lookup offer.1).run (c.run t).2.1).1 ≠ .id (-1) &&
        isFullBefore (populate spellings).entries.ordered offer.2
    (c.run t).2.2.events.filter (fun e => e.code = .keywordTableFull) =
      if c.needsEntries = true ∧ t.isPopulated = false ∧ 0 < missing.length + repeated.length then
        [Loading.fullWarning (missing.length + repeated.length)]
      else [] := by
  intro t missing repeated
  have hfilled : (c.run t).2.1.Faithful spellings :=
    (faithful_afterCommands spellings commands).run c
  have hdropped : dropped spellings = missing.length + repeated.length := by
    simp only [missing, repeated, ne_eq, hfilled.lookup_run]
    exact dropped_eq spellings
  rw [events_run, ← hdropped]
  by_cases hfills : c.needsEntries = true ∧ t.isPopulated = false
  · rw [if_pos hfills, filter_events_keywordTableFull]
    simp [hfills]
  · rw [if_neg hfills, if_neg fun h => hfills ⟨h.1, h.2.1⟩]
    rfl

end Table

namespace Lists

variable {lists : Lists}

/-- The warning is not just about lost keywords: a table that has all spellings of accepted lists
counts one that stands in two of them as dropped. -/
theorem fullWarning_of_repeated_spelling :
    let lists : Lists := ⟨(List.range' 0 70).map toString, (List.range' 70 70).map toString,
      (List.range' 140 60).map toString, ["0"]⟩
    ∃ spellings, lists.spellings = .ok spellings ∧
      Loading.fullWarning 1 ∈ (Command.populate.run (Table.ofSpellings spellings)).2.2.events ∧
      ∀ offer ∈ offers spellings, ((Command.lookup offer.1).run
        (Command.populate.run (Table.ofSpellings spellings)).2.1).1 ≠ .id (-1) := by
  intro lists
  have hfits (c : Category) : FitsCategory (lists.get c) := by cases c <;> decide +kernel
  let spellings := Spellings.ofLists lists.get
  let keywords : Bindings :=
    [.language, .declaration, .value].flatMap fun c : Category => c.keywords (lists.get c)
  have hoffers : offers spellings = keywords ++ [("0", 2300)] := by
    have hall : Category.all = [.language, .declaration, .value] ++ [.operator] := rfl
    rw [offers_ofLists hfits, hall, List.flatMap_append]
    rfl
  have hnames : keywords.map Prod.fst = (List.range' 0 200).map toString := by decide +kernel
  have hnodup : (keywords.map Prod.fst).Nodup := by
    rw [hnames]
    exact List.Nodup.map toString_injective List.nodup_range'
  have hlength : keywords.length = Limits.built.maxKeywords := by
    rw [← List.length_map Prod.fst, hnames, List.length_map, List.length_range']
    rfl
  obtain ⟨hentries, hdropped⟩ := populate_of_offers_eq_append hoffers hnodup hlength
  have hwarned : Loading.fullWarning 1 ∈ (populate spellings).events := by
    refine List.mem_of_mem_filter (p := fun e => e.code = .keywordTableFull) ?_
    rw [filter_events_keywordTableFull, hdropped]
    exact List.mem_cons_self
  have hloaded : ∀ offer ∈ offers spellings, offer.1 ∈ keywords.map Prod.fst := by
    rw [hoffers]
    refine List.forall_mem_append.2 ⟨fun keyword => List.mem_map_of_mem,
      List.forall_mem_singleton.2 ?_⟩
    rw [hnames]
    exact List.mem_map_of_mem (List.mem_range'_1.2 (by decide : 0 ≤ 0 ∧ 0 < 0 + 200))
  have hfaithful := (Table.faithful_afterCommands spellings []).run .populate
  refine ⟨spellings, spellings_eq_ok_iff.2 ⟨hfits, rfl⟩, hwarned, fun offer hoffer hlookup => ?_⟩
  refine lookup_populate_eq_neg_one_iff.1 (hfaithful.lookup_run.1 hlookup) ?_
  rw [hentries]
  exact hloaded offer hoffer

/-- A table over accepted lists that is filled warns about each category whose list has as many
spellings as there are ids, though no list has more. -/
theorem range_warnings (h : lists.spellings = .ok spellings) (commands : List Command)
    (c : Command) :
    (∀ category, (lists.get category).length ≤ categoryWidth) ∧
      (c.run (Table.afterCommands spellings commands)).2.2.events.filter
          (fun e => e.code = .keywordRangeExceeded) =
        if c.needsEntries = true ∧
            (Table.afterCommands spellings commands).isPopulated = false then
          (Category.all.filter fun category => (lists.get category).length = categoryWidth).map
            Loading.rangeWarning
        else [] := by
  obtain ⟨hfits, rfl⟩ := spellings_eq_ok_iff.1 h
  refine ⟨fun category => (hfits category).1, ?_⟩
  have hfull : (Category.all.filter fun category => (offered (Spellings.ofLists lists.get)
      category).length = categoryWidth) =
        Category.all.filter fun category => (lists.get category).length = categoryWidth :=
    List.filter_congr fun category _ => by rw [length_offered_ofLists (hfits category)]
  rw [Table.events_run, ← hfull, ← Loading.rangeWarnings, ← filter_events_keywordRangeExceeded]
  split <;> rfl

/-- There is one warning for each of two full lists. -/
theorem range_warnings_of_full_lists :
    let lists : Lists :=
      ⟨(List.range 100).map toString, (List.range' 100 100).map toString, [], []⟩
    ∃ spellings, lists.spellings = .ok spellings ∧
      (Command.populate.run (Table.ofSpellings spellings)).2.2.events.filter
          (fun e => e.code = .keywordRangeExceeded) =
        [Loading.rangeWarning .language, Loading.rangeWarning .declaration] := by
  intro lists
  have hfits (c : Category) : FitsCategory (lists.get c) := by cases c <;> decide +kernel
  have haccepted := spellings_eq_ok_iff.2 ⟨hfits, rfl⟩
  have hfull : (Category.all.filter fun c => (lists.get c).length = categoryWidth) =
      [.language, .declaration] := by decide +kernel
  refine ⟨_, haccepted, ?_⟩
  have hwarnings := (range_warnings haccepted [] .populate).2
  rwa [hfull] at hwarnings

/-- The warning is not about lists that are too long: accepted lists have it. -/
theorem rangeWarning_of_full_list :
    let lists : Lists := ⟨(List.range 100).map toString, [], [], []⟩
    ∃ spellings, lists.spellings = .ok spellings ∧
      ∃ e ∈ (Command.populate.run (Table.ofSpellings spellings)).2.2.events,
        e.code = .keywordRangeExceeded := by
  intro lists
  have hfits (c : Category) : FitsCategory (lists.get c) := by cases c <;> decide +kernel
  refine ⟨_, spellings_eq_ok_iff.2 ⟨hfits, rfl⟩, Loading.rangeWarning .language, ?_, by simp⟩
  refine List.mem_of_mem_filter (p := fun e => e.code = .keywordRangeExceeded) ?_
  have hwarnings := filter_events_keywordRangeExceeded (Spellings.ofLists lists.get)
  have hfull : (offered (Spellings.ofLists lists.get) .language).length = categoryWidth := by
    rw [length_offered_ofLists (hfits .language)]
    decide +kernel
  exact hwarnings.symm ▸ List.mem_map_of_mem (List.mem_filter.2 ⟨by decide, by simpa using hfull⟩)

end Lists

end RobotScript.Keyword
