import RobotScript.Constant.Table
import RobotScript.Proofs.WriteOnce

/-!
# What a table of constants holds

A table of constants has room for some names, and binds a name that is no empty text once. Its map
and its list of names stand for one list of bindings. Whatever was done to the table, it holds the
bindings that it reported since it was last cleared, and these are the first ones that were asked
for each name, as far as there is room.

Results:

* `Constant.Table.outcome_define`: what comes of binding a name, and what the table is then.
* `Constant.Table.entries_afterCommands`: what a table holds, from what was asked of it.
* `Constant.foldl_note_transcript`: what a table holds, from its answers.
* `Constant.Table.records_afterCommands`: all answers of a table after any commands.
-/

namespace RobotScript.Constant

/-! ## Binding a name -/

/-- What comes of binding a name when given names are bound. An empty name is reported before a name
that is bound, and that before the lack of room. -/
inductive Outcome (limit : Nat) (bound : Bindings) (name : String) : Except DefineError Unit → Prop
  | bound : name ≠ "" → name ∉ bound.map Prod.fst → bound.length < limit →
      Outcome limit bound name (.ok ())
  | emptyName : name = "" → Outcome limit bound name (.error .emptyName)
  | duplicate : name ≠ "" → name ∈ bound.map Prod.fst →
      Outcome limit bound name (.error (.duplicate name))
  | full : name ≠ "" → name ∉ bound.map Prod.fst → limit ≤ bound.length →
      Outcome limit bound name (.error (.full name limit))

/-- There is just one outcome. -/
theorem Outcome.unique {limit : Nat} {bound : Bindings} {name : String}
    {outcome outcome' : Except DefineError Unit} (h : Outcome limit bound name outcome)
    (h' : Outcome limit bound name outcome') : outcome = outcome' := by
  cases h <;> cases h' <;> first | rfl | contradiction | omega

namespace Table

/-- The map and the list of a table hold its bindings. -/
theorem indexes_entries (t : Table) :
    Indexes t.values t.entries ∧ t.order = t.entries.map Prod.fst := by
  obtain ⟨bound, hbound, horder⟩ := t.inStep
  have hentries : t.entries = bound := by
    rw [entries, horder]
    exact hbound.filterMap_getElem?
  rw [hentries]
  exact ⟨hbound, horder⟩

theorem size_eq (t : Table) : t.size = t.entries.length := t.indexes_entries.1.size_eq

theorem nodup (t : Table) : (t.entries.map Prod.fst).Nodup := t.indexes_entries.1.nodup

theorem contains_iff {t : Table} {name : String} :
    t.contains name = true ↔ name ∈ t.entries.map Prod.fst := t.indexes_entries.1.contains_iff

theorem resolve_eq_some_iff {t : Table} {name : String} {value : Int} :
    t.resolve name = some value ↔ (name, value) ∈ t.entries :=
  t.indexes_entries.1.getElem?_eq_some_iff

theorem entries_bind (t : Table) (name : String) (value : Int) (h : ¬t.contains name = true) :
    (t.bind name value h).entries = t.entries ++ [(name, value)] := by
  obtain ⟨hindexes, horder⟩ := t.indexes_entries
  have hbound := (hindexes.insert h value).filterMap_getElem?
  rw [List.map_append, ← horder] at hbound
  exact hbound

/-- A name is bound at the end of the list, or the table stays as it is. -/
theorem outcome_define (t : Table) (name : String) (value : Int) :
    Outcome t.limit t.entries name (t.define name value).1 ∧
      match (t.define name value).1 with
      | .ok () => (t.define name value).2.1.limit = t.limit ∧
          (t.define name value).2.1.entries = t.entries ++ [(name, value)]
      | .error _ => (t.define name value).2.1 = t := by
  unfold define insert
  by_cases hempty : name = ""
  · rw [if_pos hempty]
    exact ⟨.emptyName hempty, rfl⟩
  rw [if_neg hempty]
  by_cases hbound : t.contains name = true
  · rw [dif_pos hbound]
    exact ⟨.duplicate hempty (contains_iff.1 hbound), rfl⟩
  rw [dif_neg hbound]
  have hnew : name ∉ t.entries.map Prod.fst := fun h => hbound (contains_iff.2 h)
  by_cases hfull : t.limit ≤ t.size
  · rw [if_pos hfull]
    exact ⟨.full hempty hnew (t.size_eq ▸ hfull), rfl⟩
  · rw [if_neg hfull]
    exact ⟨.bound hempty hnew (t.size_eq ▸ Nat.lt_of_not_le hfull), rfl,
      t.entries_bind name value hbound⟩

/-- A name that is no empty text is bound as in a list with room for some names. -/
theorem entries_define (t : Table) (name : String) (value : Int) :
    (t.define name value).2.1.entries =
      if name = "" then t.entries else Bindings.bind t.limit t.entries (name, value) := by
  obtain ⟨houtcome, htable⟩ := t.outcome_define name value
  rw [Bindings.bind]
  generalize (t.define name value).1 = outcome at houtcome htable
  cases houtcome with
  | bound hname hnew hroom => rw [htable.2, if_neg hname, if_pos ⟨hroom, hnew⟩]
  | emptyName hname => rw [htable, if_pos hname]
  | duplicate hname hmem => rw [htable, if_neg hname, if_neg fun h => h.2 hmem]
  | full hname _ hfull => rw [htable, if_neg hname, if_neg fun h => Nat.not_lt.2 hfull h.1]

theorem limit_define (t : Table) (name : String) (value : Int) :
    (t.define name value).2.1.limit = t.limit := by
  obtain ⟨-, htable⟩ := t.outcome_define name value
  split at htable
  · exact htable.1
  · rw [htable]

end Table

/-! ## Histories -/

/-- The table after commands on one without constants. -/
def Table.afterCommands (limit : Nat) (commands : List Command) : Table :=
  commands.foldl (fun t c => (c.run t).2.1) (.withLimit limit)

/-- The bindings that are asked for after one more command. -/
def ask (bs : Bindings) : Command → Bindings
  | .define name value => bs ++ [(name, value)]
  | .reset => []
  | _ => bs

/-- The bindings that commands ask for after the last of them that clears the table. -/
def asked (commands : List Command) : Bindings := commands.foldl ask []

/-- What a list with room for some names holds of bindings that are asked for: the empty text is no
name. -/
def bindAll (limit : Nat) (bs : Bindings) : Bindings :=
  (bs.filter fun b => b.1 != "").foldl (Bindings.bind limit) []

/-- Commands to a table with the answers to them. -/
def transcript (t : Table) : List Command → List (Command × Reply)
  | [] => []
  | c :: commands => (c, (c.run t).1) :: transcript (c.run t).2.1 commands

/-- The bindings after one more command, by the answer to it. -/
def note (bs : Bindings) : Command × Reply → Bindings
  | (.define name value, .defined (.ok ())) => bs ++ [(name, value)]
  | (.reset, _) => []
  | _ => bs

/-- The bindings that were reported as made, after the last command that clears the table. -/
def reported (log : List (Command × Reply)) : Bindings := log.foldl note []

/-- A table holds what is noted of its answers. -/
theorem note_run (t : Table) (c : Command) :
    note t.entries (c, (c.run t).1) = (c.run t).2.1.entries := by
  cases c with
  | define name value =>
    obtain ⟨-, htable⟩ := t.outcome_define name value
    show note t.entries (.define name value, .defined (t.define name value).1) =
      (t.define name value).2.1.entries
    generalize (t.define name value).1 = outcome at htable ⊢
    cases outcome with
    | ok => exact htable.2.symm
    | error => rw [htable]; rfl
  | _ => rfl

theorem foldl_note_transcript (t : Table) (commands : List Command) :
    (transcript t commands).foldl note t.entries =
      (commands.foldl (fun t (c : Command) => (c.run t).2.1) t).entries := by
  induction commands generalizing t with
  | nil => rfl
  | cons c commands ih => rw [transcript, List.foldl_cons, note_run, ih, List.foldl_cons]

namespace Table

theorem limit_run (t : Table) (c : Command) : (c.run t).2.1.limit = t.limit := by
  cases c with
  | define name value => exact t.limit_define name value
  | _ => rfl

/-- A command leaves a table with what it holds of the bindings that are asked for. -/
theorem entries_run {t : Table} {bs : Bindings} (h : t.entries = bindAll t.limit bs)
    (c : Command) : (c.run t).2.1.entries = bindAll t.limit (ask bs c) := by
  cases c with
  | define name value =>
    have hentries : (t.define name value).2.1.entries = _ := t.entries_define name value
    rw [ask, bindAll, List.filter_append, List.foldl_append, ← bindAll, ← h]
    refine hentries.trans ?_
    by_cases hname : name = "" <;> simp [hname]
  | reset => rfl
  | _ => exact h

theorem entries_foldl_run {t : Table} {bs : Bindings} (h : t.entries = bindAll t.limit bs)
    (commands : List Command) :
    (commands.foldl (fun t (c : Command) => (c.run t).2.1) t).entries =
      bindAll t.limit (commands.foldl ask bs) := by
  induction commands generalizing t bs with
  | nil => exact h
  | cons c commands ih =>
    have hrun := entries_run h c
    rw [← limit_run t c] at hrun
    rw [List.foldl_cons, ih hrun, limit_run, List.foldl_cons]

theorem limit_foldl_run (t : Table) (commands : List Command) :
    (commands.foldl (fun t (c : Command) => (c.run t).2.1) t).limit = t.limit := by
  induction commands generalizing t with
  | nil => rfl
  | cons c commands ih => rw [List.foldl_cons, ih, limit_run]

/-- A table holds the first binding that was asked for each name, as far as there is room. -/
theorem entries_afterCommands (limit : Nat) (commands : List Command) :
    (afterCommands limit commands).entries =
      (Bindings.firsts ((asked commands).filter fun b => b.1 != "")).take limit := by
  have hstart : (withLimit limit).entries = bindAll limit [] := rfl
  exact (entries_foldl_run hstart commands).trans (Bindings.foldl_bind limit _)

/-- No constant has the empty name. -/
def Named (t : Table) : Prop := ∀ entry ∈ t.entries, entry.1 ≠ ""

theorem named_afterCommands (limit : Nat) (commands : List Command) :
    (afterCommands limit commands).Named := by
  intro entry hentry
  rw [entries_afterCommands] at hentry
  have hasked := (Bindings.firsts_sublist _).subset ((List.take_sublist _ _).subset hentry)
  simpa using (List.mem_filter.1 hasked).2

theorem length_afterCommands_le (limit : Nat) (commands : List Command) :
    (afterCommands limit commands).entries.length ≤ limit := by
  rw [entries_afterCommands]
  exact List.length_take_le _ _

/-! ## Answers -/

/-- What a table answers that holds given bindings and has room for `limit` names. -/
structure Records (limit : Nat) (bound : Bindings) (t : Table) : Prop where
  listing : (Command.listing.run t).1 = .entries bound
  resolve (name : String) : ∃ v, ((Command.resolve name).run t).1 = .value v ∧
    ∀ value, v = some value ↔ (name, value) ∈ bound
  contains (name : String) : ∃ b, ((Command.contains name).run t).1 = .truth b ∧
    (b = true ↔ name ∈ bound.map Prod.fst)
  state : (Command.state.run t).1 = .state bound.length limit
  distinct : (bound.map Prod.fst).Nodup
  named : ∀ b ∈ bound, b.1 ≠ ""
  length_le : bound.length ≤ limit
  define (name : String) (value : Int) (outcome : Except DefineError Unit) :
    ((Command.define name value).run t).1 = .defined outcome ↔ Outcome limit bound name outcome
  /-- A table that reports an error is the same afterwards. -/
  unchanged (name : String) (value : Int) (e : DefineError) :
    ((Command.define name value).run t).1 = .defined (.error e) →
      ((Command.define name value).run t).2.1 = t

/-- A table answers from what it holds, if that is as it is after commands. -/
theorem records_self {t : Table} (hnamed : t.Named) (hlength : t.entries.length ≤ t.limit) :
    t.Records t.limit t.entries where
  listing := rfl
  resolve name := ⟨t.resolve name, rfl, fun _ => resolve_eq_some_iff⟩
  contains name := ⟨t.contains name, rfl, contains_iff⟩
  state := by
    rw [Command.run, size_eq]
  distinct := t.nodup
  named := hnamed
  length_le := hlength
  define name value outcome := by
    obtain ⟨houtcome, -⟩ := t.outcome_define name value
    rw [Command.run, Reply.defined.injEq]
    constructor
    · rintro rfl
      exact houtcome
    · exact houtcome.unique
  unchanged name value e herror := by
    obtain ⟨-, htable⟩ := t.outcome_define name value
    rw [Command.run, Reply.defined.injEq] at herror
    rw [herror] at htable
    exact htable

/-- Whatever was done to a table, it holds the bindings that it reported after it was last cleared.
They are the first ones that were asked for each name, as far as there is room. -/
theorem records_afterCommands (limit : Nat) (commands : List Command) :
    let bound := reported (transcript (withLimit limit) commands)
    (afterCommands limit commands).Records limit bound ∧
      bound = (Bindings.firsts ((asked commands).filter fun b => b.1 != "")).take limit := by
  intro bound
  have hentries : (afterCommands limit commands).entries = bound :=
    (foldl_note_transcript (withLimit limit) commands).symm
  have hlimit : (afterCommands limit commands).limit = limit :=
    limit_foldl_run (withLimit limit) commands
  have hlength := length_afterCommands_le limit commands
  have hrecords := records_self (named_afterCommands limit commands) (hlimit.symm ▸ hlength)
  rw [hentries, hlimit] at hrecords
  exact ⟨hrecords, by rw [← hentries, entries_afterCommands]⟩

end Table

end RobotScript.Constant
