import RobotScript.Lexer
import RobotScript.Proofs.Constants
import RobotScript.Proofs.Loading

/-!
# What a lexer remembers

A lexer keeps a keyword table, which is filled when it is first asked for something, constants,
preferences, and the results for the latest source. Whatever a host asked of it before, it finds in
a source what a new lexer finds: the keyword table has either nothing loaded or what its spellings
offer, the constants are those that can be bound again in their order, and the results for one
source are not looked at for the next.

Results:

* `Constant.Table.Rebuilds.define`: a table is rebuilt by binding its names in their order.
* `Lexer.Consistent.run`, `Lexer.Consistent.afterCommands`: both hold of a lexer after any commands.
* `Lexer.findings_afterCommands`: what a lexer finds after any commands.
-/

namespace RobotScript

/-! ## Constants -/

namespace Constant.Table

/-- The table after names are bound to values, one after the other. -/
def ofDefinitions (limit : Nat) (definitions : List (String × Int)) : Table :=
  definitions.foldl (fun t d => (t.define d.1 d.2).2.1) (withLimit limit)

/-- The names of the table, bound again in their order, give the table. -/
structure Rebuilds (limit : Nat) (t : Table) : Prop where
  limit_eq : t.limit = limit
  rebuilt : ofDefinitions limit t.entries = t

variable {limit : Nat} {t : Table}

theorem rebuilds_withLimit (limit : Nat) : (withLimit limit).Rebuilds limit := ⟨rfl, rfl⟩

theorem Rebuilds.reset (h : t.Rebuilds limit) : t.reset.1.Rebuilds limit := by
  rw [Table.reset, h.limit_eq]
  exact rebuilds_withLimit limit

theorem Rebuilds.define (h : t.Rebuilds limit) (name : String) (value : Int) :
    (t.define name value).2.1.Rebuilds limit := by
  obtain ⟨-, htable⟩ := t.outcome_define name value
  cases houtcome : (t.define name value).1 with
  | error e =>
    rw [houtcome] at htable
    rwa [htable]
  | ok =>
    rw [houtcome] at htable
    refine ⟨(t.limit_define name value).trans h.limit_eq, ?_⟩
    -- the new name is bound last, when the table is `t` again
    have hbefore := h.rebuilt
    rw [ofDefinitions] at hbefore
    rw [ofDefinitions, htable.2, List.foldl_append, hbefore]
    rfl

end Constant.Table

/-! ## Lexers -/

namespace Lexer

/-- The lexer after commands, each with the time that it takes. -/
def afterCommands (l : Lexer) (commands : List (Nat × Command)) : Lexer :=
  commands.foldl (fun l c => (c.2.run c.1 l).2.1) l

/-- The tables of a lexer are as they can be after commands. -/
structure Consistent (spellings : Keyword.Spellings) (l : Lexer) : Prop where
  keywords : l.keywords.Faithful spellings
  constants : l.constants.Rebuilds Limits.built.maxConstants

variable {spellings : Keyword.Spellings} {l : Lexer}

theorem consistent_ofKeywords (spellings : Keyword.Spellings) (preferences : LexicalPreferences) :
    (ofKeywords (.ofSpellings spellings) preferences).Consistent spellings :=
  ⟨Keyword.Table.faithful_ofSpellings spellings, Constant.Table.rebuilds_withLimit _⟩

/-- The keywords for a source that is not empty are those that the spellings offer. -/
theorem Consistent.keywordsFor (h : l.Consistent spellings) (source : String) :
    (source ≠ "" → (Lexer.keywordsFor source l.keywords).1 = (Keyword.populate spellings).entries) ∧
      (Lexer.keywordsFor source l.keywords).2.1.Faithful spellings := by
  unfold Lexer.keywordsFor
  split
  · exact ⟨fun hne => absurd ‹source = ""› hne, h.keywords⟩
  · exact ⟨fun _ => h.keywords.force.1, h.keywords.force.2⟩

theorem Consistent.tokenize (h : l.Consistent spellings) (elapsed : Nat) (source : String) :
    (l.tokenize elapsed source).2.1.Consistent spellings := by
  have htable := (h.keywordsFor source).2
  rcases hkeywords : Lexer.keywordsFor source l.keywords with ⟨entries, keywords, effects⟩
  rw [hkeywords] at htable
  rw [Lexer.tokenize, hkeywords]
  cases hscan : Stream.scan? ⟨entries, l.constants⟩ source with
  | none => simpa only [hscan] using ⟨h.keywords, h.constants⟩
  | some found => simpa only [hscan] using ⟨htable, h.constants⟩

/-- A command leaves tables as they can be. -/
theorem Consistent.run (h : l.Consistent spellings) (elapsed : Nat) (c : Command) :
    (c.run elapsed l).2.1.Consistent spellings := by
  cases c with
  | tokenize source => exact h.tokenize elapsed source
  | define name value => exact ⟨h.keywords, h.constants.define name value⟩
  | resetConstants => exact ⟨h.keywords, h.constants.reset⟩
  | resetKeywords => exact ⟨h.keywords.reset, h.constants⟩
  | lookup word => exact ⟨h.keywords.force.2, h.constants⟩
  | resolve word => exact h
  | prefer preferences => exact ⟨h.keywords, h.constants⟩
  | state => exact h

theorem Consistent.afterCommands (h : l.Consistent spellings) (commands : List (Nat × Command)) :
    (l.afterCommands commands).Consistent spellings := by
  induction commands generalizing l with
  | nil => exact h
  | cons c commands ih => exact ih (h.run c.1 c.2)

/-! ## What a lexer finds -/

/-- What a lexer finds in a source: the stream, the counts and the problems. -/
def findings (l : Lexer) (elapsed : Nat) (source : String) :
    Option Stream × Metrics × List Diagnostic :=
  let (stream, l, _) := l.tokenize elapsed source
  (stream, l.metrics, l.diagnostics)

/-- What is found in a source with given keywords, constants and preferences. -/
def findingsWith (v : Vocabulary) (preferences : LexicalPreferences) (source : String) :
    Option Stream × Metrics × List Diagnostic :=
  match Stream.scan? v source with
  | none => (none, .ofSize 0, [])
  | some (stream, scanner) =>
    (some stream, measure preferences.detailedMetrics source.utf8ByteSize stream scanner,
      Diagnostic.ofStream stream scanner)

theorem fst_findingsWith (v : Vocabulary) (preferences : LexicalPreferences) (source : String) :
    (findingsWith v preferences source).1 = Stream.tokenize v source := by
  unfold findingsWith Stream.tokenize
  cases Stream.scan? v source <;> rfl

/-- What a lexer finds follows from its spellings, constants and preferences. -/
theorem Consistent.findings_eq (h : l.Consistent spellings) (elapsed : Nat) (source : String) :
    l.findings elapsed source =
      findingsWith ⟨(Keyword.populate spellings).entries, l.constants⟩ l.preferences source := by
  by_cases hne : source = ""
  · subst hne
    rfl
  · have hentries := (h.keywordsFor source).1 hne
    rcases hkeywords : Lexer.keywordsFor source l.keywords with ⟨entries, keywords, effects⟩
    rw [hkeywords] at hentries
    subst hentries
    unfold findings Lexer.tokenize findingsWith
    rw [hkeywords]
    cases hscan : Stream.scan? ⟨(Keyword.populate spellings).entries, l.constants⟩ source with
    | none => simp only [hscan]
    | some found => simp only [hscan]

/-- A new lexer in which names have been bound to values, one after the other. -/
def fresh (spellings : Keyword.Spellings) (preferences : LexicalPreferences)
    (definitions : List (String × Int)) : Lexer :=
  (ofKeywords (.ofSpellings spellings) preferences).afterCommands
    (definitions.map fun d => (0, .define d.1 d.2))

theorem afterCommands_define (l : Lexer) (definitions : List (String × Int)) :
    l.afterCommands (definitions.map fun d => (0, .define d.1 d.2)) =
      { l with
        constants := definitions.foldl (fun t d => (t.define d.1 d.2).2.1) l.constants } := by
  induction definitions generalizing l with
  | nil => rfl
  | cons d definitions ih =>
    rw [List.map_cons, List.foldl_cons]
    exact ih _

/-- A lexer's constants are those of a new lexer in which they are bound in their order. -/
theorem Consistent.constants_fresh (h : l.Consistent spellings) (preferences : LexicalPreferences) :
    (fresh spellings preferences l.constants.entries).constants = l.constants := by
  rw [fresh, afterCommands_define]
  exact h.constants.rebuilt

theorem preferences_fresh (spellings : Keyword.Spellings) (preferences : LexicalPreferences)
    (definitions : List (String × Int)) :
    (fresh spellings preferences definitions).preferences = preferences := by
  rw [fresh, afterCommands_define]
  rfl

/-- Whatever was asked of a lexer, it finds in a source what a new lexer with its spellings,
constants and preferences finds. The stream is that of a new keyword table and the constants, and
nothing is found in an empty source. -/
theorem findings_afterCommands (spellings : Keyword.Spellings) (preferences : LexicalPreferences)
    (commands : List (Nat × Command)) (elapsed elapsed' : Nat) (source : String) :
    let l := (ofKeywords (.ofSpellings spellings) preferences).afterCommands commands
    let new := fresh spellings l.preferences l.constants.entries
    (l.findings elapsed source).1 =
        Stream.tokenize ⟨(Keyword.Table.ofSpellings spellings).force.1, l.constants⟩ source ∧
      new.constants = l.constants ∧
      l.findings elapsed source = new.findings elapsed' source ∧
      l.findings elapsed "" = (none, .ofSize 0, []) := by
  intro l new
  have hl : l.Consistent spellings :=
    (consistent_ofKeywords spellings preferences).afterCommands commands
  have hnew : new.Consistent spellings :=
    (consistent_ofKeywords spellings l.preferences).afterCommands _
  have hconstants : new.constants = l.constants := hl.constants_fresh l.preferences
  have hpreferences : new.preferences = l.preferences := preferences_fresh _ _ _
  refine ⟨?_, hconstants, ?_, ?_⟩
  · rw [hl.findings_eq, fst_findingsWith, (Keyword.Table.faithful_ofSpellings spellings).force.1]
  · rw [hl.findings_eq, hnew.findings_eq, hconstants, hpreferences]
  · rw [hl.findings_eq]
    rfl

end Lexer

end RobotScript
