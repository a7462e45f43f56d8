import RobotScript.Index
import RobotScript.Keyword.Builtin
import RobotScript.Limits
import RobotScript.Log.Event

/-!
# Keyword tables

Models of `KeywordTable`: `new`, `builtin`, `lookup`, `is_keyword`, `spelling`, `populate`,
`is_populated`, `reset`, `len`, `is_empty`, `iter` and its debug form, with `KeywordEntries` and
`load_entries`. A table maps spellings to ids. It is filled from its spellings when it is first
asked for something, and stays filled until it is reset.

* A call gives the table afterwards. What filling it asks for and reports is returned as data.
* `Entries`: a map and a list, as in the program, with the invariant that they are in step.
* `offered`: the spellings of a category up to the empty one, and after that what becomes of each.
  The program asks for a spelling once it has dealt with the one before.
* `Entries.countOf`: the keywords of a category are counted by their ids when all are loaded. The
  program has a counter for each category.
-/

namespace RobotScript.Keyword

open Log (Event)

/-! ## Loading -/

/-- Loaded keywords: a map from spellings to ids, and the spellings with their ids in the order of
loading. -/
structure Entries where
  bySpelling : Std.TreeMap String Int
  ordered : List (String × Int)
  /-- Both have the same keywords. -/
  inStep : Indexes bySpelling ordered
  deriving Repr

namespace Entries

/-- No keywords. -/
def empty : Entries := ⟨∅, [], .empty⟩

instance : Inhabited Entries := ⟨empty⟩

instance : Membership (String × Int) Entries := ⟨fun entries entry => entry ∈ entries.ordered⟩

instance (entry : String × Int) (entries : Entries) : Decidable (entry ∈ entries) :=
  inferInstanceAs (Decidable (entry ∈ entries.ordered))

/-- The keywords with one more, whose spelling is new. -/
def insert (entries : Entries) (spelling : String) (id : Int)
    (h : ¬entries.bySpelling.contains spelling = true) : Entries :=
  ⟨entries.bySpelling.insert spelling id, entries.ordered ++ [(spelling, id)],
    entries.inStep.insert h id⟩

/-- The id of a spelling, or -1 if the spelling is not loaded. -/
def lookup (entries : Entries) (word : String) : Int := entries.bySpelling[word]?.getD (-1)

/-- The spelling of an id, if one is loaded. -/
def spelling? (entries : Entries) (id : Int) : Option String :=
  (entries.ordered.find? fun entry => entry.2 == id).map Prod.fst

/-- Whether a spelling is loaded. -/
def knows (entries : Entries) (word : String) : Bool := 0 < entries.lookup word

/-- The number of loaded keywords. -/
def size (entries : Entries) : Nat := entries.ordered.length

/-- The number of loaded keywords of a category. -/
def countOf (entries : Entries) (c : Category) : Nat :=
  entries.ordered.countP fun entry => c.has entry.2

end Entries

/-- The keywords that spellings offer for a category: up to the first id without a spelling. -/
def offered (spellings : Spellings) (c : Category) : List (String × Int) :=
  (c.ids.map fun id => (spellings id, id)).takeWhile fun entry => entry.1 != ""

/-- The ids that are asked for while a category is loaded: those with a spelling, and the one that
ends the category, unless all its ids have a spelling. -/
def askedFor (spellings : Spellings) (c : Category) : List Int :=
  c.ids.take ((offered spellings c).length + 1)

/-- A table while it is loaded: the keywords so far, how many did not find room, and what was
reported. -/
structure Loading where
  entries : Entries
  dropped : Nat
  events : List Event
  deriving Repr

namespace Loading

/-- Nothing loaded yet. -/
def empty : Loading := ⟨.empty, 0, []⟩

/-- Takes one more keyword. A full table drops it; a spelling that is loaded already keeps its
id. -/
def add (l : Loading) (spelling : String) (id : Int) : Loading :=
  if Limits.built.maxKeywords ≤ l.entries.size then { l with dropped := l.dropped + 1 }
  else if h : l.entries.bySpelling.contains spelling then
    let event := (Event.debug "Duplicate keyword spelling ignored").withEntries
      [("spelling", spelling), ("id", toString id)]
    { l with events := l.events ++ [event] }
  else { l with entries := l.entries.insert spelling id h }

/-- The warning about a category whose last id has a spelling. -/
def rangeWarning (c : Category) : Event :=
  (Event.codedWarning .keywordRangeExceeded
    "Keyword provider did not end category within its id range").withEntries
    [("category", c.name), ("limit", toString categoryWidth)]

/-- Takes the keywords of a category. -/
def addCategory (spellings : Spellings) (l : Loading) (c : Category) : Loading :=
  let keywords := offered spellings c
  let l := keywords.foldl (fun l keyword => l.add keyword.1 keyword.2) l
  if keywords.length = categoryWidth then { l with events := l.events ++ [rangeWarning c] } else l

/-- The warning about keywords that did not find room. -/
def fullWarning (dropped : Nat) : Event :=
  (Event.codedWarning .keywordTableFull
    "Keyword table full, remaining keywords dropped").withEntries
    [("limit", toString Limits.built.maxKeywords), ("dropped", toString dropped)]

/-- The event at the end of loading. -/
def completed (entries : Entries) : Event :=
  (Event.success .keywordsLoaded "Keyword table populated").withEntries
    (Category.all.map (fun c => (c.name, toString (entries.countOf c))) ++
      [("total", toString entries.size)])

end Loading

/-- What loading a table results in: its entries, the ids asked for, and the events reported. -/
structure Population where
  entries : Entries
  asked : List Int
  events : List Event
  deriving Repr

/-- Loads the keywords of all categories. -/
def populate (spellings : Spellings) : Population :=
  let l := Category.all.foldl (Loading.addCategory spellings) .empty
  let full := if 0 < l.dropped then [Loading.fullWarning l.dropped] else []
  ⟨l.entries, Category.all.flatMap (askedFor spellings),
    l.events ++ full ++ [Loading.completed l.entries]⟩

/-! ## Tables -/

/-- A keyword table: its spellings and, once it is filled, its entries. -/
structure Table where
  spellings : Spellings
  loaded : Option Entries

/-- What an operation on a table does besides its answer: the ids asked for and the events. -/
structure Effects where
  asked : List Int
  events : List Event
  deriving Repr, DecidableEq

namespace Table

/-- A table that is not filled yet. -/
def ofSpellings (spellings : Spellings) : Table := ⟨spellings, none⟩

/-- The table of the standard keywords. -/
def standard : Table := ofSpellings Keyword.standard

/-- Whether the table is filled. -/
def isPopulated (t : Table) : Bool := t.loaded.isSome

/-- Fills the table if it is not filled: its entries, the table afterwards, and the effects. -/
def force (t : Table) : Entries × Table × Effects :=
  match t.loaded with
  | some entries => (entries, t, ⟨[], []⟩)
  | none =>
    let p := populate t.spellings
    (p.entries, { t with loaded := some p.entries }, ⟨p.asked, p.events⟩)

/-- Empties the table; it is filled again when it is next asked for something. -/
def reset (t : Table) : Table := { t with loaded := none }

/-- The state of the table for a reader. -/
def describe (t : Table) : String :=
  let length :=
    match t.loaded with
    | some entries => s!"Some({entries.size})"
    | none => "None"
  "KeywordTable \x7b populated: " ++ toString t.isPopulated ++ ", len: " ++ length ++ " \x7d"

end Table

/-! ## Commands -/

/-- What can be asked of a table. -/
inductive Command where
  | lookup (word : String)
  | isKeyword (word : String)
  | spelling (id : Int)
  | populate
  | isPopulated
  | size
  | isEmpty
  | listing
  | describe
  | reset
  deriving Repr, DecidableEq

/-- The answer to a command. -/
inductive Reply where
  | id (id : Int)
  | truth (b : Bool)
  | spelling (s : Option String)
  | count (n : Nat)
  | entries (entries : List (String × Int))
  | text (s : String)
  | done
  deriving Repr, DecidableEq

namespace Command

/-- Whether a command needs a filled table. -/
def needsEntries : Command → Bool
  | .lookup _ | .isKeyword _ | .spelling _ | .populate | .size | .isEmpty | .listing => true
  | .isPopulated | .describe | .reset => false

/-- The answer of a filled table, given its entries and itself. -/
def answer (entries : Entries) (t : Table) : Command → Reply
  | .lookup word => .id (entries.lookup word)
  | .isKeyword word => .truth (entries.knows word)
  | .spelling id => .spelling (entries.spelling? id)
  | .populate => .count entries.size
  | .size => .count entries.size
  | .isEmpty => .truth (entries.size == 0)
  | .listing => .entries entries.ordered
  | .isPopulated => .truth t.isPopulated
  | .describe => .text t.describe
  | .reset => .done

/-- Runs a command on a table: the answer, the table afterwards, and the effects. -/
def run (c : Command) (t : Table) : Reply × Table × Effects :=
  if c.needsEntries then
    let (entries, t, effects) := t.force
    (c.answer entries t, t, effects)
  else
    match c with
    | .reset => (.done, t.reset, ⟨[], []⟩)
    | c => (c.answer .empty t, t, ⟨[], []⟩)

end Command

end RobotScript.Keyword
