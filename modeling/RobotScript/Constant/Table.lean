import RobotScript.Index
import RobotScript.Limits
import RobotScript.Log.Event
import RobotScript.Text.Quoted

/-!
# Constants

Models of `DefineTable`: `new`, `with_limit`, `define`, `try_insert`, `resolve`, `contains`,
`reset`, `len`, `limit` and `iter`, and of `DefineError`. A host binds names to integers before a
script is read. A name is bound once; the table has a bounded number of names, lists them in the
order in which they were bound, and is cleared between scripts.

A call gives the table afterwards and the events that it reports. `Table` has a map and a list of
names, as in the program, with the invariant that they are in step.
-/

namespace RobotScript.Constant

open Log (Event)

/-- Why a name was not bound. -/
inductive DefineError where
  | duplicate (name : String)
  | full (name : String) (limit : Nat)
  | emptyName
  deriving Repr, DecidableEq

namespace DefineError

/-- The wording of an error. -/
def message : DefineError → String
  | .duplicate name => "Constant '" ++ name ++ "' is already defined"
  | .full name limit =>
    "Cannot define '" ++ name ++ s!"': constant table is full ({limit} entries)"
  | .emptyName => "Constant name must not be empty"

/-- The name of the kind of an error. -/
def kind : DefineError → String
  | .duplicate _ => "Duplicate"
  | .full _ _ => "Overflow"
  | .emptyName => "EmptyName"

/-- An error with its kind and the values it holds. -/
def describe (e : DefineError) : String :=
  match e with
  | .duplicate name => e.kind ++ " \x7b name: " ++ Text.quoted name ++ " \x7d"
  | .full name limit =>
    e.kind ++ " \x7b name: " ++ Text.quoted name ++ s!", limit: {limit}" ++ " \x7d"
  | .emptyName => e.kind

/-- The code of an error. -/
def code : DefineError → Log.Code
  | .duplicate _ => .duplicateConstant
  | .full _ _ => .constantTableFull
  | .emptyName => .emptyConstantName

end DefineError

/-- The values of names, the names in the order in which they were bound, and how many there may
be. -/
structure Table where
  limit : Nat
  values : Std.TreeMap String Int
  order : List String
  /-- Both have the same names. -/
  inStep : ∃ bound, Indexes values bound ∧ order = bound.map Prod.fst
  deriving Repr

namespace Table

/-- A table without names and with room for `limit`. -/
def withLimit (limit : Nat) : Table := ⟨limit, ∅, [], [], .empty, rfl⟩

/-- A table without names and with room for as many as the program is built for. -/
def empty : Table := withLimit Limits.built.maxConstants

/-- The number of names. -/
def size (t : Table) : Nat := t.values.size

/-- The value of a name, if it is bound. -/
def resolve (t : Table) (word : String) : Option Int := t.values[word]?

/-- Whether a name is bound. -/
def contains (t : Table) (name : String) : Bool := t.values.contains name

/-- The names with their values, in the order in which they were bound. -/
def entries (t : Table) : List (String × Int) :=
  t.order.filterMap fun name => t.values[name]?.map fun value => (name, value)

/-- Binds a name that is not bound, last of all. -/
def bind (t : Table) (name : String) (value : Int) (h : ¬t.contains name = true) : Table where
  limit := t.limit
  values := t.values.insert name value
  order := t.order ++ [name]
  inStep := by
    obtain ⟨bound, hbound, horder⟩ := t.inStep
    exact ⟨bound ++ [(name, value)], hbound.insert h value, by rw [horder, List.map_append]; rfl⟩

/-- Binds a name, if it is one, is not bound, and there is room. -/
def insert (t : Table) (name : String) (value : Int) : Except DefineError Table :=
  if name = "" then .error .emptyName
  else if h : t.contains name then .error (.duplicate name)
  else if t.limit ≤ t.size then .error (.full name t.limit)
  else .ok (t.bind name value h)

/-- Binds a name if possible: what came of it, the table afterwards, and the event. -/
def define (t : Table) (name : String) (value : Int) :
    Except DefineError Unit × Table × List Event :=
  match t.insert name value with
  | .ok t =>
    (.ok (), t,
      [(Event.success .constantDefined "Constant defined").withEntries
        [("name", name), ("value", toString value)]])
  | .error e =>
    (.error e, t,
      [(Event.error e.code e.message).withEntries
        [("name", name), ("defined", toString t.size)]])

/-- Forgets all names: the table afterwards, and the event. -/
def reset (t : Table) : Table × List Event :=
  (withLimit t.limit,
    [(Event.success .constantsCleared "Constant table cleared").withContext
      "cleared" (toString t.size)])

end Table

/-! ## Commands -/

/-- What can be asked of a table. -/
inductive Command where
  | define (name : String) (value : Int)
  | resolve (name : String)
  | contains (name : String)
  | reset
  | listing
  | state
  deriving Repr, DecidableEq

/-- The answer to a command. -/
inductive Reply where
  | defined (outcome : Except DefineError Unit)
  | value (v : Option Int)
  | truth (b : Bool)
  | done
  | entries (entries : List (String × Int))
  | state (size limit : Nat)
  deriving Repr

/-- Runs a command on a table: the answer, the table afterwards, and the events. -/
def Command.run (c : Command) (t : Table) : Reply × Table × List Event :=
  match c with
  | .define name value =>
    let (outcome, t, events) := t.define name value
    (.defined outcome, t, events)
  | .resolve name => (.value (t.resolve name), t, [])
  | .contains name => (.truth (t.contains name), t, [])
  | .reset =>
    let (t, events) := t.reset
    (.done, t, events)
  | .listing => (.entries t.entries, t, [])
  | .state => (.state t.size t.limit, t, [])

end RobotScript.Constant
