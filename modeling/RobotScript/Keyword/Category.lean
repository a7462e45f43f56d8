/-!
# Keyword categories

Models of `CATEGORY_WIDTH`, of `KeywordCategory` with `ALL`, `base`, `of_id` and `as_str`, and of
`StringProvider`. Keywords come in four categories, and each category has a range of ids of its own.
Spellings are asked for by id: the spellings of a category end before the first id that has the
empty spelling.

A provider is the function `load_string`. So it always gives an id the same spelling, which the
program does not ask of providers that a host brings.
-/

namespace RobotScript.Keyword

/-- The categories of keywords. -/
inductive Category where
  | language
  | declaration
  | value
  | operator
  deriving Repr, DecidableEq, Inhabited

/-- The number of ids of a category. -/
def categoryWidth : Nat := 100

namespace Category

/-- All categories in the order in which their keywords are loaded. -/
def all : List Category := [.language, .declaration, .value, .operator]

/-- The first id of a category. -/
def base : Category → Int
  | .language => 2000
  | .declaration => 2100
  | .value => 2200
  | .operator => 2300

/-- The name of a category in messages. -/
def name : Category → String
  | .language => "language"
  | .declaration => "declarations"
  | .value => "values"
  | .operator => "operators"

/-- The word for one keyword of a category. -/
def keyword : Category → String
  | .language => "language"
  | .declaration => "declaration"
  | .value => "value"
  | .operator => "operator"

/-- The name of a category with a capital letter. -/
def title : Category → String
  | .language => "Language"
  | .declaration => "Declaration"
  | .value => "Value"
  | .operator => "Operator"

/-- The ids of a category, in order. -/
def ids (c : Category) : List Int := (List.range categoryWidth).map fun (i : Nat) => c.base + i

/-- Whether an id belongs to a category. -/
def has (c : Category) (id : Int) : Bool := c.base ≤ id && id < c.base + categoryWidth

/-- The category that an id belongs to. -/
def ofId? (id : Int) : Option Category := all.find? fun c => c.has id

end Category

/-- The spelling of each id. The empty text means that an id has none. -/
abbrev Spellings := Int → String

/-- The spellings of lists, one for each category: an id of the category has the spelling at its
place in the list. -/
def Spellings.ofLists (lists : Category → List String) : Spellings := fun id =>
  match Category.ofId? id with
  | some c => ((lists c)[(id - c.base).toNat]?).getD ""
  | none => ""

end RobotScript.Keyword
