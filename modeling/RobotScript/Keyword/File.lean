import RobotScript.Files.Basic
import RobotScript.Keyword.Category
import RobotScript.Log.Code
import RobotScript.Text.Quoted
import RobotScript.Toml.Parser

/-!
# Keyword lists

Models of `TableStrings`: `new`, `from_toml_str`, `load` and `load_string`, and of
`KeywordFileError`. Spellings can be given as four lists, also in a file. A category has no more
spellings than ids, and no empty spelling, which would end the category early.

The wording of an error about a file that cannot be parsed is that of `Toml.Error`, not that of the
parser of the program.
-/

namespace RobotScript.Keyword

/-- Four lists of spellings. -/
structure Lists where
  language : List String
  declarations : List String
  values : List String
  operators : List String
  deriving Repr, DecidableEq, Inhabited

/-- The list of a category. -/
def Lists.get (lists : Lists) : Category → List String
  | .language => lists.language
  | .declaration => lists.declarations
  | .value => lists.values
  | .operator => lists.operators

/-- Why lists of spellings are refused. -/
inductive ListError where
  | unreadable (path : String) (cause : FileFailure)
  | unparsable (reason : Toml.Error)
  | tooMany (category : Category) (count : Nat)
  | emptySpelling (category : Category) (index : Nat)
  deriving Repr, DecidableEq

namespace ListError

/-- The wording of an error. -/
def message : ListError → String
  | .unreadable path cause => "Failed to read keyword file '" ++ path ++ "': " ++ cause.message
  | .unparsable reason => "Invalid keyword file: " ++ reason.message
  | .tooMany category count =>
    s!"Keyword category '{category.name}' has {count} entries, more than its {categoryWidth} ids"
  | .emptySpelling category index =>
    s!"Keyword category '{category.name}' contains an empty spelling at position {index}"

/-- The name of the kind of an error. -/
def kind : ListError → String
  | .unreadable _ _ => "Read"
  | .unparsable _ => "Parse"
  | .tooMany _ _ => "RangeOverflow"
  | .emptySpelling _ _ => "EmptySpelling"

/-- An error with its kind and the values it holds. -/
def describe (e : ListError) : String :=
  e.kind ++ " \x7b " ++
    (match e with
    | .unreadable path cause =>
      "path: " ++ Text.quoted path ++ ", message: " ++ Text.quoted cause.message
    | .unparsable reason => "message: " ++ Text.quoted reason.message
    | .tooMany category count =>
      s!"category: {category.title}, count: {count}, limit: {categoryWidth}"
    | .emptySpelling category index => s!"category: {category.title}, index: {index}") ++
    " \x7d"

/-- The code of an error. -/
def code : ListError → Log.Code
  | .unreadable _ _ => .readFailure
  | .unparsable _ => .keywordFileInvalid
  | .emptySpelling _ _ => .keywordFileInvalid
  | .tooMany _ _ => .keywordRangeExceeded

end ListError

/-- What is wrong with the list of a category, if anything. -/
def checkCategory (c : Category) (spellings : List String) : Except ListError Unit :=
  if categoryWidth < spellings.length then .error (.tooMany c spellings.length)
  else
    match spellings.findIdx? fun s => s == "" with
    | some index => .error (.emptySpelling c index)
    | none => .ok ()

/-- The spellings of four lists, unless one of the lists is refused. -/
def Lists.spellings (lists : Lists) : Except ListError Spellings := do
  Category.all.forM fun c => checkCategory c (lists.get c)
  return Spellings.ofLists lists.get

/-- The four lists of a table of spellings; a list that is absent is empty. -/
def Lists.ofToml (v : Toml.Value) : Except Toml.Error Lists := do
  let language ← v.optional "language" 0 Toml.Value.asStrings []
  let declarations ← v.optional "declarations" 1 Toml.Value.asStrings []
  let values ← v.optional "values" 2 Toml.Value.asStrings []
  let operators ← v.optional "operators" 3 Toml.Value.asStrings []
  return ⟨language, declarations, values, operators⟩

/-- The four lists in the `keywords` table of a document. -/
def Lists.ofText (text : String) : Except Toml.Error Lists := do
  (← Toml.parse text).required "keywords" 0 Lists.ofToml

/-- The spellings that a keyword file states. -/
def Spellings.ofText (text : String) : Except ListError Spellings :=
  match Lists.ofText text with
  | .ok lists => lists.spellings
  | .error e => .error (.unparsable e)

/-- The spellings in a keyword file. -/
def Spellings.load (files : FileSystem) (path : String) : Except ListError Spellings :=
  match files.readText path with
  | .ok text => Spellings.ofText text
  | .error cause => .error (.unreadable path cause)

end RobotScript.Keyword
