import RobotScript.Json.Parser
import RobotScript.Json.Printer
import RobotScript.Json.Record
import RobotScript.Span

/-!
# Tokens

Models of `TokenKind` with `type_code` and `as_str`, and of `Token`: `terminator`, `effective_type`,
`is_keyword`, `is_terminator`, `string_content`, `is_unterminated_string`, how a token is displayed,
and its JSON form. A token is a word with its kind, its place in the source, and the text up to the
next word.

* Ids and offsets are numbers of any size. Only JSON can state one that has no 64 bits, and
  `ofJson?` refuses it.
* The JSON form has the fields of a token in the order of the structure, and is read as
  `Json.Record` reads records.
-/

namespace RobotScript

/-- The kinds of tokens. -/
inductive TokenKind where
  /-- The head of a stream: no word, but what stands before the first one. -/
  | leading
  | keyword
  | number
  | string
  /-- A word that is neither a keyword nor a literal nor a constant. -/
  | variable
  /-- A name in the table of constants. -/
  | constant
  /-- The end of a stream. -/
  | terminator
  deriving Repr, DecidableEq, Inhabited

namespace TokenKind

/-- All kinds of tokens. -/
def all : List TokenKind :=
  [.leading, .keyword, .number, .string, .variable, .constant, .terminator]

/-- The number of a kind that parsers match on: 0 for the two ends of a stream. -/
def typeCode : TokenKind → Int
  | .leading => 0
  | .terminator => 0
  | .keyword => 1
  | .number => 2
  | .string => 3
  | .variable => 4
  | .constant => 5

/-- The name of a kind. -/
def name : TokenKind → String
  | .leading => "leading"
  | .keyword => "keyword"
  | .number => "number"
  | .string => "string"
  | .variable => "variable"
  | .constant => "defined_constant"
  | .terminator => "terminator"

/-- The word for a kind in JSON. -/
def jsonName : TokenKind → String
  | .number => "number_literal"
  | .string => "string_literal"
  | kind => kind.name

/-- The kind that a word in JSON means. -/
def ofJsonName? (s : String) : Option TokenKind := all.find? fun kind => kind.jsonName == s

end TokenKind

/-- A word of a source with its kind and place, and the separator after it. -/
structure Token where
  /-- The word; in a string literal, with its escapes replaced. -/
  text : String
  /-- White space and comments up to the next word. -/
  separator : String
  kind : TokenKind
  /-- The id of a keyword, the value of a constant, or -1. -/
  id : Int
  /-- The bytes of the word in the source. -/
  span : Span
  deriving Repr, DecidableEq, Inhabited

namespace Token

/-- The end of a stream at an offset. -/
def terminator (offset : Nat) : Token := ⟨"", "", .terminator, -1, .emptyAt offset⟩

/-- The type that parsers match on: the id of a keyword, otherwise the number of the kind. -/
def effectiveType (t : Token) : Int :=
  match t.kind with
  | .keyword => t.id
  | kind => kind.typeCode

/-- Whether the token is the keyword with an id. -/
def isKeyword (t : Token) (id : Int) : Bool := t.kind = .keyword && t.id = id

/-- Whether the token ends a stream. -/
def isTerminator (t : Token) : Bool := t.kind = .terminator

/-- Whether the token is a word, and not one of the two ends of a stream. -/
def isWord (t : Token) : Bool := t.kind ≠ .leading && t.kind ≠ .terminator

/-- A list of characters without a quote at its end. -/
def dropLastQuote (cs : List Char) : List Char :=
  if cs.getLast? = some '"' then cs.dropLast else cs

/-- The text of a string literal without the quotes around it. -/
def stringContent? (t : Token) : Option String :=
  if t.kind = .string then
    match t.text.toList with
    | '"' :: inner => some (String.ofList (dropLastQuote inner))
    | _ => none
  else none

/-- Whether a string literal lacks its closing quote, as far as its text shows. -/
def isUnterminatedString (t : Token) : Bool :=
  t.kind = .string && (t.text.utf8ByteSize < 2 || t.text.toList.getLast? != some '"')

/-- A token for a reader: its text, or a word for an end of a stream. -/
def render (t : Token) : String :=
  match t.kind with
  | .terminator => "<end>"
  | .leading => "<start>"
  | _ => t.text

/-! ## JSON -/

/-- The JSON form of a range. -/
def spanToJson (s : Span) : Json := .object [("start", .nat s.start), ("end", .nat s.stop)]

/-- The JSON form of a token. -/
def toJson (t : Token) : Json :=
  .object
    [ ("text", .str t.text), ("separator", .str t.separator), ("kind", .str t.kind.jsonName),
      ("id", .int t.id), ("span", spanToJson t.span) ]

/-- The range that a JSON value stands for. -/
def spanOfJson? (j : Json) : Option Span := do
  guard (j.fitsRecord ["start", "end"])
  let start ← j.required "start" 0 Json.nat64?
  let stop ← j.required "end" 1 Json.nat64?
  return ⟨start, stop⟩

/-- The token that a JSON value stands for. -/
def ofJson? (j : Json) : Option Token := do
  guard (j.fitsRecord ["text", "separator", "kind", "id", "span"])
  let text ← j.required "text" 0 Json.str?
  let separator ← j.required "separator" 1 Json.str?
  let kind ← j.required "kind" 2 (Json.word? TokenKind.ofJsonName?)
  let id ← j.required "id" 3 Json.int64?
  let span ← j.required "span" 4 spanOfJson?
  return ⟨text, separator, kind, id, span⟩

/-- The compact JSON text of a token. -/
def toJsonText (t : Token) : String := t.toJson.compact

/-- The token that a JSON text stands for. -/
def ofJsonText? (s : String) : Option Token := (Json.parse? s).bind ofJson?

end Token

end RobotScript
