import RobotScript.Toml.Scalar
import RobotScript.Toml.Table

/-!
# TOML documents

Keys, values with their nesting, and the lines of a document. Values nest less than `depthLimit`
deep, and a key has fewer parts than that.
-/

namespace RobotScript.Toml

/-- The nesting that is refused. -/
def depthLimit : Nat := 80

/-! ## Keys -/

/-- One part of a key. -/
def readKeyPart : Reader String
  | '"' :: rest => readBasic (rest.length + 1) [] rest
  | '\'' :: rest => readLiteral rest
  | cs =>
    match cs.takeWhile isBare with
    | [] => .error (.malformed "a key")
    | bare => .ok (String.ofList bare, cs.dropWhile isBare)

/-- The parts of a key after those in `found` (last one first), with spaces around the dots. -/
def readKeyParts : Nat → List String → Reader (List String)
  | 0, _, _ => .error .tooDeep
  | fuel + 1, found, cs => do
    let (part, rest) ← readKeyPart (skipSpace cs)
    match skipSpace rest with
    | '.' :: rest => readKeyParts fuel (part :: found) rest
    | rest => .ok ((part :: found).reverse, rest)

/-- A key: the parts before the last dot, the last part, and what follows. -/
def readKey (cs : List Char) : Except Error ((List String × String) × List Char) := do
  let (parts, rest) ← readKeyParts (depthLimit - 1) [] cs
  .ok ((parts.dropLast, parts.getLast?.getD ""), rest)

/-! ## Values -/

/-- The characters after blanks, line ends and comments. -/
def skipLayout : Nat → List Char → Except Error (List Char)
  | 0, cs => .ok cs
  | fuel + 1, cs =>
    let cs := skipSpace cs
    match lineEnd? cs with
    | some rest => skipLayout fuel rest
    | none =>
      match cs with
      | '#' :: rest =>
        match lineEnd? (rest.dropWhile isPlain) with
        | some rest => skipLayout fuel rest
        | none => .error (.malformed "a line end after a comment")
      | _ => .ok cs

mutual

/-- A value inside `depth` arrays and inline tables. -/
def readValue : Nat → Nat → Reader Value
  | 0, _, _ => .error (.malformed "a value")
  | fuel + 1, depth, cs =>
    match cs with
    | '"' :: _ => do
      let (s, rest) ← readString cs
      .ok (.string s, rest)
    | '\'' :: _ => do
      let (s, rest) ← readString cs
      .ok (.string s, rest)
    | '[' :: rest =>
      if depthLimit ≤ depth + 1 then .error .tooDeep else readItems fuel (depth + 1) [] rest
    | '{' :: rest =>
      if depthLimit ≤ depth + 1 then .error .tooDeep
      else
        match skipSpace rest with
        | '}' :: rest => .ok (.table [], rest)
        | rest => readPairs fuel (depth + 1) (.mk false false []) rest
    | 't' :: rest => readWord "rue" (.boolean true) rest
    | 'f' :: rest => readWord "alse" (.boolean false) rest
    | 'i' :: rest => readWord "nf" (.float "inf") rest
    | 'n' :: rest => readWord "an" (.float "nan") rest
    | cs => readNumber cs

/-- The items of an array after those in `found` (last one first), up to the bracket. -/
def readItems : Nat → Nat → List Value → Reader Value
  | 0, _, _, _ => .error (.malformed "an array")
  | fuel + 1, depth, found, cs => do
    match ← skipLayout (cs.length + 1) cs with
    | ']' :: rest => .ok (.array found.reverse, rest)
    | cs =>
      let (item, rest) ← readValue fuel depth cs
      match ← skipLayout (rest.length + 1) rest with
      | ',' :: rest => readItems fuel depth (item :: found) rest
      | ']' :: rest => .ok (.array (item :: found).reverse, rest)
      | _ => .error (.malformed "a comma or a bracket")

/-- The pairs of an inline table after those in `t`, up to the brace. -/
def readPairs : Nat → Nat → Table → Reader Value
  | 0, _, _, _ => .error (.malformed "an inline table")
  | fuel + 1, depth, t, cs => do
    let ((path, key), rest) ← readKey cs
    match rest with
    | '=' :: rest =>
      let (v, rest) ← readValue fuel depth (skipSpace rest)
      let t ← t.insert path key v
      match skipSpace rest with
      | ',' :: rest => readPairs fuel depth t rest
      | '}' :: rest => .ok (t.toValue, rest)
      | _ => .error (.malformed "a comma or a brace")
    | _ => .error (.malformed "an equals sign")

end

/-! ## Documents -/

/-- The characters after the rest of a line: blanks, a comment, and the line end or the end of the
document. -/
def skipLineRest (cs : List Char) : Except Error (List Char) :=
  let cs := skipSpace cs
  let cs :=
    match cs with
    | '#' :: rest => rest.dropWhile isPlain
    | cs => cs
  match lineEnd? cs, cs with
  | some rest, _ => .ok rest
  | none, [] => .ok []
  | none, _ => .error (.malformed "a line end")

/-- The lines of a document: `header` leads to the table that the last header opened, and `t` is
the document so far. -/
def readLinesInto : Nat → List String → Table → List Char → Except Error Table
  | 0, _, _, _ => .error (.malformed "a line")
  | fuel + 1, header, t, cs => do
    let cs := skipSpace cs
    match cs with
    | [] => .ok t
    | '#' :: _ => readLinesInto fuel header t (← skipLineRest cs)
    | '\n' :: rest => readLinesInto fuel header t rest
    | '\r' :: '\n' :: rest => readLinesInto fuel header t rest
    | '[' :: '[' :: rest =>
      let ((path, key), rest) ← readKey rest
      match rest with
      | ']' :: ']' :: rest =>
        let t ← t.openItem path key
        readLinesInto fuel (path ++ [key]) t (← skipLineRest rest)
      | _ => .error (.malformed "two brackets")
    | '[' :: rest =>
      let ((path, key), rest) ← readKey rest
      match rest with
      | ']' :: rest =>
        let t ← t.openTable path key
        readLinesInto fuel (path ++ [key]) t (← skipLineRest rest)
      | _ => .error (.malformed "a bracket")
    | cs =>
      let ((path, key), rest) ← readKey cs
      match rest with
      | '=' :: rest =>
        let rest := skipSpace rest
        let (v, rest) ← readValue (2 * rest.length + 2) 0 rest
        let t ← t.insertUnder header path key v
        readLinesInto fuel header t (← skipLineRest rest)
      | _ => .error (.malformed "an equals sign")

/-- The table that a document describes. A byte order mark in front of it is passed over. -/
def parse (text : String) : Except Error Value := do
  let cs :=
    match text.toList with
    | '\uFEFF' :: rest => rest
    | cs => cs
  let t ← readLinesInto (cs.length + 1) [] (.mk false false []) cs
  .ok t.toValue

end RobotScript.Toml
