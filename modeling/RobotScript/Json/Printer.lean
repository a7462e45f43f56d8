import RobotScript.Json.Basic

/-!
# Writing JSON

The compact form has no white space; the indented form puts every item and field on a line of its
own. Texts are written in quotes: quote, backslash and the characters below the space are escaped,
and everything else stands for itself.
-/

namespace RobotScript.Json

/-- The digit of a number below 16, in small letters. -/
def hexDigit (n : Nat) : Char := (Nat.toDigits 16 n).headD '0'

/-- One character inside quotes. -/
def escapeChar (c : Char) : List Char :=
  if c = '"' then ['\\', '"']
  else if c = '\\' then ['\\', '\\']
  else if c = '\x08' then ['\\', 'b']
  else if c = '\t' then ['\\', 't']
  else if c = '\n' then ['\\', 'n']
  else if c = '\x0c' then ['\\', 'f']
  else if c = '\r' then ['\\', 'r']
  else if c.toNat < 0x20 then
    ['\\', 'u', '0', '0', hexDigit (c.toNat / 16), hexDigit (c.toNat % 16)]
  else [c]

/-- A text in quotes. -/
def quote (s : String) : List Char := '"' :: (s.toList.flatMap escapeChar ++ ['"'])

mutual

/-- The characters of a value in compact form. -/
def chars : Json → List Char
  | .null => "null".toList
  | .bool true => "true".toList
  | .bool false => "false".toList
  | .int i => (toString i).toList
  | .real text => text.toList
  | .str s => quote s
  | .array items => '[' :: (itemChars items ++ [']'])
  | .object fields => '{' :: (fieldChars fields ++ ['}'])

/-- The characters of items with commas between them. -/
def itemChars : List Json → List Char
  | [] => []
  | [item] => chars item
  | item :: next :: rest => chars item ++ ',' :: itemChars (next :: rest)

/-- The characters of fields with commas between them. -/
def fieldChars : List (String × Json) → List Char
  | [] => []
  | [(name, value)] => quote name ++ ':' :: chars value
  | (name, value) :: next :: rest =>
    quote name ++ ':' :: (chars value ++ ',' :: fieldChars (next :: rest))

end

/-- A value in compact form. -/
def compact (j : Json) : String := String.ofList (chars j)

/-- A line break and two spaces for each level of depth. -/
def lineBreak (depth : Nat) : List Char := '\n' :: List.replicate (2 * depth) ' '

mutual

/-- The characters of a value in indented form, inside `depth` arrays or objects. -/
def indentedChars (depth : Nat) : Json → List Char
  | .array [] => ['[', ']']
  | .array (item :: items) =>
    '[' :: (indentedItems (depth + 1) (item :: items) ++ lineBreak depth ++ [']'])
  | .object [] => ['{', '}']
  | .object (field :: fields) =>
    '{' :: (indentedFields (depth + 1) (field :: fields) ++ lineBreak depth ++ ['}'])
  | .null => chars .null
  | .bool b => chars (.bool b)
  | .int i => chars (.int i)
  | .real text => chars (.real text)
  | .str s => chars (.str s)

/-- The characters of items, each on a line of its own. -/
def indentedItems (depth : Nat) : List Json → List Char
  | [] => []
  | [item] => lineBreak depth ++ indentedChars depth item
  | item :: next :: rest =>
    lineBreak depth ++ indentedChars depth item ++ ',' :: indentedItems depth (next :: rest)

/-- The characters of fields, each on a line of its own. -/
def indentedFields (depth : Nat) : List (String × Json) → List Char
  | [] => []
  | [(name, value)] => lineBreak depth ++ quote name ++ ':' :: ' ' :: indentedChars depth value
  | (name, value) :: next :: rest =>
    lineBreak depth ++ quote name ++ ':' :: ' ' :: indentedChars depth value ++
      ',' :: indentedFields depth (next :: rest)

end

/-- A value in indented form. -/
def indented (j : Json) : String := String.ofList (indentedChars 0 j)

end RobotScript.Json
