import RobotScript.Text.Invisible

/-!
# Quoted text

The debug form of a text, between double quotes and such that every character shows: short escapes
for the null character, the tab, the line breaks, the quote and the backslash, and the code point in
hexadecimal for what does not show as itself.
-/

namespace RobotScript.Text

/-- The escape of a character by its code point. -/
def codePointEscape (c : Char) : String :=
  "\\u\x7b" ++ String.ofList (Nat.toDigits 16 c.toNat) ++ "\x7d"

/-- One character inside quotes. -/
def quotedChar (c : Char) : String :=
  match c with
  | '\x00' => "\\0"
  | '\t' => "\\t"
  | '\r' => "\\r"
  | '\n' => "\\n"
  | '"' => "\\\""
  | '\\' => "\\\\"
  | c => if isInvisible c then codePointEscape c else c.toString

/-- A text between double quotes. -/
def quoted (s : String) : String :=
  "\"" ++ String.join (s.toList.map quotedChar) ++ "\""

end RobotScript.Text
