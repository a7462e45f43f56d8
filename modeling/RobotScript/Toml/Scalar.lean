import RobotScript.Json.Parser
import RobotScript.Text.Decimal
import RobotScript.Toml.Basic

/-!
# TOML scalars

Texts in the four kinds of quotes, numbers, truth values, dates and times. Every reader takes the
characters from the front and returns what it read with the characters that follow.
-/

namespace RobotScript.Toml

open RobotScript.Text (digits?)

/-- A reader of something at the front of the characters. -/
abbrev Reader (α : Type) := List Char → Except Error (α × List Char)

/-! ## Characters -/

/-- Whether a character separates parts of a line. -/
def isSpace (c : Char) : Bool := c == ' ' || c == '\t'

/-- Whether a character may stand in a comment or, if it is not the delimiter, in a text on one
line: all but control characters other than the tab. -/
def isPlain (c : Char) : Bool := c == '\t' || (0x20 ≤ c.toNat && c.toNat != 0x7F)

/-- Whether a character may stand in a key without quotes. -/
def isBare (c : Char) : Bool := c.isAlphanum || c == '-' || c == '_'

/-- The characters after leading spaces and tabs. -/
def skipSpace (cs : List Char) : List Char := cs.dropWhile isSpace

/-- The characters after a line end, if one is at the front. -/
def lineEnd? : List Char → Option (List Char)
  | '\n' :: rest => some rest
  | '\r' :: '\n' :: rest => some rest
  | _ => none

/-! ## Texts -/

/-- The character with the code point that `count` hexadecimal digits name. -/
def readCodePoint (count : Nat) : Reader Char := fun cs =>
  let digits := cs.take count
  match digits.length == count, digits.mapM Json.hexValue? with
  | true, some values =>
    let n := values.foldl (fun n v => 16 * n + v) 0
    if n < 0xD800 || (0xE000 ≤ n && n < 0x110000) then .ok (Char.ofNat n, cs.drop count)
    else .error (.malformed "a Unicode scalar value")
  | _, _ => .error (.malformed "hexadecimal digits")

/-- The character of an escape, after the backslash. -/
def readEscape : Reader Char
  | 'b' :: rest => .ok ('\x08', rest)
  | 't' :: rest => .ok ('\t', rest)
  | 'n' :: rest => .ok ('\n', rest)
  | 'f' :: rest => .ok ('\x0c', rest)
  | 'r' :: rest => .ok ('\r', rest)
  | '"' :: rest => .ok ('"', rest)
  | '\\' :: rest => .ok ('\\', rest)
  | 'u' :: rest => readCodePoint 4 rest
  | 'U' :: rest => readCodePoint 8 rest
  | _ => .error (.malformed "an escape")

/-- A basic text on one line, after its opening quote. -/
def readBasic : Nat → List Char → Reader String
  | 0, _, _ => .error (.malformed "a closing quote")
  | fuel + 1, found, cs =>
    match cs with
    | '"' :: rest => .ok (String.ofList found.reverse, rest)
    | '\\' :: rest => do
      let (c, rest) ← readEscape rest
      readBasic fuel (c :: found) rest
    | c :: rest =>
      if isPlain c then readBasic fuel (c :: found) rest
      else .error (.malformed "a text without control characters")
    | [] => .error (.malformed "a closing quote")

/-- A literal text on one line, after its opening quote. -/
def readLiteral (cs : List Char) : Except Error (String × List Char) :=
  let inside := cs.takeWhile fun c => isPlain c && c != '\''
  match cs.dropWhile fun c => isPlain c && c != '\'' with
  | '\'' :: rest => .ok (String.ofList inside, rest)
  | _ => .error (.malformed "a closing quote")

/-- The characters after the blanks and line ends that follow a backslash at the end of a line, if
there is a line end among them. -/
def continuation? (cs : List Char) : Option (List Char) :=
  (lineEnd? (skipSpace cs)).map skipLines
where
  /-- The characters after leading blanks and line ends. -/
  skipLines : List Char → List Char
    | [] => []
    | '\r' :: '\n' :: rest => skipLines rest
    | c :: rest => if isSpace c || c == '\n' then skipLines rest else c :: rest

/-- A run of quotes inside a text of several lines: the quotes that belong to the text and, if the
run ends the text, what follows it. A run of three or more ends the text, and up to two quotes
before the last three belong to it. -/
def quoteRun (quote : Char) (cs : List Char) : List Char × Bool × List Char :=
  let count := (cs.takeWhile (· == quote)).length
  if count < 3 then (List.replicate count quote, false, cs.drop count)
  else
    let extra := min (count - 3) 2
    (List.replicate extra quote, true, cs.drop (extra + 3))

/-- A text of several lines, after its opening quotes. Escapes are read if `escapes` is set; a line
end stands for a line feed. -/
def readLines (quote : Char) (escapes : Bool) : Nat → List Char → Reader String
  | 0, _, _ => .error (.malformed "closing quotes")
  | fuel + 1, found, cs =>
    match lineEnd? cs with
    | some rest => readLines quote escapes fuel ('\n' :: found) rest
    | none =>
      match cs with
      | [] => .error (.malformed "closing quotes")
      | c :: rest =>
        if c = quote then
          match quoteRun quote (c :: rest) with
          | (quotes, true, rest) => .ok (String.ofList (quotes ++ found).reverse, rest)
          | (quotes, false, rest) => readLines quote escapes fuel (quotes ++ found) rest
        else if c = '\\' && escapes then
          match continuation? rest with
          | some rest => readLines quote escapes fuel found rest
          | none => do
            let (c, rest) ← readEscape rest
            readLines quote escapes fuel (c :: found) rest
        else if isPlain c then readLines quote escapes fuel (c :: found) rest
        else .error (.malformed "a text without control characters")

/-- The characters after the line end that may follow opening quotes. -/
def skipFirstLineEnd (cs : List Char) : List Char := (lineEnd? cs).getD cs

/-- A text in any of the four kinds of quotes. -/
def readString : Reader String
  | '"' :: '"' :: '"' :: rest => readLines '"' true (rest.length + 1) [] (skipFirstLineEnd rest)
  | '"' :: rest => readBasic (rest.length + 1) [] rest
  | '\'' :: '\'' :: '\'' :: rest =>
    readLines '\'' false (rest.length + 1) [] (skipFirstLineEnd rest)
  | '\'' :: rest => readLiteral rest
  | _ => .error (.malformed "a text")

/-! ## Numbers -/

/-- Digits with single underscores between them, and what follows. None if the characters do not
begin with a digit; an error if an underscore has no digit after it. -/
def readDigits (isDigit : Char → Bool) (cs : List Char) :
    Except Error (Option (List Char × List Char)) :=
  match cs with
  | [] => .ok none
  | c :: rest => if isDigit c then go (rest.length + 1) [c] rest else .ok none
where
  /-- The digits after `found` (last one first). -/
  go : Nat → List Char → List Char → Except Error (Option (List Char × List Char))
    | 0, found, cs => .ok (some (found.reverse, cs))
    | fuel + 1, found, cs =>
      match cs with
      | '_' :: rest =>
        match rest with
        | c :: rest =>
          if isDigit c then go fuel (c :: found) rest
          else .error (.malformed "a digit after an underscore")
        | [] => .error (.malformed "a digit after an underscore")
      | c :: rest => if isDigit c then go fuel (c :: found) rest else .ok (some (found.reverse, cs))
      | [] => .ok (some (found.reverse, []))

/-- The number that digits of a base below 17 write. -/
def ofDigits (base : Nat) (ds : List Char) : Nat :=
  ds.foldl (fun n c => base * n + (Json.hexValue? c).getD 0) 0

/-- An integer, if it has a 64-bit form. -/
def checked (i : Int) : Except Error Value :=
  if fitsInt64 i then .ok (.integer i) else .error (.malformed "a 64-bit integer")

/-- A natural number of a base with a mark, after the mark. -/
def readBased (base : Nat) (isDigit : Char → Bool) : Reader Value := fun cs => do
  match ← readDigits isDigit cs with
  | some (ds, rest) => .ok (← checked (ofDigits base ds), rest)
  | none => .error (.malformed "a digit")

/-- Decimal digits without a leading zero, unless zero is all there is. -/
def readWhole (cs : List Char) : Except Error (Option (List Char × List Char)) :=
  match cs with
  | '0' :: rest => .ok (some (['0'], rest))
  | cs => readDigits Char.isDigit cs

/-- Digits that have to follow a point or an exponent mark. -/
def readNeeded (cs : List Char) : Except Error (List Char × List Char) := do
  match ← readDigits Char.isDigit cs with
  | some r => .ok r
  | none => .error (.malformed "a digit")

/-- The exponent of a number, if one begins here. -/
def readExponent (cs : List Char) : Except Error (Option Int × List Char) :=
  match cs with
  | c :: rest =>
    if c == 'e' || c == 'E' then
      match rest with
      | '-' :: rest => do
        let (ds, rest) ← readNeeded rest
        .ok (some (-(ofDigits 10 ds : Int)), rest)
      | '+' :: rest => do
        let (ds, rest) ← readNeeded rest
        .ok (some (ofDigits 10 ds : Int), rest)
      | rest => do
        let (ds, rest) ← readNeeded rest
        .ok (some (ofDigits 10 ds : Int), rest)
    else .ok (none, cs)
  | [] => .ok (none, [])

/-- Whether the decimal `digits · 10 ^ exponent` is rounded to infinity among the numbers of 53
binary digits. Far from the limit the number of digits decides. -/
def isInfinite (digits : Nat) (exponent : Int) : Bool :=
  if digits == 0 then false
  else
    let order := (toString digits).length + exponent
    if order < 308 then false
    else if 310 < order then true
    else
      let limit := (Nat.pow 2 54 - 1) * Nat.pow 2 970
      if 0 ≤ exponent then limit ≤ digits * Nat.pow 10 exponent.toNat
      else limit * Nat.pow 10 (-exponent).toNat ≤ digits

/-- A decimal number with an optional sign: an integer, or a float if it has a fraction or an
exponent. -/
def readDecimal (cs : List Char) : Except Error (Value × List Char) := do
  let (negative, unsigned) :=
    match cs with
    | '-' :: rest => (true, rest)
    | '+' :: rest => (false, rest)
    | rest => (false, rest)
  match ← readWhole unsigned with
  | none => .error (.malformed "a digit")
  | some (whole, rest) =>
    let (fraction, afterFraction) ←
      match rest with
      | '.' :: rest => do
        let (ds, rest) ← readNeeded rest
        pure (some ds, rest)
      | rest => pure (none, rest)
    let (exponent, after) ← readExponent afterFraction
    if fraction.isNone && exponent.isNone then
      let value : Int := ofDigits 10 whole
      .ok (← checked (if negative then -value else value), after)
    else
      let places := fraction.getD []
      if !negative && isInfinite (ofDigits 10 (whole ++ places)) (exponent.getD 0 - places.length)
      then .error (.malformed "a finite float")
      else .ok (.float (String.ofList (cs.take (cs.length - after.length))), after)

/-- A fixed word at the front. -/
def readWord (word : String) (v : Value) : Reader Value := fun cs =>
  match Json.dropWord word.toList cs with
  | some rest => .ok (v, rest)
  | none => .error (.malformed word)

/-! ## Dates and times -/

/-- A number of exactly `count` decimal digits. -/
def fixedDigits? (count : Nat) (cs : List Char) : Option (Nat × List Char) :=
  if (cs.take count).length == count then
    (digits? (cs.take count)).map fun n => (n, cs.drop count)
  else none

/-- The number of days of a month. -/
def daysInMonth (year month : Nat) : Nat :=
  let leap := year % 4 == 0 && (year % 100 != 0 || year % 400 == 0)
  if month == 2 then (if leap then 29 else 28)
  else if month == 4 || month == 6 || month == 9 || month == 11 then 30
  else 31

/-- The characters after a date, if one is at the front. An error if what looks like a date is
none. -/
def skipDate (cs : List Char) : Except Error (Option (List Char)) :=
  match fixedDigits? 4 cs with
  | some (year, '-' :: rest) =>
    match fixedDigits? 2 rest with
    | some (month, '-' :: rest) =>
      match fixedDigits? 2 rest with
      | some (day, rest) =>
        if 1 ≤ month && month ≤ 12 && 1 ≤ day && day ≤ daysInMonth year month then .ok (some rest)
        else .error (.malformed "a date of the calendar")
      | none => .error (.malformed "a day")
    | _ => .error (.malformed "a month")
  | _ => .ok none

/-- The characters after a fraction of a second. -/
def skipFraction : List Char → List Char
  | '.' :: c :: rest => if c.isDigit then rest.dropWhile Char.isDigit else '.' :: c :: rest
  | rest => rest

/-- The characters after a time of day, if one is at the front. An error if what looks like a time
is none. -/
def skipTime (cs : List Char) : Except Error (Option (List Char)) :=
  match fixedDigits? 2 cs with
  | some (hour, ':' :: rest) =>
    match fixedDigits? 2 rest with
    | some (minute, ':' :: rest) =>
      match fixedDigits? 2 rest with
      | some (second, rest) =>
        if hour ≤ 23 && minute ≤ 59 && second ≤ 60 then .ok (some (skipFraction rest))
        else .error (.malformed "a time of day")
      | none => .error (.malformed "seconds")
    | _ => .error (.malformed "minutes")
  | _ => .ok none

/-- The characters after an offset from universal time, if one is at the front. -/
def skipOffset (cs : List Char) : Except Error (List Char) :=
  match cs with
  | 'Z' :: rest => .ok rest
  | 'z' :: rest => .ok rest
  | c :: rest =>
    if c == '+' || c == '-' then
      match fixedDigits? 2 rest with
      | some (hour, ':' :: rest) =>
        match fixedDigits? 2 rest with
        | some (minute, rest) =>
          if hour ≤ 23 && minute ≤ 59 then .ok rest else .error (.malformed "a time offset")
        | none => .error (.malformed "a time offset")
      | _ => .error (.malformed "a time offset")
    else .ok cs
  | [] => .ok []

/-- The characters after a date, a time of day, or both, if one is at the front. -/
def skipMoment (cs : List Char) : Except Error (Option (List Char)) := do
  match ← skipDate cs with
  | none => skipTime cs
  | some rest =>
    match rest with
    | c :: afterMark =>
      if c == 'T' || c == 't' || c == ' ' then
        match ← skipTime afterMark with
        | some rest => .ok (some (← skipOffset rest))
        | none => if c == ' ' then .ok (some rest) else .error (.malformed "a time of day")
      else .ok (some rest)
    | [] => .ok (some [])

/-- A date, a time or a number. -/
def readNumber (cs : List Char) : Except Error (Value × List Char) := do
  match ← skipMoment cs with
  | some rest => .ok (.time (String.ofList (cs.take (cs.length - rest.length))), rest)
  | none =>
    match cs with
    | '0' :: 'x' :: rest => readBased 16 (fun c => (Json.hexValue? c).isSome) rest
    | '0' :: 'o' :: rest => readBased 8 (fun c => '0' ≤ c && c ≤ '7') rest
    | '0' :: 'b' :: rest => readBased 2 (fun c => c == '0' || c == '1') rest
    | '+' :: 'i' :: rest => readWord "nf" (.float "inf") rest
    | '-' :: 'i' :: rest => readWord "nf" (.float "-inf") rest
    | '+' :: 'n' :: rest => readWord "an" (.float "nan") rest
    | '-' :: 'n' :: rest => readWord "an" (.float "nan") rest
    | cs => readDecimal cs

end RobotScript.Toml
