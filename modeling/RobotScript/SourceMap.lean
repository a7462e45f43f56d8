import RobotScript.Span

/-!
# Lines and columns

Models of `SourceMap`: `new`, `line_count`, `position_at`, `get_line` and `format_diagnostic`, with
`Position` and how it is displayed. A source map finds the line and column of a byte offset, and a
line by its number. Lines are ended by line feeds. Columns count characters; inside a character they
count bytes.

* `Position`: line and column have 32 bits, and `positionAt` casts to them. Offsets and indices are
  natural numbers: they count bytes of a text that is held in memory.
* `lastAtMost`: the binary search among the starts of lines. The program takes the index that the
  search of the standard library finds, or the one before the place to insert at; the first start is
  0, so there is one.
* `diagnostic?`: the subtractions of columns are unsigned. Where one would underflow there is no
  result; the program panics there or goes on with a wrapped number of carets.
-/

namespace RobotScript

/-- A place in a source: byte offset from 0, line and column from 1. -/
structure Position where
  offset : Nat
  line : UInt32
  column : UInt32
  deriving Repr, DecidableEq

/-- Line and column with a colon between them. -/
def Position.render (p : Position) : String := s!"{p.line}:{p.column}"

/-- The line starts found up to an offset, and what the byte at that offset adds to them: a line
starts after each line feed. -/
def noteLine (found : Nat × Array Nat) (b : UInt8) : Nat × Array Nat :=
  (found.1 + 1, if b == 0x0A then found.2.push (found.1 + 1) else found.2)

/-- The offsets at which the lines of a text start, in increasing order. -/
def lineStarts (source : String) : Array Nat :=
  (source.toUTF8.data.foldl noteLine (0, #[0])).2

/-- The index of the last entry in `starts` that is at most `offset`, among the entries from `low`
on and below `high`; `low` if none is. The entries are in increasing order. -/
def lastAtMost (starts : Array Nat) (offset low high : Nat) : Nat :=
  if high - low ≤ 1 then low
  else
    let middle := low + (high - low) / 2
    if starts[middle]?.getD 0 ≤ offset then lastAtMost starts offset middle high
    else lastAtMost starts offset low middle
termination_by high - low
decreasing_by all_goals omega

/-- A source with the offsets at which its lines start. -/
structure SourceMap where
  source : String
  lineStarts : Array Nat
  deriving Repr

namespace SourceMap

/-- The source map of a text. -/
def ofText (source : String) : SourceMap :=
  ⟨source, RobotScript.lineStarts source⟩

/-- The number of lines: one more than the number of line feeds. -/
def lineCount (m : SourceMap) : Nat := m.lineStarts.size

/-- The place of a byte offset. An offset past the end is taken to be the end. Line and column are
cast to 32 bits, so numbers that do not fit wrap around. -/
def positionAt (m : SourceMap) (offset : Nat) : Position :=
  let offset := min offset m.source.utf8ByteSize
  let line := lastAtMost m.lineStarts offset 0 m.lineStarts.size
  let lineStart := m.lineStarts[line]?.getD 0
  let column :=
    match Text.slice? m.source lineStart offset with
    | some before => before.length
    | none => offset - lineStart
  ⟨offset, UInt32.ofNat (line + 1), UInt32.ofNat (column + 1)⟩

/-- A text without the carriage returns at its end. -/
def trimReturns (s : String) : String :=
  String.ofList ((s.toList.reverse.dropWhile (· == '\r')).reverse)

/-- The line with a number, without its line feed and the carriage returns before it. Numbers start
from 1. -/
def line? (m : SourceMap) (number : UInt32) : Option String :=
  if number = 0 then none
  else
    let index := (number - 1).toNat
    match m.lineStarts[index]? with
    | none => none
    | some start =>
      let stop :=
        match m.lineStarts[index + 1]? with
        | some next => next - 1
        | none => m.source.utf8ByteSize
      (Text.slice? m.source start stop).map trimReturns

/-- The column after the last one that is underlined for a range that starts and ends at the two
positions, in a line with the given text: that of the end of the range if it ends on the same line,
else the one after the line. -/
def columnPast (start stop : Position) (line : String) : Nat :=
  if start.line = stop.line then stop.column.toNat else line.length + 1

/-- How many carets underline the range, always at least one. There is no number if the columns to
underline would end before they start. -/
def caretCount? (start stop : Position) (line : String) : Option Nat :=
  let past := columnPast start stop line
  if past < start.column.toNat then none else some (max 1 (past - start.column.toNat))

/-- A text of `n` equal characters. -/
def repeated (n : Nat) (c : Char) : String := String.ofList (List.replicate n c)

/-- A message about a range of the source: label and message, the place, and the first line of the
range underlined. There is none for a range that cannot be underlined. -/
def diagnostic? (m : SourceMap) (span : Span) (label message : String) : Option String :=
  let start := m.positionAt span.start
  let stop := m.positionAt span.stop
  let title := label ++ ": " ++ message ++ "\n  --> " ++ start.render ++ "\n"
  match m.line? start.line with
  | none => some title
  | some line =>
    let number := toString start.line
    let margin := repeated number.length ' '
    (caretCount? start stop line).map fun carets =>
      title ++ "   " ++ margin ++ " |\n" ++ number ++ " | " ++ line ++ "\n" ++
        "   " ++ margin ++ " | " ++ repeated (start.column.toNat - 1) ' ' ++ repeated carets '^' ++ "\n"

end SourceMap

end RobotScript
