import RobotScript.Text.Bytes

/-!
# Byte ranges

Models of `Span`: `empty_at`, `merge`, `len`, `is_empty`, `contains` and `slice`, and how a range is
displayed. A range is a half-open range of byte offsets in a source. Tokens and diagnostics carry
one.

Offsets are natural numbers. In debug builds `new` asserts that the start is not after the end; here
any two offsets make a range. The subtraction in `len` is unsigned: of a range that runs backwards
`length` is 0, where the program underflows.
-/

namespace RobotScript

/-- The bytes of a source from offset `start` up to, and without, offset `stop`. -/
structure Span where
  start : Nat
  stop : Nat
  deriving Repr, DecidableEq, Inhabited

namespace Span

/-- The range without bytes at an offset. -/
def emptyAt (offset : Nat) : Span := ⟨offset, offset⟩

/-- The least range that covers two ranges. -/
def merge (a b : Span) : Span := ⟨min a.start b.start, max a.stop b.stop⟩

/-- The number of bytes in the range. -/
def length (s : Span) : Nat := s.stop - s.start

/-- Whether the range ends where it starts. -/
def isEmpty (s : Span) : Bool := s.start == s.stop

/-- Whether the byte at an offset is in the range. -/
def contains (s : Span) (offset : Nat) : Bool := s.start ≤ offset && offset < s.stop

/-- The text in the range, if both ends are character boundaries of `text`. -/
def slice? (s : Span) (text : String) : Option String := Text.slice? text s.start s.stop

/-- The two offsets with two points between them. -/
def render (s : Span) : String := s!"{s.start}..{s.stop}"

end Span

end RobotScript
