/-!
# Texts as bytes

Offsets in this library count the UTF-8 bytes of a text, and the scanner reads bytes. This module
has the two views of a text, the byte offsets at which a character begins (`is_char_boundary`), the
part of a text between two offsets (`get` of a range), and the cut that `dispatch` makes in a long
message.

`toText` stands for `from_utf8_lossy`, which the scanner asks for the bytes of a text only. Of other
bytes the program replaces those at fault, and `toText` all of them.
-/

namespace RobotScript

/-- A sequence of bytes, as a list so that a reader takes them from the front. -/
abbrev Bytes := List UInt8

namespace Bytes

/-- The UTF-8 bytes of a text. -/
def ofText (s : String) : Bytes := s.toUTF8.data.toList

/-- The text with these UTF-8 bytes, if they are the bytes of one. -/
def toText? (b : Bytes) : Option String := String.fromUTF8? ⟨b.toArray⟩

/-- The text with these UTF-8 bytes. The replacement character stands for bytes that are the bytes
of no text. -/
def toText (b : Bytes) : String := b.toText?.getD "\uFFFD"

/-- Whether a byte continues the character of the byte before it. -/
def isContinuation (b : UInt8) : Bool := 0x80 ≤ b && b < 0xC0

/-- Whether a character begins here: at the end of the bytes, or at a byte that does not continue
the character before it. -/
def startsCharacter : Bytes → Bool
  | [] => true
  | b :: _ => !isContinuation b

/-- The byte of an ASCII character. -/
def ascii (c : Char) : UInt8 := c.val.toUInt8

/-- The number of bytes with the value `b` in a text. -/
def countIn (b : UInt8) (s : String) : Nat := s.toUTF8.data.count b

end Bytes

namespace Text

/-- Whether the byte offset `i` is the start of a character of `s` or its end. -/
def isBoundary (s : String) (i : Nat) : Bool :=
  let bytes := s.toUTF8
  if h : i < bytes.size then !Bytes.isContinuation bytes[i] else i == bytes.size

/-- The part of `s` from byte `start` to byte `stop`, if both are character boundaries in this
order. -/
def slice? (s : String) (start stop : Nat) : Option String :=
  if start ≤ stop && isBoundary s start && isBoundary s stop then
    String.fromUTF8? (s.toUTF8.extract start stop)
  else none

/-- The last boundary at an offset or before it, looked for step by step from the offset back. There
is none if the search would go below 0. -/
def boundaryUpTo? (s : String) : Nat → Option Nat
  | 0 => if isBoundary s 0 then some 0 else none
  | cut + 1 => if isBoundary s (cut + 1) then some (cut + 1) else boundaryUpTo? s cut

/-- A text cut to at most `limit` bytes: a longer one ends at the last boundary that the limit
leaves. -/
def truncate (s : String) (limit : Nat) : String :=
  if s.utf8ByteSize ≤ limit then s
  else ((boundaryUpTo? s limit).bind fun cut => slice? s 0 cut).getD ""

end Text

end RobotScript
