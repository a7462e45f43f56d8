import RobotScript.Integer

/-!
# Decimal numbers

Signed integers read from text, as `parse` reads those of 64 bits; quotients rounded to a fixed
number of places, and columns, as the messages of the program have them.
-/

namespace RobotScript.Text

/-- The number with these decimal digits, if there is at least one and all are ASCII digits. -/
def digits? (cs : List Char) : Option Nat :=
  if cs.isEmpty || !cs.all Char.isDigit then none
  else some (cs.foldl (fun n c => 10 * n + (c.toNat - '0'.toNat)) 0)

/-- The integer written as an optional sign and decimal digits. -/
def integer? : List Char → Option Int
  | '-' :: cs => (digits? cs).map fun n => -(n : Int)
  | '+' :: cs => (digits? cs).map fun n => (n : Int)
  | cs => (digits? cs).map fun n => (n : Int)

/-- The integer written in `s`, if it has a 64-bit form. -/
def int64? (s : String) : Option Int := (integer? s.toList).filter fitsInt64

/-- `num / den` rounded to the nearest integer; halfway between two, to the even one. -/
def roundDiv (num den : Nat) : Nat :=
  let q := num / den
  let r := num % den
  if 2 * r < den then q
  else if den < 2 * r then q + 1
  else q + q % 2

/-- `num / den` with `places` decimal places. -/
def fixed (num den places : Nat) : String :=
  let scaled := roundDiv (num * Nat.pow 10 places) den
  let fraction := toString (scaled % Nat.pow 10 places)
  let zeros := String.ofList (List.replicate (places - fraction.length) '0')
  toString (scaled / Nat.pow 10 places) ++ (if places = 0 then "" else "." ++ zeros ++ fraction)

/-- A number of nanoseconds in milliseconds, with `places` decimal places. -/
def milliseconds (places nanoseconds : Nat) : String := fixed nanoseconds 1000000 places

/-- A text at the right end of a column of `width` characters. -/
def alignRight (width : Nat) (s : String) : String :=
  String.ofList (List.replicate (width - s.length) ' ') ++ s

/-- A text at the left end of a column of `width` characters. -/
def alignLeft (width : Nat) (s : String) : String :=
  s ++ String.ofList (List.replicate (width - s.length) ' ')

end RobotScript.Text
