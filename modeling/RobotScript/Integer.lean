/-!
# Machine integers

Ids and values are 64-bit integers in two's complement, offsets and sizes are 64-bit words. The
library computes with integers of any size; here is which of them are machine integers.
-/

namespace RobotScript

/-- The number of 64-bit words. -/
def wordCount : Nat := 0x10000000000000000

/-- Whether an integer has a 64-bit two's complement form. -/
def fitsInt64 (i : Int) : Bool := -0x8000000000000000 ≤ i && i < 0x8000000000000000

/-- Whether an integer is the number of a 64-bit word. -/
def fitsWord64 (i : Int) : Bool := 0 ≤ i && i < wordCount

example : wordCount = Nat.pow 2 64 := rfl

end RobotScript
