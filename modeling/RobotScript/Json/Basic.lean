import RobotScript.Integer

/-!
# JSON values

Tokens are written as JSON, structured log lines are JSON, and tokens are read back from it. An
integer is kept as one; any other number keeps its text, for no field of a token is such a number.

The program leaves this to a library, and derives how its structures are written and read. The
modules here do what that library documents, as far as the program asks for it.
-/

namespace RobotScript

/-- A JSON value. The fields of an object are in the order in which they were written. -/
inductive Json where
  | null
  | bool (value : Bool)
  | int (value : Int)
  | real (text : String)
  | str (value : String)
  | array (items : List Json)
  | object (fields : List (String × Json))
  deriving Repr, Inhabited

namespace Json

/-- A natural number as a JSON value. -/
def nat (n : Nat) : Json := .int n

/-- The value of a field. The last one counts if the name occurs several times; records refuse such
objects before they ask for the field. -/
def field? (name : String) : Json → Option Json
  | .object fields => (fields.reverse.find? fun f => f.1 == name).map Prod.snd
  | _ => none

/-- The text, if the value is one. -/
def str? : Json → Option String
  | .str s => some s
  | _ => none

/-- The truth value, if the value is one. -/
def bool? : Json → Option Bool
  | .bool b => some b
  | _ => none

/-- The integer, if the value is one with a 64-bit two's complement form. -/
def int64? : Json → Option Int
  | .int i => if fitsInt64 i then some i else none
  | _ => none

/-- The natural number, if the value is one below 2 to the 64. -/
def nat64? : Json → Option Nat
  | .int i => if fitsWord64 i then some i.toNat else none
  | _ => none

/-- The items, if the value is an array. -/
def items? : Json → Option (List Json)
  | .array items => some items
  | _ => none

end Json

end RobotScript
