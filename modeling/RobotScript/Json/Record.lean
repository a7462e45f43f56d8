import RobotScript.Json.Basic

/-!
# Records in JSON

A record is an object, whose unknown fields are passed over, or an array of its fields in order. An
object that has a known field twice is refused. A word from a fixed choice is a text, or the only
key of an object, over null.
-/

namespace RobotScript.Json

/-- The field of a record: by its name in an object, by its place in an array. None if the value is
no record; `some none` if the field is absent. -/
def member? (name : String) (place : Nat) : Json → Option (Option Json)
  | .object fields => some ((Json.object fields).field? name)
  | .array items => some items[place]?
  | _ => none

/-- A field of a record, or what stands for it if it is absent. -/
def optional (name : String) (place : Nat) (read : Json → Option α) (default : α) (j : Json) :
    Option α :=
  match j.member? name place with
  | some (some field) => read field
  | some none => some default
  | none => none

/-- A field that a record has to have. -/
def required (name : String) (place : Nat) (read : Json → Option α) (j : Json) : Option α :=
  match j.member? name place with
  | some (some field) => read field
  | _ => none

/-- Whether the value can be a record with the given fields, if it is one: an object has none of
them twice, and an array has no more items. -/
def fitsRecord (names : List String) : Json → Bool
  | .object fields => names.all fun name => fields.countP (fun f => f.1 == name) ≤ 1
  | .array items => items.length ≤ names.length
  | _ => true

/-- One of several words. -/
def word? (ofWord? : String → Option α) : Json → Option α
  | .str s => ofWord? s
  | .object [(s, .null)] => ofWord? s
  | _ => none

end RobotScript.Json
