/-!
# TOML values

The values of a configuration file, what can be wrong with one, and how a record is read from a
value. A record is written as a table, whose unknown keys are passed over, or as an array of its
fields in order; a time is a record too, with no field that is asked for.

The program leaves this to a library, and derives how its structures are read. The modules here do
what that library documents, as far as the program asks for it, but for the wording of errors.
-/

namespace RobotScript.Toml

/-- A TOML value. Floats and times keep their text: nothing here is configured by one. -/
inductive Value where
  | string (s : String)
  | integer (i : Int)
  | float (text : String)
  | boolean (b : Bool)
  | time (text : String)
  | array (items : List Value)
  | table (entries : List (String × Value))
  deriving Repr, Inhabited

/-- What is wrong with a configuration text. -/
inductive Error where
  | malformed (expected : String)
  | duplicateKey (key : String)
  | tooDeep
  | wrongType (expected : String)
  | unknownVariant (name : String)
  | missingField (name : String)
  deriving Repr, DecidableEq, Inhabited

/-- The wording of an error. -/
def Error.message : Error → String
  | .malformed expected => "TOML parse error: expected " ++ expected
  | .duplicateKey key => "TOML parse error: duplicate key '" ++ key ++ "'"
  | .tooDeep => "TOML parse error: recursion limit exceeded"
  | .wrongType expected => "invalid type: expected " ++ expected
  | .unknownVariant name => "unknown variant '" ++ name ++ "'"
  | .missingField name => "missing field '" ++ name ++ "'"

/-! ## Reading values -/

namespace Value

/-- A text. -/
def asString : Value → Except Error String
  | .string s => .ok s
  | _ => .error (.wrongType "a string")

/-- A truth value. -/
def asBool : Value → Except Error Bool
  | .boolean b => .ok b
  | _ => .error (.wrongType "a boolean")

/-- A natural number below `bound`. -/
def asNat (bound : Nat) : Value → Except Error Nat
  | .integer i =>
    if 0 ≤ i ∧ i < bound then .ok i.toNat
    else .error (.wrongType s!"a number below {bound}")
  | _ => .error (.wrongType "an integer")

/-- A list of texts. -/
def asStrings : Value → Except Error (List String)
  | .array items => items.mapM asString
  | _ => .error (.wrongType "an array")

/-- One of several words. A word may also be the only key of a table, over an empty table or
array. -/
def asWord (ofWord? : String → Option α) : Value → Except Error α
  | .string s => known s
  | .table [(s, .table [])] => known s
  | .table [(s, .array [])] => known s
  | _ => .error (.wrongType "a string")
where
  /-- The meaning of a word, if it has one. -/
  known (s : String) : Except Error α :=
    match ofWord? s with
    | some a => .ok a
    | none => .error (.unknownVariant s)

/-- The value of a field of a record: by its name in a table, by its place in an array. A time is
taken for a record whose fields have other names. -/
def field? (name : String) (place : Nat) : Value → Except Error (Option Value)
  | .table entries => .ok ((entries.find? fun entry => entry.1 == name).map Prod.snd)
  | .array items => .ok items[place]?
  | .time _ => .ok none
  | _ => .error (.wrongType "a table")

/-- A field of a record, or what stands for it if it is absent. -/
def optional (name : String) (place : Nat) (read : Value → Except Error α) (default : α)
    (v : Value) : Except Error α := do
  match ← v.field? name place with
  | some field => read field
  | none => .ok default

/-- A field that a record has to have. -/
def required (name : String) (place : Nat) (read : Value → Except Error α) (v : Value) :
    Except Error α := do
  match ← v.field? name place with
  | some field => read field
  | none => .error (.missingField name)

end Value

end RobotScript.Toml
