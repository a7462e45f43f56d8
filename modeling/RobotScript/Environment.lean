/-!
# Environment variables

The variables that a program is started with, as data, and a model of `env_flag`. A variable whose
value is no text is left out: the program treats it as one that is not set.
-/

namespace RobotScript

/-- Names with their values. The first entry of a name counts. -/
abbrev Environment := List (String × String)

namespace Environment

/-- The value of a variable, if it is set. -/
def get? (env : Environment) (name : String) : Option String :=
  (env.find? fun entry => entry.1 == name).map Prod.snd

/-- A variable that switches something on or off: `true` or `false` in just these letters, and the
default for anything else. -/
def flag (env : Environment) (name : String) (default : Bool) : Bool :=
  match env.get? name with
  | some "true" => true
  | some "false" => false
  | _ => default

end Environment

end RobotScript
