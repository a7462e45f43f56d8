import RobotScript.Files.Basic
import RobotScript.Log.Code
import RobotScript.Preferences
import RobotScript.Text.Quoted

/-!
# Configuration files

Models of `ConfigError` and of the function `load` of `RuntimeConfig`: preferences that are read
from a file. The wording of an error about a file that cannot be parsed is that of `Toml.Error`.
-/

namespace RobotScript

/-- Why no preferences were read from a file. -/
inductive ConfigurationError where
  | unreadable (path : String) (cause : FileFailure)
  | unparsable (path : String) (reason : Toml.Error)
  deriving Repr, DecidableEq

namespace ConfigurationError

/-- The wording of an error. -/
def message : ConfigurationError → String
  | .unreadable path cause => "Failed to read configuration '" ++ path ++ "': " ++ cause.message
  | .unparsable path reason => "Invalid configuration in '" ++ path ++ "': " ++ reason.message

/-- The name of the kind of an error. -/
def kind : ConfigurationError → String
  | .unreadable _ _ => "Read"
  | .unparsable _ _ => "Parse"

/-- The code of an error. -/
def code : ConfigurationError → Log.Code
  | .unreadable _ _ => .configRead
  | .unparsable _ _ => .configParse

/-- The path and the reason of an error. -/
def details : ConfigurationError → String × String
  | .unreadable path cause => (path, cause.message)
  | .unparsable path reason => (path, reason.message)

/-- An error with its kind and the values it holds. -/
def describe (e : ConfigurationError) : String :=
  e.kind ++ " \x7b path: " ++ Text.quoted e.details.1 ++ ", message: " ++
    Text.quoted e.details.2 ++ " \x7d"

end ConfigurationError

/-- The preferences in the text of the configuration file at `path`. -/
def Preferences.ofFileText (env : Environment) (path text : String) :
    Except ConfigurationError Preferences :=
  match Preferences.ofText env text with
  | .ok preferences => .ok preferences
  | .error reason => .error (.unparsable path reason)

/-- The preferences in a configuration file. -/
def Preferences.load (files : FileSystem) (env : Environment) (path : String) :
    Except ConfigurationError Preferences :=
  match files.readText path with
  | .ok text => Preferences.ofFileText env path text
  | .error cause => .error (.unreadable path cause)

end RobotScript
