import RobotScript.Text.Blank
import RobotScript.Text.Decimal

/-!
# Command-line options

Models of `CliOptions`, `parse_options` and `parse_define`. One word of the command line is the path
of the script. The others are options: words that start with two hyphens, some of which take the
next word as their value, whatever it is. An option that is not known is passed over with a warning.

The warnings are returned with the options; the program writes them at once.
-/

namespace RobotScript.CommandLine

/-- What a command line asks for. -/
structure Options where
  /-- The path of the script. -/
  input : String
  /-- Whether tokens are printed as JSON. -/
  json : Bool
  /-- Constants with their values, in order. -/
  constants : List (String × Int)
  /-- The path of a keyword file. -/
  keywords : Option String
  /-- The path of a configuration file. -/
  configuration : Option String
  deriving Repr, DecidableEq, Inhabited

/-- What is wrong with a command line. -/
inductive OptionError where
  /-- An option at the end of the command line lacks its value. -/
  | noValue (option value : String)
  | noName (word : String)
  | noInteger (word : String)
  | extraWord (word : String)
  | noScript
  deriving Repr, DecidableEq

/-- The wording of an error. -/
def OptionError.message : OptionError → String
  | .noValue option value => option ++ " requires " ++ value
  | .noName word => "Invalid define '" ++ word ++ "', expected NAME=VALUE"
  | .noInteger word => "Invalid value in define '" ++ word ++ "'"
  | .extraWord word => "Unexpected extra argument '" ++ word ++ "'"
  | .noScript => "No script given"

/-- The warning about an option that is not known. -/
def unknownOption (word : String) : String := "Warning: Unknown option '" ++ word ++ "'"

/-- Whether a word is an option. -/
def isOption (word : String) : Bool := word.toList.take 2 = ['-', '-']

/-! ## Constants -/

/-- The parts of a list of characters before and after the first equals sign, if there is one. -/
def splitEquals (cs : List Char) : Option (List Char × List Char) :=
  match cs.dropWhile (· ≠ '=') with
  | [] => none
  | _ :: value => some (cs.takeWhile (· ≠ '='), value)

/-- The name and the value in a word: a name, an equals sign and an integer, each with white space
around it. -/
def parseConstant (word : String) : Except OptionError (String × Int) :=
  match splitEquals word.toList with
  | none => .error (.noName word)
  | some (name, value) =>
    match Text.int64? (Text.trim (String.ofList value)) with
    | none => .error (.noInteger word)
    | some value => .ok (Text.trim (String.ofList name), value)

/-! ## Command lines -/

/-- The options in the words read so far. -/
structure Draft where
  input : Option String
  json : Bool
  constants : List (String × Int)
  keywords : Option String
  configuration : Option String
  deriving Repr, DecidableEq

/-- No words read yet. -/
def Draft.empty : Draft := ⟨none, false, [], none, none⟩

/-- The options of a whole command line. -/
def Draft.finish (d : Draft) : Except OptionError Options :=
  match d.input with
  | none => .error .noScript
  | some input => .ok ⟨input, d.json, d.constants, d.keywords, d.configuration⟩

/-- Adds a warning to those that follow. -/
def warn (word : String) (rest : List String × Except OptionError Options) :
    List String × Except OptionError Options :=
  (unknownOption word :: rest.1, rest.2)

/-- Reads words from left to right: the warnings, and the options or what is wrong. -/
def readWords (d : Draft) : List String → List String × Except OptionError Options
  | [] => ([], d.finish)
  | "--json" :: rest => readWords { d with json := true } rest
  | ["--define"] => ([], .error (.noValue "--define" "NAME=VALUE"))
  | "--define" :: word :: rest =>
    match parseConstant word with
    | .error e => ([], .error e)
    | .ok constant => readWords { d with constants := d.constants ++ [constant] } rest
  | ["--keywords"] => ([], .error (.noValue "--keywords" "a file"))
  | "--keywords" :: path :: rest => readWords { d with keywords := some path } rest
  | ["--config"] => ([], .error (.noValue "--config" "a file"))
  | "--config" :: path :: rest => readWords { d with configuration := some path } rest
  | word :: rest =>
    if isOption word then warn word (readWords d rest)
    else if d.input.isSome then ([], .error (.extraWord word))
    else readWords { d with input := some word } rest

/-- The options that words ask for, with the warnings. -/
def parseOptions (words : List String) : List String × Except OptionError Options :=
  readWords .empty words

end RobotScript.CommandLine
