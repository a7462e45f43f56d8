import RobotScript.CommandLine.Options
import RobotScript.Keyword.File
import RobotScript.Lexer
import RobotScript.Log.Setup
import RobotScript.Preferences.File
import RobotScript.Source

/-!
# The command line

Models of `main`, `print_help` and `print_tokens`: what the program does with its command line. It
sets up logging, loads keywords and the script, turns the script into a stream, and prints the
tokens, the problems and the counts. A run is a function of the command line, the environment and
the files.

What goes to the output and what goes to the error stream is data, each in its order.
-/

namespace RobotScript.CommandLine

open Log (Ambient Output)

/-- What a run leaves behind. -/
structure Outcome where
  /-- 0 if the run went well. -/
  exitCode : Nat
  standardOutput : String
  errorOutput : Array Output
  deriving Repr

/-! ## Texts -/

/-- The version of the program. -/
def version : String := "0.1.0"

/-- The lines for a call without words. -/
def usage (program : String) : List Output :=
  [.line ("Usage: " ++ program ++ " <script.txt> [options]"),
    .line ("       " ++ program ++ " --help")]

/-- The text of the option `--help`. -/
def help (program : String) : String :=
  "CBOT tokenizer v" ++ version ++ "\n" ++
  "\n" ++
  "USAGE:\n" ++
  "    " ++ program ++ " <script> [options]\n" ++
  "\n" ++
  "OPTIONS:\n" ++
  "    --help                  Show this help message\n" ++
  "    --json                  Print tokens as a JSON array\n" ++
  "    --define NAME=VALUE     Bind a numeric constant (repeatable)\n" ++
  "    --keywords FILE         Load keyword spellings from a TOML file\n" ++
  "    --config FILE           Load runtime preferences from a TOML file\n" ++
  "\n" ++
  "EXAMPLES:\n" ++
  "    " ++ program ++ " miner.txt\n" ++
  "    " ++ program ++ " miner.txt --define TitaniumOre=1 --json\n"

/-- A line about something that ends a run. -/
def errorLine (message : String) : Output := .line ("Error: " ++ message)

/-- A token in columns: its range, kind, id and text. -/
def tokenLine (t : Token) : String :=
  Text.alignRight 6 (toString t.span.start) ++ ".." ++
    Text.alignLeft 6 (toString t.span.stop) ++ " " ++ Text.alignLeft 16 t.kind.name ++ " " ++
    Text.alignRight 5 (toString t.id) ++ "  " ++ Text.quoted t.text ++ "\n"

/-- The tokens of the script `name`, as JSON or in columns. -/
def tokenText (json : Bool) (name : String) : Option Stream → String
  | none => if json then "[]\n" else name ++ ": empty script, no tokens\n"
  | some stream =>
    if json then stream.toJson.indented ++ "\n"
    else String.join (stream.tokens.toList.map tokenLine)

/-- The counts for the script `name`. -/
def countLine (name : String) (elapsed : Nat) (m : Metrics) : Output :=
  .line (name ++ s!": {m.total} tokens ({m.keywords} keywords, {m.constants} constants) in " ++
    Text.milliseconds 2 elapsed ++ " ms")

/-- The lines about a script that was not loaded. -/
def failureLines (e : SourceError) : List Output :=
  [.line ("FAILED: " ++ e.message),
    .line ("  [" ++ e.code.name ++ "] " ++ e.code.recommendedAction)]

/-! ## Stages -/

/-- Why a run stops before the script is loaded. -/
inductive Refusal where
  | configuration (e : ConfigurationError)
  | logging (e : Log.SetupError)
  | keywords (e : Keyword.ListError)
  | constant (e : Constant.DefineError)
  deriving Repr

/-- A refusal with the values it holds. -/
def Refusal.describe : Refusal → String
  | .configuration e => e.describe
  | .logging e => Text.quoted e.message
  | .keywords e => e.describe
  | .constant e => e.describe

/-- The preferences that options ask for. -/
def preferencesFor (files : FileSystem) (env : Environment) (o : Options) :
    Except Refusal Preferences :=
  match o.configuration with
  | none => .ok (.ofEnvironment env)
  | some path => (Preferences.load files env path).mapError .configuration

/-- Sets up logging for preferences. -/
def setUpLogging (p : LoggingPreferences) (a : Ambient) : Except Refusal Unit × Ambient :=
  match a.installPreferences p with
  | (.error e, a) => (.error (.logging e), a)
  | (.ok (), a) =>
    let (outcome, a) := a.installConfigured
    (outcome.mapError .logging, a)

/-- The keyword table that options ask for. -/
def keywordsFor (files : FileSystem) (o : Options) : Except Refusal Keyword.Table :=
  match o.keywords with
  | none => .ok .standard
  | some path =>
    ((Keyword.Spellings.load files path).map Keyword.Table.ofSpellings).mapError .keywords

/-- Defines constants in order, until one is refused. -/
def defineAll : List (String × Int) → Lexer → Ambient → Except Refusal Lexer × Ambient
  | [], lexer, a => (.ok lexer, a)
  | (name, value) :: rest, lexer, a =>
    match lexer.constants.define name value with
    | (.error e, _, events) => (.error (.constant e), a.reportAll events)
    | (.ok (), constants, events) => defineAll rest { lexer with constants } (a.reportAll events)

/-- The lexer that options and preferences ask for. -/
def lexerFor (files : FileSystem) (o : Options) (p : Preferences) (a : Ambient) :
    Except Refusal Lexer × Ambient :=
  match setUpLogging p.logging a with
  | (.error e, a) => (.error e, a)
  | (.ok (), a) =>
    match keywordsFor files o with
    | .error e => (.error e, a)
    | .ok keywords => defineAll o.constants (.ofKeywords keywords p.lexical) a

/-- Turns a script into a stream and prints what came of it. -/
def processSource (elapsed : Nat) (json : Bool) (lexer : Lexer) (s : Source) (a : Ambient) :
    Outcome :=
  let (stream, lexer, events) := lexer.tokenize elapsed s.text
  let ((), a) := a.withSource s.name fun a => ((), a.reportAll events)
  let problems := lexer.diagnostics.filterMap fun d => (d.render? s.map).map Output.text
  let counts := if json then [] else [countLine s.name elapsed lexer.metrics]
  ⟨0, tokenText json s.name stream, (a.write (problems ++ counts)).output⟩

/-- A run with options, where reading and lexing a script take `elapsed` nanoseconds each. -/
def runOptions (files : FileSystem) (elapsed : Nat) (o : Options) (a : Ambient) : Outcome :=
  let refuse (e : Refusal) (a : Ambient) : Outcome :=
    ⟨1, "", (a.write [errorLine e.describe]).output⟩
  match preferencesFor files a.environment o with
  | .error e => refuse e a
  | .ok p =>
    match lexerFor files o p a with
    | (.error e, a) => refuse e a
    | (.ok lexer, a) =>
      let (outcome, events) := Source.load files p.source elapsed o.input
      let a := a.reportAll events
      match outcome with
      | .error e => ⟨1, "", (a.write (failureLines e)).output⟩
      | .ok s => processSource elapsed o.json lexer s a

/-! ## Runs -/

/-- Runs the program under a name with the words of its command line. -/
def run (program : String) (files : FileSystem) (env : Environment) (elapsed : Nat)
    (words : List String) : Outcome :=
  match words with
  | [] => ⟨1, "", (usage program).toArray⟩
  | "--help" :: _ => ⟨0, help program, #[]⟩
  | words =>
    let (warnings, options) := parseOptions words
    let a := (Ambient.start env).write (warnings.map Output.line)
    match options with
    | .error e => ⟨1, "", (a.write [errorLine e.message]).output⟩
    | .ok o => runOptions files elapsed o a

end RobotScript.CommandLine
