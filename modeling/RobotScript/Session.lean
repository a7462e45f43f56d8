import RobotScript.Lexer
import RobotScript.Log.Setup

/-!
# Sessions

A session is a tree of steps that a host takes in one process, each of which stands for calls of
`Log.Ambient`, `Log.Setup`, a lexer or a table: it sets up logging, opens scopes and source contexts
around further steps, reports events, and uses tables and lexers that report events of their own.
Running a session is a function on the surroundings.

A scope of a session is over a new memory, whose events are part of the answer.
-/

namespace RobotScript

open Log

/-- A step of a session. -/
inductive Step where
  /-- Steps with their events going to a memory behind a level. -/
  | scope (level : Level) (body : List Step)
  /-- Steps while a source is processed. -/
  | inSource (name : String) (body : List Step)
  | setSource (name : String)
  | clearSource
  | getSource
  | debugEnabled
  /-- Report an event. -/
  | report (e : Event)
  /-- Report an error even if nothing receives events. -/
  | reportError (code : Code) (message : String)
  /-- Define a constant in a table of its own that has room for one. -/
  | define (name : String) (value : Int)
  /-- Turn a source into a stream with a lexer of its own. -/
  | tokenize (source : String)
  | settings
  | summary
  /-- Install preferences that are given as JSON. -/
  | installPreferences (preferences : Json)
  /-- Install the service that the preferences ask for. -/
  | installConfigured
  /-- Install a service over a memory. -/
  | installMemory (level : Level)
  | isInstalled
  /-- Send an event to a sink as it is. -/
  | send (sink : Sink) (e : Event)
  /-- Send an event to the service over the error stream as it is. -/
  | sendConfigured (e : Event)
  /-- Send an event to the logger that the preferences ask for as it is. -/
  | sendConfiguredLogger (e : Event)
  deriving Repr, Inhabited

/-- What a host finds out about logging. -/
structure Settings where
  floor : Level
  minLevel : Level
  preferences : LoggingPreferences
  limits : Limits
  valid : Bool
  deriving Repr, DecidableEq

/-- The answer to a step. -/
inductive Answer where
  | done
  /-- The answers in a scope and the events that its memory holds at the end. -/
  | scope (answers : List Answer) (events : Array Event)
  /-- The answers in a source context and the name of the source afterwards. -/
  | inSource (answers : List Answer) (after : Option String)
  | name (name : Option String)
  | truth (b : Bool)
  /-- The number of tokens, if there is a stream. -/
  | tokens (count : Option Nat)
  | settings (s : Settings)
  | text (s : String)
  | setup (outcome : Except SetupError Unit)
  /-- The given preferences are none. -/
  | notPreferences
  /-- Whether a service is installed, and whether it lets debug events pass. -/
  | installed (debug : Option Bool)
  deriving Inhabited

namespace Log.Ambient

/-- What a host finds out about logging in these surroundings. -/
def settingsReport (a : Ambient) : Settings where
  floor := floor
  minLevel := a.minLevel
  preferences := a.settings
  limits := Limits.built
  valid := a.check.isOk

end Log.Ambient

namespace Step

mutual

/-- Takes a step, where a source takes `elapsed` nanoseconds: the answer and the surroundings
afterwards. -/
def run (elapsed : Nat) (a : Ambient) : Step → Answer × Ambient
  | .scope level body =>
    let ((answers, events), a) := a.capture level fun a => runAll elapsed a body
    (.scope answers events, a)
  | .inSource name body =>
    let (answers, a) := a.withSource name fun a => runAll elapsed a body
    (.inSource answers a.source, a)
  | .setSource name => (.done, { a with source := some name })
  | .clearSource => (.done, { a with source := none })
  | .getSource => (.name a.source, a)
  | .debugEnabled => (.truth a.debugEnabled, a)
  | .report e => (.done, a.report e)
  | .reportError code message => (.done, a.reportError code message)
  | .define name value =>
    (.done, a.reportAll ((Constant.Table.withLimit 1).define name value).2.2)
  | .tokenize source =>
    let (stream, _, events) :=
      (Lexer.standard (.ofEnvironment a.environment)).tokenize elapsed source
    (.tokens (stream.map Stream.size), a.reportAll events)
  | .settings => (.settings a.settingsReport, a)
  | .summary => (.text a.summary, a)
  | .installPreferences preferences =>
    match LoggingPreferences.ofJson? (.ofEnvironment a.environment) preferences with
    | none => (.notPreferences, a)
    | some p =>
      let (outcome, a) := a.installPreferences p
      (.setup outcome, a)
  | .installConfigured =>
    let (outcome, a) := a.installConfigured
    (.setup outcome, a)
  | .installMemory level =>
    let (outcome, a) := a.installNew (.ofMemory level (.empty Limits.built.logBuffer))
    (.setup outcome, a)
  | .isInstalled => (.installed (a.global.map fun service => service.shouldLog .debug), a)
  | .send sink e => (.done, a.write (sink.log e).2)
  | .sendConfigured e => (.done, a.write (a.configuredService.log e).2)
  | .sendConfiguredLogger e => (.done, a.write (a.configuredLogger.log e).2)

/-- Takes steps in order: the answers and the surroundings afterwards. -/
def runAll (elapsed : Nat) (a : Ambient) : List Step → List Answer × Ambient
  | [] => ([], a)
  | step :: steps =>
    let (answer, a) := run elapsed a step
    let (answers, a) := runAll elapsed a steps
    (answer :: answers, a)

end

end Step

end RobotScript
