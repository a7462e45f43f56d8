import RobotScript.Limits
import RobotScript.Log.Service
import RobotScript.Preferences

/-!
# Ambient logging

Models of what a process and a thread keep for logging: the global service with
`try_get_global_logger` and `current_service`, `with_scoped_logger`, the source context with
`with_source_context`, `debug_enabled`, `dispatch`, the macros over it and `safe_log_error`, and
`get_min_log_level` with the level floor.

* `services`: the process and any number of scopes may hold the same service. So all services are in
  one store, and what holds a service has its place there. A place without a service, which nothing
  can hold in the program, stands for no service.
* A service has its logger for itself. Which service receives an event does not depend on what is
  behind the service.
* The cells of the process and of the thread are the fields of one state: only one thread is
  modelled.
-/

namespace RobotScript.Log

/-- The surroundings of a running program. -/
structure Ambient where
  /-- The variables that the program was started with. -/
  environment : Environment
  /-- The preferences of the process, once they are installed. -/
  preferences : Option LoggingPreferences
  /-- All services, in the order in which they were made. -/
  services : Array Service
  /-- The place of the service of the process, once one is installed. -/
  process : Option Nat
  /-- The place of the service of the innermost scope. -/
  scope : Option Nat
  /-- The name of the source being processed. -/
  source : Option String
  /-- What has been written to the error stream. -/
  output : Array Output
  deriving Repr, Inhabited

namespace Ambient

/-- The surroundings of a program that has just been started. -/
def start (env : Environment) : Ambient := ⟨env, none, #[], none, none, none, #[]⟩

/-- Writes to the error stream. -/
def write (a : Ambient) (written : List Output) : Ambient :=
  { a with output := a.output ++ written }

/-- Makes a service. Its place is the number of services made before. -/
def make (a : Ambient) (service : Service) : Ambient :=
  { a with services := a.services.push service }

/-! ## Settings -/

/-- The preferences in force: the installed ones, or those of the environment. -/
def settings (a : Ambient) : LoggingPreferences :=
  a.preferences.getD (.ofEnvironment a.environment)

/-- The level below which logging cannot be made quieter. -/
def floor : Level :=
  match Limits.built.minLogLevel with
  | 0 => .error
  | 1 => .warning
  | _ => .info

/-- The level up to which events are logged: the preferred one, raised to the floor. -/
def minLevel (a : Ambient) : Level := a.settings.minLevel.max floor

/-! ## Events -/

/-- The place of the service that receives events: that of the innermost scope, or outside of all
scopes that of the process. -/
def receiver (a : Ambient) : Option Nat := a.scope.or a.process

/-- The service that receives events. -/
def current (a : Ambient) : Option Service := a.receiver.bind (a.services[·]?)

/-- Whether debug events are recorded. -/
def debugEnabled (a : Ambient) : Bool :=
  match a.current with
  | some service => service.shouldLog .debug
  | none => false

/-- An event as it is handed to a service: its message cut to the limit, and with the name of the
source being processed, if the preferences say so and there is one. -/
def prepare (a : Ambient) (e : Event) : Event :=
  let e := { e with message := Text.truncate e.message Limits.built.maxMessage }
  if a.settings.sourceContext then
    match a.source with
    | some name => e.withSource name
    | none => e
  else e

/-- Sends an event to the service at a place as it is. -/
def send (place : Nat) (e : Event) (a : Ambient) : Ambient :=
  match a.services[place]? with
  | some service =>
    let (service, written) := service.log e
    { a with services := a.services.setIfInBounds place service }.write written
  | none => a

/-- Hands an event to the service that receives events. -/
def dispatch (e : Event) (a : Ambient) : Ambient :=
  match a.receiver with
  | some place => a.send place (a.prepare e)
  | none => a

/-- Reports an event. A debug event is dropped at once if none is recorded. -/
def report (e : Event) (a : Ambient) : Ambient :=
  if e.level = .debug && !a.debugEnabled then a else a.dispatch e

/-- Reports events in order. -/
def reportAll (events : List Event) (a : Ambient) : Ambient :=
  events.foldl (fun a e => a.report e) a

/-- Reports an error even if there is no service: then it is written to the error stream. -/
def reportError (code : Code) (message : String) (a : Ambient) : Ambient :=
  if a.current.isSome then a.dispatch (.error code message)
  else a.write [.line ("[ERROR] FALLBACK: [" ++ code.name ++ "] " ++ message)]

/-! ## Scopes -/

/-- Runs `body` with its events going to the service at a place. Afterwards events go where they
went before. -/
def withService (place : Nat) (body : Ambient → α × Ambient) (a : Ambient) : α × Ambient :=
  let (result, after) := body { a with scope := some place }
  (result, { after with scope := a.scope })

/-- Runs `body` with its events going to a new service. -/
def withNew (service : Service) (body : Ambient → α × Ambient) (a : Ambient) : α × Ambient :=
  (a.make service).withService a.services.size body

/-- Runs `body` while the source `name` is processed. Afterwards the source is the one before. -/
def withSource (name : String) (body : Ambient → α × Ambient) (a : Ambient) : α × Ambient :=
  let (result, after) := body { a with source := some name }
  (result, { after with source := a.source })

/-- Runs `body` with its events going to a new memory, and returns what that held at the end. -/
def capture (level : Level) (body : Ambient → α × Ambient) (a : Ambient) :
    (α × Array Event) × Ambient :=
  let memory := Memory.empty Limits.built.logBuffer
  let (result, after) := a.withNew (.ofMemory level memory) body
  ((result, (after.services[a.services.size]?.map Service.held).getD #[]), after)

/-- Runs commands in order on a state, each while its source is processed if it names one. What a
command reports is handed on before the next command runs. -/
def perform (run : γ → σ → ρ × σ × List Event) :
    List (Option String × γ) → σ → Ambient → (List ρ × σ) × Ambient
  | [], state, a => (([], state), a)
  | (source, command) :: commands, state, a =>
    let (reply, state, events) := run command state
    let a :=
      match source with
      | some name => (a.withSource name fun a => ((), a.reportAll events)).2
      | none => a.reportAll events
    let ((replies, state), a) := perform run commands state a
    ((reply :: replies, state), a)

end Ambient

end RobotScript.Log
