import RobotScript.Log.Ambient

/-!
# Setting up logging

Models of `init_runtime_preferences`, `validate_preferences`, `validate_config`,
`create_configured_multi_logger`, `with_config`, `init_global_logging`,
`init_global_logging_with_service` and `get_config_summary`. Preferences and the service of a
process are installed once. What is refused changes nothing.

`init_global_logging` makes a service before it knows whether the service is installed. A service
that is not installed is dropped, and `installNew` does not add it to the store.
-/

namespace RobotScript.Log

/-- Why preferences or a service were not installed. -/
inductive SetupError where
  | structuredWithoutConsole
  | noBuffer
  | shortMessages (limit : Nat)
  | preferencesInstalled
  | serviceInstalled
  | invalid (cause : SetupError)
  deriving Repr, DecidableEq

/-- The wording of an error. -/
def SetupError.message : SetupError → String
  | .structuredWithoutConsole => "Structured logging requires console logging to be enabled"
  | .noBuffer => "Log buffer size must be non-zero"
  | .shortMessages limit => "Max log message length too small: " ++ toString limit
  | .preferencesInstalled => "Runtime preferences already initialized"
  | .serviceInstalled => "Global logger already initialized"
  | .invalid cause => "Configuration validation failed: " ++ cause.message

/-- Whether preferences can be installed: JSON lines go to the console. -/
def checkPreferences (p : LoggingPreferences) : Except SetupError Unit :=
  if p.structured && !p.console then .error .structuredWithoutConsole else .ok ()

/-- Whether events can be recorded within the limits. -/
def checkLimits (limits : Limits) : Except SetupError Unit :=
  if limits.logBuffer = 0 then .error .noBuffer
  else if limits.maxMessage < 64 then .error (.shortMessages limits.maxMessage)
  else .ok ()

namespace Ambient

/-- Whether the limits and the installed preferences, if there are any, go together. -/
def check (a : Ambient) : Except SetupError Unit := do
  checkLimits Limits.built
  match a.preferences with
  | some p => checkPreferences p
  | none => .ok ()

/-- Installs preferences for the whole process. -/
def installPreferences (p : LoggingPreferences) (a : Ambient) :
    Except SetupError Unit × Ambient :=
  match checkPreferences p, a.preferences with
  | .error e, _ => (.error e, a)
  | .ok (), some _ => (.error .preferencesInstalled, a)
  | .ok (), none => (.ok (), { a with preferences := some p })

/-- The logger that the preferences ask for, if they ask for the console. -/
def configuredLogger (a : Ambient) : Logger :=
  let level := a.minLevel
  .multi level <|
    if !a.settings.console then []
    else if a.settings.structured then [.structured level]
    else [.console level false]

/-- A service over the error stream in the form that the preferences ask for. -/
def configuredService (a : Ambient) : Service :=
  let level := a.minLevel
  ⟨level, .single (if a.settings.structured then .structured level else .console level false)⟩

/-- The service of the process. -/
def global (a : Ambient) : Option Service := a.process.bind (a.services[·]?)

/-- Installs the service at a place for the whole process. -/
def installService (place : Nat) (a : Ambient) : Except SetupError Unit × Ambient :=
  match a.process with
  | some _ => (.error .serviceInstalled, a)
  | none => (.ok (), { a with process := some place })

/-- Installs a new service for the whole process. It is dropped at once if one is installed. -/
def installNew (service : Service) (a : Ambient) : Except SetupError Unit × Ambient :=
  match a.installService a.services.size with
  | (.error e, a) => (.error e, a)
  | (.ok (), a) => (.ok (), a.make service)

/-- Sends an event to the service of the process as it is, without ambient context. -/
def logGlobally (e : Event) (a : Ambient) : Ambient :=
  match a.process with
  | some place => a.send place e
  | none => a

/-- Installs the service that the preferences ask for, and reports that. -/
def installConfigured (a : Ambient) : Except SetupError Unit × Ambient :=
  match a.check with
  | .error e => (.error (.invalid e), a)
  | .ok () =>
    match a.installNew ⟨a.minLevel, a.configuredLogger⟩ with
    | (.error e, a) => (.error e, a)
    | (.ok (), a) =>
      (.ok (), a.logGlobally (.success .initialized "Global logging system initialized"))

/-- Limits and settings for a reader. -/
def summary (a : Ambient) : String :=
  let settings := a.settings
  "Logging Configuration:\n" ++
    "=== Compile-time ===\n" ++
    s!"- Log buffer size: {Limits.built.logBuffer}\n" ++
    s!"- Max message length: {Limits.built.maxMessage}\n" ++
    s!"- Enforced level floor: {floor.name}\n" ++
    "=== Runtime ===\n" ++
    s!"- Min log level: {settings.minLevel.name}\n" ++
    s!"- Structured logging: {settings.structured}\n" ++
    s!"- Console logging: {settings.console}\n" ++
    s!"- Detailed errors: {settings.detailedErrors}\n" ++
    s!"- Include source context: {settings.sourceContext}"

end Ambient

end RobotScript.Log
