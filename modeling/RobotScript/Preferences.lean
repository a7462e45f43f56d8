import RobotScript.Environment
import RobotScript.Json.Record
import RobotScript.Log.Level
import RobotScript.Toml.Parser

/-!
# Preferences

Models of `SourcePreferences`, `LexicalPreferences` and `LoggingPreferences` with their defaults,
and of `RuntimeConfig` as it is read from the text of a configuration. They are what a user may
choose: how sources are loaded, what is counted and traced, and how events are logged. A preference
that a configuration does not mention comes from an environment variable, and failing that from a
default.

The environment is a parameter. The program reads it each time a default is asked for.
-/

namespace RobotScript

/-- How sources are loaded. -/
structure SourcePreferences where
  /-- Whether a source has to have the extension of a script. -/
  requireExtension : Bool
  /-- Whether the event about a loaded source has measurements. -/
  logPerformance : Bool
  deriving Repr, DecidableEq

/-- What the lexer counts and traces. -/
structure LexicalPreferences where
  /-- Whether uses of keywords and the longest word are recorded. -/
  detailedMetrics : Bool
  /-- Whether every token is an event. -/
  traceTokens : Bool
  deriving Repr, DecidableEq

/-- How events are logged. -/
structure LoggingPreferences where
  /-- Whether events are written as JSON lines. -/
  structured : Bool
  /-- Whether events are written to the error stream. -/
  console : Bool
  /-- The level up to which events are logged, unless the built-in floor is higher. -/
  minLevel : Log.Level
  /-- Whether errors are to be written with details. -/
  detailedErrors : Bool
  /-- Whether events carry the name of the source that is being processed. -/
  sourceContext : Bool
  deriving Repr, DecidableEq

/-- All preferences. -/
structure Preferences where
  source : SourcePreferences
  lexical : LexicalPreferences
  logging : LoggingPreferences
  deriving Repr, DecidableEq

/-! ## Environment variables -/

namespace PreferenceVariable

/-- Whether a source has to have the extension of a script. -/
def requireExtension : String := "CBOT_REQUIRE_SCRIPT_EXTENSION"

/-- Whether the event about a loaded source has measurements. -/
def logPerformance : String := "CBOT_ENABLE_PERFORMANCE_LOGGING"

/-- Whether uses of keywords and the longest word are recorded. -/
def detailedMetrics : String := "CBOT_LEXICAL_DETAILED_METRICS"

/-- Whether every token is an event. -/
def traceTokens : String := "CBOT_LEXICAL_TRACE_TOKENS"

/-- Whether events are written as JSON lines. -/
def structured : String := "CBOT_LOGGING_USE_STRUCTURED"

/-- Whether events are written to the error stream. -/
def console : String := "CBOT_LOGGING_ENABLE_CONSOLE"

/-- The level up to which events are logged, as a name or number. -/
def minLevel : String := "CBOT_LOGGING_MIN_LEVEL"

/-- Whether errors are to be written with details. -/
def detailedErrors : String := "CBOT_LOGGING_DETAILED_ERRORS"

/-- Whether events carry the name of the source that is being processed. -/
def sourceContext : String := "CBOT_LOGGING_INCLUDE_SOURCE_CONTEXT"

/-- All variables that preferences come from. -/
def all : List String :=
  [ requireExtension, logPerformance, detailedMetrics, traceTokens, structured, console, minLevel,
    detailedErrors, sourceContext ]

end PreferenceVariable

/-! ## Defaults -/

/-- How sources are loaded if nothing else is configured. -/
def SourcePreferences.ofEnvironment (env : Environment) : SourcePreferences where
  requireExtension := env.flag PreferenceVariable.requireExtension false
  logPerformance := env.flag PreferenceVariable.logPerformance true

/-- What the lexer counts and traces if nothing else is configured. -/
def LexicalPreferences.ofEnvironment (env : Environment) : LexicalPreferences where
  detailedMetrics := env.flag PreferenceVariable.detailedMetrics true
  traceTokens := env.flag PreferenceVariable.traceTokens false

/-- How events are logged if nothing else is configured. -/
def LoggingPreferences.ofEnvironment (env : Environment) : LoggingPreferences where
  structured := env.flag PreferenceVariable.structured false
  console := env.flag PreferenceVariable.console false
  minLevel := ((env.get? PreferenceVariable.minLevel).bind Log.Level.parse?).getD .info
  detailedErrors := env.flag PreferenceVariable.detailedErrors true
  sourceContext := env.flag PreferenceVariable.sourceContext true

/-- All preferences if nothing else is configured. -/
def Preferences.ofEnvironment (env : Environment) : Preferences where
  source := .ofEnvironment env
  lexical := .ofEnvironment env
  logging := .ofEnvironment env

/-! ## Configuration files -/

open Toml (Value)

/-- The preferences for loading that a configuration states, over the given ones. -/
def SourcePreferences.ofToml (default : SourcePreferences) (v : Value) :
    Except Toml.Error SourcePreferences := do
  let requireExtension ←
    v.optional "require_script_extension" 0 Value.asBool default.requireExtension
  let logPerformance ←
    v.optional "enable_performance_logging" 1 Value.asBool default.logPerformance
  return ⟨requireExtension, logPerformance⟩

/-- The preferences for the lexer that a configuration states, over the given ones. -/
def LexicalPreferences.ofToml (default : LexicalPreferences) (v : Value) :
    Except Toml.Error LexicalPreferences := do
  let detailedMetrics ←
    v.optional "collect_detailed_metrics" 0 Value.asBool default.detailedMetrics
  let traceTokens ← v.optional "trace_tokens" 1 Value.asBool default.traceTokens
  return ⟨detailedMetrics, traceTokens⟩

/-- The preferences for logging that a configuration states, over the given ones. -/
def LoggingPreferences.ofToml (default : LoggingPreferences) (v : Value) :
    Except Toml.Error LoggingPreferences := do
  let structured ← v.optional "use_structured_logging" 0 Value.asBool default.structured
  let console ← v.optional "enable_console_logging" 1 Value.asBool default.console
  let minLevel ←
    v.optional "min_log_level" 2 (Value.asWord Log.Level.ofKeyword?) default.minLevel
  let detailedErrors ← v.optional "detailed_errors" 3 Value.asBool default.detailedErrors
  let sourceContext ← v.optional "include_source_context" 4 Value.asBool default.sourceContext
  return ⟨structured, console, minLevel, detailedErrors, sourceContext⟩

/-- The preferences that a configuration text states; what it does not mention comes from the
environment. -/
def Preferences.ofText (env : Environment) (text : String) : Except Toml.Error Preferences := do
  let default := Preferences.ofEnvironment env
  let v ← Toml.parse text
  let source ← v.optional "source" 0 (SourcePreferences.ofToml default.source) default.source
  let lexical ← v.optional "lexical" 1 (LexicalPreferences.ofToml default.lexical) default.lexical
  let logging ← v.optional "logging" 2 (LoggingPreferences.ofToml default.logging) default.logging
  return ⟨source, lexical, logging⟩

/-! ## Preferences as JSON -/

/-- The names of the preferences for logging. -/
def LoggingPreferences.fields : List String :=
  ["use_structured_logging", "enable_console_logging", "min_log_level", "detailed_errors",
    "include_source_context"]

/-- The preferences for logging that a JSON value states, over the given ones. -/
def LoggingPreferences.ofJson? (default : LoggingPreferences) (j : Json) :
    Option LoggingPreferences := do
  guard (j.fitsRecord fields)
  let structured ← Json.optional "use_structured_logging" 0 Json.bool? default.structured j
  let console ← Json.optional "enable_console_logging" 1 Json.bool? default.console j
  let minLevel ←
    Json.optional "min_log_level" 2 (Json.word? Log.Level.ofKeyword?) default.minLevel j
  let detailedErrors ← Json.optional "detailed_errors" 3 Json.bool? default.detailedErrors j
  let sourceContext ← Json.optional "include_source_context" 4 Json.bool? default.sourceContext j
  return ⟨structured, console, minLevel, detailedErrors, sourceContext⟩

/-- The preferences as JSON, in the fields of a configuration. -/
def Preferences.toJson (p : Preferences) : Json :=
  .object
    [ ("source", .object
        [ ("require_script_extension", .bool p.source.requireExtension),
          ("enable_performance_logging", .bool p.source.logPerformance) ]),
      ("lexical", .object
        [ ("collect_detailed_metrics", .bool p.lexical.detailedMetrics),
          ("trace_tokens", .bool p.lexical.traceTokens) ]),
      ("logging", .object
        [ ("use_structured_logging", .bool p.logging.structured),
          ("enable_console_logging", .bool p.logging.console),
          ("min_log_level", .str p.logging.minLevel.keyword),
          ("detailed_errors", .bool p.logging.detailedErrors),
          ("include_source_context", .bool p.logging.sourceContext) ]) ]

end RobotScript
