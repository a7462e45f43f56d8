import RobotScript.Json.Printer
import RobotScript.Log.Code
import RobotScript.Log.Level
import RobotScript.Span

/-!
# Events

Models of `LogEvent`: the functions that make one, `with_span`, `with_context`, `with_source_name`,
and the three written forms `format`, `format_detailed` and `format_json`: a line, a line with
details, and a JSON object. An event is one thing that the tokenizer reports: level, code, message,
the range of the source it is about, and context, a map from keys to values.

An event does not hold the time at which it was made. The JSON form takes a time stamp.
-/

namespace RobotScript.Log

/-! ## Context -/

/-- A map from keys to values, as pairs with strictly increasing keys. -/
abbrev Context := List (String × String)

namespace Context

/-- Binds a key to a value, in place of the value it had. -/
def insert (key value : String) : Context → Context
  | [] => [(key, value)]
  | (k, v) :: rest =>
    if key < k then (key, value) :: (k, v) :: rest
    else if key = k then (key, value) :: rest
    else (k, v) :: insert key value rest

/-- The value of a key. -/
def get? (key : String) (context : Context) : Option String :=
  (context.find? fun entry => entry.1 == key).map Prod.snd

/-- Binds keys to values in order. -/
def ofList (entries : List (String × String)) : Context :=
  entries.foldl (fun context entry => context.insert entry.1 entry.2) []

end Context

/-! ## Events -/

/-- Something that the tokenizer reports. -/
structure Event where
  level : Level
  code : Code
  message : String
  span : Option Span
  context : Context
  deriving Repr, DecidableEq, Inhabited

namespace Event

/-- An error. -/
def error (code : Code) (message : String) : Event := ⟨.error, code, message, none, []⟩

/-- A warning with a registered code. -/
def codedWarning (code : Code) (message : String) : Event := ⟨.warning, code, message, none, []⟩

/-- A warning. -/
def warning (message : String) : Event := codedWarning .plainWarning message

/-- Information that something with a code of its own went well. -/
def success (code : Code) (message : String) : Event := ⟨.info, code, message, none, []⟩

/-- Information. -/
def info (message : String) : Event := success .plainInfo message

/-- A detail for who looks for a fault. -/
def debug (message : String) : Event := ⟨.debug, .plainDebug, message, none, []⟩

/-- The event about a range of the source. -/
def withSpan (e : Event) (span : Span) : Event := { e with span := some span }

/-- The event with one more entry in its context. -/
def withContext (e : Event) (key value : String) : Event :=
  { e with context := e.context.insert key value }

/-- The event with more entries in its context, added in order. -/
def withEntries (e : Event) (entries : List (String × String)) : Event :=
  entries.foldl (fun e entry => e.withContext entry.1 entry.2) e

@[simp]
theorem code_withEntries (e : Event) (entries : List (String × String)) :
    (e.withEntries entries).code = e.code := by
  induction entries generalizing e with
  | nil => rfl
  | cons entry entries ih => exact ih (e.withContext entry.1 entry.2)

@[simp]
theorem level_withEntries (e : Event) (entries : List (String × String)) :
    (e.withEntries entries).level = e.level := by
  induction entries generalizing e with
  | nil => rfl
  | cons entry entries ih => exact ih (e.withContext entry.1 entry.2)

/-- The context key for the name of the source that an event belongs to. -/
def sourceKey : String := "source"

/-- The event with the name of the source that it belongs to. -/
def withSource (e : Event) (name : String) : Event := e.withContext sourceKey name

/-! ## Written forms -/

/-- An event on one line. -/
def line (e : Event) : String :=
  "[" ++ e.level.name ++ "] " ++ e.code.name ++ " - " ++ e.message ++
    (match e.span with
    | some span => " at bytes " ++ span.render
    | none => "")

/-- One more line with a label and a value. -/
def detail (label value : String) : String := "\n  " ++ label ++ ": " ++ value

/-- An event with what the registry says about its code, and with its context. -/
def detailed (e : Event) : String :=
  let registry :=
    detail "Category" e.code.category ++ detail "Severity" e.code.severity.name
  let consequences :=
    if e.level = .error then
      detail "Recoverable" (toString e.code.isRecoverable) ++
        detail "Requires halt" (toString e.code.requiresHalt)
    else ""
  let meaning :=
    match e.code.info? with
    | some info =>
      detail "Description" info.description ++ detail "Recommended action" info.recommendedAction
    | none => ""
  let context :=
    if e.context.isEmpty then ""
    else
      "\n  Context:" ++
        String.join (e.context.map fun entry => "\n    " ++ entry.1 ++ ": " ++ entry.2)
  e.line ++ registry ++ consequences ++ meaning ++ context

/-- An event as a JSON object with its keys in increasing order, written down at the time
`stamp`. -/
def toJson (stamp : String) (e : Event) : Json :=
  let context :=
    if e.context.isEmpty then []
    else [("context", Json.object (e.context.map fun entry => (entry.1, Json.str entry.2)))]
  let consequences :=
    if e.level = .error then
      [("error_metadata", Json.object
        [ ("description", .str e.code.description),
          ("recommended_action", .str e.code.recommendedAction),
          ("recoverable", .bool e.code.isRecoverable),
          ("requires_halt", .bool e.code.requiresHalt) ])]
    else []
  let span :=
    match e.span with
    | some span => [("span", Json.object [("end", .nat span.stop), ("start", .nat span.start)])]
    | none => []
  .object <|
    [("category", .str e.code.category), ("code", .str e.code.name)] ++ context ++ consequences ++
      [ ("level", .str e.level.name), ("message", .str e.message),
        ("severity", .str e.code.severity.name) ] ++ span ++ [("timestamp", .str stamp)]

end Event

end RobotScript.Log
