import RobotScript.Log.Event

/-!
# Loggers and services

Models of `MemoryLogger` with `EventSummary`, `ConsoleLogger`, `StructuredLogger` and `MultiLogger`,
and of `LoggingService`: `new`, `set_min_level`, `should_log` and `log_event`. A logger is where
events go: a bounded memory, or the error stream as text or as JSON lines. A service stands in front
of a logger and lets events pass up to its level.

* A call gives the logger afterwards, and what goes to the error stream as data, in order.
* `Logger`: one of the loggers of the program, or a `MultiLogger` over several of them, but not over
  a further one. A logger that a host brings is not modelled.
* A logger belongs to one service. The program can put the same memory behind two services.
* The lock around a memory is left out, since only one thread is modelled.
-/

namespace RobotScript.Log

/-! ## The error stream -/

/-- A piece of output on the error stream. An event is written down as JSON only when the stream is
written, since its line holds the time. -/
inductive Output where
  | text (s : String)
  | record (e : Event)
  deriving Repr, DecidableEq, Inhabited

namespace Output

/-- A line of text. -/
def line (s : String) : Output := .text (s ++ "\n")

/-- The characters that are written at the time `stamp`. -/
def render (stamp : String) : Output → String
  | .text s => s
  | .record e => (e.toJson stamp).compact ++ "\n"

end Output

/-! ## Memory -/

/-- The latest events, at most `capacity` of them. -/
structure Memory where
  capacity : Nat
  events : Array Event
  deriving Repr, DecidableEq, Inhabited

/-- Counts of the events in a memory. -/
structure Summary where
  total : Nat
  errors : Nat
  warnings : Nat
  infos : Nat
  debugs : Nat
  critical : Nat
  deriving Repr, DecidableEq

namespace Memory

/-- An empty memory. It has room for one event at least. -/
def empty (capacity : Nat) : Memory := ⟨max capacity 1, #[]⟩

/-- Records an event. The oldest events make room for it. -/
def log (m : Memory) (e : Event) : Memory :=
  let kept :=
    if m.capacity ≤ m.events.size then
      m.events.extract (m.events.size - m.capacity + 1) m.events.size
    else m.events
  { m with events := kept.push e }

/-- Forgets all events. -/
def clear (m : Memory) : Memory := { m with events := #[] }

/-- The number of events held. -/
def size (m : Memory) : Nat := m.events.size

/-- The events at a level. -/
def atLevel (m : Memory) (level : Level) : Array Event := m.events.filter (·.level = level)

/-- The events with a code. -/
def withCode (m : Memory) (code : Code) : Array Event := m.events.filter (·.code = code)

/-- The events with a code of a category. -/
def inCategory (m : Memory) (category : String) : Array Event :=
  m.events.filter (·.code.category == category)

/-- Whether an event at a level has a code. -/
def has (m : Memory) (level : Level) (code : Code) : Bool :=
  m.events.any fun e => e.level = level && e.code = code

/-- How many events of each kind there are. An error is critical if its code ends the work. -/
def summary (m : Memory) : Summary where
  total := m.events.size
  errors := m.events.countP (·.level = .error)
  warnings := m.events.countP (·.level = .warning)
  infos := m.events.countP (·.level = .info)
  debugs := m.events.countP (·.level = .debug)
  critical := m.events.countP fun e => e.level = .error && e.code.requiresHalt

end Memory

/-! ## Loggers -/

/-- One place where events go. -/
inductive Sink where
  | memory (m : Memory)
  | console (level : Level) (detailed : Bool)
  | structured (level : Level)
  deriving Repr, DecidableEq, Inhabited

namespace Sink

/-- Sends an event to a sink: the sink afterwards and what goes to the error stream. -/
def log (e : Event) : Sink → Sink × List Output
  | .memory m => (.memory (m.log e), [])
  | .console level detailed =>
    let written :=
      if e.level ≤ level then
        [.line (if detailed && e.level = .error then e.detailed else e.line)]
      else []
    (.console level detailed, written)
  | .structured level => (.structured level, if e.level ≤ level then [.record e] else [])

/-- The sink without the events that it holds. -/
def clear : Sink → Sink
  | .memory m => .memory m.clear
  | sink => sink

/-- The events that a sink holds. -/
def held : Sink → Array Event
  | .memory m => m.events
  | _ => #[]

end Sink

/-- Where a service sends events: to one sink, or to several up to a level. -/
inductive Logger where
  | single (sink : Sink)
  | multi (level : Level) (sinks : List Sink)
  deriving Repr, DecidableEq, Inhabited

namespace Logger

/-- Sends an event to all sinks of a list, in order. -/
def logAll (e : Event) : List Sink → List Sink × List Output
  | [] => ([], [])
  | sink :: sinks =>
    let (sink, first) := sink.log e
    let (sinks, later) := logAll e sinks
    (sink :: sinks, first ++ later)

/-- Sends an event to a logger: the logger afterwards and what goes to the error stream. -/
def log (e : Event) : Logger → Logger × List Output
  | .single sink =>
    let (sink, written) := sink.log e
    (.single sink, written)
  | .multi level sinks =>
    if e.level ≤ level then
      let (sinks, written) := logAll e sinks
      (.multi level sinks, written)
    else (.multi level sinks, [])

/-- The sinks of a logger. -/
def sinks : Logger → List Sink
  | .single sink => [sink]
  | .multi _ sinks => sinks

/-- The logger with its first sink cleared. -/
def clearFirst : Logger → Logger
  | .single sink => .single sink.clear
  | .multi level (sink :: sinks) => .multi level (sink.clear :: sinks)
  | .multi level [] => .multi level []

end Logger

/-! ## Services -/

/-- A logger behind a level. -/
structure Service where
  minLevel : Level
  logger : Logger
  deriving Repr, DecidableEq, Inhabited

namespace Service

/-- A service over a memory. -/
def ofMemory (level : Level) (m : Memory) : Service := ⟨level, .single (.memory m)⟩

/-- Whether events at a level pass the service. -/
def shouldLog (s : Service) (level : Level) : Bool := level ≤ s.minLevel

/-- Sends an event to the logger if its level passes: the service afterwards and what goes to the
error stream. -/
def log (s : Service) (e : Event) : Service × List Output :=
  if s.shouldLog e.level then
    let (logger, written) := s.logger.log e
    ({ s with logger }, written)
  else (s, [])

/-- The service with another level. -/
def setMinLevel (s : Service) (level : Level) : Service := { s with minLevel := level }

/-- The events held by the first sink of the logger. -/
def held (s : Service) : Array Event :=
  match s.logger.sinks with
  | sink :: _ => sink.held
  | [] => #[]

/-- What can be done with a service. -/
inductive Command where
  | log (e : Event)
  | setMinLevel (level : Level)
  /-- Clear the first sink of the logger. -/
  | clear
  deriving Repr, DecidableEq

/-- Runs a command: the service afterwards and what goes to the error stream. -/
def Command.run (c : Command) (s : Service) : Service × List Output :=
  match c with
  | .log e => s.log e
  | .setMinLevel level => (s.setMinLevel level, [])
  | .clear => ({ s with logger := s.logger.clearFirst }, [])

end Service

end RobotScript.Log
