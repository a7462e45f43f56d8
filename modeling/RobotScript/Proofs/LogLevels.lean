import RobotScript.Lexer
import RobotScript.Proofs.Delivery
import RobotScript.Source

/-!
# The level of a service only filters

Operations run in a scope over a service. What they answer does not depend on the service, and the
service hands the events up to its level to its logger, although details are dropped before they are
made if the level is below theirs, and all other events only when they reach the service. Times are
the one thing that differs between two runs.

Results:

* `Log.Ambient.hands_reportAll`, `Log.Ambient.hands_perform_iff`: what a logger is handed in a
  scope.
* `Log.Ambient.Hands.eq`: no two lists of events are handed to every logger alike.
* `Host.untimed_run`: an operation depends on time in one entry of the context of its events.
* `Host.level_only_filters`: the answers and the events in a scope, at any level, against those
  without a logger and at the lowest level.
-/

namespace RobotScript

namespace Log

/-- A memory with enough room holds all events that it is sent. -/
theorem Logger.fst_logEach_memory {capacity : Nat} {es : List Event} (h : es.length ≤ capacity) :
    ((single (.memory ⟨capacity, #[]⟩)).logEach es).1 =
      single (.memory ⟨capacity, es.toArray⟩) := by
  induction es using List.reverseRecOn with
  | nil => rfl
  | append_singleton es e ih =>
    rw [List.length_append, List.length_singleton] at h
    have hroom : ¬capacity ≤ es.toArray.size := by
      rw [List.size_toArray]
      omega
    rw [logEach_concat, ih (by omega), log, Sink.log, Memory.log, if_neg hroom, List.push_toArray]

/-! ## What a logger is handed -/

namespace Ambient

section

variable {γ σ ρ : Type} {run : γ → σ → ρ × σ × List Event} {a : Ambient} {level : Level}

/-- A body that runs in a scope over any service of a level hands some events to the logger of the
service: it leaves the service as these events leave its logger, and the surroundings as they were
but for what is written. -/
def Hands (a : Ambient) (level : Level) (body : Ambient → ρ × Ambient) (es : List Event) : Prop :=
  ∀ (services : Array Service) (place : Nat) (logger : Logger),
    services[place]? = some ⟨level, logger⟩ →
      ({ a with services }.withService place body).2 =
        { a with
          services := services.setIfInBounds place ⟨level, (logger.logEach es).1⟩ }.write
            (logger.logEach es).2

/-- A logger that is a memory with enough room tells any two lists of events apart. -/
theorem Hands.eq {body : Ambient → ρ × Ambient} {es fs : List Event} (hes : a.Hands level body es)
    (hfs : a.Hands level body fs) : es = fs := by
  let memory (capacity : Nat) : Logger := .single (.memory ⟨capacity, #[]⟩)
  obtain ⟨n, hn⟩ : ∃ n, n = max es.length fs.length := ⟨_, rfl⟩
  have hboth := (hes #[⟨level, memory n⟩] 0 (memory n) rfl).symm.trans
    (hfs #[⟨level, memory n⟩] 0 (memory n) rfl)
  have hsame := congrArg (fun b : Ambient => b.services[0]?) hboth
  have hlogger : ((memory n).logEach es).1 = ((memory n).logEach fs).1 := by
    simpa [write] using hsame
  rw [Logger.fst_logEach_memory (by omega), Logger.fst_logEach_memory (by omega)] at hlogger
  simpa using hlogger

/-- A body that hands events on in a scope hands the logger of the scope those up to its level. -/
theorem hands_of_hand {body : Ambient → ρ × Ambient} {es : List Event}
    (h : ∀ services place, (body { a with services, scope := some place }).2 =
      ({ a with services, scope := some place } : Ambient).hand es) :
    a.Hands level body (es.filter fun e => e.level ≤ level) := by
  intro services place logger hplace
  have hwritten := (⟨level, logger⟩ : Service).written_eq es
  have hservices : services.modify place (fun s => s.after es) =
      services.setIfInBounds place ((⟨level, logger⟩ : Service).after es) := by
    obtain ⟨hlt, -⟩ := Array.getElem?_eq_some_iff.1 hplace
    refine Array.ext_getElem? fun i => ?_
    rw [Array.getElem?_setIfInBounds, Array.getElem?_modify, if_pos hlt]
    split
    · next heq => rw [← heq, hplace, Option.map_some]
    · rfl
  let inner : Ambient := { a with services, scope := some place }
  have hinner : inner.written place es = (⟨level, logger⟩ : Service).written es :=
    written_of_getElem? hplace es
  have hhand : inner.hand es =
      ({ inner with
        services := services.setIfInBounds place ((⟨level, logger⟩ : Service).after es) } :
          Ambient).write ((⟨level, logger⟩ : Service).written es) := by
    show (inner.receiving place es).write (inner.written place es) = _
    rw [hinner, receiving, hservices]
  have hbody : ({ a with services }.withService place body).2 =
      { (inner.hand es) with scope := a.scope } :=
    congrArg (fun b : Ambient => { b with scope := a.scope }) (h services place)
  rw [hbody, hhand, hwritten]
  rfl

/-- What is reported in a scope is handed to its logger as far as it passes the level. -/
theorem hands_reportAll (a : Ambient) (level : Level) (es : List Event) :
    a.Hands level (fun b => ((), b.reportAll es))
      ((es.map a.prepare).filter fun e => e.level ≤ level) :=
  hands_of_hand fun _ _ => reportAll_eq_hand es _

variable (run) in
theorem reported_congr (services : Array Service) (scope : Option Nat) (a : Ambient)
    (commands : List (Option String × γ)) (state : σ) :
    reported run { a with services, scope } commands state = reported run a commands state := by
  induction commands generalizing state with
  | nil => rfl
  | cons command commands ih =>
    rw [reported, reported, ih]
    rfl

/-- Commands hand a logger the events that pass the level, and no others. -/
theorem hands_perform_iff {commands : List (Option String × γ)} {state : σ} {es : List Event} :
    a.Hands level (perform run commands state) es ↔
      es = (reported run a commands state).filter fun e => e.level ≤ level := by
  have hhands : a.Hands level (perform run commands state)
      ((reported run a commands state).filter fun e => e.level ≤ level) := by
    refine hands_of_hand fun services place => ?_
    rw [snd_perform_eq_hand, reported_congr]
  exact ⟨fun h => h.eq hhands, fun h => h ▸ hhands⟩

/-- What commands answer in a scope is what they answer anywhere. -/
theorem fst_withService_perform (commands : List (Option String × γ)) (state : σ) (place : Nat)
    (a : Ambient) :
    (a.withService place (perform run commands state)).1 = answers run commands state :=
  fst_perform run commands state _

end

end Ambient

/-! ## Times -/

namespace Context

/-- The value of a key, unless it is a time. -/
def untimed (key value : String) : String := if key = "duration_ms" then "" else value

/-- A context without its times. -/
def timeless (context : Context) : Context :=
  context.map fun entry => (entry.1, untimed entry.1 entry.2)

theorem timeless_insert (key value : String) (context : Context) :
    (context.insert key value).timeless = context.timeless.insert key (untimed key value) := by
  induction context with
  | nil => rfl
  | cons entry context ih =>
    obtain ⟨k, v⟩ := entry
    have hcons : timeless ((k, v) :: context) = (k, untimed k v) :: timeless context := rfl
    rw [hcons, insert, insert]
    split
    · rfl
    split
    · rfl
    · exact congrArg ((k, untimed k v) :: ·) ih

end Context

namespace Event

/-- An event without the times in its context. -/
def timeless (e : Event) : Event := { e with context := e.context.timeless }

theorem timeless_withContext (e : Event) (key value : String) :
    (e.withContext key value).timeless =
      e.timeless.withContext key (Context.untimed key value) := by
  simp only [timeless, withContext, Context.timeless_insert]

theorem timeless_withEntries (e : Event) (entries : List (String × String)) :
    (e.withEntries entries).timeless = e.timeless.withEntries (Context.timeless entries) := by
  induction entries generalizing e with
  | nil => rfl
  | cons entry entries ih =>
    have hcons : e.withEntries (entry :: entries) =
        (e.withContext entry.1 entry.2).withEntries entries := rfl
    rw [hcons, ih, timeless_withContext]
    rfl

end Event

namespace Ambient

theorem timeless_prepare (a : Ambient) (e : Event) :
    (a.prepare e).timeless = a.prepare e.timeless := by
  unfold prepare
  split
  · split
    · exact Event.timeless_withContext _ _ _
    · rfl
  · rfl

section

variable {γ σ ρ : Type} {run : Nat × γ → σ → ρ × σ × List Event}

/-- Two runs of a command do the same, but for the times that they report. -/
structure SameButTimes (r r' : ρ × σ × List Event) : Prop where
  reply : r.1 = r'.1
  state : r.2.1 = r'.2.1
  events : r.2.2.map Event.timeless = r'.2.2.map Event.timeless

/-- Commands do the same however long they take, but for the times that they report. -/
def Untimed (run : Nat × γ → σ → ρ × σ × List Event) : Prop :=
  ∀ elapsed elapsed' command state,
    SameButTimes (run (elapsed, command) state) (run (elapsed', command) state)

/-- Commands with the time that each of them takes. -/
def timed (times : Nat → Nat) (commands : List (Option String × γ)) :
    List (Option String × Nat × γ) :=
  commands.mapIdx fun i command => (command.1, times i, command.2)

theorem timed_cons (times : Nat → Nat) (command : Option String × γ)
    (commands : List (Option String × γ)) :
    timed times (command :: commands) =
      (command.1, times 0, command.2) :: timed (fun i => times (i + 1)) commands :=
  List.mapIdx_cons

theorem Untimed.answers_timed (h : Untimed run) (times times' : Nat → Nat)
    (commands : List (Option String × γ)) (state : σ) :
    answers run (timed times commands) state = answers run (timed times' commands) state := by
  induction commands generalizing times times' state with
  | nil => rfl
  | cons command commands ih =>
    have hfirst := h (times 0) (times' 0) command.2 state
    rw [timed_cons, timed_cons, answers, answers]
    simp only [hfirst.reply, hfirst.state, ih (fun i => times (i + 1)) fun i => times' (i + 1)]

theorem Untimed.map_timeless_reported (h : Untimed run) (times times' : Nat → Nat) (a : Ambient)
    (commands : List (Option String × γ)) (state : σ) :
    (reported run a (timed times commands) state).map Event.timeless =
      (reported run a (timed times' commands) state).map Event.timeless := by
  induction commands generalizing times times' state with
  | nil => rfl
  | cons command commands ih =>
    have hprepare : Event.timeless ∘ (a.inSource command.1).prepare =
        (a.inSource command.1).prepare ∘ Event.timeless :=
      funext fun e => timeless_prepare _ e
    have hfirst := h (times 0) (times' 0) command.2 state
    rw [timed_cons, timed_cons, reported, reported, List.map_append, List.map_append,
      List.map_map, List.map_map, hprepare, ← List.map_map, ← List.map_map, hfirst.events,
      hfirst.state, ih (fun i => times (i + 1)) fun i => times' (i + 1)]

end

end Ambient

end Log

/-! ## Operations -/

open Log (Event Level Ambient)

theorem Lexer.timeless_completed (elapsed elapsed' : Nat) (m : Metrics) :
    (completed elapsed m).timeless = (completed elapsed' m).timeless := by
  rw [completed, completed, Event.timeless_withEntries, Event.timeless_withEntries]
  simp [Log.Context.timeless, Log.Context.untimed]

theorem Source.timeless_loadedEvent (preferences : SourcePreferences) (elapsed elapsed' : Nat)
    (path : String) (s : Source) :
    (loadedEvent preferences elapsed path s).timeless =
      (loadedEvent preferences elapsed' path s).timeless := by
  unfold loadedEvent
  split
  · rw [Event.timeless_withEntries, Event.timeless_withEntries]
    simp [Log.Context.timeless, Log.Context.untimed]
  · rfl

/-- A source has its stream, its counts and its diagnostics however long it takes. -/
theorem Lexer.sameButTimes_tokenize (elapsed elapsed' : Nat) (source : String) (l : Lexer) :
    Ambient.SameButTimes (l.tokenize elapsed source) (l.tokenize elapsed' source) := by
  unfold tokenize
  generalize keywordsFor source l.keywords = forced
  obtain ⟨entries, keywords, effects⟩ := forced
  dsimp only
  cases Stream.scan? ⟨entries, l.constants⟩ source with
  | none => exact ⟨rfl, rfl, rfl⟩
  | some result =>
    dsimp only
    refine ⟨rfl, rfl, ?_⟩
    simp only [List.map_append, List.map_cons, timeless_completed elapsed elapsed']

theorem Lexer.Command.sameButTimes_run (elapsed elapsed' : Nat) (c : Command) (l : Lexer) :
    Ambient.SameButTimes (c.run elapsed l) (c.run elapsed' l) := by
  cases c with
  | tokenize source =>
    obtain ⟨hstream, hlexer, hevents⟩ := l.sameButTimes_tokenize elapsed elapsed' source
    exact ⟨congrArg (Reply.stream source) hstream, hlexer, hevents⟩
  | _ => exact ⟨rfl, rfl, rfl⟩

/-- A script is loaded or refused however long it takes. -/
theorem Source.sameButTimes_load (files : FileSystem) (preferences : SourcePreferences)
    (elapsed elapsed' : Nat) (path : String) :
    (load files preferences elapsed path).1 = (load files preferences elapsed' path).1 ∧
      (load files preferences elapsed path).2.map Event.timeless =
        (load files preferences elapsed' path).2.map Event.timeless := by
  have hread (f : SourceFile) (bytes : ByteArray) :
      (read preferences elapsed path f bytes).1 = (read preferences elapsed' path f bytes).1 ∧
        (read preferences elapsed path f bytes).2.map Event.timeless =
          (read preferences elapsed' path f bytes).2.map Event.timeless := by
    unfold read
    cases String.fromUTF8? bytes with
    | none => exact ⟨rfl, rfl⟩
    | some text =>
      dsimp only
      refine ⟨rfl, ?_⟩
      simp only [List.map_append, List.map_cons,
        timeless_loadedEvent preferences elapsed elapsed' path]
  unfold load
  cases locate files path with
  | error failure => exact ⟨rfl, rfl⟩
  | ok found =>
    dsimp only
    cases refusal? preferences path (.ofPath found.1 found.2.size) with
    | some refusal => exact ⟨rfl, rfl⟩
    | none =>
      obtain ⟨houtcome, hevents⟩ := hread (.ofPath found.1 found.2.size) found.2
      refine ⟨houtcome, ?_⟩
      simp only [List.map_append, hevents]

/-- What a host works with: a lexer, and a table of each kind besides those of the lexer. -/
structure Host where
  lexer : Lexer
  keywords : Keyword.Table
  constants : Constant.Table

namespace Host

/-- What a host can do. -/
inductive Operation where
  | lexer (command : Lexer.Command)
  /-- Ask the keyword table of the lexer. -/
  | lexerKeywords (command : Keyword.Command)
  | keywords (command : Keyword.Command)
  | constants (command : Constant.Command)
  /-- Turn a source into a stream with the tables besides those of the lexer. -/
  | scan (source : String)
  | load (preferences : SourcePreferences) (path : String)
  deriving Repr, DecidableEq

/-- What a host finds out from an operation. -/
inductive Answer where
  /-- The answer of the lexer, and the lexer with its results for the latest source. -/
  | lexer (reply : Lexer.Reply) (after : Lexer)
  | keywords (reply : Keyword.Reply)
  | constants (reply : Constant.Reply)
  | stream (stream : Option Stream)
  | source (outcome : Except SourceError Source)

/-- Runs an operation that takes `elapsed` nanoseconds: the answer, the host afterwards, and the
events. -/
def run (files : FileSystem) : Nat × Operation → Host → Answer × Host × List Event
  | (elapsed, .lexer command), host =>
    let result := command.run elapsed host.lexer
    (.lexer result.1 result.2.1, { host with lexer := result.2.1 }, result.2.2)
  | (_, .lexerKeywords command), host =>
    let result := command.run host.lexer.keywords
    (.keywords result.1, { host with lexer := { host.lexer with keywords := result.2.1 } },
      result.2.2.events)
  | (_, .keywords command), host =>
    let result := command.run host.keywords
    (.keywords result.1, { host with keywords := result.2.1 }, result.2.2.events)
  | (_, .constants command), host =>
    let result := command.run host.constants
    (.constants result.1, { host with constants := result.2.1 }, result.2.2)
  | (_, .scan source), host =>
    let loaded := Lexer.keywordsFor source host.keywords
    (.stream (Stream.tokenize ⟨loaded.1, host.constants⟩ source),
      { host with keywords := loaded.2.1 }, loaded.2.2.events)
  | (elapsed, .load preferences path), host =>
    let result := Source.load files preferences elapsed path
    (.source result.1, host, result.2)

/-- The time that an operation takes is in its events only, as an entry of their contexts. -/
theorem untimed_run (files : FileSystem) : Ambient.Untimed (run files) := by
  intro elapsed elapsed' operation host
  cases operation with
  | lexer command =>
    obtain ⟨hreply, hlexer, hevents⟩ := command.sameButTimes_run elapsed elapsed' host.lexer
    exact ⟨congrArg₂ Answer.lexer hreply hlexer,
      congrArg (fun lexer => { host with lexer }) hlexer, hevents⟩
  | load preferences path =>
    obtain ⟨houtcome, hevents⟩ :=
      Source.sameButTimes_load files preferences elapsed elapsed' path
    exact ⟨congrArg Answer.source houtcome, (rfl : host = host), hevents⟩
  | lexerKeywords | keywords | constants | scan => exact ⟨rfl, rfl, rfl⟩

/-- The level of a scope only filters. Operations that run in the scope answer as they do without a
logger, and its logger is handed a definite list of events: those up to the level of the list that
it is handed at level debug, however long the operations take. -/
theorem level_only_filters (files : FileSystem) (operations : List (Option String × Operation))
    (host : Host) (a : Ambient) :
    let session (times : Nat → Nat) : Ambient → (List Answer × Host) × Ambient :=
      Ambient.perform (run files) (Ambient.timed times operations) host
    ∃ handed : Level → (Nat → Nat) → List Event,
      (∀ level times es, a.Hands level (session times) es ↔ es = handed level times) ∧
        (∀ level times times', (handed level times).map Event.timeless =
          ((handed .debug times').filter fun e => e.level ≤ level).map Event.timeless) ∧
        ∀ services place times times',
          ({ a with services }.withService place (session times)).1 =
            (session times' { a with scope := none, process := none }).1 := by
  intro session
  let reported (times : Nat → Nat) : List Event :=
    Ambient.reported (run files) a (Ambient.timed times operations) host
  refine ⟨fun level times => (reported times).filter fun e => e.level ≤ level,
    fun level times es => Ambient.hands_perform_iff, ?_, ?_⟩
  · intro level times times'
    have hall (es : List Event) : es.filter (fun e => e.level ≤ Level.debug) = es :=
      List.filter_eq_self.2 fun e _ => decide_eq_true e.level.le_debug
    have hlevel (es : List Event) : (es.filter fun e => e.level ≤ level).map Event.timeless =
        (es.map Event.timeless).filter fun e => e.level ≤ level := by
      rw [List.filter_map]
      rfl
    have htimeless : (reported times).map Event.timeless = (reported times').map Event.timeless :=
      (untimed_run files).map_timeless_reported times times' a operations host
    beta_reduce
    rw [hall, hlevel, hlevel, htimeless]
  · intro services place times times'
    rw [Ambient.fst_withService_perform]
    exact ((untimed_run files).answers_timed times times' operations host).trans
      (Ambient.fst_perform _ _ _ _).symm

end Host

end RobotScript
