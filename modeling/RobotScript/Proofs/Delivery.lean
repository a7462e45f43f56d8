import Mathlib.Data.List.Induction
import RobotScript.Log.Ambient

/-!
# Where events go

An event that is reported goes to one service: that of the innermost scope, and outside of all
scopes that of the process. The service gives its logger the events up to its level. What a logger
writes for an event does not depend on what it was given before, so services are told apart by the
events that they have received. All other services stay as they are.

Results:

* `Log.Service.after_append`, `Log.Service.written_append`: a service that receives events in turn.
* `Log.Ambient.getElem?_services_receiving`: what is left in the store of services.
* `Log.Ambient.report_eq_hand`, `Log.Ambient.reportAll_eq_hand`: reporting is handing on.
* `Log.Ambient.snd_perform_eq_hand`: what commands report is handed on.
* `Log.Ambient.get?_prepare`: the context of an event that is handed on.
-/

namespace RobotScript.Log

/-! ## Contexts -/

namespace Context

theorem get?_cons (key : String) (entry : String × String) (context : Context) :
    get? key (entry :: context) = if entry.1 = key then some entry.2 else get? key context := by
  unfold get?
  by_cases h : entry.1 = key
  · rw [if_pos h, List.find?_cons_of_pos (by simpa using h)]
    rfl
  · rw [if_neg h, List.find?_cons_of_neg (by simpa using h)]

@[simp] theorem get?_insert (key value other : String) (context : Context) :
    (context.insert key value).get? other =
      if other = key then some value else context.get? other := by
  induction context with
  | nil => simp [insert, get?_cons, eq_comm]
  | cons entry context ih =>
    unfold insert
    split
    · simp [get?_cons, eq_comm]
    split
    · next heq =>
      rw [get?_cons, get?_cons, ← heq]
      simp only [eq_comm]
      split <;> rfl
    · next hne =>
      rw [get?_cons, get?_cons, ih]
      by_cases hother : entry.1 = other
      · rw [if_pos hother, if_neg fun h => hne (h.symm.trans hother.symm), if_pos hother]
      · rw [if_neg hother, if_neg hother]

end Context

/-! ## Loggers -/

theorem Sink.snd_log_fst_log (sink : Sink) (e f : Event) :
    ((sink.log e).1.log f).2 = (sink.log f).2 := by
  cases sink <;> rfl

namespace Logger

theorem snd_logAll_fst_logAll (sinks : List Sink) (e f : Event) :
    (logAll f (logAll e sinks).1).2 = (logAll f sinks).2 := by
  induction sinks with
  | nil => rfl
  | cons sink sinks ih =>
    show ((sink.log e).1.log f).2 ++ (logAll f (logAll e sinks).1).2 =
      (sink.log f).2 ++ (logAll f sinks).2
    rw [sink.snd_log_fst_log, ih]

theorem log_multi (level : Level) (sinks : List Sink) (e : Event) :
    (multi level sinks).log e =
      if e.level ≤ level then (multi level (logAll e sinks).1, (logAll e sinks).2)
      else (multi level sinks, []) := rfl

/-- What a logger writes for an event does not depend on what it was sent before. -/
theorem snd_log_fst_log (logger : Logger) (e f : Event) :
    ((logger.log e).1.log f).2 = (logger.log f).2 := by
  cases logger with
  | single sink => exact sink.snd_log_fst_log e f
  | multi level sinks =>
    rw [log_multi level sinks e]
    split
    · show ((multi level (logAll e sinks).1).log f).2 = _
      rw [log_multi, log_multi]
      split
      · exact snd_logAll_fst_logAll sinks e f
      · rfl
    · rfl

/-! ### Events in order -/

/-- Sends events to a logger in order: the logger afterwards and what goes to the error stream. -/
def logEach (logger : Logger) (es : List Event) : Logger × List Output :=
  es.foldl (fun sent e => ((sent.1.log e).1, sent.2 ++ (sent.1.log e).2)) (logger, [])

theorem logEach_concat (logger : Logger) (es : List Event) (e : Event) :
    logger.logEach (es ++ [e]) =
      (((logger.logEach es).1.log e).1,
        (logger.logEach es).2 ++ ((logger.logEach es).1.log e).2) := by
  rw [logEach, List.foldl_append]
  rfl

theorem logEach_append (logger : Logger) (es fs : List Event) :
    logger.logEach (es ++ fs) =
      (((logger.logEach es).1.logEach fs).1,
        (logger.logEach es).2 ++ ((logger.logEach es).1.logEach fs).2) := by
  induction fs using List.reverseRecOn with
  | nil => simp [logEach]
  | append_singleton fs f ih =>
    rw [← List.append_assoc, logEach_concat, ih, logEach_concat, List.append_assoc]

theorem logEach_singleton (logger : Logger) (e : Event) : logger.logEach [e] = logger.log e := by
  rw [← List.nil_append [e], logEach_concat]
  simp [logEach]

theorem snd_log_fst_logEach (logger : Logger) (es : List Event) (f : Event) :
    ((logger.logEach es).1.log f).2 = (logger.log f).2 := by
  induction es using List.reverseRecOn with
  | nil => rfl
  | append_singleton es e ih => rw [logEach_concat, snd_log_fst_log, ih]

/-- What a logger writes for events is what it writes for each of them. -/
theorem snd_logEach (logger : Logger) (es : List Event) :
    (logger.logEach es).2 = es.flatMap fun e => (logger.log e).2 := by
  induction es using List.reverseRecOn with
  | nil => rfl
  | append_singleton es e ih =>
    rw [logEach_concat, snd_log_fst_logEach, ih, List.flatMap_append, List.flatMap_singleton]

end Logger

/-! ## Services -/

namespace Service

/-- A service after it has received events: its logger was sent those up to its level, and no
others. -/
def after (s : Service) (es : List Event) : Service :=
  { s with logger := (s.logger.logEach (es.filter fun e => s.shouldLog e.level)).1 }

/-- What a service writes for events. -/
def written (s : Service) (es : List Event) : List Output := es.flatMap fun e => (s.log e).2

@[simp] theorem shouldLog_after (s : Service) (es : List Event) (level : Level) :
    (s.after es).shouldLog level = s.shouldLog level := rfl

@[simp] theorem after_nil (s : Service) : s.after [] = s := rfl

theorem after_append (s : Service) (es fs : List Event) :
    s.after (es ++ fs) = (s.after es).after fs := by
  unfold after
  rw [List.filter_append, Logger.logEach_append]
  rfl

theorem log_eq (s : Service) (e : Event) : s.log e = (s.after [e], s.written [e]) := by
  have hlog : s.log e = (s.after [e], (s.log e).2) := by
    unfold log after
    rw [List.filter_cons, List.filter_nil]
    split
    · rw [Logger.logEach_singleton]
    · rfl
  rw [hlog, written, List.flatMap_singleton]

theorem written_append (s : Service) (es fs : List Event) :
    s.written (es ++ fs) = s.written es ++ s.written fs := List.flatMap_append

/-- What a service writes does not depend on what it has received before. -/
@[simp] theorem written_after (s : Service) (es fs : List Event) :
    (s.after es).written fs = s.written fs := by
  have hlog (f : Event) : ((s.after es).log f).2 = (s.log f).2 := by
    unfold log
    rw [shouldLog_after]
    split
    · exact Logger.snd_log_fst_logEach _ _ f
    · rfl
  unfold written
  simp only [hlog]

/-- A service writes what its logger writes for the events up to its level. -/
theorem written_eq (s : Service) (es : List Event) :
    s.written es = (s.logger.logEach (es.filter fun e => s.shouldLog e.level)).2 := by
  rw [Logger.snd_logEach]
  induction es with
  | nil => rfl
  | cons e es ih =>
    have hcons : s.written (e :: es) = (s.log e).2 ++ s.written es := rfl
    rw [hcons, ih, List.filter_cons, log]
    split
    · rw [List.flatMap_cons]
    · rfl

/-- Events that do not pass leave a service as it is. -/
theorem log_of_not_shouldLog {s : Service} {e : Event} (h : s.shouldLog e.level = false) :
    s.log e = (s, []) := by
  rw [log, h]
  rfl

end Service

/-! ## Surroundings -/

namespace Ambient

theorem write_append (a : Ambient) (first later : List Output) :
    a.write (first ++ later) = (a.write first).write later := by
  have houtput : a.output ++ (first ++ later) = a.output ++ first ++ later :=
    Array.ext' (by simp)
  simp only [write, houtput]

@[simp] theorem write_nil (a : Ambient) : a.write [] = a := by
  simp [write]

/-- The surroundings after the service at a place has received events, apart from what it writes. -/
def receiving (place : Nat) (es : List Event) (a : Ambient) : Ambient :=
  { a with services := a.services.modify place fun s => s.after es }

/-- What the service at a place writes for events. -/
def written (place : Nat) (es : List Event) (a : Ambient) : List Output :=
  match a.services[place]? with
  | some s => s.written es
  | none => []

/-- Hands events to the service at a place. -/
def handTo (place : Nat) (es : List Event) (a : Ambient) : Ambient :=
  (a.receiving place es).write (a.written place es)

/-- Hands events to the service that receives events. -/
def hand (es : List Event) (a : Ambient) : Ambient :=
  match a.receiver with
  | some place => a.handTo place es
  | none => a

/-! ### The service at a place -/

section

variable (place : Nat) (es fs : List Event) (a : Ambient)

/-- The service at the place receives the events, and no other one does. -/
theorem getElem?_services_receiving (i : Nat) :
    (a.receiving place es).services[i]? =
      if place = i then a.services[i]?.map fun s => s.after es else a.services[i]? :=
  Array.getElem?_modify

theorem receiving_append :
    a.receiving place (es ++ fs) = (a.receiving place es).receiving place fs := by
  have hservices : (a.receiving place (es ++ fs)).services =
      ((a.receiving place es).receiving place fs).services := by
    refine Array.ext_getElem? fun i => ?_
    rw [getElem?_services_receiving, getElem?_services_receiving, getElem?_services_receiving]
    split
    · cases a.services[i]? with
      | none => rfl
      | some s => exact congrArg some (s.after_append es fs)
    · rfl
  exact congrArg (fun services => { a with services }) hservices

theorem written_append : a.written place (es ++ fs) = a.written place es ++ a.written place fs := by
  unfold written
  cases a.services[place]? with
  | none => rfl
  | some s => exact s.written_append es fs

theorem written_of_getElem? {place : Nat} {a : Ambient} {s : Service}
    (hs : a.services[place]? = some s) (es : List Event) : a.written place es = s.written es := by
  rw [written, hs]

/-- What is written does not depend on what was received before. -/
theorem written_receiving : (a.receiving place es).written place fs = a.written place fs := by
  unfold written
  rw [getElem?_services_receiving, if_pos rfl]
  cases a.services[place]? with
  | none => rfl
  | some s => exact s.written_after es fs

theorem handTo_append : a.handTo place (es ++ fs) = (a.handTo place es).handTo place fs := by
  have hlater : (a.handTo place es).written place fs = a.written place fs :=
    a.written_receiving place es fs
  rw [handTo, receiving_append, written_append, ← hlater, write_append]
  rfl

/-- Nothing changes if the service at the place stays as it is and writes nothing, or if there is
none. -/
theorem handTo_eq_self
    (h : ∀ s, a.services[place]? = some s → s.after es = s ∧ s.written es = []) :
    a.handTo place es = a := by
  have hservices : (a.receiving place es).services = a.services := by
    refine Array.ext_getElem? fun i => ?_
    rw [getElem?_services_receiving]
    split
    · next heq =>
      subst heq
      cases hs : a.services[place]? with
      | none => rfl
      | some s => exact congrArg some (h s hs).1
    · rfl
  have hreceiving : a.receiving place es = a :=
    congrArg (fun services => { a with services }) hservices
  have hwritten : a.written place es = [] := by
    unfold written
    split
    · next hs => exact (h _ hs).2
    · rfl
  rw [handTo, hwritten, write_nil, hreceiving]

@[simp] theorem handTo_nil : a.handTo place [] = a :=
  a.handTo_eq_self place [] fun s _ => ⟨s.after_nil, rfl⟩

theorem handTo_of_eq_none (h : a.services[place]? = none) : a.handTo place es = a := by
  refine a.handTo_eq_self place es fun s hs => ?_
  rw [h] at hs
  cases hs

/-- An event that is sent to a service is handed to it. -/
theorem send_eq_handTo (e : Event) : a.send place e = a.handTo place [e] := by
  unfold send
  cases hs : a.services[place]? with
  | none => exact (a.handTo_of_eq_none place [e] hs).symm
  | some s =>
    have hservices : a.services.setIfInBounds place (s.after [e]) =
        (a.receiving place [e]).services := by
      obtain ⟨hlt, -⟩ := Array.getElem?_eq_some_iff.1 hs
      refine Array.ext_getElem? fun i => ?_
      rw [Array.getElem?_setIfInBounds, getElem?_services_receiving, if_pos hlt]
      split
      · next heq =>
        rw [← heq, hs]
        rfl
      · rfl
    rw [handTo, written_of_getElem? hs]
    simp only [Service.log_eq, hservices]
    rfl

end

/-! ### The service that receives events -/

theorem current_hand (es : List Event) (a : Ambient) :
    (a.hand es).current = a.current.map fun s => s.after es := by
  unfold hand current
  cases hplace : a.receiver with
  | none => rw [hplace]; rfl
  | some place =>
    have hreceiver : (a.handTo place es).receiver = some place := hplace
    rw [hreceiver, Option.bind_some, Option.bind_some]
    exact (a.getElem?_services_receiving place es place).trans (if_pos rfl)

theorem output_hand (es : List Event) (a : Ambient) :
    (a.hand es).output = a.output ++ (a.current.map fun s => s.written es).getD [] := by
  unfold hand current
  cases a.receiver with
  | none => simp
  | some place =>
    show a.output ++ a.written place es = _
    rw [written, Option.bind_some]
    cases a.services[place]? <;> rfl

/-- Without a service events go nowhere. -/
theorem hand_of_current_eq_none {a : Ambient} (h : a.current = none) (es : List Event) :
    a.hand es = a := by
  unfold hand
  unfold current at h
  split
  · next hplace =>
    rw [hplace] at h
    exact a.handTo_of_eq_none _ es h
  · rfl

@[simp] theorem hand_nil (a : Ambient) : a.hand [] = a := by
  unfold hand
  split
  · exact a.handTo_nil _
  · rfl

theorem receiver_hand (es : List Event) (a : Ambient) : (a.hand es).receiver = a.receiver := by
  unfold hand
  split <;> rfl

/-- Where events go does not depend on the source being processed. -/
theorem hand_source (source : Option String) (es : List Event) (a : Ambient) :
    ({ a with source } : Ambient).hand es = { a.hand es with source } := by
  have hreceiver : ({ a with source } : Ambient).receiver = a.receiver := rfl
  unfold hand
  rw [hreceiver]
  cases a.receiver <;> rfl

theorem source_hand (es : List Event) (a : Ambient) : (a.hand es).source = a.source := by
  unfold hand
  split <;> rfl

theorem environment_hand (es : List Event) (a : Ambient) :
    (a.hand es).environment = a.environment := by
  unfold hand
  split <;> rfl

theorem hand_append (es fs : List Event) (a : Ambient) :
    a.hand (es ++ fs) = (a.hand es).hand fs := by
  have hreceiver := a.receiver_hand es
  unfold hand at hreceiver ⊢
  rw [hreceiver]
  cases a.receiver with
  | none => rfl
  | some place => exact a.handTo_append place es fs

/-- An event is handed to the service that receives events. -/
theorem dispatch_eq_hand (e : Event) (a : Ambient) : a.dispatch e = a.hand [a.prepare e] := by
  unfold dispatch hand
  cases a.receiver with
  | none => rfl
  | some place => exact a.send_eq_handTo place _

theorem level_prepare {a : Ambient} (e : Event) : (a.prepare e).level = e.level := by
  unfold prepare
  split
  · split <;> rfl
  · rfl

/-- A detail that is dropped at once would be dropped by the service. -/
theorem report_eq_hand (e : Event) (a : Ambient) : a.report e = a.hand [a.prepare e] := by
  unfold report
  split
  case isFalse => exact dispatch_eq_hand e a
  case isTrue hskip =>
    obtain ⟨hdetail, hquiet⟩ : e.level = .debug ∧ a.debugEnabled = false := by simpa using hskip
    unfold hand
    cases hplace : a.receiver with
    | none => rfl
    | some place =>
      refine (a.handTo_eq_self place _ fun s hs => ?_).symm
      have hdropped : s.shouldLog (a.prepare e).level = false := by
        rw [level_prepare, hdetail]
        simpa [debugEnabled, current, hplace, hs] using hquiet
      have hlog := Service.log_of_not_shouldLog hdropped
      rw [Service.log_eq, Prod.mk.injEq] at hlog
      exact hlog

/-- What a service has received does not change how events are prepared. -/
theorem prepare_hand (es : List Event) (a : Ambient) : (a.hand es).prepare = a.prepare := by
  unfold hand
  split <;> rfl

theorem reportAll_eq_hand (es : List Event) (a : Ambient) :
    a.reportAll es = a.hand (es.map a.prepare) := by
  induction es generalizing a with
  | nil => exact (hand_nil a).symm
  | cons e es ih =>
    show (a.report e).reportAll es = a.hand ([a.prepare e] ++ es.map a.prepare)
    rw [hand_append, report_eq_hand, ih, prepare_hand]

/-! ## Commands -/

/-- The surroundings while a source is processed, if there is one. -/
def inSource (a : Ambient) (source : Option String) : Ambient :=
  { a with source := source.or a.source }

section

variable {γ σ ρ : Type} (run : γ → σ → ρ × σ × List Event)

/-- The answers of commands, and the state that they leave. -/
def answers : List (Option String × γ) → σ → List ρ × σ
  | [], state => ([], state)
  | (_, command) :: commands, state =>
    let (reply, state, _) := run command state
    let (replies, state) := answers commands state
    (reply :: replies, state)

/-- The events that commands report, as they are handed to a service. -/
def reported (a : Ambient) : List (Option String × γ) → σ → List Event
  | [], _ => []
  | (source, command) :: commands, state =>
    (run command state).2.2.map (a.inSource source).prepare ++
      reported a commands (run command state).2.1

/-- What commands answer does not depend on the surroundings. -/
theorem fst_perform (commands : List (Option String × γ)) (state : σ) (a : Ambient) :
    (perform run commands state a).1 = answers run commands state := by
  induction commands generalizing state a with
  | nil => rfl
  | cons command commands ih =>
    simp only [perform, answers, ih]

theorem reported_hand (commands : List (Option String × γ)) (state : σ) (es : List Event)
    (a : Ambient) : reported run (a.hand es) commands state = reported run a commands state := by
  have hprepare (source : Option String) :
      ((a.hand es).inSource source).prepare = (a.inSource source).prepare := by
    unfold hand
    split <;> rfl
  induction commands generalizing state with
  | nil => rfl
  | cons command commands ih => rw [reported, reported, ih, hprepare]

/-- Commands hand on what they report. -/
theorem snd_perform_eq_hand (commands : List (Option String × γ)) (state : σ) (a : Ambient) :
    (perform run commands state a).2 = a.hand (reported run a commands state) := by
  induction commands generalizing state a with
  | nil => exact (hand_nil a).symm
  | cons command commands ih =>
    obtain ⟨source, command⟩ := command
    have hsource (name : String) (es : List Event) :
        (a.withSource name fun b => ((), b.reportAll es)).2 =
          a.hand (es.map ({ a with source := some name } : Ambient).prepare) := by
      rw [withSource, reportAll_eq_hand, hand_source]
      exact congrArg (fun source => ({ a.hand _ with source } : Ambient)) (a.source_hand _).symm
    have hcons : (perform run ((source, command) :: commands) state a).2 =
        (perform run commands (run command state).2.1
          (a.hand ((run command state).2.2.map (a.inSource source).prepare))).2 := by
      cases source with
      | none =>
        have hnone : a.inSource none = a := rfl
        rw [perform, hnone, ← reportAll_eq_hand]
      | some name =>
        have hsome : a.inSource (some name) = { a with source := some name } := rfl
        rw [perform, hsome, ← hsource]
    rw [hcons, ih, reported_hand, reported, hand_append]

end

/-! ## Prepared events -/

theorem code_prepare (a : Ambient) (e : Event) : (a.prepare e).code = e.code := by
  unfold prepare
  split
  · split <;> rfl
  · rfl

theorem span_prepare (a : Ambient) (e : Event) : (a.prepare e).span = e.span := by
  unfold prepare
  split
  · split <;> rfl
  · rfl

theorem message_prepare (a : Ambient) (e : Event) :
    (a.prepare e).message = Text.truncate e.message Limits.built.maxMessage := by
  unfold prepare
  split
  · split <;> rfl
  · rfl

/-- The name of the source being processed, if events are to have it. -/
def tag (a : Ambient) : Option String := if a.settings.sourceContext then a.source else none

theorem context_prepare (a : Ambient) (e : Event) :
    (a.prepare e).context =
      a.tag.elim e.context fun name => e.context.insert Event.sourceKey name := by
  unfold prepare tag
  split
  · cases a.source <;> rfl
  · rfl

/-- An event has the name of the source being processed, in place of a source of its own, if events
are to have it and there is one. The other entries of its context stay as they are. -/
theorem get?_prepare (a : Ambient) (e : Event) (key : String) :
    (a.prepare e).context.get? key =
      if key = Event.sourceKey then a.tag.or (e.context.get? key) else e.context.get? key := by
  rw [context_prepare]
  cases a.tag with
  | none => simp
  | some name => exact Context.get?_insert _ _ _ _

end Ambient

end RobotScript.Log
