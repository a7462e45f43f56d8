import Mathlib.Data.List.DropRight
import Mathlib.Data.List.Forall2
import Mathlib.Data.List.Induction
import RobotScript.Log.Service

/-!
# What memories hold

A memory holds the end of all that it was sent, as much as it has room for. What it is sent is what
passes the level that a service has when an event is logged, and the level of a logger in between. A
change of the level is about later events only, and a clear is about the memory that is cleared
only.

Results:

* `Memory.toList_events_log`, `Memory.Latest.receive`: a memory after one event, and after any.
* `Memory.tallied`: the counts of a memory.
* `Service.sinks_run`: what a command other than a clear does to the sinks of a service.
* `Service.memories_afterCommands`: what the memories behind a service hold after any commands.
-/

namespace RobotScript.Log

/-! ## Memories -/

theorem rtake_rtake {α : Type} (l : List α) (m n : Nat) :
    (l.rtake m).rtake n = l.rtake (min n m) := by
  simp only [List.rtake_eq_reverse_take_reverse, List.reverse_reverse, List.take_take]

/-- The end of a list with one more item needs no more of the list than its end. -/
theorem rtake_concat_rtake {α : Type} (l : List α) (x : α) (n : Nat) :
    (l.rtake n ++ [x]).rtake n = (l ++ [x]).rtake n := by
  cases n with
  | zero => rw [List.rtake_zero, List.rtake_zero]
  | succ n =>
    rw [List.rtake_concat_succ, List.rtake_concat_succ, rtake_rtake, Nat.min_eq_left n.le_succ]

namespace Memory

variable {m : Memory} {capacity : Nat} {es : List Event}

/-- A memory that was made for a number of events holds the latest of those that it was sent. There
is room for one at least. -/
structure Latest (capacity : Nat) (es : List Event) (m : Memory) : Prop where
  capacity_eq : m.capacity = max capacity 1
  toList_events : m.events.toList = es.rtake (max capacity 1)

theorem latest_empty (capacity : Nat) : (empty capacity).Latest capacity [] :=
  ⟨rfl, (List.rtake_nil _).symm⟩

theorem toList_events_log (h : 0 < m.capacity) (e : Event) :
    (m.log e).events.toList = (m.events.toList ++ [e]).rtake m.capacity := by
  unfold log List.rtake
  rw [List.length_append, List.length_singleton, Array.length_toList, Array.toList_push]
  split
  · -- so many events go that there is room for one, and one comes
    have hgone : m.events.size + 1 - m.capacity = m.events.size - m.capacity + 1 := by omega
    have hle : m.events.size - m.capacity + 1 ≤ m.events.toList.length := by
      rw [Array.length_toList]
      omega
    rw [hgone, List.drop_append_of_le_length hle, Array.toList_extract, List.extract_eq_take_drop,
      List.take_of_length_le (by rw [List.length_drop, Array.length_toList])]
  · have hnone : m.events.size + 1 - m.capacity = 0 := by omega
    rw [hnone, List.drop_zero]

theorem Latest.log (h : m.Latest capacity es) (e : Event) :
    (m.log e).Latest capacity (es ++ [e]) := by
  have hpos : 0 < max capacity 1 := Nat.le_max_right capacity 1
  refine ⟨h.capacity_eq, ?_⟩
  rw [toList_events_log (h.capacity_eq ▸ hpos), h.toList_events, h.capacity_eq,
    rtake_concat_rtake]

/-- A memory after several events. -/
def receive (es : List Event) (m : Memory) : Memory := es.foldl log m

theorem receive_append (es fs : List Event) (m : Memory) :
    m.receive (es ++ fs) = (m.receive es).receive fs := List.foldl_append

theorem Latest.receive (h : m.Latest capacity es) (fs : List Event) :
    (m.receive fs).Latest capacity (es ++ fs) := by
  induction fs generalizing m es with
  | nil => rwa [List.append_nil]
  | cons f fs ih =>
    rw [List.append_cons]
    exact ih (h.log f)

theorem clear_receive (es : List Event) (m : Memory) : (m.receive es).clear = m.clear := by
  induction es generalizing m with
  | nil => rfl
  | cons e es ih => exact ih (m.log e)

/-! ### Counts -/

/-- The counts of a memory add up. -/
structure Tallied (m : Memory) : Prop where
  total_eq : m.summary.total = m.size
  sum_eq : m.summary.errors + m.summary.warnings + m.summary.infos + m.summary.debugs = m.size
  critical_le : m.summary.critical ≤ m.summary.errors

/-- An event has one of four levels. -/
theorem countP_level (es : List Event) :
    es.countP (·.level = .error) + es.countP (·.level = .warning) + es.countP (·.level = .info) +
      es.countP (·.level = .debug) = es.length := by
  induction es with
  | nil => rfl
  | cons e es ih =>
    simp only [List.countP_cons, List.length_cons, ← ih]
    cases hlevel : e.level <;> simp <;> omega

theorem tallied (m : Memory) : m.Tallied := by
  have hlevels := countP_level m.events.toList
  simp only [Array.countP_toList, Array.length_toList] at hlevels
  refine ⟨rfl, hlevels, Array.countP_mono_left fun e _ h => ?_⟩
  exact (Bool.and_eq_true_iff.1 h).1

end Memory

/-! ## Sinks -/

/-- A sink after several events. -/
def Sink.receive (es : List Event) (sink : Sink) : Sink :=
  es.foldl (fun sink e => (sink.log e).1) sink

theorem Sink.receive_append (es fs : List Event) :
    Sink.receive (es ++ fs) = Sink.receive fs ∘ Sink.receive es :=
  funext fun _ => List.foldl_append

theorem Sink.receive_memory (es : List Event) (m : Memory) :
    Sink.receive es (.memory m) = .memory (m.receive es) := by
  induction es generalizing m with
  | nil => rfl
  | cons e es ih => exact ih (m.log e)

namespace Logger

/-- The level up to which a logger sends events on to its sinks, if it has one. -/
def bound : Logger → Option Level
  | .single _ => none
  | .multi level _ => some level

theorem bound_log (logger : Logger) (e : Event) : (logger.log e).1.bound = logger.bound := by
  cases logger with
  | single sink => rfl
  | multi level sinks =>
    rw [log]
    split <;> rfl

theorem fst_logAll (e : Event) (sinks : List Sink) :
    (logAll e sinks).1 = sinks.map fun sink => (sink.log e).1 := by
  induction sinks with
  | nil => rfl
  | cons sink sinks ih =>
    rw [List.map_cons, ← ih]
    rfl

/-- All sinks receive an event that is not above the level of the logger, and no other. -/
theorem sinks_log (logger : Logger) (e : Event) : (logger.log e).1.sinks =
    logger.sinks.map (Sink.receive (if ∀ b ∈ logger.bound, e.level ≤ b then [e] else [])) := by
  cases logger with
  | single sink =>
    rw [if_pos (by simp [bound])]
    rfl
  | multi level sinks =>
    have hbound : (∀ b ∈ (multi level sinks).bound, e.level ≤ b) ↔ e.level ≤ level := by
      simp [bound]
    rw [log]
    by_cases hlevel : e.level ≤ level
    · rw [if_pos hlevel, if_pos (hbound.2 hlevel)]
      exact fst_logAll e sinks
    · rw [if_neg hlevel, if_neg (mt hbound.1 hlevel)]
      exact (List.map_id sinks).symm

theorem bound_clearFirst (logger : Logger) : logger.clearFirst.bound = logger.bound := by
  rcases logger with _ | ⟨_, _ | _⟩ <;> rfl

theorem sinks_clearFirst (logger : Logger) :
    logger.clearFirst.sinks = logger.sinks.modifyHead Sink.clear := by
  rcases logger with _ | ⟨_, _ | _⟩ <;> rfl

end Logger

/-! ## Services -/

namespace Service

/-- The level of a service after commands. -/
def levelAfter (level : Level) (commands : List Command) : Level :=
  commands.foldl
    (fun level c =>
      match c with
      | .setMinLevel level => level
      | _ => level)
    level

/-- The events that commands log and that are sent to the sinks: each is at most at the level that
the service has then, and at most at the level of the logger, if that has one. -/
def accepted (bound : Option Level) : Level → List Command → List Event
  | _, [] => []
  | level, .log e :: commands =>
    if e.level ≤ level ∧ ∀ b ∈ bound, e.level ≤ b then e :: accepted bound level commands
    else accepted bound level commands
  | _, .setMinLevel level :: commands => accepted bound level commands
  | level, .clear :: commands => accepted bound level commands

/-- The events that are sent to the sinks after the last clear. -/
def sinceClear (bound : Option Level) (level : Level) (commands : List Command) : List Event :=
  accepted bound (levelAfter level (commands.rdropWhile (· != .clear)))
    (commands.rtakeWhile (· != .clear))

variable {bound : Option Level} {level : Level} {commands : List Command} {c : Command}

theorem levelAfter_append (level : Level) (commands later : List Command) :
    levelAfter level (commands ++ later) = levelAfter (levelAfter level commands) later :=
  List.foldl_append

theorem accepted_append (bound : Option Level) (level : Level) (commands later : List Command) :
    accepted bound level (commands ++ later) =
      accepted bound level commands ++ accepted bound (levelAfter level commands) later := by
  induction commands generalizing level with
  | nil => rfl
  | cons c commands ih =>
    cases c with
    | log e =>
      rw [List.cons_append, accepted, accepted, ih]
      split
      · rfl
      · rfl
    | setMinLevel level' => exact ih level'
    | clear => exact ih level

theorem sinceClear_concat_clear : sinceClear bound level (commands ++ [.clear]) = [] := by
  rw [sinceClear, List.rtakeWhile_concat_neg _ _ _ (by simp)]
  rfl

theorem sinceClear_concat (hc : c ≠ .clear) : sinceClear bound level (commands ++ [c]) =
    sinceClear bound level commands ++ accepted bound (levelAfter level commands) [c] := by
  have hlevel := levelAfter_append level (commands.rdropWhile (· != .clear))
    (commands.rtakeWhile (· != .clear))
  rw [List.rdropWhile_append_rtakeWhile] at hlevel
  rw [sinceClear, List.rtakeWhile_concat_pos _ _ _ (by simpa using hc),
    List.rdropWhile_concat_pos _ _ _ (by simpa using hc), accepted_append, ← hlevel]
  rfl

/-! ### One command -/

variable (s : Service)

theorem minLevel_run (c : Command) : (c.run s).1.minLevel = levelAfter s.minLevel [c] := by
  cases c with
  | log e =>
    rw [Command.run, log]
    split <;> rfl
  | setMinLevel level => rfl
  | clear => rfl

theorem bound_run (c : Command) : (c.run s).1.logger.bound = s.logger.bound := by
  cases c with
  | log e =>
    rw [Command.run, log]
    split
    · exact s.logger.bound_log e
    · rfl
  | setMinLevel level => rfl
  | clear => exact s.logger.bound_clearFirst

/-- A command other than a clear sends what is accepted of it to all sinks. -/
theorem sinks_run (hc : c ≠ .clear) : (c.run s).1.logger.sinks =
    s.logger.sinks.map (Sink.receive (accepted s.logger.bound s.minLevel [c])) := by
  cases c with
  | log e =>
    rw [Command.run, log, accepted]
    by_cases hlevel : e.level ≤ s.minLevel
    · have hpasses : s.shouldLog e.level = true := decide_eq_true hlevel
      rw [if_pos hpasses]
      simp only [hlevel, true_and]
      exact s.logger.sinks_log e
    · have hpasses : ¬s.shouldLog e.level = true := mt of_decide_eq_true hlevel
      rw [if_neg hpasses, if_neg fun h => hlevel h.1]
      exact (List.map_id _).symm
  | setMinLevel level => exact (List.map_id _).symm
  | clear => exact absurd rfl hc

/-! ### Any commands -/

/-- A service after commands. -/
def afterCommands (s : Service) (commands : List Command) : Service :=
  commands.foldl (fun s c => (c.run s).1) s

theorem afterCommands_concat (commands : List Command) (c : Command) :
    s.afterCommands (commands ++ [c]) = (c.run (s.afterCommands commands)).1 := by
  rw [afterCommands, List.foldl_append]
  rfl

theorem minLevel_afterCommands (commands : List Command) :
    (s.afterCommands commands).minLevel = levelAfter s.minLevel commands := by
  induction commands using List.reverseRecOn with
  | nil => rfl
  | append_singleton commands c ih =>
    rw [afterCommands_concat, minLevel_run, ih, levelAfter_append]

theorem bound_afterCommands (commands : List Command) :
    (s.afterCommands commands).logger.bound = s.logger.bound := by
  induction commands using List.reverseRecOn with
  | nil => rfl
  | append_singleton commands c ih => rw [afterCommands_concat, bound_run, ih]

/-- An empty memory receives what is accepted after it is cleared. The sinks behind it receive all
that is accepted. -/
theorem sinks_afterCommands {capacity : Nat} {others : List Sink}
    (h : s.logger.sinks = .memory (.empty capacity) :: others) (commands : List Command) :
    (s.afterCommands commands).logger.sinks =
      .memory ((Memory.empty capacity).receive (sinceClear s.logger.bound s.minLevel commands)) ::
        others.map (Sink.receive (accepted s.logger.bound s.minLevel commands)) := by
  induction commands using List.reverseRecOn with
  | nil => exact h.trans (congrArg _ (List.map_id others).symm)
  | append_singleton commands c ih =>
    by_cases hc : c = .clear
    · subst hc
      rw [afterCommands_concat, Command.run, Logger.sinks_clearFirst, ih, sinceClear_concat_clear,
        accepted_append, accepted, accepted, List.append_nil, List.modifyHead_cons, Sink.clear,
        Memory.clear_receive]
      rfl
    · rw [afterCommands_concat, sinks_run _ hc, ih, List.map_cons, List.map_map,
        Sink.receive_memory, minLevel_afterCommands, bound_afterCommands, sinceClear_concat hc,
        accepted_append, Memory.receive_append, Sink.receive_append]

/-- What memories behind a service hold after any commands, whatever level its logger has, if any.
The first, which is cleared by a clear, holds the latest of all that was accepted since; any other
one holds the latest of all that was accepted. The counts of each add up. -/
theorem memories_afterCommands (level : Level) (logger : Logger) (capacity : Nat)
    (others : List Sink) (h : logger.sinks = .memory (.empty capacity) :: others)
    (commands : List Command) :
    let s := afterCommands ⟨level, logger⟩ commands
    ∃ m others', s.logger.sinks = .memory m :: others' ∧ s.held = m.events ∧
      m.Latest capacity (sinceClear logger.bound level commands) ∧ m.Tallied ∧
      List.Forall₂
        (fun sink sink' => ∀ capacity', sink = .memory (.empty capacity') →
          ∃ m', sink' = .memory m' ∧
            m'.Latest capacity' (accepted logger.bound level commands) ∧ m'.Tallied)
        others others' := by
  intro s
  have hsinks := sinks_afterCommands ⟨level, logger⟩ h commands
  refine ⟨_, _, hsinks, ?_, (Memory.latest_empty capacity).receive _, Memory.tallied _, ?_⟩
  · rw [held, hsinks]
    rfl
  · rw [List.forall₂_map_right_iff, List.forall₂_same]
    rintro _ - capacity' rfl
    exact ⟨_, Sink.receive_memory _ _, (Memory.latest_empty capacity').receive _,
      Memory.tallied _⟩

/-- Two memories behind a logger for levels up to info, one without and one with room for more than
one event. Neither an info that is logged while the service is at level error nor any debug event is
accepted, and just the first memory forgets what was logged before the clear. -/
theorem memories_after_clear :
    let first := Event.warning "first"
    let second := Event.info "second"
    let third := Event.warning "third"
    let commands : List Command :=
      [.log (.info "zeroth"), .log first, .setMinLevel .error, .log (.info "hidden"),
        .setMinLevel .debug, .log (.debug "detail"), .log second, .clear, .log third]
    let s := afterCommands
      ⟨.info, .multi .info [.memory (.empty 0), .memory (.empty 3)]⟩ commands
    ∃ m m', s.logger.sinks = [.memory m, .memory m'] ∧
      m.events.toList = [third] ∧ m'.events.toList = [first, second, third] := by
  intro first second third commands s
  obtain ⟨m, others', hsinks, -, hm, -, hothers⟩ := memories_afterCommands .info
    (.multi .info [.memory (.empty 0), .memory (.empty 3)]) 0 [.memory (.empty 3)] rfl commands
  cases hothers with
  | cons hother hnone =>
    cases hnone
    obtain ⟨m', rfl, hm', -⟩ := hother 3 rfl
    exact ⟨m, m', hsinks, hm.toList_events, hm'.toList_events⟩

end Service

end RobotScript.Log
