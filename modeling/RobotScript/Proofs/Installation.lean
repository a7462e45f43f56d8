import RobotScript.Log.Setup
import RobotScript.Proofs.Scopes

/-!
# Logging is set up once

A process has two slots, one for preferences and one for a service. A call that sets up logging
fills the slot that it is about, unless the slot is filled or the call is invalid, and then it
changes nothing. What is logged, in scopes and outside of them, leaves the preferences as they are,
and leaves the service but for the events that it receives. So the calls that are made in a process,
wherever they stand among other acts, have the outcomes that they have on their own.

Results:

* `Log.Setup.run_eq`: all that a call can do.
* `Log.Setup.Tracks.run`: the outcome of a call, and the slots that are filled afterwards.
* `Log.Act.sets_runAll`: the outcomes of the calls in acts.
* `Log.Act.keeps_runAll`: what is installed stays installed.
* `Log.Act.installedOnce_runAll`: what holds of all calls of a process.
-/

namespace RobotScript.Log

/-! ## Calls -/

/-- A call that sets up logging. -/
inductive Setup where
  /-- Install preferences. -/
  | preferences (p : LoggingPreferences)
  /-- Install the service that the preferences ask for. -/
  | configured
  /-- Install the service at a place. -/
  | service (place : Nat)
  /-- Install a new service. -/
  | newService (s : Service)

/-- What a process has room for one of. -/
inductive Slot where
  | preferences
  | service
  deriving DecidableEq

/-- The error about a slot that is filled. -/
def Slot.taken : Slot → SetupError
  | .preferences => .preferencesInstalled
  | .service => .serviceInstalled

/-- Whether a slot is filled. -/
def Ambient.has (a : Ambient) : Slot → Bool
  | .preferences => a.preferences.isSome
  | .service => a.process.isSome

namespace Setup

/-- The slot that a call is about. -/
def slot : Setup → Slot
  | .preferences _ => .preferences
  | .configured | .service _ | .newService _ => .service

/-- Whether a call is valid: preferences may not be. -/
def check : Setup → Except SetupError Unit
  | .preferences p => checkPreferences p
  | .configured | .service _ | .newService _ => .ok ()

/-- Makes a call: the outcome and the surroundings afterwards. -/
def run (c : Setup) (a : Ambient) : Except SetupError Unit × Ambient :=
  match c with
  | .preferences p => a.installPreferences p
  | .configured => a.installConfigured
  | .service place => a.installService place
  | .newService s => a.installNew s

/-- Whether a call fills a slot that is not filled. -/
def fills (slot : Slot) (c : Setup) : Bool := c.slot = slot && c.check.isOk

/-- The outcome of a call after earlier ones. -/
def outcome (earlier : List Setup) (c : Setup) : Except SetupError Unit :=
  match c.check with
  | .error e => .error e
  | .ok () => if earlier.any (·.fills c.slot) then .error c.slot.taken else .ok ()

/-- Calls after earlier ones, with their outcomes. -/
def outcomes (earlier : List Setup) : List Setup → List (Setup × Except SetupError Unit)
  | [] => []
  | c :: cs => (c, c.outcome earlier) :: outcomes (earlier ++ [c]) cs

theorem outcomes_append (earlier cs ds : List Setup) :
    outcomes earlier (cs ++ ds) = outcomes earlier cs ++ outcomes (earlier ++ cs) ds := by
  induction cs generalizing earlier with
  | nil => rw [List.append_nil]; rfl
  | cons c cs ih =>
    show (c, c.outcome earlier) :: outcomes (earlier ++ [c]) (cs ++ ds) = _
    rw [ih, List.append_assoc]
    rfl

/-- A call that succeeds fills its slot for the first time. -/
theorem outcome_eq_ok_iff {earlier : List Setup} {c : Setup} :
    c.outcome earlier = .ok () ↔ c.check = .ok () ∧ ∀ d ∈ earlier, d.fills c.slot = false := by
  unfold outcome
  split
  case h_1 e he => simp [he]
  case h_2 he => simp [he]

/-- Whether a call in a transcript has filled a slot. -/
def filled (slot : Slot) (c : Setup × Except SetupError Unit) : Bool :=
  c.1.slot = slot && c.2.isOk

theorem filled_outcome (slot : Slot) (earlier : List Setup) (c : Setup) :
    filled slot (c, c.outcome earlier) = (c.fills slot && !earlier.any (·.fills slot)) := by
  by_cases hslot : c.slot = slot
  · subst hslot
    have hnow : c.fills c.slot = c.check.isOk := by simp [fills]
    have hfilled : filled c.slot (c, c.outcome earlier) = (c.outcome earlier).isOk := by
      simp [filled]
    rw [hnow, hfilled, outcome]
    generalize earlier.any (·.fills c.slot) = before
    cases c.check with
    | error e => rfl
    | ok => cases before <;> rfl
  · simp [filled, fills, hslot]

theorem any_fills_concat (slot : Slot) (earlier : List Setup) (c : Setup) :
    (earlier ++ [c]).any (·.fills slot) = (earlier.any (·.fills slot) || c.fills slot) := by
  simp

/-- A slot is filled once, and not at all if it was filled earlier. -/
theorem countP_filled_outcomes (slot : Slot) (earlier cs : List Setup) :
    (outcomes earlier cs).countP (filled slot) + (if earlier.any (·.fills slot) then 1 else 0) ≤
      1 := by
  induction cs generalizing earlier with
  | nil =>
    show 0 + _ ≤ 1
    split <;> omega
  | cons c cs ih =>
    have hlater := ih (earlier ++ [c])
    rw [any_fills_concat] at hlater
    rw [outcomes, List.countP_cons, filled_outcome]
    cases hbefore : earlier.any (·.fills slot) <;> cases hnow : c.fills slot <;>
      simp only [hbefore, hnow] at hlater ⊢ <;> simpa using hlater

end Setup

/-! ## The slots of a process -/

namespace Ambient

/-- Services only receive events between two moments, or they are new. -/
def ServicesKept (a b : Ambient) : Prop :=
  ∀ (place : Nat) (s : Service), a.services[place]? = some s →
    ∃ es, b.services[place]? = some (s.after es)

/-- What is installed stays installed, and services stay as they are but for the events that they
receive. -/
structure Keeps (a b : Ambient) : Prop where
  preferences : ∀ p, a.preferences = some p → b.preferences = some p
  process : ∀ place, a.process = some place → b.process = some place
  services : a.ServicesKept b

/-- Nothing is installed between two moments, and services stay as they are but for the events that
they receive. -/
structure Logs (a b : Ambient) : Prop where
  preferences : b.preferences = a.preferences
  process : b.process = a.process
  services : a.ServicesKept b

theorem ServicesKept.refl (a : Ambient) : a.ServicesKept a := fun _ _ h => ⟨[], h⟩

theorem ServicesKept.trans {a b c : Ambient} (hab : a.ServicesKept b) (hbc : b.ServicesKept c) :
    a.ServicesKept c := by
  intro place s h
  obtain ⟨es, hes⟩ := hab place s h
  obtain ⟨fs, hfs⟩ := hbc place _ hes
  exact ⟨es ++ fs, by rw [hfs, Service.after_append]⟩

theorem Keeps.refl (a : Ambient) : a.Keeps a where
  preferences _ h := h
  process _ h := h
  services := .refl a

theorem Keeps.trans {a b c : Ambient} (hab : a.Keeps b) (hbc : b.Keeps c) : a.Keeps c where
  preferences p h := hbc.preferences p (hab.preferences p h)
  process place h := hbc.process place (hab.process place h)
  services := hab.services.trans hbc.services

/-- The service of the process stays the same one. -/
theorem Keeps.global {a b : Ambient} (h : a.Keeps b) {s : Service} (hs : a.global = some s) :
    ∃ es, b.global = some (s.after es) := by
  obtain ⟨place, hplace, hs⟩ := Option.bind_eq_some_iff.1 hs
  obtain ⟨es, hes⟩ := h.services place s hs
  refine ⟨es, ?_⟩
  rw [Ambient.global, h.process place hplace]
  exact hes

theorem Logs.keeps {a b : Ambient} (h : a.Logs b) : a.Keeps b where
  preferences _ hp := h.preferences.trans hp
  process _ hplace := h.process.trans hplace
  services := h.services

theorem Logs.has_eq {a b : Ambient} (h : a.Logs b) (slot : Slot) : b.has slot = a.has slot := by
  cases slot with
  | preferences => exact congrArg Option.isSome h.preferences
  | service => exact congrArg Option.isSome h.process

theorem logs_handTo (place : Nat) (es : List Event) (a : Ambient) : a.Logs (a.handTo place es) := by
  refine ⟨rfl, rfl, fun i s hs => ?_⟩
  have hafter := a.getElem?_services_receiving place es i
  rw [hs] at hafter
  by_cases heq : place = i
  · rw [if_pos heq] at hafter
    exact ⟨es, hafter⟩
  · rw [if_neg heq] at hafter
    exact ⟨[], hafter⟩

theorem logs_hand (a : Ambient) (es : List Event) : a.Logs (a.hand es) := by
  unfold hand
  split
  · exact a.logs_handTo _ es
  · exact ⟨rfl, rfl, .refl a⟩

theorem logs_report (a : Ambient) (e : Event) : a.Logs (a.report e) := by
  rw [report_eq_hand]
  exact a.logs_hand _

theorem logs_reportError (a : Ambient) (code : Code) (message : String) :
    a.Logs (a.reportError code message) := by
  unfold reportError
  split
  · rw [dispatch_eq_hand]
    exact a.logs_hand _
  · exact ⟨rfl, rfl, .refl a⟩

theorem logs_logGlobally (a : Ambient) (e : Event) : a.Logs (a.logGlobally e) := by
  unfold logGlobally
  split
  · rw [send_eq_handTo]
    exact a.logs_handTo _ _
  · exact ⟨rfl, rfl, .refl a⟩

theorem logs_make (a : Ambient) (service : Service) : a.Logs (a.make service) := by
  refine ⟨rfl, rfl, fun place s hs => ⟨[], ?_⟩⟩
  obtain ⟨hlt, -⟩ := Array.getElem?_eq_some_iff.1 hs
  rw [make, Array.getElem?_push, if_neg (Nat.ne_of_lt hlt), hs, Service.after_nil]

/-- Installed preferences are valid. -/
def Valid (a : Ambient) : Prop := ∀ p, a.preferences = some p → checkPreferences p = .ok ()

theorem Valid.check_eq {a : Ambient} (h : a.Valid) : a.check = .ok () := by
  have hlimits : checkLimits Limits.built = .ok () := by decide
  unfold check
  rw [hlimits]
  cases hp : a.preferences with
  | none => rfl
  | some p => exact h p hp

end Ambient

namespace Setup

variable {a : Ambient} {c : Setup}

/-- Installs a new service in a slot that is not filled. -/
def installing (s : Service) (a : Ambient) : Ambient :=
  { a.make s with process := some a.services.size }

/-- What a call installs in a slot that is not filled. -/
def install (c : Setup) (a : Ambient) : Ambient :=
  match c with
  | .preferences p => { a with preferences := some p }
  | .configured =>
    (installing ⟨a.minLevel, a.configuredLogger⟩ a).logGlobally
      (.success .initialized "Global logging system initialized")
  | .service place => { a with process := some place }
  | .newService s => installing s a

/-- Whether a call is valid in its surroundings: what was installed before may not be. -/
def checkIn (a : Ambient) : Setup → Except SetupError Unit
  | .preferences p => checkPreferences p
  | .configured =>
    match a.check with
    | .error e => .error (.invalid e)
    | .ok () => .ok ()
  | .service _ | .newService _ => .ok ()

/-- A call installs what it is about, or it fails and changes nothing. -/
theorem run_eq (c : Setup) (a : Ambient) :
    c.run a =
      match c.checkIn a with
      | .error e => (.error e, a)
      | .ok () => if a.has c.slot then (.error c.slot.taken, a) else (.ok (), c.install a) := by
  cases c with
  | preferences p =>
    show a.installPreferences p = match checkPreferences p with
      | .error e => (.error e, a)
      | .ok () => if a.preferences.isSome then (.error .preferencesInstalled, a)
        else (.ok (), { a with preferences := some p })
    unfold Ambient.installPreferences
    cases checkPreferences p with
    | error e => rfl
    | ok => cases a.preferences <;> rfl
  | configured =>
    unfold run Ambient.installConfigured Ambient.installNew Ambient.installService checkIn
    cases a.check with
    | error e => rfl
    | ok =>
      have hhas : a.has configured.slot = a.process.isSome := rfl
      rw [hhas]
      cases a.process <;> rfl
  | service place =>
    show a.installService place = if a.process.isSome then (.error .serviceInstalled, a)
      else (.ok (), { a with process := some place })
    unfold Ambient.installService
    cases a.process <;> rfl
  | newService s =>
    show a.installNew s = if a.process.isSome then (.error .serviceInstalled, a)
      else (.ok (), installing s a)
    unfold Ambient.installNew Ambient.installService
    cases a.process <;> rfl

theorem checkIn_eq (h : a.Valid) (c : Setup) : c.checkIn a = c.check := by
  cases c with
  | preferences | service | newService => rfl
  | configured =>
    rw [checkIn, h.check_eq]
    rfl

/-- A call that fails changes nothing. -/
theorem snd_run_of_error {e : SetupError} (h : (c.run a).1 = .error e) : (c.run a).2 = a := by
  rw [run_eq] at h ⊢
  split
  · rfl
  · split
    · rfl
    · simp_all

theorem has_install (c : Setup) (a : Ambient) (slot : Slot) :
    (c.install a).has slot = (a.has slot || c.slot = slot) := by
  have hnew (s : Service) : (installing s a).has slot = (a.has slot || Slot.service = slot) := by
    cases slot <;> simp [installing, Ambient.has, Ambient.make]
  cases c with
  | configured =>
    rw [install, (Ambient.logs_logGlobally _ _).has_eq, hnew]
    rfl
  | newService s => exact hnew s
  | preferences | service => cases slot <;> simp [install, Ambient.has, Setup.slot]

theorem keeps_install (h : a.has c.slot = false) : a.Keeps (c.install a) := by
  have hnone (hslot : c.slot = .service) {place : Nat} : a.process ≠ some place := by
    rw [hslot] at h
    intro hplace
    simp [Ambient.has, hplace] at h
  have hnew (hslot : c.slot = .service) (s : Service) : a.Keeps (installing s a) :=
    ⟨fun p hp => hp, fun place hplace => (hnone hslot hplace).elim, (a.logs_make s).services⟩
  cases c with
  | preferences p =>
    refine ⟨fun q hq => ?_, fun place hplace => hplace, .refl a⟩
    simp [Ambient.has, slot, hq] at h
  | configured => exact (hnew rfl _).trans (Ambient.logs_logGlobally _ _).keeps
  | service place =>
    exact ⟨fun p hp => hp, fun place hplace => (hnone rfl hplace).elim, .refl a⟩
  | newService s => exact hnew rfl s

theorem valid_install (h : a.Valid) (hcheck : c.check = .ok ()) : (c.install a).Valid := by
  cases c with
  | preferences p =>
    intro q hq
    obtain rfl := Option.some.inj hq
    exact hcheck
  | configured =>
    intro p hp
    exact h p ((Ambient.logs_logGlobally (installing _ a) _).preferences.symm.trans hp)
  | service | newService => exact h

/-- The surroundings after calls, among which other acts may have stood: the slots that are filled
are those that the calls fill. -/
structure Tracks (earlier : List Setup) (a : Ambient) : Prop where
  valid : a.Valid
  has_eq (slot : Slot) : a.has slot = earlier.any (·.fills slot)

variable {earlier : List Setup}

theorem tracks_start (env : Environment) : Tracks [] (.start env) := by
  refine ⟨nofun, fun slot => ?_⟩
  cases slot <;> rfl

theorem Tracks.logs {b : Ambient} (h : Tracks earlier a) (hlogs : a.Logs b) : Tracks earlier b where
  valid p hp := h.valid p (hlogs.preferences.symm.trans hp)
  has_eq slot := (hlogs.has_eq slot).trans (h.has_eq slot)

theorem keeps_run (c : Setup) (a : Ambient) : a.Keeps (c.run a).2 := by
  rw [run_eq]
  split
  · exact .refl a
  · split
    · exact .refl a
    · exact keeps_install (by simp_all)

/-- A call has the outcome that it has after the earlier calls. -/
theorem Tracks.run (h : Tracks earlier a) (c : Setup) :
    (c.run a).1 = c.outcome earlier ∧ Tracks (earlier ++ [c]) (c.run a).2 := by
  have hrefused (hfills : ∀ slot, (a.has slot || c.fills slot) = a.has slot) :
      Tracks (earlier ++ [c]) a := by
    refine ⟨h.valid, fun slot => ?_⟩
    rw [any_fills_concat, ← h.has_eq, hfills]
  rw [run_eq, checkIn_eq h.valid, outcome, h.has_eq]
  cases hcheck : c.check with
  | error e =>
    refine ⟨rfl, hrefused fun slot => ?_⟩
    simp [fills, hcheck, Except.isOk, Except.toBool]
  | ok =>
    have hfills (slot : Slot) : c.fills slot = decide (c.slot = slot) := by
      simp [fills, hcheck, Except.isOk, Except.toBool]
    dsimp only
    split
    case isTrue htaken =>
      refine ⟨rfl, hrefused fun slot => ?_⟩
      rw [hfills, h.has_eq]
      by_cases hslot : c.slot = slot
      · rw [← hslot, htaken, Bool.true_or]
      · rw [decide_eq_false hslot, Bool.or_false]
    case isFalse hfree =>
      refine ⟨rfl, valid_install h.valid hcheck, fun slot => ?_⟩
      show (c.install a).has slot = _
      rw [has_install, any_fills_concat, h.has_eq, hfills]

/-- Makes a call and notes its outcome. -/
def perform (c : Setup) (a : Ambient) : (Setup × Except SetupError Unit) × Ambient :=
  ((c, (c.run a).1), (c.run a).2)

end Setup

/-! ## Acts -/

namespace Act

variable {κ ρ : Type}

mutual

/-- The calls in an act, in order. -/
def calls : Act κ → List κ
  | .scope _ body => callsAll body
  | .own _ body => callsAll body
  | .inSource _ body => callsAll body
  | .call c => [c]
  | .setSource _ | .clearSource | .getSource | .report _ | .reportError .. => []

/-- The calls in acts, in order. -/
def callsAll : List (Act κ) → List κ
  | [] => []
  | act :: acts => calls act ++ callsAll acts

end

mutual

/-- The answers to the calls in an act, in order. -/
def Reply.results : Reply ρ → List ρ
  | .scope replies => resultsAll replies
  | .inSource replies => resultsAll replies
  | .call r => [r]
  | .done | .name _ => []

/-- The answers to the calls in acts, in order. -/
def resultsAll : List (Reply ρ) → List ρ
  | [] => []
  | reply :: replies => Reply.results reply ++ resultsAll replies

end

/-- What the calls in acts come to, which lead to some surroundings: their outcomes are those of the
calls on their own, after the earlier calls. -/
structure Sets (earlier calls : List Setup) (results : List (Setup × Except SetupError Unit))
    (b : Ambient) : Prop where
  results_eq : results = Setup.outcomes earlier calls
  tracks : Setup.Tracks (earlier ++ calls) b

variable {earlier : List Setup} {a : Ambient}

theorem sets_of_logs {b : Ambient} (h : Setup.Tracks earlier a) (hlogs : a.Logs b) :
    Sets earlier [] [] b := by
  refine ⟨rfl, ?_⟩
  rw [List.append_nil]
  exact h.logs hlogs

theorem Sets.append {cs ds : List Setup} {r t : List (Setup × Except SetupError Unit)}
    {b c : Ambient} (hfirst : Sets earlier cs r b) (hlater : Sets (earlier ++ cs) ds t c) :
    Sets earlier (cs ++ ds) (r ++ t) c := by
  refine ⟨?_, ?_⟩
  · rw [hfirst.results_eq, hlater.results_eq, Setup.outcomes_append]
  · rw [← List.append_assoc]
    exact hlater.tracks

mutual

/-- The calls in an act have the outcomes that they have on their own. -/
theorem sets_run {earlier : List Setup} {a : Ambient} (h : Setup.Tracks earlier a)
    (act : Act Setup) :
    Sets earlier act.calls (act.run Setup.perform a).1.results (act.run Setup.perform a).2 := by
  cases act with
  | scope place body =>
    have hbody := sets_runAll (a := { a with scope := some place }) ⟨h.valid, h.has_eq⟩ body
    exact ⟨hbody.results_eq, hbody.tracks.valid, hbody.tracks.has_eq⟩
  | own service body =>
    have hmade := h.logs (a.logs_make service)
    have hbody := sets_runAll (a := { a.make service with scope := some a.services.size })
      ⟨hmade.valid, hmade.has_eq⟩ body
    exact ⟨hbody.results_eq, hbody.tracks.valid, hbody.tracks.has_eq⟩
  | inSource name body =>
    have hbody := sets_runAll (a := { a with source := some name }) ⟨h.valid, h.has_eq⟩ body
    exact ⟨hbody.results_eq, hbody.tracks.valid, hbody.tracks.has_eq⟩
  | setSource | clearSource | getSource => exact sets_of_logs h ⟨rfl, rfl, .refl a⟩
  | report e => exact sets_of_logs h (a.logs_report e)
  | reportError code message => exact sets_of_logs h (a.logs_reportError code message)
  | call c =>
    obtain ⟨houtcome, htracks⟩ := h.run c
    exact ⟨congrArg (fun outcome => [(c, outcome)]) houtcome, htracks⟩

/-- The calls in acts have the outcomes that they have on their own. -/
theorem sets_runAll {earlier : List Setup} {a : Ambient} (h : Setup.Tracks earlier a)
    (acts : List (Act Setup)) :
    Sets earlier (callsAll acts) (resultsAll (runAll Setup.perform a acts).1)
      (runAll Setup.perform a acts).2 := by
  cases acts with
  | nil => exact sets_of_logs h ⟨rfl, rfl, .refl a⟩
  | cons act acts =>
    have hfirst := sets_run h act
    exact hfirst.append (sets_runAll hfirst.tracks acts)

end

mutual

/-- What is installed stays installed while an act is done. -/
theorem keeps_run (a : Ambient) (act : Act Setup) : a.Keeps (act.run Setup.perform a).2 := by
  cases act with
  | scope place body =>
    obtain ⟨hpreferences, hprocess, hservices⟩ := keeps_runAll { a with scope := some place } body
    exact ⟨hpreferences, hprocess, hservices⟩
  | own service body =>
    obtain ⟨hpreferences, hprocess, hservices⟩ :=
      keeps_runAll { a.make service with scope := some a.services.size } body
    exact (a.logs_make service).keeps.trans ⟨hpreferences, hprocess, hservices⟩
  | inSource name body =>
    obtain ⟨hpreferences, hprocess, hservices⟩ := keeps_runAll { a with source := some name } body
    exact ⟨hpreferences, hprocess, hservices⟩
  | setSource | clearSource | getSource => exact ⟨fun p hp => hp, fun place h => h, .refl a⟩
  | report e => exact (a.logs_report e).keeps
  | reportError code message => exact (a.logs_reportError code message).keeps
  | call c => exact c.keeps_run a

/-- What is installed stays installed while acts are done. -/
theorem keeps_runAll (a : Ambient) (acts : List (Act Setup)) :
    a.Keeps (runAll Setup.perform a acts).2 := by
  cases acts with
  | nil => exact .refl a
  | cons act acts => exact (keeps_run a act).trans (keeps_runAll (run Setup.perform a act).2 acts)

end

end Act

/-! ## Processes -/

/-- What holds of the calls that set up logging in a process that does some acts. -/
structure InstalledOnce (env : Environment) (acts : List (Act Setup)) : Prop where
  /-- A call fails if it is not valid, or if an earlier valid call was about the same slot, and it
  succeeds otherwise. -/
  results : Act.resultsAll (Act.runAll Setup.perform (.start env) acts).1 =
    Setup.outcomes [] (Act.callsAll acts)
  /-- At most one call installs preferences, and at most one installs a service. -/
  once (slot : Slot) :
    (Act.resultsAll (Act.runAll Setup.perform (.start env) acts).1).countP (Setup.filled slot) ≤ 1
  /-- The next call succeeds unless it is not valid, or a valid call was about the same slot. -/
  next (c : Setup) : (c.run (Act.runAll Setup.perform (.start env) acts).2).1 = .ok () ↔
    c.check = .ok () ∧ ∀ d ∈ Act.callsAll acts, d.fills c.slot = false
  /-- A call that fails changes nothing, wherever it is made. -/
  failed (c : Setup) (a : Ambient) (e : SetupError) : (c.run a).1 = .error e → (c.run a).2 = a
  /-- Whatever is done, installed preferences stay as they are, and the installed service stays the
  same one, with its level, and changes by the events that it receives alone. -/
  keeps (a : Ambient) (later : List (Act Setup)) : a.Keeps (Act.runAll Setup.perform a later).2
  /-- If the service that the preferences ask for is installed, then its level is the floor or
  higher, whatever is preferred, and stays so: events up to the floor pass. -/
  floor_le (a : Ambient) : (Setup.configured.run a).1 = .ok () →
    ∃ s, (Setup.configured.run a).2.global = some s ∧ Ambient.floor ≤ s.minLevel ∧
      ∀ later, ∃ es, (Act.runAll Setup.perform (Setup.configured.run a).2 later).2.global =
          some (s.after es) ∧
        ∀ e : Event, e.level ≤ Ambient.floor → (s.after es).shouldLog e.level = true

theorem Setup.global_run_configured {a : Ambient} (h : (Setup.configured.run a).1 = .ok ()) :
    ∃ es, (Setup.configured.run a).2.global =
      some ((⟨a.minLevel, a.configuredLogger⟩ : Service).after es) := by
  have hinstall : (Setup.configured.run a).2 = configured.install a := by
    rw [run_eq] at h ⊢
    split at h
    · nomatch h
    · split at h
      · nomatch h
      · next hfree => rw [if_neg hfree]
  have hglobal : (installing ⟨a.minLevel, a.configuredLogger⟩ a).global =
      some ⟨a.minLevel, a.configuredLogger⟩ := Array.getElem?_push_size
  rw [hinstall]
  exact (Ambient.logs_logGlobally _ _).keeps.global hglobal

/-- Logging is set up once, wherever the calls stand among what a process does. -/
theorem Act.installedOnce_runAll (env : Environment) (acts : List (Act Setup)) :
    InstalledOnce env acts := by
  have hsets := Act.sets_runAll (Setup.tracks_start env) acts
  refine ⟨hsets.results_eq, fun slot => ?_, fun c => ?_, fun c a e => Setup.snd_run_of_error,
    Act.keeps_runAll, fun a hok => ?_⟩
  · rw [hsets.results_eq]
    exact Nat.le_trans (Nat.le_add_right _ _) (Setup.countP_filled_outcomes slot [] _)
  · rw [(hsets.tracks.run c).1]
    exact Setup.outcome_eq_ok_iff
  · obtain ⟨es, hes⟩ := Setup.global_run_configured hok
    refine ⟨_, hes, Level.le_max_right _ _, fun later => ?_⟩
    obtain ⟨fs, hfs⟩ := (Act.keeps_runAll (Setup.configured.run a).2 later).global hes
    exact ⟨fs, hfs, fun e he => decide_eq_true (Level.le_trans he (Level.le_max_right _ _))⟩

end RobotScript.Log
