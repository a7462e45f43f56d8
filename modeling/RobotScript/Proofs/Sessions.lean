import RobotScript.Proofs.Installation
import RobotScript.Session

/-!
# Sessions as acts

The steps of a session are acts: what a table or a lexer reports is reported event by event, and
logging is set up by calls. Only steps that hand an event to a sink of their own, and not to the
surroundings, are none.

Results:

* `Step.snd_run_eq`, `Step.snd_runAll_eq`: steps leave behind what their acts leave behind.
* `Step.snd_runAll_eq_outcome`, `Step.keeps_runAll`: what this says of sessions that do not set up
  logging, and of those that do.
-/

namespace RobotScript

open Log

/-! ## The environment -/

namespace Log.Ambient

theorem environment_logGlobally (e : Event) (a : Ambient) :
    (a.logGlobally e).environment = a.environment := by
  unfold logGlobally
  split
  · rw [send_eq_handTo]
    rfl
  · rfl

end Log.Ambient

/-! ## Calls among acts -/

namespace Log.Act

section

variable {κ ρ : Type} {perform : κ → Ambient → ρ × Ambient}

/-- Some of the calls that set up logging are calls of a type `κ`. -/
structure Performs (perform : κ → Ambient → ρ × Ambient) (call : Setup → Option κ) : Prop where
  snd_eq : ∀ c k a, call c = some k → (perform k a).2 = (c.run a).2
  environment_eq : ∀ k a, (perform k a).2.environment = a.environment

mutual

theorem environment_run (h : ∀ k a, (perform k a).2.environment = a.environment) (a : Ambient)
    (act : Act κ) : (act.run perform a).2.environment = a.environment := by
  cases act with
  | scope place body => exact environment_runAll h { a with scope := some place } body
  | own service body =>
    exact environment_runAll h { a.make service with scope := some a.services.size } body
  | inSource name body => exact environment_runAll h { a with source := some name } body
  | setSource | clearSource | getSource => rfl
  | report e =>
    show (a.report e).environment = a.environment
    rw [Ambient.report_eq_hand, Ambient.environment_hand]
  | reportError code message =>
    show (a.reportError code message).environment = a.environment
    unfold Ambient.reportError
    split
    · rw [Ambient.dispatch_eq_hand, Ambient.environment_hand]
    · rfl
  | call k => exact h k a

/-- Acts do not change the environment if calls do not. -/
theorem environment_runAll (h : ∀ k a, (perform k a).2.environment = a.environment) (a : Ambient)
    (acts : List (Act κ)) : (runAll perform a acts).2.environment = a.environment := by
  cases acts with
  | nil => rfl
  | cons act acts =>
    exact (environment_runAll h (run perform a act).2 acts).trans (environment_run h a act)

end

theorem snd_runAll_append (perform : κ → Ambient → ρ × Ambient) (a : Ambient)
    (acts later : List (Act κ)) :
    (runAll perform a (acts ++ later)).2 = (runAll perform (runAll perform a acts).2 later).2 := by
  induction acts generalizing a with
  | nil => rfl
  | cons act acts ih => exact ih (run perform a act).2

theorem snd_runAll_report (perform : κ → Ambient → ρ × Ambient) (a : Ambient) (es : List Event) :
    (runAll perform a (es.map .report)).2 = a.reportAll es := by
  induction es generalizing a with
  | nil => rfl
  | cons e es ih => exact ih (a.report e)

end

/-- No call that sets up logging. -/
theorem performs_none (perform : Empty → Ambient → Empty × Ambient) :
    Performs perform fun _ => none where
  snd_eq _ k := k.elim
  environment_eq k := k.elim

/-- All calls that set up logging. -/
theorem performs_some : Performs Setup.perform some where
  snd_eq c k a h := by
    obtain rfl := Option.some.inj h
    rfl
  environment_eq c a := by
    show (c.run a).2.environment = a.environment
    rw [Setup.run_eq]
    split
    · rfl
    · split
      · rfl
      · cases c with
        | preferences | service | newService => rfl
        | configured =>
          show (Ambient.logGlobally _ (Setup.installing _ a)).environment = a.environment
          rw [Ambient.environment_logGlobally]
          rfl

end Log.Act

/-! ## Steps -/

namespace Step

section

variable {κ : Type} (call : Setup → Option κ)

mutual

/-- What a step does in its surroundings, with the calls that it makes to set up logging, unless it
goes around the surroundings. -/
def acts? (elapsed : Nat) (env : Environment) : Step → Option (List (Act κ))
  | .scope level body => (actsAll? elapsed env body).map fun acts =>
    [.own (.ofMemory level (.empty Limits.built.logBuffer)) acts]
  | .inSource name body => (actsAll? elapsed env body).map fun acts => [.inSource name acts]
  | .setSource name => some [.setSource name]
  | .clearSource => some [.clearSource]
  | .getSource => some [.getSource]
  | .report e => some [.report e]
  | .reportError code message => some [.reportError code message]
  | .define name value =>
    some (((Constant.Table.withLimit 1).define name value).2.2.map .report)
  | .tokenize source =>
    some (((Lexer.standard (.ofEnvironment env)).tokenize elapsed source).2.2.map .report)
  | .debugEnabled | .settings | .summary | .isInstalled => some []
  | .installPreferences preferences =>
    match LoggingPreferences.ofJson? (.ofEnvironment env) preferences with
    | none => some []
    | some p => (call (.preferences p)).map fun k => [.call k]
  | .installConfigured => (call .configured).map fun k => [.call k]
  | .installMemory level =>
    (call (.newService (.ofMemory level (.empty Limits.built.logBuffer)))).map fun k => [.call k]
  | .send .. | .sendConfigured _ | .sendConfiguredLogger _ => none

/-- What steps do in their surroundings, one after the other. -/
def actsAll? (elapsed : Nat) (env : Environment) : List Step → Option (List (Act κ))
  | [] => some []
  | step :: steps => do return (← acts? elapsed env step) ++ (← actsAll? elapsed env steps)

end

end

variable {κ ρ : Type} {perform : κ → Ambient → ρ × Ambient} {call : Setup → Option κ}

/-- A call among steps. -/
theorem snd_runAll_of_call (h : Act.Performs perform call) {a : Ambient} {c : Setup}
    {acts : List (Act κ)} (hacts : (call c).map (fun k => [.call k]) = some acts) :
    (Act.runAll perform a acts).2 = (c.run a).2 := by
  obtain ⟨k, hk, rfl⟩ := Option.map_eq_some_iff.1 hacts
  exact h.snd_eq c k a hk

mutual

/-- A step of a session leaves behind what its acts leave behind. -/
theorem snd_run_eq (hperform : Act.Performs perform call) {elapsed : Nat} {a : Ambient}
    {step : Step} {acts : List (Act κ)} (h : step.acts? call elapsed a.environment = some acts) :
    (step.run elapsed a).2 = (Act.runAll perform a acts).2 := by
  cases step with
  | scope level body =>
    obtain ⟨inner, hinner, rfl⟩ := Option.map_eq_some_iff.1 h
    let own : Service := .ofMemory level (.empty Limits.built.logBuffer)
    have hbody := snd_runAll_eq hperform
      (a := { a.make own with scope := some a.services.size }) hinner
    exact congrArg (fun b : Ambient => { b with scope := a.scope }) hbody
  | inSource name body =>
    obtain ⟨inner, hinner, rfl⟩ := Option.map_eq_some_iff.1 h
    have hbody := snd_runAll_eq hperform (a := { a with source := some name }) hinner
    exact congrArg (fun b : Ambient => { b with source := a.source }) hbody
  | define name value =>
    obtain rfl := Option.some.inj h
    exact (Act.snd_runAll_report perform a _).symm
  | tokenize source =>
    obtain rfl := Option.some.inj h
    exact (Act.snd_runAll_report perform a _).symm
  | setSource | clearSource | getSource | report | reportError | debugEnabled | settings | summary
  | isInstalled =>
    obtain rfl := Option.some.inj h
    rfl
  | installPreferences preferences =>
    rw [acts?] at h
    rw [run]
    cases hp : LoggingPreferences.ofJson? (.ofEnvironment a.environment) preferences with
    | none =>
      rw [hp] at h
      obtain rfl := Option.some.inj h
      rfl
    | some p =>
      rw [hp] at h
      exact (snd_runAll_of_call hperform h).symm
  | installConfigured => exact (snd_runAll_of_call hperform h).symm
  | installMemory level => exact (snd_runAll_of_call hperform h).symm
  | send | sendConfigured | sendConfiguredLogger => nomatch h

/-- Steps of a session leave behind what their acts leave behind. -/
theorem snd_runAll_eq (hperform : Act.Performs perform call) {elapsed : Nat} {a : Ambient}
    {steps : List Step} {acts : List (Act κ)}
    (h : actsAll? call elapsed a.environment steps = some acts) :
    (runAll elapsed a steps).2 = (Act.runAll perform a acts).2 := by
  cases steps with
  | nil =>
    obtain rfl := Option.some.inj h
    rfl
  | cons step steps =>
    obtain ⟨first, hfirst, h⟩ := Option.bind_eq_some_iff.1 h
    obtain ⟨later, hlater, h⟩ := Option.bind_eq_some_iff.1 h
    obtain rfl := Option.some.inj h
    have hstep := snd_run_eq hperform hfirst
    have henv : (run elapsed a step).2.environment = a.environment := by
      rw [hstep]
      exact Act.environment_runAll hperform.environment_eq a first
    rw [Act.snd_runAll_append, ← hstep]
    show (runAll elapsed (run elapsed a step).2 steps).2 = _
    exact snd_runAll_eq hperform (by rwa [henv])

end

/-- A session that does not set up logging leaves behind what the account of its acts says. -/
theorem snd_runAll_eq_outcome {elapsed : Nat} {a : Ambient} {steps : List Step}
    {acts : List (Act Empty)}
    (h : actsAll? (fun _ => none) elapsed a.environment steps = some acts) :
    (runAll elapsed a steps).2 =
      ((Act.accountAll a.prepareIn a.services a.receiver a.source acts).outcome a).2 := by
  let perform (k : Empty) (_ : Ambient) : Empty × Ambient := k.elim
  rw [snd_runAll_eq (Act.performs_none perform) h]
  exact congrArg Prod.snd (Act.runAll_eq_outcome perform a acts)

/-- What is installed stays installed during a session. -/
theorem keeps_runAll {elapsed : Nat} {a : Ambient} {steps : List Step} {acts : List (Act Setup)}
    (h : actsAll? some elapsed a.environment steps = some acts) :
    a.Keeps (runAll elapsed a steps).2 := by
  rw [snd_runAll_eq Act.performs_some h]
  exact Act.keeps_runAll a acts

end Step

end RobotScript
