import Mathlib.Data.List.Basic
import RobotScript.Proofs.Delivery

/-!
# Nested scopes and source contexts

What is done in surroundings is a tree: scopes and source contexts stand around further acts. A run
goes through the tree, and changes and restores the surroundings on the way. An account of the tree
needs no surroundings: the service that an event goes to is that of the innermost scope around it,
and the source in force is the one that was named last, where what a source context names ends with
the context, and what a scope names does not end with the scope. A run does what the account says.

Services are shared: several scopes may be over the same one, one inside the other or not, and it
may be that of the process too. Then it receives the events of all of them, in order.

Results:

* `Log.Act.accountAll_services`: the services that an account speaks of.
* `Log.Act.run_eq`, `Log.Act.runAll_eq`: what acts answer, and the surroundings afterwards.
* `Log.Act.runAll_nested`: where events go, and what scopes and source contexts restore.
-/

namespace RobotScript.Log

/-! ## Acts -/

/-- Something that is done in surroundings. Calls of a type `κ` may stand among the acts. -/
inductive Act (κ : Type) where
  /-- Acts with their events going to the service at a place. -/
  | scope (place : Nat) (body : List (Act κ))
  /-- Acts with their events going to a new service. -/
  | own (service : Service) (body : List (Act κ))
  /-- Acts while a source is processed. -/
  | inSource (name : String) (body : List (Act κ))
  | setSource (name : String)
  | clearSource
  | getSource
  | report (e : Event)
  /-- Report an error even if nothing receives events. -/
  | reportError (code : Code) (message : String)
  | call (c : κ)

namespace Act

/-- The answer to an act, where calls have answers of a type `ρ`. -/
inductive Reply (ρ : Type) where
  | done
  | name (source : Option String)
  /-- The answers in a scope. -/
  | scope (replies : List (Reply ρ))
  | inSource (replies : List (Reply ρ))
  | call (r : ρ)

section

variable {κ ρ : Type} (perform : κ → Ambient → ρ × Ambient)

mutual

/-- Does something: the answer and the surroundings afterwards. -/
def run (a : Ambient) : Act κ → Reply ρ × Ambient
  | .scope place body =>
    let (replies, a) := a.withService place fun a => runAll a body
    (.scope replies, a)
  | .own service body =>
    let (replies, a) := a.withNew service fun a => runAll a body
    (.scope replies, a)
  | .inSource name body =>
    let (replies, a) := a.withSource name fun a => runAll a body
    (.inSource replies, a)
  | .setSource name => (.done, { a with source := some name })
  | .clearSource => (.done, { a with source := none })
  | .getSource => (.name a.source, a)
  | .report e => (.done, a.report e)
  | .reportError code message => (.done, a.reportError code message)
  | .call c =>
    let (r, a) := perform c a
    (.call r, a)

/-- Does things in order: the answers and the surroundings afterwards. -/
def runAll (a : Ambient) : List (Act κ) → List (Reply ρ) × Ambient
  | [] => ([], a)
  | act :: acts =>
    let (reply, a) := run a act
    let (replies, a) := runAll a acts
    (reply :: replies, a)

end

end

/-! ## Accounts -/

/-- An event that is logged among acts. -/
structure Logged where
  /-- The place of the service that it goes to, if there is one. -/
  place : Option Nat
  /-- The event with the name of the source in force. -/
  event : Event
  /-- What is written if there is no service. -/
  otherwise : List Output

namespace Logged

/-- The events that the service at a place receives. -/
def received (place : Nat) (ls : List Logged) : List Event :=
  (ls.filter fun l => l.place = some place).map (·.event)

/-- What is written for the event. -/
def written (services : Array Service) (l : Logged) : List Output :=
  match l.place.bind (services[·]?) with
  | some s => s.written [l.event]
  | none => l.otherwise

/-- The events go to services at places below `n`. -/
def Within (n : Nat) (ls : List Logged) : Prop := ∀ l ∈ ls, ∀ place ∈ l.place, place < n

variable {n : Nat} {ls : List Logged}

theorem received_concat (place : Nat) (ls : List Logged) (l : Logged) :
    received place (ls ++ [l]) =
      received place ls ++ if l.place = some place then [l.event] else [] := by
  rw [received, List.filter_append, List.map_append]
  refine congrArg (received place ls ++ ·) ?_
  by_cases hplace : l.place = some place
  · simp [hplace]
  · simp [hplace]

theorem Within.append {ms : List Logged} (h : Within n ls) (h' : Within n ms) :
    Within n (ls ++ ms) :=
  fun l hl => (List.mem_append.1 hl).elim (h l) (h' l)

theorem Within.mono {m : Nat} (h : Within n ls) (hle : n ≤ m) : Within m ls :=
  fun l hl place hplace => Nat.lt_of_lt_of_le (h l hl place hplace) hle

/-- A service that is yet to be made has received nothing. -/
theorem Within.received_eq_nil (h : Within n ls) : received n ls = [] := by
  rw [received, List.map_eq_nil_iff, List.filter_eq_nil_iff]
  intro l hl hplace
  exact Nat.lt_irrefl n (h l hl n (by simpa using hplace))

/-- And it changes nothing about what has been written. -/
theorem Within.flatMap_written_push {services : Array Service} (h : Within services.size ls)
    (service : Service) :
    ls.flatMap (written (services.push service)) = ls.flatMap (written services) := by
  refine List.flatMap_congr fun l hl => ?_
  unfold written
  cases hplace : l.place with
  | none => rfl
  | some place =>
    have hlt := h l hl place hplace
    rw [Option.bind_some, Option.bind_some, Array.getElem?_push, if_neg (Nat.ne_of_lt hlt)]

end Logged

/-- What acts come to, without regard to surroundings: the answers, all services with those that the
acts have made, as they were made, the events that are logged, in order, and the source in force
afterwards. -/
structure Account (α : Type) where
  answer : α
  services : Array Service
  logged : List Logged
  source : Option String

section

variable (prepare : Option String → Event → Event)

mutual

/-- The account of an act, with the services that have been made before it, the place of the one
that receives events, and the source in force. -/
def account (services : Array Service) (receiver : Option Nat) (source : Option String) :
    Act Empty → Account (Reply Empty)
  | .scope place body =>
    let inner := accountAll services (some place) source body
    ⟨.scope inner.answer, inner.services, inner.logged, inner.source⟩
  | .own service body =>
    let inner := accountAll (services.push service) (some services.size) source body
    ⟨.scope inner.answer, inner.services, inner.logged, inner.source⟩
  | .inSource name body =>
    let inner := accountAll services receiver (some name) body
    ⟨.inSource inner.answer, inner.services, inner.logged, source⟩
  | .setSource name => ⟨.done, services, [], some name⟩
  | .clearSource => ⟨.done, services, [], none⟩
  | .getSource => ⟨.name source, services, [], source⟩
  | .report e =>
    ⟨.done, services, [⟨receiver.filter (· < services.size), prepare source e, []⟩], source⟩
  | .reportError code message =>
    ⟨.done, services,
      [⟨receiver.filter (· < services.size), prepare source (.error code message),
        [.line ("[ERROR] FALLBACK: [" ++ code.name ++ "] " ++ message)]⟩], source⟩

/-- The account of acts in order. -/
def accountAll (services : Array Service) (receiver : Option Nat) (source : Option String) :
    List (Act Empty) → Account (List (Reply Empty))
  | [] => ⟨[], services, [], source⟩
  | act :: acts =>
    let first := account services receiver source act
    let later := accountAll first.services receiver first.source acts
    ⟨first.answer :: later.answer, later.services, first.logged ++ later.logged, later.source⟩

end

end

end Act

/-! ## What a run leaves behind -/

namespace Ambient

open Act (Logged)

/-- An event prepared with the name of a source. -/
def prepareIn (a : Ambient) (source : Option String) (e : Event) : Event :=
  { a with source }.prepare e

/-- The surroundings with services that have received the events that were logged since they were
made, and after these have been written, while a source is processed. -/
def following (a : Ambient) (services : Array Service) (ls : List Logged)
    (source : Option String) : Ambient :=
  { a with
    services := services.mapIdx fun place s => s.after (Logged.received place ls)
    source
    output := a.output ++ ls.flatMap (Logged.written services) }

variable {a : Ambient} {services : Array Service} {ls : List Logged} {source : Option String}

theorem following_nil (a : Ambient) (source : Option String) :
    a.following a.services [] source = { a with source } := by
  have hservices : a.services.mapIdx (fun place s => s.after (Logged.received place [])) =
      a.services := by
    refine Array.ext_getElem? fun i => ?_
    rw [Array.getElem?_mapIdx]
    exact Option.map_id'
  have houtput : a.output ++ [].flatMap (Logged.written a.services) = a.output := by simp
  rw [following, hservices, houtput]

/-- A service is made. -/
theorem make_following (h : Logged.Within services.size ls) (service : Service) :
    (a.following services ls source).make service =
      a.following (services.push service) ls source := by
  unfold following make
  rw [Array.mapIdx_push, h.received_eq_nil, h.flatMap_written_push, Service.after_nil]

theorem current_following :
    (a.following services ls source).current =
      a.receiver.bind fun place =>
        services[place]?.map fun s => s.after (Logged.received place ls) := by
  have hreceiver : (a.following services ls source).receiver = a.receiver := rfl
  rw [current, hreceiver]
  refine congrArg a.receiver.bind (funext fun place => ?_)
  exact Array.getElem?_mapIdx

/-- What is written after something else. -/
theorem output_concat (services : Array Service) (ls : List Logged) (l : Logged) :
    a.output ++ (ls ++ [l]).flatMap (Logged.written services) =
      a.output ++ ls.flatMap (Logged.written services) ++ l.written services := by
  rw [List.flatMap_append, List.flatMap_singleton]
  exact Array.ext' (by simp)

/-- An event is handed to the service that receives events. -/
theorem hand_following {place : Nat} {s : Service} (hplace : a.receiver = some place)
    (hs : services[place]? = some s) (e : Event) (otherwise : List Output) :
    (a.following services ls source).hand [e] =
      a.following services (ls ++ [⟨some place, e, otherwise⟩]) source := by
  have hreceiver : (a.following services ls source).receiver = some place := hplace
  have hservices : ((a.following services ls source).receiving place [e]).services =
      services.mapIdx fun i s =>
        s.after (Logged.received i (ls ++ [⟨some place, e, otherwise⟩])) := by
    refine Array.ext_getElem? fun i => ?_
    have hbefore : (a.following services ls source).services[i]? =
        services[i]?.map fun s => s.after (Logged.received i ls) := Array.getElem?_mapIdx
    rw [getElem?_services_receiving, hbefore, Array.getElem?_mapIdx, Logged.received_concat]
    by_cases hi : place = i
    · subst hi
      rw [if_pos rfl, if_pos rfl, Option.map_map]
      exact congrArg (Option.map · services[place]?) (funext fun s => (s.after_append _ [e]).symm)
    · rw [if_neg hi, if_neg fun h => hi (Option.some.inj h), List.append_nil]
  have hwritten : (a.following services ls source).written place [e] =
      Logged.written services ⟨some place, e, otherwise⟩ := by
    have hafter : (a.following services ls source).services[place]? =
        some (s.after (Logged.received place ls)) := by
      rw [following, Array.getElem?_mapIdx, hs, Option.map_some]
    rw [written_of_getElem? hafter, Logged.written, Option.bind_some, hs]
    exact s.written_after _ [e]
  have hhand : (a.following services ls source).hand [e] =
      (a.following services ls source).handTo place [e] := by
    rw [hand, hreceiver]
  rw [hhand, handTo, hwritten]
  nth_rewrite 2 [following]
  rw [output_concat, ← hservices]
  rfl

/-- Nothing receives events, and something is written otherwise. -/
theorem write_following (e : Event) (otherwise : List Output) :
    (a.following services ls source).write otherwise =
      a.following services (ls ++ [⟨none, e, otherwise⟩]) source := by
  have hservices : (services.mapIdx fun i s =>
      s.after (Logged.received i (ls ++ [⟨none, e, otherwise⟩]))) =
      services.mapIdx fun i s => s.after (Logged.received i ls) := by
    refine congrArg services.mapIdx (funext fun i => funext fun s => ?_)
    rw [Logged.received_concat, if_neg (Option.some_ne_none i).symm, List.append_nil]
  nth_rewrite 2 [following]
  rw [output_concat, hservices]
  rfl

/-- An event is logged: the service that receives events is handed it, and if there is none,
something is written otherwise. -/
theorem following_concat (e : Event) (otherwise : List Output) :
    a.following services
        (ls ++ [⟨a.receiver.filter (· < services.size), e, otherwise⟩]) source =
      if (a.following services ls source).current.isSome then
        (a.following services ls source).hand [e]
      else (a.following services ls source).write otherwise := by
  rw [current_following]
  cases hplace : a.receiver with
  | none =>
    rw [Option.bind_none, Option.isSome_none, if_neg Bool.false_ne_true]
    exact (write_following e otherwise).symm
  | some place =>
    by_cases hlt : place < services.size
    · have hs : services[place]? = some services[place] := Array.getElem?_eq_getElem hlt
      have hfilter : (some place).filter (· < services.size) = some place :=
        Option.filter_some_pos (by simpa using hlt)
      rw [hfilter, Option.bind_some, hs, Option.map_some, Option.isSome_some, if_pos rfl]
      exact (hand_following hplace hs e otherwise).symm
    · have hs : services[place]? = none := Array.getElem?_eq_none (Nat.le_of_not_lt hlt)
      have hfilter : (some place).filter (· < services.size) = none :=
        Option.filter_some_neg (by simpa using hlt)
      rw [hfilter, Option.bind_some, hs, Option.map_none, Option.isSome_none,
        if_neg Bool.false_ne_true]
      exact (write_following e otherwise).symm

end Ambient

namespace Act

section

variable (prepare : Option String → Event → Event)

mutual

/-- The services that an account ends with are those that it starts with and new ones, and it speaks
of no others. -/
theorem account_services (services : Array Service) (receiver : Option Nat)
    (source : Option String) (act : Act Empty) :
    (∃ made, (account prepare services receiver source act).services = services ++ made) ∧
      Logged.Within (account prepare services receiver source act).services.size
        (account prepare services receiver source act).logged := by
  cases act with
  | scope place body => exact accountAll_services services (some place) source body
  | own service body =>
    obtain ⟨⟨made, hmade⟩, hwithin⟩ :=
      accountAll_services (services.push service) (some services.size) source body
    rw [Array.push_eq_append, Array.append_assoc] at hmade
    exact ⟨⟨_, hmade⟩, hwithin⟩
  | inSource name body => exact accountAll_services services receiver (some name) body
  | setSource | clearSource | getSource => exact ⟨⟨#[], Array.append_empty.symm⟩, nofun⟩
  | report | reportError =>
    refine ⟨⟨#[], Array.append_empty.symm⟩, fun l hl place hplace => ?_⟩
    obtain rfl := List.mem_singleton.1 hl
    exact of_decide_eq_true (Option.mem_filter_iff.1 hplace).2
  | call c => exact c.elim

theorem accountAll_services (services : Array Service) (receiver : Option Nat)
    (source : Option String) (acts : List (Act Empty)) :
    (∃ made, (accountAll prepare services receiver source acts).services = services ++ made) ∧
      Logged.Within (accountAll prepare services receiver source acts).services.size
        (accountAll prepare services receiver source acts).logged := by
  cases acts with
  | nil => exact ⟨⟨#[], Array.append_empty.symm⟩, nofun⟩
  | cons act acts =>
    obtain ⟨⟨made, hmade⟩, hwithin⟩ := account_services services receiver source act
    obtain ⟨⟨later, hlater⟩, hwithin'⟩ :=
      accountAll_services (account prepare services receiver source act).services receiver
        (account prepare services receiver source act).source acts
    have hle := congrArg Array.size hlater
    rw [Array.size_append] at hle
    refine ⟨⟨made ++ later, ?_⟩, (hwithin.mono (hle ▸ Nat.le_add_right _ _)).append hwithin'⟩
    rw [← Array.append_assoc, ← hmade]
    exact hlater

end

end

namespace Account

variable {α : Type} {account : Account α} {a b : Ambient} {ls : List Logged}
  {body : Ambient → α × Ambient}

/-- The answer in an account, and the surroundings that it leads to from given ones after events
have been logged. -/
def outcomeAfter (account : Account α) (ls : List Logged) (a : Ambient) : α × Ambient :=
  (account.answer, a.following account.services (ls ++ account.logged) account.source)

/-- After a scope events go where they went before. What the scope named as the source stays in
force. -/
theorem withService_eq {place : Nat} (hscope : b.scope = a.scope)
    (h : body { b with scope := some place } =
      account.outcomeAfter ls { a with scope := some place }) :
    b.withService place body = account.outcomeAfter ls a := by
  rw [Ambient.withService, h, hscope]
  rfl

/-- What a source context named as the source is forgotten afterwards. -/
theorem withSource_eq {name : String}
    (h : body { b with source := some name } = account.outcomeAfter ls a) :
    b.withSource name body = outcomeAfter { account with source := b.source } ls a := by
  rw [Ambient.withSource, h]
  rfl

end Account

variable (perform : Empty → Ambient → Empty × Ambient)

mutual

/-- An act that follows others answers and leaves behind what its account says. -/
theorem run_eq (a : Ambient) {services : Array Service} {ls : List Logged}
    (h : Logged.Within services.size ls) (source : Option String) (act : Act Empty) :
    act.run perform (a.following services ls source) =
      (act.account a.prepareIn services a.receiver source).outcomeAfter ls a := by
  cases act with
  | scope place body =>
    have hbody := runAll_eq { a with scope := some place } h source body
    have hscope : (a.following services ls source).withService place
        (fun a => runAll perform a body) = Account.outcomeAfter _ ls a :=
      Account.withService_eq rfl hbody
    rw [run, hscope]
    rfl
  | own service body =>
    have hpush : Logged.Within (services.push service).size ls :=
      h.mono (Array.size_push service ▸ Nat.le_succ _)
    have hbody := runAll_eq { a with scope := some services.size } hpush source body
    have hsize : (a.following services ls source).services.size = services.size :=
      Array.size_mapIdx
    have hscope : (a.following (services.push service) ls source).withService services.size
        (fun a => runAll perform a body) = Account.outcomeAfter _ ls a :=
      Account.withService_eq rfl hbody
    rw [run, Ambient.withNew, Ambient.make_following h, hsize, hscope]
    rfl
  | inSource name body =>
    have hbody := runAll_eq a h (some name) body
    rw [run, Account.withSource_eq hbody]
    rfl
  | setSource | clearSource | getSource =>
    rw [account, Account.outcomeAfter, List.append_nil]
    rfl
  | report e =>
    rw [run, account, Account.outcomeAfter, Ambient.following_concat, Ambient.report_eq_hand]
    split
    · rfl
    · next hnone =>
      rw [Ambient.hand_of_current_eq_none (by simpa using hnone), Ambient.write_nil]
  | reportError code message =>
    rw [run, account, Account.outcomeAfter, Ambient.following_concat, Ambient.reportError,
      Ambient.dispatch_eq_hand]
    rfl
  | call c => exact c.elim

/-- Acts that follow others answer and leave behind what their account says. -/
theorem runAll_eq (a : Ambient) {services : Array Service} {ls : List Logged}
    (h : Logged.Within services.size ls) (source : Option String) (acts : List (Act Empty)) :
    runAll perform (a.following services ls source) acts =
      (accountAll a.prepareIn services a.receiver source acts).outcomeAfter ls a := by
  cases acts with
  | nil =>
    rw [accountAll, Account.outcomeAfter, List.append_nil]
    rfl
  | cons act acts =>
    obtain ⟨⟨made, hmade⟩, hwithin⟩ :=
      account_services a.prepareIn services a.receiver source act
    have hfirst := run_eq a h source act
    rw [runAll, accountAll]
    generalize account a.prepareIn services a.receiver source act = first at *
    have hle : services.size ≤ first.services.size := by
      rw [hmade, Array.size_append]
      exact Nat.le_add_right _ _
    have hlater := runAll_eq a ((h.mono hle).append hwithin) first.source acts
    rw [hfirst]
    unfold Account.outcomeAfter at *
    dsimp only
    rw [hlater, List.append_assoc]

end

/-- Acts lead from given surroundings to those that their account describes. -/
def Account.outcome {α : Type} (account : Account α) (a : Ambient) : α × Ambient :=
  (account.answer, a.following account.services account.logged account.source)

theorem runAll_eq_outcome (a : Ambient) (acts : List (Act Empty)) :
    runAll perform a acts =
      (accountAll a.prepareIn a.services a.receiver a.source acts).outcome a := by
  have hnone : Logged.Within a.services.size [] := nofun
  have hacts := runAll_eq perform a hnone a.source acts
  rwa [Ambient.following_nil] at hacts

/-- A service receives the events that an account sends to its place. -/
theorem services_runAll (a : Ambient) (acts : List (Act Empty)) {place : Nat} {s : Service}
    (hs : a.services[place]? = some s) :
    (runAll perform a acts).2.services[place]? = some (s.after (Logged.received place
      (accountAll a.prepareIn a.services a.receiver a.source acts).logged)) := by
  obtain ⟨⟨made, hmade⟩, -⟩ := accountAll_services a.prepareIn a.services a.receiver a.source acts
  obtain ⟨hlt, -⟩ := Array.getElem?_eq_some_iff.1 hs
  rw [runAll_eq_outcome]
  unfold Account.outcome Ambient.following
  rw [Array.getElem?_mapIdx, hmade, Array.getElem?_append_left hlt, hs, Option.map_some]

/-- Scopes and source contexts nest, to any depth. Acts answer and leave behind what their account
says: an event goes to the service of the innermost scope around it and to no other, outside of all
scopes to the one that received events before. So a service that several scopes are over, or that
the process has too, receives the events of all of them in order, and it records those up to its
level. An event has the source in force, in place of a source of its own, if the preferences say so.
After a scope events go where they went before, but a source that was named in it stays in force;
after a source context the source is the one before. -/
theorem runAll_nested (a : Ambient) (acts : List (Act Empty)) :
    (let account := accountAll a.prepareIn a.services a.receiver a.source acts;
      runAll perform a acts = account.outcome a ∧
        ∀ place (s : Service), a.services[place]? = some s →
          (runAll perform a acts).2.services[place]? =
            some (s.after (Logged.received place account.logged))) ∧
      (∀ source e key, (a.prepareIn source e).context.get? key =
        if key = Event.sourceKey then
          (if a.settings.sourceContext then source else none).or (e.context.get? key)
        else e.context.get? key) ∧
      (∀ act : Act Empty, let after := (act.run perform a).2
        after.scope = a.scope ∧ after.process = a.process ∧ after.receiver = a.receiver) ∧
      (∀ place body, ((Act.scope place body).run perform a).2.source =
        (runAll perform { a with scope := some place } body).2.source) ∧
      (∀ service body, ((Act.own service body).run perform a).2.source =
        (runAll perform { a.make service with scope := some a.services.size } body).2.source) ∧
      ∀ name body, ((Act.inSource name body).run perform a).2.source = a.source := by
  refine ⟨⟨runAll_eq_outcome perform a acts, fun _ _ => services_runAll perform a acts⟩, ?_, ?_,
    fun _ _ => rfl, fun _ _ => rfl, fun _ _ => rfl⟩
  · intro source e key
    exact Ambient.get?_prepare { a with source } e key
  · intro act after
    have hafter : after = (runAll perform a [act]).2 := rfl
    rw [hafter, runAll_eq_outcome]
    exact ⟨rfl, rfl, rfl⟩

/-- The service of a scope, with a further scope over it inside, receives the events of both. -/
example (e f g : Event) (s : Service) :
    Logged.received 0 (accountAll (fun _ e => e) #[s] none none
      [.scope 0 [.report e, .scope 0 [.report f], .report g]]).logged = [e, f, g] := rfl

end Act

end RobotScript.Log
