import ReactorCloud.Jobs.System

/-!
This module contains where a poll of the events is, as its calls and their answers tell, and which
runs it has created for which event.
-/

namespace Reactor.Jobs

open Interleave
open Rust (Uuid)

/--
What a poll is at: the events to come, the present one with its triggers to come, and what became of
its triggers up to now.
-/
structure Pass where
  todo : List Event
  current : Option Event
  left : List Trigger
  job : Option Job
  created : List Uuid
  unmarked : Bool
  skipped : Bool

namespace Pass

def start : Pass :=
  ⟨[], none, [], none, [], false, false⟩

def skip (p : Pass) : Pass :=
  { p with left := p.left.tail, skipped := true }

/--
The present event and those to come.
-/
def ahead (p : Pass) : List Uuid :=
  (p.current.toList ++ p.todo).map (·.id)

def currentId (p : Pass) : Option Uuid :=
  p.current.map (·.id)

/--
The present event is untouched or all its triggers are done.
-/
def Settled (p : Pass) : Prop :=
  p.created = [] ∨ (p.left = [] ∧ p.unmarked = false)

/--
Of the triggers of the present event none is skipped or none has got a run.
-/
def Even (p : Pass) : Prop :=
  p.skipped = false ∨ p.created = []

instance (p : Pass) : Decidable p.Settled :=
  have : Decidable (p.left = []) := decidable_of_iff _ List.isEmpty_iff
  inferInstanceAs (Decidable (_ ∨ _ ∧ _))

instance (p : Pass) : Decidable p.Even :=
  inferInstanceAs (Decidable (_ ∨ _))

end Pass

section Trace

variable {env : Env}

/--
The trigger that an event run is created for.
-/
def NewRun.eventTrigger (new : NewRun) : Option Uuid :=
  if new.triggerKind == .event then new.triggerId else none

def Pass.step (p : Pass) : Interleave.Event (system env) → Pass
  | .call _ (.listPendingEventsForOrg ..) (.ok events) => { p with todo := events }
  | .call _ (.matchingTriggers ..) (.ok triggers) =>
    { p with
      todo := p.todo.tail
      current := p.todo.head?
      left := triggers
      created := []
      unmarked := false
      skipped := false }
  | .call _ (.getJobById _) (.ok none) => p.skip
  | .call _ (.getJobById _) (.ok (some job)) => { p with job := some job }
  | .call _ (.countActiveRuns _) (.ok n) =>
    if p.job.any (·.maxConcurrencyU32 ≤ n) then p.skip else p
  | .call _ (.createRun new) (.ok _) =>
    match new.eventTrigger with
    | some id => { p with left := p.left.tail, created := id :: p.created, unmarked := true }
    | none => p
  | .call _ (.consumeEvent ..) (.ok _) => { p with unmarked := false }
  | _ => p

def passOf (pid : Nat) : List (Interleave.Event (system env)) → Pass
  | [] => .start
  | e :: es => if e.pid? = some pid then (passOf pid es).step e else passOf pid es

def listedEvents : Interleave.Event (system env) → List Event
  | .call _ (.listPendingEventsForOrg ..) (.ok events) => events
  | _ => []

def matchedTriggers : Interleave.Event (system env) → Option (List Uuid)
  | .call _ (.matchingTriggers ..) (.ok triggers) => some (triggers.map (·.id))
  | _ => none

/--
The trigger of an event run that the event creates or tries to create.
-/
def createsFor : Interleave.Event (system env) → Option Uuid
  | .call _ (.createRun new) _ => new.eventTrigger
  | _ => none

/--
The event and the trigger a run is created for.
-/
def delivery (e : Interleave.Event (system env)) (es : List (Interleave.Event (system env)))
    : Option (Uuid × Uuid) :=
  match e with
  | .call pid (.createRun new) (.ok _) => do
    let id ← (passOf pid es).currentId
    let trigger ← new.eventTrigger
    pure (id, trigger)
  | _ => none

def deliveries : List (Interleave.Event (system env)) → List (Uuid × Uuid)
  | [] => []
  | e :: es => (delivery e es).toList ++ deliveries es

/--
The triggers that the event finds when it is processed now.
-/
def matchedFor (id : Uuid) (e : Interleave.Event (system env))
    (es : List (Interleave.Event (system env))) : Option (List Uuid) := do
  let pid ← e.pid?
  let event ← (passOf pid es).todo.head?
  if event.id = id then matchedTriggers e else none

/--
The triggers that the event found when it was first processed.
-/
def firstMatch (id : Uuid) : List (Interleave.Event (system env)) → Option (List Uuid)
  | [] => none
  | e :: es => firstMatch id es <|> matchedFor id e es

def pass (pid : Nat) (w : World (system env)) : Pass :=
  passOf pid w.trace

/--
The process is to process the event, or is at it.
-/
def Ahead (pid : Nat) (id : Uuid) (w : World (system env)) : Prop :=
  id ∈ (pass pid w).ahead ∧ ¬ Gone pid w

instance (pid : Nat) (id : Uuid) (w : World (system env)) : Decidable (Ahead pid id w) :=
  inferInstanceAs (Decidable (_ ∧ _))

/--
The condition on the steps of the polls.
-/
structure Undivided (w : World (system env)) (e : Interleave.Event (system env)) : Prop where
  /-- An event is listed when no other poll has it before it. -/
  alone : ∀ event ∈ listedEvents e, ∀ pid ∈ w.pids, e.pid? ≠ some pid → ¬ Ahead pid event.id w
  /-- An event that is processed again still finds the triggers it found at first. -/
  again : ∀ pid ∈ e.pid?, ∀ event ∈ (pass pid w).todo.head?, ∀ ids ∈ firstMatch event.id w.trace,
    ∀ ids' ∈ matchedTriggers e, ∀ id ∈ ids, id ∈ ids'
  /-- No event has triggers that are skipped and triggers with a run. -/
  even : ∀ pid ∈ e.pid?, ((pass pid w).step e).Even
  /-- No poll fails at an event with a run for some of its triggers. -/
  whole : breaks e = true → createsFor e = none ∧ ∀ pid ∈ e.pid?, (pass pid w).Settled

instance (w : World (system env)) (e : Interleave.Event (system env)) : Decidable (Undivided w e) :=
  have : Decidable (∀ pid ∈ e.pid?, ∀ event ∈ (pass pid w).todo.head?,
      ∀ ids ∈ firstMatch event.id w.trace, ∀ ids' ∈ matchedTriggers e, ∀ id ∈ ids, id ∈ ids') :=
    have (ids ids' : List Uuid) : Decidable (∀ id ∈ ids, id ∈ ids') := List.decidableBAll _ _
    inferInstance
  decidable_of_iff (_ ∧ _ ∧ (∀ pid ∈ e.pid?, ((pass pid w).step e).Even) ∧ (_ → _ ∧ _))
    ⟨fun ⟨alone, again, even, whole⟩ => ⟨alone, again, even, whole⟩,
      fun h => ⟨h.alone, h.again, h.even, h.whole⟩⟩

/--
The step creates a run of the trigger for the event.
-/
def Delivers (id trigger : Uuid) (w : World (system env)) (e : Interleave.Event (system env))
    (w' : World (system env)) : Prop :=
  createsFor e = some trigger ∧ (∃ pid ∈ e.pid?, (pass pid w).currentId = some id)
    ∧ w.state.runs.rows.length < w'.state.runs.rows.length

instance (id trigger : Uuid) (w : World (system env)) (e : Interleave.Event (system env))
    (w' : World (system env)) : Decidable (Delivers id trigger w e w') :=
  inferInstanceAs (Decidable (_ ∧ _ ∧ _))

end Trace

/--
Whether the event is consumed, if there is one.
-/
def JobsDb.isConsumed (s : JobsDb) (id : Uuid) : Option Bool :=
  (s.events.find? (·.id == id)).map (·.consumedAt.isSome)

/--
From any state, in the runs whose steps are `ok`, an event gives rise to one run of a trigger at
most, and to one of each trigger it found at first when it is not pending and no poll is at it.
-/
def StartsOnce (env : Env) (ok : World (system env) → Interleave.Event (system env) → Prop) : Prop :=
  ∀ (id trigger : Uuid) (s : JobsDb) (ms : List (Move (system env))) (c : Config (system env)),
    Config.run ms (Config.start s) = some c → Config.Along ok ms (Config.start s) →
      Config.tally (Delivers id trigger) ms (Config.start s) ≤ 1
        ∧ ∀ ids, firstMatch id c.world.trace = some ids → trigger ∈ ids →
          JobsDb.isConsumed c.world.state id ≠ some false →
            (∀ pid ∈ c.world.pids, ¬ Ahead pid id c.world) →
              Config.tally (Delivers id trigger) ms (Config.start s) = 1

end Reactor.Jobs
