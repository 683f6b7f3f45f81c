import ReactorCloud.Jobs.Store

/-!
This module contains which tables the statements of the jobs store leave alone.
-/

namespace Reactor.Jobs

inductive TableName where
  | triggers
  | runs
  | steps
  | events
  | dlq
  | queue
deriving DecidableEq

/--
The table a call can write.
-/
def Call.table : Call → Option TableName
  | .updateTriggerFired .. => some .triggers
  | .createRun _ => some .runs
  | .insertRunFromDlq _ => some .runs
  | .updateRunStatus .. => some .runs
  | .setRunSleeping .. => some .runs
  | .incrementRunAttempt _ => some .runs
  | .createStep .. => some .steps
  | .updateStep .. => some .steps
  | .emitEvent _ => some .events
  | .consumeEvent .. => some .events
  | .moveToDlq .. => some .dlq
  | .deleteDlq _ => some .dlq
  | .enqueue _ => some .queue
  | .dequeue _ => some .queue
  | .ack _ => some .queue
  | .nack .. => some .queue
  | _ => none

namespace JobsDb

open Rust (Json Uuid)

variable (s : JobsDb)

theorem createRun_frame (id : RunId) (new : NewRun)
    : ∃ runs, (s.createRun id new).2 = { s with runs := runs } := by
  unfold createRun
  split
  . exact ⟨_, rfl⟩
  . exact ⟨s.runs, rfl⟩

theorem insertRunFromDlq_frame (id : RunId) (dlqId : Uuid) (x : Choice)
    : ∃ runs, (s.insertRunFromDlq id dlqId x).2 = { s with runs := runs } := by
  unfold insertRunFromDlq
  split
  . exact ⟨s.runs, rfl⟩
  . next d _ =>
    split
    . exact ⟨s.runs, rfl⟩
    . next job _ =>
      obtain ⟨runs, hcreate⟩ := s.createRun_frame id
        ⟨d.jobId, d.orgId, none, .manual, d.payload, job.retryMaxAttempts⟩
      exists runs
      rw [← hcreate]
      split
      . next heq => rw [heq]
      . next heq => rw [heq]

theorem moveToDlq_frame (id : Uuid) (runId : RunId)
    : ∃ dlq, (s.moveToDlq id runId).2 = { s with dlq := dlq } := by
  unfold moveToDlq
  split
  . exact ⟨s.dlq, rfl⟩
  . split
    . exact ⟨_, rfl⟩
    . exact ⟨s.dlq, rfl⟩

theorem createStep_frame (id : StepId) (runId : RunId) (name : String) (input : Option Json)
    : ∃ steps, (s.createStep id runId name input).2 = { s with steps := steps } := by
  simp only [createStep]
  split
  . exact ⟨_, rfl⟩
  . exact ⟨s.steps, rfl⟩

theorem emitEvent_frame (id : Uuid) (new : NewEvent)
    : ∃ events, (s.emitEvent id new).2 = { s with events := events } := by
  simp only [emitEvent]
  split
  . exact ⟨_, rfl⟩
  . exact ⟨s.events, rfl⟩

theorem enqueue_frame (id : Uuid) (data : List UInt8)
    : ∃ queue, (s.enqueue id data).2 = { s with queue := queue } := by
  unfold enqueue
  split
  . exact ⟨_, rfl⟩
  . exact ⟨s.queue, rfl⟩

theorem dequeue_frame (stamp : Uuid) (visibilityTimeout : Int)
    : ∃ queue, (s.dequeue stamp visibilityTimeout).2 = { s with queue := queue } := by
  unfold dequeue
  split
  . exact ⟨s.queue, rfl⟩
  . exact ⟨_, rfl⟩

theorem ack_frame (receipt : Receipt) : ∃ queue, (s.ack receipt).2 = { s with queue := queue } := by
  unfold ack
  split
  . exact ⟨_, rfl⟩
  . exact ⟨s.queue, rfl⟩

theorem nack_frame (receipt : Receipt) (delay : Int)
    : ∃ queue, (s.nack receipt delay).2 = { s with queue := queue } := by
  unfold nack
  split
  . exact ⟨_, rfl⟩
  . exact ⟨s.queue, rfl⟩

/--
A call changes one table at most.
-/
theorem exec_cases {P : JobsDb → Prop} (c : Call) (x : Choice) (hs : P s)
    (htriggers : c.table = some .triggers → ∀ triggers, P { s with triggers := triggers })
    (hruns : c.table = some .runs → ∀ runs, P { s with runs := runs })
    (hsteps : c.table = some .steps → ∀ steps, P { s with steps := steps })
    (hevents : c.table = some .events → ∀ events, P { s with events := events })
    (hdlq : c.table = some .dlq → ∀ dlq, P { s with dlq := dlq })
    (hqueue : c.table = some .queue → ∀ queue, P { s with queue := queue })
    : P (s.exec c x).2 := by
  cases c with
  | updateTriggerFired id last next => exact htriggers rfl _
  | createRun new =>
    obtain ⟨runs, h⟩ := s.createRun_frame x.id new
    exact h ▸ hruns rfl runs
  | insertRunFromDlq dlqId =>
    obtain ⟨runs, h⟩ := s.insertRunFromDlq_frame x.id dlqId x
    exact h ▸ hruns rfl runs
  | updateRunStatus id status errorCode errorMessage => exact hruns rfl _
  | setRunSleeping id wakeupAt => exact hruns rfl _
  | incrementRunAttempt id => exact hruns rfl _
  | createStep runId name input =>
    obtain ⟨steps, h⟩ := s.createStep_frame x.id runId name input
    exact h ▸ hsteps rfl steps
  | updateStep id status output error => exact hsteps rfl _
  | emitEvent new =>
    obtain ⟨events, h⟩ := s.emitEvent_frame x.id new
    exact h ▸ hevents rfl events
  | consumeEvent id runId => exact hevents rfl _
  | moveToDlq runId reason =>
    obtain ⟨dlq, h⟩ := s.moveToDlq_frame x.id runId
    exact h ▸ hdlq rfl dlq
  | deleteDlq dlqId => exact hdlq rfl _
  | enqueue data =>
    obtain ⟨queue, h⟩ := s.enqueue_frame x.id data
    exact h ▸ hqueue rfl queue
  | dequeue visibilityTimeout =>
    obtain ⟨queue, h⟩ := s.dequeue_frame x.id visibilityTimeout
    exact h ▸ hqueue rfl queue
  | ack receipt =>
    obtain ⟨queue, h⟩ := s.ack_frame receipt
    exact h ▸ hqueue rfl queue
  | nack receipt delay =>
    obtain ⟨queue, h⟩ := s.nack_frame receipt delay
    exact h ▸ hqueue rfl queue
  | _ => exact hs

theorem exec_now (c : Call) (x : Choice) : (s.exec c x).2.now = s.now := by
  apply s.exec_cases (P := fun s' => s'.now = s.now) c x <;> intros <;> rfl

/--
What is a value of one table is left alone by the calls that write another one.
-/
theorem exec_runs {c : Call} (x : Choice) (hc : c.table ≠ some .runs)
    : (s.exec c x).2.runs = s.runs := by
  apply s.exec_cases (P := fun s' => s'.runs = s.runs) c x
  case hruns => exact fun h => absurd h hc
  all_goals
    intros
    rfl

theorem exec_triggers {c : Call} (x : Choice) (hc : c.table ≠ some .triggers)
    : (s.exec c x).2.triggers = s.triggers := by
  apply s.exec_cases (P := fun s' => s'.triggers = s.triggers) c x
  case htriggers => exact fun h => absurd h hc
  all_goals
    intros
    rfl

theorem exec_dlq {c : Call} (x : Choice) (hc : c.table ≠ some .dlq) : (s.exec c x).2.dlq = s.dlq := by
  apply s.exec_cases (P := fun s' => s'.dlq = s.dlq) c x
  case hdlq => exact fun h => absurd h hc
  all_goals
    intros
    rfl

theorem exec_events {c : Call} (x : Choice) (hc : c.table ≠ some .events)
    : (s.exec c x).2.events = s.events := by
  apply s.exec_cases (P := fun s' => s'.events = s.events) c x
  case hevents => exact fun h => absurd h hc
  all_goals
    intros
    rfl

end JobsDb
end Reactor.Jobs
