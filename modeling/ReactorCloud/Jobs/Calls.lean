import ReactorCloud.Jobs.System

/-!
This module contains which calls each request makes.
-/

namespace Reactor.Jobs

open Interleave
open Interleave.Program
open Rust (Json Uuid)

/--
The calls that load what the function of a run needs, and the one that invokes it.
-/
def Call.isOfExecution : Call → Bool
  | .listSteps _ => true
  | .listState _ => true
  | .invoke _ => true
  | _ => false

/--
The call changes nothing but the queue and is not one of an execution.
-/
def Call.isNeutral : Call → Bool
  | .listSteps _ => false
  | .listState _ => false
  | .invoke _ => false
  | .listDueCronTriggers _ => false
  | .updateTriggerFired .. => false
  | .listPendingEventsForOrg .. => false
  | .matchingTriggers .. => false
  | .consumeEvent .. => false
  | .emitEvent _ => false
  | .createRun _ => false
  | .updateRunStatus .. => false
  | .setRunSleeping .. => false
  | .incrementRunAttempt _ => false
  | .createStep .. => false
  | .updateStep .. => false
  | .moveToDlq .. => false
  | .insertRunFromDlq _ => false
  | .deleteDlq _ => false
  | _ => true

/--
The other calls of a request.
-/
def Request.writes : Request → Call → Bool
  | .work, .updateRunStatus .. => true
  | .work, .incrementRunAttempt _ => true
  | .work, .moveToDlq .. => true
  | .work, .listSteps _ => true
  | .work, .listState _ => true
  | .work, .invoke _ => true
  | .pollSleepingRuns, .updateRunStatus .. => true
  | .pollCronTriggers, .listDueCronTriggers _ => true
  | .pollCronTriggers, .createRun new => new.triggerKind == .cron
  | .pollCronTriggers, .updateTriggerFired .. => true
  | .pollEvents, .listPendingEventsForOrg .. => true
  | .pollEvents, .matchingTriggers .. => true
  | .pollEvents, .createRun new => new.triggerKind == .event
  | .pollEvents, .consumeEvent .. => true
  | .manualTrigger .., .createRun new => new.triggerKind == .manual
  | .webhookTrigger .., .createRun new => new.triggerKind == .webhook
  | .cancelRun _ _ runId, .updateRunStatus id .. => id == runId
  | .retryRun .., .createRun new => new.triggerKind == .manual
  | .retryDlq _ _ dlqId, .insertRunFromDlq id => id == dlqId
  | .retryDlq _ _ dlqId, .deleteDlq id => id == dlqId
  | .deleteDlq _ _ dlqId, .deleteDlq id => id == dlqId
  | .createStep runId name, .createStep id step _ => id == runId && step == name
  | .updateStep stepId .., .updateStep id .. => id == stepId
  | .emitEvent .., .emitEvent _ => true
  | .requestSleep runId name _, .createStep id step _ => id == runId && step == name
  | .requestSleep runId _ _, .setRunSleeping id _ => id == runId
  | _, _ => false

def Request.Makes (req : Request) (c : Call) : Prop :=
  c.isNeutral = true ∨ req.writes c = true

section Makes

variable {α : Type} {P : Call → Prop}

theorem uses_call {c : Call} {f : c.Ret → JobsM α} (hc : P c) (hf : ∀ a, (f a).Uses P)
    : Program.Uses P (query c >>= f) :=
  uses_bind (uses_request _ hc) hf

theorem uses_attempted {c : Call} {f : Except JobsError c.Ret → JobsM α} (hc : P c)
    (hf : ∀ r, (f r).Uses P) : Program.Uses P ((query c).attempt >>= f) :=
  uses_bind (uses_attempt (uses_request _ hc)) hf

variable {req : Request}

theorem and_self_beq (runId : RunId) (name : String) : (runId == runId && name == name) = true := by
  rw [beq_self_eq_true, beq_self_eq_true, Bool.and_self]

theorem createAndEnqueue_makes {new : NewRun} (h : req.writes (.createRun new) = true)
    : (createAndEnqueue new).Uses req.Makes := by
  unfold createAndEnqueue
  apply uses_call (.inr h)
  intro run
  apply uses_call (.inl rfl)
  intro _
  exact uses_pure _

theorem findJob_makes (ctx : JobCtx) (name : String) : (findJob ctx name).Uses req.Makes := by
  unfold findJob
  apply uses_call (.inl rfl)
  intro job
  exact uses_okOr _ _

theorem requireConcurrency_makes (job : Job) (name : String)
    : (requireConcurrency job name).Uses req.Makes := by
  unfold requireConcurrency
  apply uses_call (.inl rfl)
  intro activeRuns
  exact uses_require _ _

theorem findRun_makes (ctx : JobCtx) (name : String) (runId : RunId)
    : (findRun ctx name runId).Uses req.Makes := by
  unfold findRun
  apply uses_bind (findJob_makes ctx name)
  intro job
  apply uses_call (.inl rfl)
  intro run
  apply uses_bind (uses_okOr _ _)
  intro run
  apply uses_bind (uses_require _ _)
  intro _
  exact uses_pure _

theorem settle_makes (runId : RunId) (run : Run) (response : FunctionResponse)
    : (settle runId run response).Uses Request.work.Makes := by
  unfold settle
  apply uses_ite
  . exact uses_request _ (.inr rfl)
  . apply uses_ite
    . exact uses_request _ (.inr rfl)
    . apply uses_call (.inr rfl)
      intro _
      exact uses_request _ (.inr rfl)

theorem executeRun_makes (config : JobsConfig) (runId : RunId)
    : (executeRun config runId).Uses Request.work.Makes := by
  unfold executeRun
  apply uses_call (.inl rfl)
  intro run
  apply uses_bind (uses_okOr _ _)
  intro run
  apply uses_ite
  . apply uses_call (.inl rfl)
    intro job
    apply uses_bind (uses_okOr _ _)
    intro job
    apply uses_call (.inr rfl)
    intro _
    apply uses_call (.inr rfl)
    intro steps
    apply uses_call (.inr rfl)
    intro state
    apply uses_call (.inr rfl)
    intro response
    exact settle_makes runId run response
  . exact uses_pure _

theorem processNextRun_makes (config : JobsConfig)
    : (processNextRun config).Uses Request.work.Makes := by
  unfold processNextRun
  apply uses_attempted (.inl rfl)
  intro r
  split
  . exact uses_pure _
  . exact uses_pure _
  . split
    . apply uses_attempted (.inl rfl)
      intro _
      exact uses_pure _
    . apply uses_bind (uses_attempt (executeRun_makes config _))
      intro r
      cases r with
      | ok _ =>
        apply uses_attempted (.inl rfl)
        intro _
        exact uses_pure _
      | error _ =>
        apply uses_attempted (.inl rfl)
        intro _
        exact uses_pure _

theorem pollSleepingRuns_makes : pollSleepingRuns.Uses Request.pollSleepingRuns.Makes := by
  unfold pollSleepingRuns
  apply uses_call (.inl rfl)
  intro now
  apply uses_call (.inl rfl)
  intro runs
  induction runs with
  | nil => exact uses_pure _
  | cons run runs ih =>
    unfold wakeRuns
    apply uses_call (.inr rfl)
    intro _
    apply uses_call (.inl rfl)
    intro _
    exact ih

theorem fireTriggers_makes {kind : TriggerKind} {payload : Json}
    {fired : Trigger → Run → JobsM Unit}
    (hcreate : ∀ new : NewRun, new.triggerKind = kind → req.writes (.createRun new) = true)
    (hfired : ∀ trigger run, (fired trigger run).Uses req.Makes) (triggers : List Trigger)
    : (fireTriggers kind payload fired triggers).Uses req.Makes := by
  induction triggers with
  | nil => exact uses_pure _
  | cons trigger triggers ih =>
    unfold fireTriggers fireTrigger
    apply uses_bind _ (fun _ => ih)
    apply uses_call (.inl rfl)
    intro job
    cases job with
    | none => exact uses_pure _
    | some job =>
      apply uses_call (.inl rfl)
      intro activeRuns
      apply uses_ite
      . exact uses_pure _
      . apply uses_bind (createAndEnqueue_makes (hcreate _ rfl))
        intro run
        exact hfired trigger run

theorem pollCronTriggers_makes (parseSchedule : String → Option Schedule)
    : (pollCronTriggers parseSchedule).Uses Request.pollCronTriggers.Makes := by
  unfold pollCronTriggers
  apply uses_call (.inl rfl)
  intro now
  apply uses_call (.inr rfl)
  intro triggers
  apply fireTriggers_makes
  . intro new hkind
    exact beq_iff_eq.mpr hkind
  . intro trigger run
    unfold triggerFired
    apply uses_call (.inl rfl)
    intro later
    exact uses_request _ (.inr rfl)

theorem pollEvents_makes : pollEvents.Uses Request.pollEvents.Makes := by
  unfold pollEvents
  apply uses_call (.inr rfl)
  intro events
  induction events with
  | nil => exact uses_pure _
  | cons event events ih =>
    unfold matchEvents
    apply uses_call (.inr rfl)
    intro triggers
    apply uses_bind _ (fun _ => ih)
    apply fireTriggers_makes
    . intro new hkind
      exact beq_iff_eq.mpr hkind
    . intro trigger run
      exact uses_request _ (.inr rfl)

theorem manualTrigger_makes (ctx : JobCtx) (name : String) (payload : Json)
    : (manualTrigger ctx name payload).Uses (Request.manualTrigger ctx name payload).Makes := by
  unfold manualTrigger
  apply uses_bind (uses_require _ _)
  intro _
  apply uses_bind (findJob_makes ctx name)
  intro job
  apply uses_bind (requireConcurrency_makes job name)
  intro _
  exact createAndEnqueue_makes rfl

theorem webhookTrigger_makes (config : JobsConfig) (decode : String → Option JobId)
    (parsePayload : List UInt8 → Json) (token : String) (body : List UInt8)
    : (webhookTrigger config decode parsePayload token body).Uses
        (Request.webhookTrigger token body).Makes := by
  unfold webhookTrigger
  apply uses_bind (uses_okOr _ _)
  intro jobId
  apply uses_call (.inl rfl)
  intro job
  apply uses_bind (uses_okOr _ _)
  intro job
  apply uses_call (.inl rfl)
  intro trigger
  apply uses_bind (uses_okOr _ _)
  intro trigger
  apply uses_bind (uses_require _ _)
  intro _
  apply uses_bind (requireConcurrency_makes job _)
  intro _
  apply uses_bind (uses_require _ _)
  intro _
  exact createAndEnqueue_makes rfl

theorem cancelRun_makes (ctx : JobCtx) (name : String) (runId : RunId)
    : (cancelRun ctx name runId).Uses (Request.cancelRun ctx name runId).Makes := by
  unfold cancelRun
  apply uses_bind (uses_require _ _)
  intro _
  apply uses_bind (findRun_makes ctx name runId)
  intro found
  apply uses_bind (uses_require _ _)
  intro _
  apply uses_call (.inr (beq_self_eq_true _))
  intro _
  apply uses_attempted (.inl rfl)
  intro _
  apply uses_call (.inl rfl)
  intro run
  exact uses_okOr _ _

theorem retryRun_makes (ctx : JobCtx) (name : String) (runId : RunId)
    : (retryRun ctx name runId).Uses (Request.retryRun ctx name runId).Makes := by
  unfold retryRun
  apply uses_bind (uses_require _ _)
  intro _
  apply uses_bind (findRun_makes ctx name runId)
  intro found
  apply uses_bind (createAndEnqueue_makes rfl)
  intro new
  apply uses_attempted (.inl rfl)
  intro _
  exact uses_pure _

theorem retryDlq_makes (ctx : JobCtx) (name : String) (dlqId : Uuid)
    : (retryDlq ctx name dlqId).Uses (Request.retryDlq ctx name dlqId).Makes := by
  unfold retryDlq
  apply uses_bind (uses_require _ _)
  intro _
  apply uses_bind (findJob_makes ctx name)
  intro job
  apply uses_call (.inr (beq_self_eq_true _))
  intro runId
  apply uses_call (.inr (beq_self_eq_true _))
  intro _
  apply uses_call (.inl rfl)
  intro _
  apply uses_attempted (.inl rfl)
  intro _
  apply uses_call (.inl rfl)
  intro run
  exact uses_okOr _ _

theorem deleteDlq_makes (ctx : JobCtx) (name : String) (dlqId : Uuid)
    : (deleteDlq ctx name dlqId).Uses (Request.deleteDlq ctx name dlqId).Makes := by
  unfold deleteDlq
  apply uses_bind (uses_require _ _)
  intro _
  apply uses_bind (findJob_makes ctx name)
  intro job
  apply uses_call (.inr (beq_self_eq_true _))
  intro _
  apply uses_attempted (.inl rfl)
  intro _
  exact uses_pure _

theorem createStep_makes (runId : RunId) (name : String)
    : (createStep runId name).Uses (Request.createStep runId name).Makes := by
  unfold createStep
  apply uses_call (.inl rfl)
  intro found
  cases found with
  | some existing => exact uses_pure _
  | none =>
    apply uses_call (.inr (and_self_beq _ _))
    intro step
    exact uses_pure _

theorem updateStep_makes (id : StepId) (status : String) (output : Option Json)
    (error : Option String)
    : (updateStep id status output error).Uses (Request.updateStep id status output error).Makes := by
  unfold updateStep
  split
  . exact uses_request _ (.inr (beq_self_eq_true _))
  . exact uses_request _ (.inr (beq_self_eq_true _))
  . exact uses_request _ (.inr (beq_self_eq_true _))
  . exact uses_fail _

theorem emitEvent_makes (runId : RunId) (topic : String) (payload : Json)
    : (emitEvent runId topic payload).Uses (Request.emitEvent runId topic payload).Makes := by
  unfold emitEvent
  apply uses_call (.inl rfl)
  intro run
  apply uses_bind (uses_okOr _ _)
  intro run
  apply uses_call (.inr rfl)
  intro _
  exact uses_pure _

theorem requestSleep_makes (runId : RunId) (name : String) (durationMs : Int)
    : (requestSleep runId name durationMs).Uses (Request.requestSleep runId name durationMs).Makes := by
  unfold requestSleep
  apply uses_call (.inl rfl)
  intro now
  apply uses_call (.inr (and_self_beq _ _))
  intro _
  exact uses_request _ (.inr (beq_self_eq_true _))

/--
The calls of the program of a request.
-/
theorem program_makes (env : Env) (req : Request) : (program env req).Uses req.Makes := by
  cases req with
  | work => exact processNextRun_makes _
  | pollSleepingRuns => exact pollSleepingRuns_makes
  | pollCronTriggers => exact pollCronTriggers_makes _
  | pollEvents => exact pollEvents_makes
  | manualTrigger ctx name payload => exact manualTrigger_makes ctx name payload
  | webhookTrigger token body => exact webhookTrigger_makes _ _ _ token body
  | cancelRun ctx name runId => exact cancelRun_makes ctx name runId
  | retryRun ctx name runId => exact retryRun_makes ctx name runId
  | retryDlq ctx name dlqId => exact retryDlq_makes ctx name dlqId
  | deleteDlq ctx name dlqId => exact deleteDlq_makes ctx name dlqId
  | createStep runId name => exact createStep_makes runId name
  | updateStep id status output error => exact updateStep_makes id status output error
  | emitEvent runId topic payload => exact emitEvent_makes runId topic payload
  | requestSleep runId name durationMs => exact requestSleep_makes runId name durationMs

end Makes
end Reactor.Jobs
