import ReactorCloud.Interleave.Program
import ReactorCloud.Jobs.Types

/-!
This module contains what the jobs service calls: the statements of its store, the queue and the
function behind a job. The routes of `reactor-jobs` follow that start, cancel and retry runs, and those the
functions call while they run.
-/

namespace Reactor.Jobs

open Interleave
open Rust (Json Uuid)

/--
The request to a function.
-/
structure Invocation where
  url : String
  apiKey : String
  context : Json
  payload : Json
  timeoutMs : Int

inductive Call where
  | utcNow
  | getJob (orgId : ReactorId) (name : String)
  | getJobById (id : JobId)
  | getTriggerByWebhookToken (token : String)
  | listDueCronTriggers (now : Int)
  | updateTriggerFired (id : Uuid) (lastTriggeredAt : Int) (nextTriggerAt : Option Int)
  | listPendingEventsForOrg (orgId : ReactorId) (limit : Nat)
  | matchingTriggers (orgId : ReactorId) (topic : String)
  | consumeEvent (id : Uuid) (runId : RunId)
  | emitEvent (event : NewEvent)
  | countActiveRuns (jobId : JobId)
  | createRun (run : NewRun)
  | getRun (id : RunId)
  | updateRunStatus (id : RunId) (status : RunStatus) (errorCode errorMessage : Option String)
  | setRunSleeping (id : RunId) (wakeupAt : Int)
  | incrementRunAttempt (id : RunId)
  | listSleepingRunsDue (now : Int)
  | createStep (runId : RunId) (name : String) (input : Option Json)
  | getStep (runId : RunId) (name : String)
  | updateStep (id : StepId) (status : StepStatus) (output : Option Json) (error : Option String)
  | listSteps (runId : RunId)
  | listState (runId : RunId)
  | moveToDlq (runId : RunId) (reason : String)
  | insertRunFromDlq (dlqId : Uuid)
  | deleteDlq (dlqId : Uuid)
  | writeAuditEvent (eventType : String) (jobId : Option JobId) (runId : Option RunId)
  | enqueue (data : List UInt8)
  | dequeue (visibilityTimeout : Int)
  | ack (receipt : Receipt)
  | nack (receipt : Receipt) (delay : Int)
  | invoke (invocation : Invocation)

@[reducible]
def Call.Ret : Call → Type
  | .utcNow => Int
  | .getJob .. => Option Job
  | .getJobById _ => Option Job
  | .getTriggerByWebhookToken _ => Option Trigger
  | .listDueCronTriggers _ => List Trigger
  | .updateTriggerFired .. => Unit
  | .listPendingEventsForOrg .. => List Event
  | .matchingTriggers .. => List Trigger
  | .consumeEvent .. => Unit
  | .emitEvent _ => Event
  | .countActiveRuns _ => Nat
  | .createRun _ => Run
  | .getRun _ => Option Run
  | .updateRunStatus .. => Unit
  | .setRunSleeping .. => Unit
  | .incrementRunAttempt _ => Unit
  | .listSleepingRunsDue _ => List Run
  | .createStep .. => Step
  | .getStep .. => Option Step
  | .updateStep .. => Unit
  | .listSteps _ => List Step
  | .listState _ => List StateEntry
  | .moveToDlq .. => Unit
  | .insertRunFromDlq _ => RunId
  | .deleteDlq _ => Unit
  | .writeAuditEvent .. => Unit
  | .enqueue _ => Uuid
  | .dequeue _ => List QueueItem
  | .ack _ => Unit
  | .nack .. => Unit
  | .invoke _ => FunctionResponse

abbrev calls : Interface where
  Call := Call
  Ret := Call.Ret
  Err := JobsError

abbrev JobsM (α : Type) := Program calls α

abbrev query (c : Call) : JobsM c.Ret :=
  @Program.request calls c

/--
What triggers end with: the run is created and then named by an item of the queue.
-/
def createAndEnqueue (new : NewRun) : JobsM Run := do
  let run ← query (.createRun new)
  let _ ← query (.enqueue run.id.asBytes)
  pure run

end Reactor.Jobs

namespace Reactor.Jobs

open Interleave
open Interleave.Program (attempt fail okOr require)
open Rust (Json Uuid)

section Admin

variable (ctx : JobCtx) (name : String)

def requireJobPermission (permission : String) : JobsM Unit :=
  require (ctx.hasPermission permission || ctx.hasPermission "*") (.permissionDenied permission)

def findJob : JobsM Job := do
  let job ← query (.getJob ctx.activeOrg name)
  okOr job (.jobNotFound name)

def requireConcurrency (job : Job) (name : String) : JobsM Unit := do
  let activeRuns ← query (.countActiveRuns job.id)
  require (!decide (job.maxConcurrencyU32 ≤ activeRuns)) (.concurrencyExceeded name)

def manualTrigger (payload : Json) : JobsM Run := do
  requireJobPermission ctx ("jobs:" ++ name ++ ":invoke")
  let job ← findJob ctx name
  requireConcurrency job name
  createAndEnqueue ⟨job.id, ctx.activeOrg, none, .manual, payload, job.retryMaxAttempts⟩

/--
The job of the route and the run of the route, which is one of the job.
-/
def findRun (runId : RunId) : JobsM (Job × Run) := do
  let job ← findJob ctx name
  let run ← query (.getRun runId)
  let run ← okOr run (.runNotFound runId.hyphenated)
  require (run.jobId = job.id) (.runNotFound runId.hyphenated)
  pure (job, run)

def cancelRun (runId : RunId) : JobsM Run := do
  requireJobPermission ctx ("jobs:" ++ name ++ ":admin")
  let (job, run) ← findRun ctx name runId
  require (!run.status.isFinal) (.runAlreadyComplete runId.hyphenated)
  query (.updateRunStatus runId .cancelled none none)
  let _ ← (query (.writeAuditEvent "run.cancel" (some job.id) (some runId))).attempt
  let run ← query (.getRun runId)
  okOr run (.runNotFound runId.hyphenated)

def retryRun (runId : RunId) : JobsM Run := do
  requireJobPermission ctx ("jobs:" ++ name ++ ":admin")
  let (job, run) ← findRun ctx name runId
  let new ← createAndEnqueue
    ⟨job.id, ctx.activeOrg, run.triggerId, .manual, run.payload, job.retryMaxAttempts⟩
  let _ ← (query (.writeAuditEvent "run.retry" (some job.id) (some new.id))).attempt
  pure new

def retryDlq (dlqId : Uuid) : JobsM Run := do
  requireJobPermission ctx ("jobs:" ++ name ++ ":admin")
  let job ← findJob ctx name
  let runId ← query (.insertRunFromDlq dlqId)
  query (.deleteDlq dlqId)
  let _ ← query (.enqueue runId.asBytes)
  let _ ← (query (.writeAuditEvent "dlq.retry" (some job.id) (some runId))).attempt
  let run ← query (.getRun runId)
  okOr run (.internal "failed to get created run")

def deleteDlq (dlqId : Uuid) : JobsM Unit := do
  requireJobPermission ctx ("jobs:" ++ name ++ ":admin")
  let job ← findJob ctx name
  query (.deleteDlq dlqId)
  let _ ← (query (.writeAuditEvent "dlq.delete" (some job.id) none)).attempt
  pure ()

end Admin

section Webhook

variable (config : JobsConfig) (decodeWebhookToken : String → Option JobId)
  (parsePayload : List UInt8 → Json)

def webhookTrigger (token : String) (body : List UInt8) : JobsM Run := do
  let jobId ← okOr (decodeWebhookToken token) .webhookTokenInvalid
  let job ← query (.getJobById jobId)
  let job ← okOr job .webhookTokenInvalid
  let trigger ← query (.getTriggerByWebhookToken token)
  let trigger ← okOr trigger .webhookTokenInvalid
  require trigger.enabled .webhookTokenInvalid
  requireConcurrency job job.name
  require (body.length ≤ config.maxPayloadBytes)
    (.payloadTooLarge body.length config.maxPayloadBytes)
  createAndEnqueue
    ⟨job.id, job.orgId, some trigger.id, .webhook, parsePayload body, job.retryMaxAttempts⟩

end Webhook

section Internal

variable (runId : RunId)

def createStep (name : String) : JobsM StepId := do
  match ← query (.getStep runId name) with
  | some existing => pure existing.id
  | none =>
    let step ← query (.createStep runId name none)
    pure step.id

def updateStep (id : StepId) (status : String) (output : Option Json) (error : Option String)
    : JobsM Unit :=
  match status with
  | "completed" => query (.updateStep id .completed output error)
  | "failed" => query (.updateStep id .failed output error)
  | "skipped" => query (.updateStep id .skipped output error)
  | _ => fail (.internal ("invalid step status: " ++ status))

def emitEvent (topic : String) (payload : Json) : JobsM Unit := do
  let run ← query (.getRun runId)
  let run ← okOr run (.runNotFound runId.hyphenated)
  let _ ← query (.emitEvent ⟨run.orgId, topic, payload, some runId⟩)
  pure ()

def requestSleep (name : String) (durationMs : Int) : JobsM Unit := do
  let now ← query .utcNow
  let _ ← query (.createStep runId name
    (some (.object [("durationMs", .number (.ofI64 (Int64.ofInt durationMs)))])))
  query (.setRunSleeping runId (now + durationMs))

end Internal
end Reactor.Jobs
