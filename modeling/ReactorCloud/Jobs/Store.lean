import ReactorCloud.Jobs.Routes

/-!
This module contains the tables of the jobs service and what each call does to them. The table of the
jobs, which no call of the model writes, is answered by the environment.
-/

namespace Reactor.Jobs

open Relational (Table)
open Rust (Json Uuid)

structure JobsDb where
  now : Int
  triggers : Table Trigger
  runs : Table Run
  steps : Table Step
  state : Table StateEntry
  events : Table Event
  dlq : Table DlqEntry
  queue : Table QueueRow

/--
What the environment adds to a call: the identifier it generates, the rows of the jobs and the answer
of the function.
-/
structure Choice where
  id : Uuid
  jobs : List Job
  response : FunctionResponse

def Choice.getJob (x : Choice) (orgId : ReactorId) (name : String) : Option Job :=
  x.jobs.find? (fun j => j.orgId == orgId && j.name == name)

def Choice.getJobById (x : Choice) (id : JobId) : Option Job :=
  x.jobs.find? (·.id == id)

namespace JobsDb

def empty : JobsDb :=
  ⟨0, .empty, .empty, .empty, .empty, .empty, .empty, .empty⟩

section Triggers

def isDueCron (now : Int) (t : Trigger) : Bool :=
  t.kind == .cron && t.enabled && t.nextTriggerAt.any (· ≤ now)

/--
The rows are locked for the statement only.
-/
def listDueCronTriggers (s : JobsDb) (now : Int) : List Trigger :=
  s.triggers.select (isDueCron now)

def updateTriggerFired (s : JobsDb) (id : Uuid) (lastTriggeredAt : Int) (nextTriggerAt : Option Int)
    : JobsDb :=
  { s with
    triggers := s.triggers.modify (·.id == id) (Trigger.fired lastTriggeredAt nextTriggerAt)
      (fun _ _ => rfl) }

end Triggers

section Events

def isPendingFor (orgId : ReactorId) (e : Event) : Bool :=
  e.orgId == orgId && e.consumedAt.isNone

def listPendingEventsForOrg (s : JobsDb) (orgId : ReactorId) (limit : Nat) : List Event :=
  ((s.events.select (isPendingFor orgId)).mergeSort (fun p q => p.createdAt ≤ q.createdAt)).take
    limit

/--
The join with the jobs gives the organisation of a trigger.
-/
def isMatching (jobs : List Job) (orgId : ReactorId) (topic : String) (t : Trigger) : Bool :=
  t.kind == .event && t.enabled && jobs.any (fun j => j.id == t.jobId && j.orgId == orgId)
    && t.topic == some topic

def consumeEvent (s : JobsDb) (id : Uuid) (runId : RunId) : JobsDb :=
  { s with
    events := s.events.modify (·.id == id)
      (fun e => { e with consumedByRunId := some runId, consumedAt := some s.now })
      (fun _ _ => rfl) }

def emitEvent (s : JobsDb) (id : Uuid) (new : NewEvent) : Except JobsError Event × JobsDb :=
  let event : Event := ⟨id, new.orgId, new.topic, new.payload, new.emittedByRunId, none, s.now, none⟩
  match s.events.insert event with
  | some events => (.ok event, { s with events := events })
  | none => (.error .unavailable, s)

end Events

section Runs

def findRun (s : JobsDb) (id : RunId) : Option Run :=
  s.runs.find? (·.id == id)

def isActive (status : RunStatus) : Bool :=
  status == .pending || status == .running || status == .sleeping || status == .queued

def newRun (id : RunId) (new : NewRun) : Run where
  id := id
  jobId := new.jobId
  orgId := new.orgId
  triggerId := new.triggerId
  triggerKind := new.triggerKind
  status := .pending
  payload := new.payload
  attempt := 1
  maxAttempts := new.maxAttempts
  wakeupAt := none
  errorCode := none
  errorMessage := none

/--
An update of the run `id`.
-/
def updateRun (s : JobsDb) (id : RunId) (f : Run → Run) (hf : ∀ r, (f r).id = r.id) : JobsDb :=
  { s with
    runs := s.runs.modify (·.id == id) f
      (fun r t => by simp only [Relational.Constrained.conflict, hf]) }

def createRun (s : JobsDb) (id : RunId) (new : NewRun) : Except JobsError Run × JobsDb :=
  match s.runs.insert (newRun id new) with
  | some runs => (.ok (newRun id new), { s with runs := runs })
  | none => (.error .unavailable, s)

def updateRunStatus (s : JobsDb) (id : RunId) (status : RunStatus)
    (errorCode errorMessage : Option String) : JobsDb :=
  s.updateRun id (fun r => { r with
    status := status,
    errorCode := errorCode <|> r.errorCode,
    errorMessage := errorMessage <|> r.errorMessage }) (fun _ => rfl)

def setRunSleeping (s : JobsDb) (id : RunId) (wakeupAt : Int) : JobsDb :=
  s.updateRun id (fun r => { r with status := .sleeping, wakeupAt := some wakeupAt }) (fun _ => rfl)

def incrementRunAttempt (s : JobsDb) (id : RunId) : JobsDb :=
  s.updateRun id (fun r => { r with attempt := r.attempt + 1, status := .pending }) (fun _ => rfl)

def isSleepingDue (now : Int) (r : Run) : Bool :=
  r.status == .sleeping && r.wakeupAt.any (· ≤ now)

def findDlq (s : JobsDb) (id : Uuid) : Option DlqEntry :=
  s.dlq.find? (·.id == id)

/--
The dead letter takes what the run has.
-/
def moveToDlq (s : JobsDb) (id : Uuid) (runId : RunId) : Except JobsError Unit × JobsDb :=
  match s.findRun runId with
  | none => (.ok (), s)
  | some r =>
    match s.dlq.insert ⟨id, r.id, r.jobId, r.orgId, r.payload, r.errorCode, r.errorMessage,
        r.attempt⟩ with
    | some dlq => (.ok (), { s with dlq := dlq })
    | none => (.error .unavailable, s)

/--
Without a dead letter nothing is inserted, and without its job the insert fails.
-/
def insertRunFromDlq (s : JobsDb) (id : RunId) (dlqId : Uuid) (x : Choice)
    : Except JobsError RunId × JobsDb :=
  match s.dlq.find? (·.id == dlqId) with
  | none => (.ok id, s)
  | some d =>
    match x.getJobById d.jobId with
    | none => (.error .unavailable, s)
    | some job =>
      match s.createRun id ⟨d.jobId, d.orgId, none, .manual, d.payload, job.retryMaxAttempts⟩ with
      | (.ok _, s') => (.ok id, s')
      | (.error e, s') => (.error e, s')

end Runs

section Queue

def isVisible (now : Int) (q : QueueRow) : Bool :=
  q.visibleAt ≤ now && q.receipt.isNone

/--
The item that is visible for the longest time.
-/
def oldest (s : JobsDb) : Option QueueRow :=
  ((s.queue.select (isVisible s.now)).mergeSort (fun p q => p.visibleAt ≤ q.visibleAt)).head?

def updateItems (s : JobsDb) (p : QueueRow → Bool) (f : QueueRow → QueueRow)
    (hf : ∀ q, (f q).id = q.id) : JobsDb :=
  { s with
    queue := s.queue.modify p f
      (fun q r => by simp only [Relational.Constrained.conflict, hf]) }

def dequeue (s : JobsDb) (stamp : Uuid) (visibilityTimeout : Int) : List QueueItem × JobsDb :=
  match s.oldest with
  | none => ([], s)
  | some q =>
    ([⟨⟨stamp, q.id⟩, q.data⟩], s.updateItems (·.id == q.id)
      (fun q => { q with receipt := some ⟨stamp, q.id⟩, visibleAt := s.now + visibilityTimeout })
      (fun _ => rfl))

def held (receipt : Receipt) (q : QueueRow) : Bool :=
  q.receipt == some receipt

def ack (s : JobsDb) (receipt : Receipt) : Except JobsError Unit × JobsDb :=
  if s.queue.any (held receipt) then
    (.ok (), { s with queue := s.queue.delete (held receipt) })
  else
    (.error .invalidReceipt, s)

def nack (s : JobsDb) (receipt : Receipt) (delay : Int) : Except JobsError Unit × JobsDb :=
  if s.queue.any (held receipt) then
    (.ok (), s.updateItems (held receipt)
      (fun q => { q with receipt := none, visibleAt := s.now + delay }) (fun _ => rfl))
  else
    (.error .invalidReceipt, s)

def enqueue (s : JobsDb) (id : Uuid) (data : List UInt8) : Except JobsError Uuid × JobsDb :=
  match s.queue.insert ⟨id, data, s.now, none⟩ with
  | some queue => (.ok id, { s with queue := queue })
  | none => (.error .unavailable, s)

end Queue

section Steps

def createStep (s : JobsDb) (id : StepId) (runId : RunId) (name : String) (input : Option Json)
    : Except JobsError Step × JobsDb :=
  let step : Step := ⟨id, runId, name, .running, input, none, none⟩
  match s.steps.insert step with
  | some steps => (.ok step, { s with steps := steps })
  | none => (.error .unavailable, s)

def updateStep (s : JobsDb) (id : StepId) (status : StepStatus) (output : Option Json)
    (error : Option String) : JobsDb :=
  { s with
    steps := s.steps.modify (·.id == id)
      (fun t => { t with status := status, output := output <|> t.output, error := error })
      (fun _ _ => rfl) }

end Steps

def exec (c : Call) (x : Choice) (s : JobsDb) : Except JobsError c.Ret × JobsDb :=
  match c with
  | .utcNow => (.ok s.now, s)
  | .getJob orgId name => (.ok (x.getJob orgId name), s)
  | .getJobById id => (.ok (x.getJobById id), s)
  | .getTriggerByWebhookToken token =>
    (.ok (s.triggers.find? (·.webhookToken == some token)), s)
  | .listDueCronTriggers now => (.ok (s.listDueCronTriggers now), s)
  | .updateTriggerFired id lastTriggeredAt nextTriggerAt =>
    (.ok (), s.updateTriggerFired id lastTriggeredAt nextTriggerAt)
  | .listPendingEventsForOrg orgId limit => (.ok (s.listPendingEventsForOrg orgId limit), s)
  | .matchingTriggers orgId topic =>
    (.ok (s.triggers.select (isMatching x.jobs orgId topic)), s)
  | .consumeEvent id runId => (.ok (), s.consumeEvent id runId)
  | .emitEvent new => s.emitEvent x.id new
  | .countActiveRuns jobId => (.ok (s.runs.count (fun r => r.jobId == jobId && isActive r.status)), s)
  | .createRun new => s.createRun x.id new
  | .getRun id => (.ok (s.findRun id), s)
  | .updateRunStatus id status errorCode errorMessage =>
    (.ok (), s.updateRunStatus id status errorCode errorMessage)
  | .setRunSleeping id wakeupAt => (.ok (), s.setRunSleeping id wakeupAt)
  | .incrementRunAttempt id => (.ok (), s.incrementRunAttempt id)
  | .listSleepingRunsDue now => (.ok (s.runs.select (isSleepingDue now)), s)
  | .createStep runId name input => s.createStep x.id runId name input
  | .getStep runId name => (.ok (s.steps.find? (fun t => t.runId == runId && t.name == name)), s)
  | .updateStep id status output error => (.ok (), s.updateStep id status output error)
  | .listSteps runId => (.ok (s.steps.select (·.runId == runId)), s)
  | .listState runId => (.ok (s.state.select (·.runId == runId)), s)
  | .moveToDlq runId _ => s.moveToDlq x.id runId
  | .insertRunFromDlq dlqId => s.insertRunFromDlq x.id dlqId x
  | .deleteDlq dlqId => (.ok (), { s with dlq := s.dlq.delete (·.id == dlqId) })
  | .writeAuditEvent .. => (.ok (), s)
  | .enqueue data => s.enqueue x.id data
  | .dequeue visibilityTimeout =>
    (.ok (s.dequeue x.id visibilityTimeout).1, (s.dequeue x.id visibilityTimeout).2)
  | .ack receipt => s.ack receipt
  | .nack receipt delay => s.nack receipt delay
  | .invoke _ => (.ok x.response, s)

end JobsDb
end Reactor.Jobs
