import ReactorCloud.Policy.Eval
import ReactorCloud.Relational.Table
import ReactorCloud.Rust.Json

/-!
This module contains the rows of the jobs store, the items of its queue and its errors.
-/

namespace Reactor.Jobs

open Rust (Json Uuid)

abbrev RunId := Uuid
abbrev JobId := Uuid
abbrev StepId := Uuid

inductive RunStatus where
  | pending
  | queued
  | running
  | sleeping
  | succeeded
  | failed
  | cancelled
deriving DecidableEq, Repr

namespace RunStatus

def isFinal : RunStatus → Bool
  | .succeeded => true
  | .failed => true
  | .cancelled => true
  | _ => false

/--
The statuses `execute_run` goes on with.
-/
def isDue (s : RunStatus) : Bool :=
  s == .pending || s == .sleeping

theorem isFinal_of_isDue {s : RunStatus} (h : s.isDue = true) : s.isFinal = false := by
  cases s <;> simp_all [isDue, isFinal]

end RunStatus

inductive StepStatus where
  | pending
  | running
  | completed
  | failed
  | skipped
deriving DecidableEq, Repr

inductive TriggerKind where
  | cron
  | event
  | webhook
  | manual
deriving DecidableEq, Repr

structure Run where
  id : RunId
  jobId : JobId
  orgId : ReactorId
  triggerId : Option Uuid
  triggerKind : TriggerKind
  status : RunStatus
  payload : Json
  attempt : Int
  maxAttempts : Int
  wakeupAt : Option Int
  errorCode : Option String
  errorMessage : Option String

structure NewRun where
  jobId : JobId
  orgId : ReactorId
  triggerId : Option Uuid
  triggerKind : TriggerKind
  payload : Json
  maxAttempts : Int

structure Job where
  id : JobId
  orgId : ReactorId
  name : String
  functionName : String
  retryMaxAttempts : Int
  maxConcurrency : Int
  timeoutMs : Int

/--
The cast to `u32` wraps around.
-/
def Job.maxConcurrencyU32 (job : Job) : Nat :=
  (job.maxConcurrency % 2 ^ 32).toNat

def stringMember (config : Json) (key : String) : Option String :=
  match config with
  | .object members =>
    match members.lookup key with
    | some (.string s) => some s
    | _ => none
  | _ => none

structure Trigger where
  id : Uuid
  jobId : JobId
  kind : TriggerKind
  config : Json
  webhookToken : Option String
  enabled : Bool
  lastTriggeredAt : Option Int
  nextTriggerAt : Option Int

/--
The member `topic` of the configuration as text. Triggers are created with a string there.
-/
def Trigger.topic (trigger : Trigger) : Option String :=
  stringMember trigger.config "topic"

def Trigger.fired (lastTriggeredAt : Int) (nextTriggerAt : Option Int) (trigger : Trigger)
    : Trigger :=
  { trigger with lastTriggeredAt := some lastTriggeredAt, nextTriggerAt := nextTriggerAt }

/--
A schedule of the cron crate. The next time is one to come.
-/
structure Schedule where
  next : Int → Option Int
  lt_next : ∀ now later, next now = some later → now < later

structure Event where
  id : Uuid
  orgId : ReactorId
  topic : String
  payload : Json
  emittedByRunId : Option RunId
  consumedByRunId : Option RunId
  createdAt : Int
  consumedAt : Option Int

structure NewEvent where
  orgId : ReactorId
  topic : String
  payload : Json
  emittedByRunId : Option RunId

structure Step where
  id : StepId
  runId : RunId
  name : String
  status : StepStatus
  input : Option Json
  output : Option Json
  error : Option String

structure StateEntry where
  runId : RunId
  key : String
  value : Json

structure DlqEntry where
  id : Uuid
  runId : RunId
  jobId : JobId
  orgId : ReactorId
  payload : Json
  errorCode : Option String
  errorMessage : Option String
  attempt : Int

/--
The receipt is made of a prefix and the item.
-/
structure Receipt where
  stamp : Uuid
  item : Uuid
deriving DecidableEq, Repr

/--
A row of the queue. All queues are one.
-/
structure QueueRow where
  id : Uuid
  data : List UInt8
  visibleAt : Int
  receipt : Option Receipt
deriving DecidableEq, Repr

structure QueueItem where
  receipt : Receipt
  data : List UInt8
deriving DecidableEq, Repr

instance : Relational.Constrained Run where
  conflict r s := r.id == s.id
  conflict_comm r s := by simp only [BEq.comm]

instance : Relational.Constrained Step where
  conflict r s := r.id == s.id || (r.runId == s.runId && r.name == s.name)
  conflict_comm r s := by simp only [BEq.comm]

instance : Relational.Constrained StateEntry where
  conflict r s := r.runId == s.runId && r.key == s.key
  conflict_comm r s := by simp only [BEq.comm]

instance : Relational.Constrained DlqEntry where
  conflict r s := r.id == s.id
  conflict_comm r s := by simp only [BEq.comm]

instance : Relational.Constrained Trigger where
  conflict r s := r.id == s.id || (r.webhookToken.isSome && r.webhookToken == s.webhookToken)
  conflict_comm r s := by
    rw [BEq.comm, Bool.eq_iff_iff]
    simp only [Bool.or_eq_true, Bool.and_eq_true, beq_iff_eq]
    constructor
    . rintro (hid | ⟨hsome, htoken⟩)
      . exact .inl hid
      . exact .inr ⟨htoken ▸ hsome, htoken.symm⟩
    . rintro (hid | ⟨hsome, htoken⟩)
      . exact .inl hid
      . exact .inr ⟨htoken ▸ hsome, htoken.symm⟩

instance : Relational.Constrained Event where
  conflict r s := r.id == s.id
  conflict_comm r s := by simp only [BEq.comm]

instance : Relational.Constrained QueueRow where
  conflict r s := r.id == s.id
  conflict_comm r s := by simp only [BEq.comm]

inductive JobsError where
  | jobNotFound (name : String)
  | runNotFound (id : String)
  | runAlreadyComplete (id : String)
  | concurrencyExceeded (job : String)
  | webhookTokenInvalid
  | payloadTooLarge (size max : Nat)
  | permissionDenied (permission : String)
  | invalidReceipt
  | unavailable
  | internal (message : String)
deriving DecidableEq, Repr

/--
The answer of the function behind a job.
-/
structure FunctionResponse where
  status : Nat
  body : String

def FunctionResponse.isSuccess (r : FunctionResponse) : Bool :=
  200 ≤ r.status && r.status < 300

structure JobsConfig where
  functionsUrl : String
  functionsApiKey : String
  maxPayloadBytes : Nat
  visibilityTimeout : Int

structure JobCtx where
  auth : AuthCtx
  orgId : ReactorId

def JobCtx.activeOrg (ctx : JobCtx) : ReactorId :=
  ctx.orgId

def JobCtx.hasPermission (ctx : JobCtx) (permission : String) : Bool :=
  ctx.auth.hasPermission permission

end Reactor.Jobs
