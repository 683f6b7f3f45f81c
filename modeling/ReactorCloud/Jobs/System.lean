import ReactorCloud.Interleave.Rely
import ReactorCloud.Jobs.Store

/-!
This module contains the jobs service as a system of processes: the loops of the scheduler, one round of
each, the workers and the requests of clients and functions.
-/

namespace Reactor.Jobs

open Interleave
open Rust (Json Uuid)

def wakeRuns : List Run → JobsM Unit
  | [] => pure ()
  | run :: runs => do
    query (.updateRunStatus run.id .pending none none)
    let _ ← query (.enqueue run.id.asBytes)
    wakeRuns runs

def pollSleepingRuns : JobsM Unit := do
  let now ← query .utcNow
  let runs ← query (.listSleepingRunsDue now)
  wakeRuns runs

/--
A trigger fires unless its job is gone or has enough runs.
-/
def fireTrigger (trigger : Trigger) (kind : TriggerKind) (payload : Json)
    (fired : Run → JobsM Unit) : JobsM Unit := do
  match ← query (.getJobById trigger.jobId) with
  | none => pure ()
  | some job =>
    let activeRuns ← query (.countActiveRuns job.id)
    if job.maxConcurrencyU32 ≤ activeRuns then
      pure ()
    else
      let run ← createAndEnqueue
        ⟨job.id, job.orgId, some trigger.id, kind, payload, job.retryMaxAttempts⟩
      fired run

def fireTriggers (kind : TriggerKind) (payload : Json) (fired : Trigger → Run → JobsM Unit)
    : List Trigger → JobsM Unit
  | [] => pure ()
  | trigger :: triggers => do
    fireTrigger trigger kind payload (fired trigger)
    fireTriggers kind payload fired triggers

section Cron

variable (parseSchedule : String → Option Schedule)

def computeNextTrigger (config : Json) (now : Int) : Option Int := do
  let schedule ← stringMember config "schedule"
  let schedule ← parseSchedule schedule
  schedule.next now

/--
The next time is computed from the time it is then, not from the time of the poll.
-/
def triggerFired (now : Int) (trigger : Trigger) : JobsM Unit := do
  let later ← query .utcNow
  query (.updateTriggerFired trigger.id now (computeNextTrigger parseSchedule trigger.config later))

def pollCronTriggers : JobsM Unit := do
  let now ← query .utcNow
  let triggers ← query (.listDueCronTriggers now)
  fireTriggers .cron (.object []) (fun trigger _ => triggerFired parseSchedule now trigger) triggers

end Cron

def matchEvents : List Event → JobsM Unit
  | [] => pure ()
  | event :: events => do
    let triggers ← query (.matchingTriggers event.orgId event.topic)
    fireTriggers .event event.payload (fun _ run => query (.consumeEvent event.id run.id)) triggers
    matchEvents events

def pollEvents : JobsM Unit := do
  let events ← query (.listPendingEventsForOrg 0 100)
  matchEvents events

/-! The worker takes a run from the queue and executes it -/

open Interleave.Program (attempt okOr)

variable (config : JobsConfig)

/--
The completed steps with their output.
-/
def stepCache (steps : List Step) : List (String × Json) :=
  (steps.filter (fun s => s.status == .completed)).filterMap
    (fun s => s.output.map (fun output => (s.name, output)))

def jobContext (run : Run) (job : Job) (steps : List Step) (state : List StateEntry) : Json :=
  .object [
    ("run_id", .string run.id.hyphenated),
    ("job_name", .string job.name),
    ("attempt", .number (.ofI64 (Int64.ofInt run.attempt))),
    ("step_cache", .object (stepCache steps)),
    ("state", .object (state.map (fun e => (e.key, e.value))))]

/--
What becomes of a run after the answer of its function.
-/
def settle (runId : RunId) (run : Run) (response : FunctionResponse) : JobsM Unit := do
  if response.isSuccess then
    query (.updateRunStatus runId .succeeded none none)
  else if run.attempt < run.maxAttempts then
    query (.incrementRunAttempt runId)
  else do
    query (.updateRunStatus runId .failed (some "max_attempts_exceeded") (some response.body))
    query (.moveToDlq runId response.body)

def executeRun (runId : RunId) : JobsM Unit := do
  let run ← query (.getRun runId)
  let run ← okOr run (.runNotFound runId.hyphenated)
  if run.status.isDue then
    let job ← query (.getJobById run.jobId)
    let job ← okOr job (.jobNotFound run.jobId.hyphenated)
    query (.updateRunStatus runId .running none none)
    let steps ← query (.listSteps runId)
    let state ← query (.listState runId)
    let response ← query (.invoke {
      url := config.functionsUrl ++ "/fn/v1/" ++ job.functionName,
      apiKey := config.functionsApiKey,
      context := jobContext run job steps state,
      payload := run.payload,
      timeoutMs := job.timeoutMs })
    settle runId run response
  else
    pure ()

/--
The answers of `ack` and `nack` are not looked at.
-/
def processNextRun : JobsM Unit := do
  match ← (query (.dequeue config.visibilityTimeout)).attempt with
  | .error _ => pure ()
  | .ok [] => pure ()
  | .ok (item :: _) =>
    match Uuid.fromSlice item.data with
    | none =>
      let _ ← (query (.ack item.receipt)).attempt
      pure ()
    | some runId =>
      match ← (executeRun config runId).attempt with
      | .ok () =>
        let _ ← (query (.ack item.receipt)).attempt
        pure ()
      | .error _ =>
        let _ ← (query (.nack item.receipt 5000)).attempt
        pure ()

end Reactor.Jobs

/-! The system -/

namespace Reactor.Jobs

open Interleave
open Rust (Json Uuid)

inductive Request where
  | work
  | pollSleepingRuns
  | pollCronTriggers
  | pollEvents
  | manualTrigger (ctx : JobCtx) (name : String) (payload : Json)
  | webhookTrigger (token : String) (body : List UInt8)
  | cancelRun (ctx : JobCtx) (name : String) (runId : RunId)
  | retryRun (ctx : JobCtx) (name : String) (runId : RunId)
  | retryDlq (ctx : JobCtx) (name : String) (dlqId : Uuid)
  | deleteDlq (ctx : JobCtx) (name : String) (dlqId : Uuid)
  | createStep (runId : RunId) (name : String)
  | updateStep (id : StepId) (status : String) (output : Option Json) (error : Option String)
  | emitEvent (runId : RunId) (topic : String) (payload : Json)
  | requestSleep (runId : RunId) (name : String) (durationMs : Int)

def Request.Reply : Request → Type
  | .work => Unit
  | .pollSleepingRuns => Unit
  | .pollCronTriggers => Unit
  | .pollEvents => Unit
  | .manualTrigger .. => Run
  | .webhookTrigger .. => Run
  | .cancelRun .. => Run
  | .retryRun .. => Run
  | .retryDlq .. => Run
  | .deleteDlq .. => Unit
  | .createStep .. => StepId
  | .updateStep .. => Unit
  | .emitEvent .. => Unit
  | .requestSleep .. => Unit

/--
The configuration and the functions of other crates.
-/
structure Env where
  config : JobsConfig
  decodeWebhookToken : String → Option JobId
  parsePayload : List UInt8 → Json
  parseSchedule : String → Option Schedule

def program (env : Env) : (req : Request) → JobsM req.Reply
  | .work => processNextRun env.config
  | .pollSleepingRuns => pollSleepingRuns
  | .pollCronTriggers => pollCronTriggers env.parseSchedule
  | .pollEvents => pollEvents
  | .manualTrigger ctx name payload => manualTrigger ctx name payload
  | .webhookTrigger token body =>
    webhookTrigger env.config env.decodeWebhookToken env.parsePayload token body
  | .cancelRun ctx name runId => cancelRun ctx name runId
  | .retryRun ctx name runId => retryRun ctx name runId
  | .retryDlq ctx name dlqId => retryDlq ctx name dlqId
  | .deleteDlq ctx name dlqId => deleteDlq ctx name dlqId
  | .createStep runId name => createStep runId name
  | .updateStep id status output error => updateStep id status output error
  | .emitEvent runId topic payload => emitEvent runId topic payload
  | .requestSleep runId name durationMs => requestSleep runId name durationMs

/--
Time passes by itself, and a process that goes leaves nothing locked.
-/
def system (env : Env) : System calls where
  State := JobsDb
  Request := Request
  Reply := Request.Reply
  program := program env
  Choice := Choice
  exec _ c x s := some (s.exec c x)
  failure := .unavailable
  release _ s := s
  Tick := Nat
  tick d s := { s with now := s.now + d }

/--
The event is where a process fails or is stopped.
-/
def breaks {env : Env} : Interleave.Event (system env) → Bool
  | .call _ _ (.error _) => true
  | .crash _ => true
  | _ => false

/--
What a call leaves alone and what it makes are both kept by whatever is answered.
-/
theorem answers_keep {env : Env} {pid : Nat} {c : Call} {r : Except JobsError c.Ret} {s s' : JobsDb}
    {P : JobsDb → Prop} (h : Answers (system env) pid c s r s') (hs : P s)
    (hexec : ∀ x, P (s.exec c x).2) : P s' := by
  cases h.effect with
  | inl heq => exact heq ▸ hs
  | inr heffect =>
    obtain ⟨x, r', hx⟩ := heffect
    have := hexec x
    simp only [system, Option.some.injEq] at hx
    rw [hx] at this
    exact this

theorem exec_of_answers {env : Env} {pid : Nat} {c : Call} {a : c.Ret} {s s' : JobsDb}
    (h : Answers (system env) pid c s (.ok a) s') : ∃ x, s.exec c x = (.ok a, s') := by
  obtain ⟨x, hx⟩ := h.ok
  exact ⟨x, Option.some.inj hx⟩

/--
The environment and the client of the runs that are looked at one by one.
-/
def Env.plain : Env where
  config := ⟨"", "", 1024, 30000⟩
  decodeWebhookToken _ := none
  parsePayload _ := .null
  parseSchedule _ := none

def JobCtx.owner : JobCtx :=
  ⟨⟨some 1, some 10, none, ["*"]⟩, 10⟩

/--
The identifier of a new row and the status the function answers with. There is one job, which is
tried twice.
-/
def Choice.plain (id : Uuid) (status : Nat) : Choice :=
  ⟨id, [⟨3, 10, "mail", "mail", 2, 5, 1000⟩], ⟨status, ""⟩⟩

/--
The process `pid` makes its next `n` calls.
-/
def goesOn (pid n : Nat) (x : Choice) : List (Move (system .plain)) :=
  List.replicate n (.call pid x)

/--
The process `pid` serves a request with `n` calls.
-/
def serves (pid : Nat) (req : Request) (n : Nat) (x : Choice) : List (Move (system .plain)) :=
  .spawn req :: goesOn pid n x ++ [.finish pid]

end Reactor.Jobs
