import Mathlib.Logic.Function.Basic
import ReactorCloud.Interleave.Machine
import ReactorCloud.Rust.Uuid

/-!
This module contains the quota service: the limits of a tenant, the map of the quota states and the
slots of running functions. Every operation on the map and on a counter is one step of a task.
-/

namespace Reactor.Server.Quota

open Interleave (Machine)

abbrev ProjectId := Rust.Uuid

structure QuotaLimits where
  requestsPerMinute : UInt32
  concurrentFunctions : UInt32
  dbConnections : UInt32
  storageBytes : UInt64
  bandwidthBytesPerMonth : UInt64

namespace QuotaLimits

/-- `u32::MAX` -/
def u32Max : UInt32 := 4294967295

/-- `u64::MAX` -/
def u64Max : UInt64 := 18446744073709551615

def freeTier : QuotaLimits where
  requestsPerMinute := 1000
  concurrentFunctions := 10
  dbConnections := 5
  storageBytes := 1073741824
  bandwidthBytesPerMonth := 5368709120

def unlimited : QuotaLimits where
  requestsPerMinute := u32Max
  concurrentFunctions := u32Max
  dbConnections := 100
  storageBytes := u64Max
  bandwidthBytesPerMonth := u64Max

def isUnlimited (limits : QuotaLimits) : Bool :=
  limits.requestsPerMinute == u32Max

end QuotaLimits

structure QuotaServiceConfig where
  freeTierLimits : QuotaLimits := .freeTier
  dedicatedTierLimits : Option QuotaLimits := none

def QuotaServiceConfig.limitsFor (config : QuotaServiceConfig) (isDedicated : Bool) : QuotaLimits :=
  if isDedicated then config.dedicatedTierLimits.getD .unlimited else config.freeTierLimits

/--
The configuration of the service and the tier of every project.
-/
structure Env where
  config : QuotaServiceConfig
  isDedicated : ProjectId → Bool

def Env.limits (env : Env) (p : ProjectId) : QuotaLimits :=
  env.config.limitsFor (env.isDedicated p)

/--
The guard of a slot. A quota state is known by the number of its `Arc`.
-/
structure FunctionGuard where
  projectId : ProjectId
  state : Option Nat
deriving DecidableEq

/--
The two calls that look for the quota state of a project.
-/
inductive Call where
  | tryAcquireFunction
  | checkRequest
deriving DecidableEq

/--
The operation a task comes to next.
-/
inductive Task where
  /-- `tenants.get` in `get_or_create` -/
  | get (call : Call) (p : ProjectId)
  /-- `tenants.insert` in `get_or_create` -/
  | insert (call : Call) (p : ProjectId)
  /-- `concurrent_functions.load` -/
  | load (p : ProjectId) (s : Nat)
  /-- `concurrent_functions.compare_exchange_weak` -/
  | swap (p : ProjectId) (s : Nat) (current : Int32)
  /-- `request_bucket.try_consume` -/
  | consume (p : ProjectId) (s : Nat)
deriving DecidableEq

def Call.found (call : Call) (p : ProjectId) (s : Nat) : Task :=
  match call with
  | .tryAcquireFunction => .load p s
  | .checkRequest => .consume p s

inductive Event where
  | quiet
  | acquired (p : ProjectId)
  | refused (p : ProjectId)
  | checked (p : ProjectId) (allowed : Bool)
  | dropped (p : ProjectId)
deriving DecidableEq

/--
The quota states and the live guards. The numbers from `nextState` on are not in use.
-/
structure Slots where
  tenants : ProjectId → Option Nat
  concurrentFunctions : Nat → Int32
  nextState : Nat
  guards : List FunctionGuard

namespace Slots

def init : Slots where
  tenants := fun _ => none
  concurrentFunctions := fun _ => 0
  nextState := 0
  guards := []

/--
A new quota state with no function running takes the place of what the map has for the project.
-/
def insertState (slots : Slots) (p : ProjectId) : Slots :=
  { slots with
    tenants := Function.update slots.tenants p (some slots.nextState),
    concurrentFunctions := Function.update slots.concurrentFunctions slots.nextState 0,
    nextState := slots.nextState + 1 }

def setCounter (slots : Slots) (s : Nat) (n : Int32) : Slots :=
  { slots with concurrentFunctions := Function.update slots.concurrentFunctions s n }

def addGuard (slots : Slots) (g : FunctionGuard) : Slots :=
  { slots with guards := g :: slots.guards }

def clearTenant (slots : Slots) (p : ProjectId) : Slots :=
  { slots with tenants := Function.update slots.tenants p none }

def dropGuard (slots : Slots) (i : Nat) (g : FunctionGuard) : Slots :=
  let slots := { slots with guards := slots.guards.eraseIdx i }
  match g.state with
  | some s => slots.setCounter s (slots.concurrentFunctions s - 1)
  | none => slots

end Slots

/--
The numbers from `nextTask` on are not in use.
-/
structure State where
  slots : Slots
  tasks : Nat → Option Task
  nextTask : Nat

inductive Move where
  | tryAcquireFunction (p : ProjectId)
  | checkRequest (p : ProjectId)
  /-- The exchange of the task can fail for no reason, and the bucket may be empty. -/
  | run (t : Nat) (spurious : Bool) (allowed : Bool)
  | drop (i : Nat)
  | clearTenant (p : ProjectId)
deriving DecidableEq

namespace State

def init : State :=
  ⟨.init, fun _ => none, 0⟩

def spawn (st : State) (task : Task) : State :=
  { st with tasks := Function.update st.tasks st.nextTask (some task), nextTask := st.nextTask + 1 }

/--
The task `t` comes to its next operation, or to its end, and leaves the slots as given.
-/
def goTo (st : State) (t : Nat) (task : Option Task) (slots : Slots) : State :=
  { st with slots := slots, tasks := Function.update st.tasks t task }

def withSlots (st : State) (slots : Slots) : State :=
  { st with slots := slots }

end State

def startAcquire (env : Env) (p : ProjectId) (st : State) : Event × State :=
  if (env.limits p).concurrentFunctions == QuotaLimits.u32Max then
    (.acquired p, st.withSlots (st.slots.addGuard ⟨p, none⟩))
  else
    (.quiet, st.spawn (.get .tryAcquireFunction p))

def startCheck (env : Env) (p : ProjectId) (st : State) : Event × State :=
  if (env.limits p).isUnlimited then
    (.checked p true, st)
  else
    (.quiet, st.spawn (.get .checkRequest p))

/--
What the operation of a task answers, where the task goes and what the slots become.
-/
def operate (env : Env) (task : Task) (spurious allowed : Bool) (slots : Slots)
    : Event × Option Task × Slots :=
  match task with
  | .get call p =>
    match slots.tenants p with
    | some s => (.quiet, some (call.found p s), slots)
    | none => (.quiet, some (.insert call p), slots)
  | .insert call p => (.quiet, some (call.found p slots.nextState), slots.insertState p)
  | .load p s =>
    let current := slots.concurrentFunctions s
    if current ≥ (env.limits p).concurrentFunctions.toInt32 then
      (.refused p, none, slots)
    else
      (.quiet, some (.swap p s current), slots)
  | .swap p s current =>
    if !spurious && slots.concurrentFunctions s == current then
      (.acquired p, none, (slots.setCounter s (current + 1)).addGuard ⟨p, some s⟩)
    else
      (.quiet, some (.load p s), slots)
  | .consume p _ => (.checked p allowed, none, slots)

def runTask (env : Env) (t : Nat) (task : Task) (spurious allowed : Bool) (st : State)
    : Event × State :=
  let (e, next, slots) := operate env task spurious allowed st.slots
  (e, st.goTo t next slots)

def step (env : Env) : Move → State → Option (Event × State)
  | .tryAcquireFunction p, st => some (startAcquire env p st)
  | .checkRequest p, st => some (startCheck env p st)
  | .run t spurious allowed, st =>
    (st.tasks t).map (fun task => runTask env t task spurious allowed st)
  | .drop i, st =>
    st.slots.guards[i]?.map
      (fun g => (.dropped g.projectId, st.withSlots (st.slots.dropGuard i g)))
  | .clearTenant p, st => some (.quiet, st.withSlots (st.slots.clearTenant p))

def machine (env : Env) : Machine State Move Event :=
  ⟨State.init, step env⟩

end Reactor.Server.Quota
