import ReactorCloud.Functions.Types
import ReactorCloud.Interleave.Rely

/-!
This module contains the Bun runtime. What is done under the lock of the pools without waiting for
anything else is one call. A future that is dropped is a process that is stopped.
-/

namespace Reactor.Functions

open Interleave
open Interleave.Program (attempt fail ofExcept)
open Rust (Uuid)

/--
What an invocation finds in the pool.
-/
inductive Acquired where
  | found (socketPath : SocketPath)
  | spawn
  | full
  | missing
deriving DecidableEq

inductive Call where
  | deploy (id : DeploymentId)
  | acquire (id : DeploymentId)
  | spawnInstance (id : DeploymentId)
  | addBusy (id : DeploymentId) (socketPath : SocketPath)
  | invokeOverSocket (socketPath : SocketPath) (request : IncomingRequest)
  | release (id : DeploymentId) (socketPath : SocketPath)
  | planWarm (id : DeploymentId) (count : UInt32)
  | addWarm (id : DeploymentId) (socketPath : SocketPath)
  | evictIdle
  | removePool (id : DeploymentId)
  | exit (socketPath : SocketPath)

@[reducible]
def Call.Ret : Call → Type
  | .deploy _ => Unit
  | .acquire _ => Acquired
  | .spawnInstance _ => SocketPath
  | .addBusy .. => Unit
  | .invokeOverSocket .. => OutgoingResponse
  | .release .. => Unit
  | .planWarm .. => Option Nat
  | .addWarm .. => Unit
  | .evictIdle => Unit
  | .removePool _ => Unit
  | .exit _ => Unit

abbrev calls : Interface where
  Call := Call
  Ret := Call.Ret
  Err := FunctionsError

abbrev FnM (α : Type) := Program calls α

abbrev query (c : Call) : FnM c.Ret :=
  @Program.request calls c

section Runtime

variable (handle : DeploymentHandle)

def notFound : FunctionsError :=
  .deploymentNotFound handle.deploymentId.hyphenated

/--
The lock is held while an instance is spawned.
-/
def acquireInstance : FnM (SocketPath × Bool) := do
  match ← query (.acquire handle.deploymentId) with
  | .found socketPath => pure (socketPath, false)
  | .full => fail (.runtimeError "all instances busy and pool is full")
  | .missing => fail (notFound handle)
  | .spawn =>
    let socketPath ← query (.spawnInstance handle.deploymentId)
    query (.addBusy handle.deploymentId socketPath)
    pure (socketPath, true)

def invoke (request : IncomingRequest) : FnM InvokeResult := do
  let (socketPath, coldStart) ← acquireInstance handle
  let result ← (query (.invokeOverSocket socketPath request)).attempt
  query (.release handle.deploymentId socketPath)
  let response ← ofExcept result
  pure ⟨response, coldStart⟩

/--
An instance that cannot be spawned is left out.
-/
def spawnWarm : Nat → FnM Unit
  | 0 => pure ()
  | n + 1 => do
    match ← (query (.spawnInstance handle.deploymentId)).attempt with
    | .ok socketPath => query (.addWarm handle.deploymentId socketPath)
    | .error _ => pure ()
    spawnWarm n

def warm (count : UInt32) : FnM Unit := do
  match ← query (.planWarm handle.deploymentId count) with
  | some toSpawn => spawnWarm handle toSpawn
  | none => fail (notFound handle)

end Runtime

inductive Request where
  | deploy (id : DeploymentId)
  | invoke (handle : DeploymentHandle) (request : IncomingRequest)
  | warm (handle : DeploymentHandle) (count : UInt32)
  | evict
  | destroy (handle : DeploymentHandle)
  | exit (socketPath : SocketPath)

def Request.Reply : Request → Type
  | .invoke .. => InvokeResult
  | _ => Unit

/--
One round of the eviction is one request, and so is the end of a process.
-/
def program : (req : Request) → FnM req.Reply
  | .deploy id => query (.deploy id)
  | .invoke handle request => invoke handle request
  | .warm handle count => warm handle count
  | .evict => query .evictIdle
  | .destroy handle => query (.removePool handle.deploymentId)
  | .exit socketPath => query (.exit socketPath)

/--
The pools with the process that holds their lock for longer, the sockets that were ever made and those
whose process has exited.
-/
structure BunState where
  now : Nat
  pools : DeploymentId → Option DeploymentPool
  writer : Option Nat
  sockets : List SocketPath
  exited : List SocketPath

/--
The identifier of a new socket and the answer of the function.
-/
structure Choice where
  id : Uuid
  response : OutgoingResponse

namespace BunState

def start (now : Nat) : BunState :=
  ⟨now, fun _ => none, none, [], []⟩

def setPool (s : BunState) (id : DeploymentId) (pool : Option DeploymentPool) : BunState :=
  { s with pools := Function.update s.pools id pool }

def acquire (config : BunRuntimeConfig) (pid : Nat) (id : DeploymentId) (s : BunState)
    : Acquired × BunState :=
  match s.pools id with
  | none => (.missing, s)
  | some pool =>
    match modifyFirst BunInstance.isAvailable (.setBusy true s.now) pool.instances with
    | some (i, instances) => (.found i.socketPath, s.setPool id (some { pool with instances := instances }))
    | none =>
      let s := s.setPool id (some { pool with coldStarts := pool.coldStarts + 1 })
      if config.maxInstancesPerFn.toNat ≤ pool.instances.length then
        (.full, s)
      else
        (.spawn, { s with writer := some pid })

def push (id : DeploymentId) (socketPath : SocketPath) (busy : Bool) (s : BunState) : BunState :=
  s.setPool id ((s.pools id).map (fun pool =>
    { pool with instances := pool.instances ++ [⟨socketPath, busy, s.now, false⟩] }))

def release (id : DeploymentId) (socketPath : SocketPath) (s : BunState) : BunState :=
  match s.pools id with
  | none => s
  | some pool =>
    match modifyFirst (·.socketPath == socketPath) (.setBusy false s.now) pool.instances with
    | some (_, instances) => s.setPool id (some { pool with instances := instances })
    | none => s

/--
The length is that of a `u32`. The limit bounds what is spawned, not what there is.
-/
def toSpawn (config : BunRuntimeConfig) (pool : DeploymentPool) (count : UInt32) : Nat :=
  min (count.toNat - pool.instances.length % 4294967296) config.maxInstancesPerFn.toNat

def isIdle (config : BunRuntimeConfig) (now : Nat) (i : BunInstance) : Bool :=
  decide (config.idleTtlSecs < now - i.lastActivity) && !i.busy

def evictIdle (config : BunRuntimeConfig) (s : BunState) : BunState :=
  { s with
    pools := fun id => (s.pools id).map (fun pool =>
      { pool with instances := pool.instances.filter (fun i => !isIdle config s.now i) }) }

def exit (socketPath : SocketPath) (s : BunState) : BunState :=
  if socketPath ∈ s.sockets then { s with exited := socketPath :: s.exited } else s

/--
The lock is waited for by all that need it. Names of sockets are new ones.
-/
def exec (config : BunRuntimeConfig) (pid : Nat) (c : Call) (x : Choice) (s : BunState)
    : Option (Except FunctionsError c.Ret × BunState) :=
  match c with
  | .deploy id => if s.writer.isSome then none else some (.ok (), s.setPool id (some .empty))
  | .acquire id =>
    if s.writer.isSome then none
    else some (.ok (s.acquire config pid id).1, (s.acquire config pid id).2)
  | .spawnInstance _ =>
    if x.id ∈ s.sockets then none else some (.ok x.id, { s with sockets := x.id :: s.sockets })
  | .addBusy id socketPath =>
    if s.writer = some pid then some (.ok (), { s.push id socketPath true with writer := none })
    else none
  | .invokeOverSocket .. => some (.ok x.response, s)
  | .release id socketPath =>
    if s.writer.isSome then none else some (.ok (), s.release id socketPath)
  | .planWarm id count =>
    if s.writer.isSome then none
    else
      match s.pools id with
      | none => some (.ok none, s)
      | some pool => some (.ok (some (toSpawn config pool count)), { s with writer := some pid })
  | .addWarm id socketPath =>
    if s.writer = some pid then some (.ok (), s.push id socketPath false) else none
  | .evictIdle => if s.writer.isSome then none else some (.ok (), s.evictIdle config)
  | .removePool id => if s.writer.isSome then none else some (.ok (), s.setPool id none)
  | .exit socketPath => some (.ok (), s.exit socketPath)

end BunState

/--
A process that is done or stopped lets go of the lock.
-/
def system (config : BunRuntimeConfig) : System calls where
  State := BunState
  Request := Request
  Reply := Request.Reply
  program := program
  Choice := Choice
  exec pid c x s := s.exec config pid c x
  failure := .runtimeError "failed"
  release pid s := if s.writer = some pid then { s with writer := none } else s
  Tick := Nat
  tick d s := { s with now := s.now + d }

end Reactor.Functions
