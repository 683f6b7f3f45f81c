import ReactorCloud.Rust.Uuid

/-!
This module contains the instances of the Bun runtime and the pools they are kept in.
-/

namespace Reactor.Functions

open Rust (Uuid)

abbrev DeploymentId := Uuid

/--
The identifier in the name of the socket. The directory and the rest of the name say nothing more.
-/
abbrev SocketPath := Uuid

inductive FunctionsError where
  | functionNotFound (name : String)
  | deploymentNotFound (id : String)
  | runtimeError (message : String)
  | coldStartFailed (message : String)
  | permissionDenied (permission : String)
  | invalidRequest (message : String)
  | deploymentNotReady
  | requestBodyTooLarge (size max : Nat)
  | tooManyRequests (retryAfter : Nat)
  | unsupportedRuntime (name : String)
  | internal (message : String)
  | database
deriving DecidableEq, Repr

structure BunRuntimeConfig where
  idleTtlSecs : Nat
  maxInstancesPerFn : UInt32

structure BunInstance where
  socketPath : SocketPath
  busy : Bool
  lastActivity : Nat
  shuttingDown : Bool
deriving DecidableEq, Repr

def BunInstance.isAvailable (i : BunInstance) : Bool :=
  !i.busy && !i.shuttingDown

def BunInstance.setBusy (busy : Bool) (now : Nat) (i : BunInstance) : BunInstance :=
  { i with busy := busy, lastActivity := now }

structure DeploymentPool where
  instances : List BunInstance
  coldStarts : Nat
deriving DecidableEq, Repr

def DeploymentPool.empty : DeploymentPool :=
  ⟨[], 0⟩

structure DeploymentHandle where
  deploymentId : DeploymentId
  functionName : String

structure IncomingRequest where
  method : String
  path : String
  headers : List (String × String)
  body : Option (List UInt8)

structure OutgoingResponse where
  status : Nat
  headers : List (String × String)
  body : List UInt8

structure InvokeResult where
  response : OutgoingResponse
  coldStart : Bool

/--
The first instance that satisfies `p` is found and changed in its place.
-/
def modifyFirst (p : BunInstance → Bool) (f : BunInstance → BunInstance)
    : List BunInstance → Option (BunInstance × List BunInstance)
  | [] => none
  | i :: is =>
    if p i then
      some (i, f i :: is)
    else
      (modifyFirst p f is).map (fun (j, js) => (j, i :: js))

theorem modifyFirst_eq_some {p : BunInstance → Bool} {f : BunInstance → BunInstance}
    {is js : List BunInstance} {i : BunInstance} (h : modifyFirst p f is = some (i, js))
    : ∃ front back, is = front ++ i :: back ∧ js = front ++ f i :: back ∧ p i = true := by
  induction is generalizing js with
  | nil => cases h
  | cons j is ih =>
    unfold modifyFirst at h
    split at h
    . next hp =>
      cases h
      exact ⟨[], is, rfl, rfl, hp⟩
    . rw [Option.map_eq_some_iff] at h
      obtain ⟨⟨k, ks⟩, hrest, heq⟩ := h
      cases heq
      obtain ⟨front, back, his, hks, hp⟩ := ih hrest
      refine ⟨j :: front, back, ?_, ?_, hp⟩
      . rw [his, List.cons_append]
      . rw [hks, List.cons_append]

theorem modifyFirst_eq_none {p : BunInstance → Bool} {f : BunInstance → BunInstance}
    {is : List BunInstance} (h : modifyFirst p f is = none) : ∀ i ∈ is, p i = false := by
  induction is with
  | nil =>
    intro i hi
    cases hi
  | cons j is ih =>
    unfold modifyFirst at h
    split at h
    . cases h
    . next hp =>
      rw [Option.map_eq_none_iff] at h
      intro i hi
      cases hi with
      | head => simpa using hp
      | tail _ hi => exact ih h i hi

end Reactor.Functions
