import Mathlib.Data.List.Sort
import ReactorCloud.Interleave.Program
import ReactorCloud.Relational.Table
import ReactorCloud.Rust.Uuid

/-!
This module contains the tables in which `reactor-functions` and `reactor-sites` keep their deployments.
Both services have the same ones: the owner of a deployment is a function in one and a site in the other.
-/

namespace Reactor.Deployments

open Interleave
open Relational (Table Constrained)
open Rust (Uuid)

inductive DeploymentStatus where
  | pending
  | ready
  | failed
  | destroyed
deriving DecidableEq, Repr

def DeploymentStatus.asStr : DeploymentStatus → String
  | .pending => "pending"
  | .ready => "ready"
  | .failed => "failed"
  | .destroyed => "destroyed"

structure Deployment where
  id : Uuid
  ownerId : Uuid
  version : Nat
  status : DeploymentStatus
  deployedAt : Nat
deriving DecidableEq, Repr

def Deployment.setStatus (status : DeploymentStatus) (d : Deployment) : Deployment :=
  { d with status := status }

instance : Constrained Deployment where
  conflict d e := d.id == e.id || (d.ownerId == e.ownerId && d.version == e.version)
  conflict_comm d e := by
    rw [BEq.comm, @BEq.comm _ _ _ d.ownerId, @BEq.comm _ _ _ d.version]

theorem Deployment.conflict_setStatus (status : DeploymentStatus) (d e : Deployment)
    : Constrained.conflict (d.setStatus status) e = Constrained.conflict d e := rfl

/--
A function or a site. Its name is a `CITEXT`, which only the constraint compares without regard to case.
-/
structure Owner where
  id : Uuid
  orgId : Uuid
  name : String
  currentDeploymentId : Option Uuid
deriving DecidableEq, Repr

def Owner.setCurrent (id : Option Uuid) (o : Owner) : Owner :=
  { o with currentDeploymentId := id }

instance : Constrained Owner where
  conflict o p := o.id == p.id || (o.orgId == p.orgId && o.name.toLower == p.name.toLower)
  conflict_comm o p := by
    rw [BEq.comm, @BEq.comm _ _ _ o.orgId, @BEq.comm _ _ _ o.name.toLower]

theorem Owner.conflict_setCurrent (id : Option Uuid) (o p : Owner)
    : Constrained.conflict (o.setCurrent id) p = Constrained.conflict o p := rfl

/--
The rows of `deployments`, the latest first. No two of them have the same `deployed_at`.
-/
structure DeploymentTable where
  table : Table Deployment
  ordered : table.rows.Pairwise (fun d e => e.deployedAt < d.deployedAt)

namespace DeploymentTable

instance : Membership Deployment DeploymentTable where
  mem ds d := d ∈ ds.table

theorem mem_def {ds : DeploymentTable} {d : Deployment} : d ∈ ds ↔ d ∈ ds.table := Iff.rfl

def empty : DeploymentTable :=
  ⟨.empty, .nil⟩

/--
A time after that of every row.
-/
def clock (ds : DeploymentTable) : Nat :=
  ds.table.rows.foldr (fun d now => max (d.deployedAt + 1) now) 0

theorem lt_clock {ds : DeploymentTable} {d : Deployment} (h : d ∈ ds) : d.deployedAt < ds.clock := by
  unfold clock
  rw [mem_def, Table.mem_def] at h
  generalize ds.table.rows = rows at h
  induction rows with
  | nil => cases h
  | cons e rows ih =>
    rw [List.foldr_cons]
    cases h with
    | head => omega
    | tail _ h =>
      have := ih h
      omega

def insert (ds : DeploymentTable) (id ownerId : Uuid) (version elapsed : Nat)
    : Option (Deployment × DeploymentTable) :=
  let d : Deployment := ⟨id, ownerId, version, .pending, ds.clock + elapsed⟩
  match h : ds.table.insert d with
  | some table =>
    let ordered := by
      have hrows : table.rows = d :: ds.table.rows := by
        unfold Table.insert at h
        split at h
        . cases h
          rfl
        . cases h
      rw [hrows]
      apply List.Pairwise.cons
      . intro e he
        exact Nat.lt_of_lt_of_le (lt_clock he) (Nat.le_add_right _ _)
      . exact ds.ordered
    some (d, ⟨table, ordered⟩)
  | none => none

def updateStatus (ds : DeploymentTable) (id : Uuid) (status : DeploymentStatus) : DeploymentTable where
  table := ds.table.modify (·.id == id) (Deployment.setStatus status)
    (Deployment.conflict_setStatus status)
  ordered := by
    have hkeep : ∀ d : Deployment,
        (if d.id == id then d.setStatus status else d).deployedAt = d.deployedAt := by
      intro d
      split <;> rfl
    apply List.pairwise_map.mpr
    apply ds.ordered.imp
    intro d e h
    rw [hkeep, hkeep]
    exact h

/--
`WHERE owner_id = $1 ORDER BY deployed_at DESC LIMIT $2`.
-/
def list (ds : DeploymentTable) (ownerId : Uuid) (limit : Option Nat) : List Deployment :=
  let rows := (ds.table.select (·.ownerId == ownerId)).insertionSort (·.deployedAt ≥ ·.deployedAt)
  match limit with
  | some n => rows.take n
  | none => rows

def nextVersion (ds : DeploymentTable) (ownerId : Uuid) : Nat :=
  ((ds.table.select (·.ownerId == ownerId)).map (·.version)).foldr max 0 + 1

def get (ds : DeploymentTable) (id : Uuid) : Option Deployment :=
  ds.table.find? (·.id == id)

end DeploymentTable

structure Tables where
  owners : Table Owner
  deployments : DeploymentTable

namespace Tables

def getByName (t : Tables) (orgId : Uuid) (name : String) : Option Owner :=
  t.owners.find? (fun o => o.orgId == orgId && o.name == name)

def setCurrent (t : Tables) (ownerId : Uuid) (id : Option Uuid) : Tables :=
  { t with
    owners := t.owners.modify (·.id == ownerId) (Owner.setCurrent id) (Owner.conflict_setCurrent id) }

/--
The deployment an owner serves.
-/
def current (t : Tables) (ownerId : Uuid) : Option Uuid :=
  (t.owners.find? (·.id == ownerId)).bind (·.currentDeploymentId)

end Tables

/-! ## The statements -/

inductive StoreCall where
  | getByName (orgId : Uuid) (name : String)
  | nextDeploymentVersion (ownerId : Uuid)
  | createDeployment (ownerId : Uuid) (version : Nat)
  | getDeployment (id : Uuid)
  | listDeployments (ownerId : Uuid) (limit : Option Nat)
  | updateDeploymentStatus (id : Uuid) (status : DeploymentStatus)
  | setCurrentDeployment (ownerId : Uuid) (id : Option Uuid)
  | promoteDeployment (id : Uuid)
  | writeAuditEvent (eventType : String)
  | writeBundle (id : Uuid)
  | deploy (id : Uuid)

def StoreCall.Ret : StoreCall → Type
  | .getByName .. => Option Owner
  | .nextDeploymentVersion _ => Nat
  | .createDeployment .. => Deployment
  | .getDeployment _ => Option Deployment
  | .listDeployments .. => List Deployment
  | .updateDeploymentStatus .. => Unit
  | .setCurrentDeployment .. => Unit
  | .promoteDeployment _ => Unit
  | .writeAuditEvent _ => Unit
  | .writeBundle _ => Unit
  | .deploy _ => Unit

/--
The statements of a service with the errors `E`, and what else it asks for while it deploys a bundle.
-/
abbrev storeCalls (E : Type) : Interface :=
  ⟨StoreCall, StoreCall.Ret, E⟩

abbrev store {E : Type} (c : StoreCall) : Program (storeCalls E) c.Ret :=
  @Program.request (storeCalls E) c

/--
What the world adds to a call: whether it is answered, the identifier and the time of a new row.
-/
inductive Outcome where
  | served
  | refused
  | lost
deriving DecidableEq, Repr

structure Turn where
  outcome : Outcome
  newId : Uuid
  elapsed : Nat

/--
A statement that violates a constraint has no result and changes nothing.
-/
def Tables.exec (t : Tables) (turn : Turn) : (c : StoreCall) → Option (c.Ret × Tables)
  | .getByName orgId name => some (t.getByName orgId name, t)
  | .nextDeploymentVersion ownerId => some (t.deployments.nextVersion ownerId, t)
  | .createDeployment ownerId version =>
    if t.owners.any (·.id == ownerId) then
      (t.deployments.insert turn.newId ownerId version turn.elapsed).map
        (fun (d, deployments) => (d, { t with deployments := deployments }))
    else
      none
  | .getDeployment id => some (t.deployments.get id, t)
  | .listDeployments ownerId limit => some (t.deployments.list ownerId limit, t)
  | .updateDeploymentStatus id status =>
    some ((), { t with deployments := t.deployments.updateStatus id status })
  | .setCurrentDeployment ownerId id =>
    if id.all (fun id => (t.deployments.get id).isSome) then
      some ((), t.setCurrent ownerId id)
    else
      none
  | .promoteDeployment id =>
    match t.deployments.get id with
    | some d => some ((), t.setCurrent d.ownerId (some id))
    | none => some ((), t)
  | .writeAuditEvent _ => some ((), t)
  | .writeBundle _ => some ((), t)
  | .deploy _ => some ((), t)

/--
A service at work: its tables and what the world will add to its calls.
-/
structure Session where
  tables : Tables
  turns : Nat → Turn

def Session.next (tables : Tables) (s : Session) : Session :=
  ⟨tables, fun n => s.turns (n + 1)⟩

/--
The answer to a call. An answer can be lost on its way back.
-/
def answer {E : Type} (database : E) (c : StoreCall) (s : Session) : Except E c.Ret × Session :=
  match (s.turns 0).outcome, s.tables.exec (s.turns 0) c with
  | .served, some (r, tables) => (.ok r, s.next tables)
  | .served, none => (.error database, s.next s.tables)
  | .refused, _ => (.error database, s.next s.tables)
  | .lost, some (_, tables) => (.error database, s.next tables)
  | .lost, none => (.error database, s.next s.tables)

end Reactor.Deployments
