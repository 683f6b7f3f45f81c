import ReactorCloud.Deployments.Store

/-!
This module contains what the calls of a service do to its tables, what holds after every history of its
requests and what it means to go back to an earlier deployment.
-/

namespace Reactor.Deployments

open Interleave
open Relational (Table Constrained)
open Rust (Uuid)

namespace DeploymentTable

variable {ds : DeploymentTable} {d e : Deployment} {ownerId : Uuid}

theorem rows_ordered (ds : DeploymentTable) (ownerId : Uuid)
    : (ds.table.select (·.ownerId == ownerId)).Pairwise (fun d e => e.deployedAt < d.deployedAt) :=
  ds.ordered.filter _

/--
The rows are where the order of a query wants them.
-/
theorem list_none (ds : DeploymentTable) (ownerId : Uuid)
    : ds.list ownerId none = ds.table.select (·.ownerId == ownerId) := by
  apply List.Pairwise.insertionSort_eq
  apply (ds.rows_ordered ownerId).imp
  intro d e h
  exact Nat.le_of_lt h

theorem list_some (ds : DeploymentTable) (ownerId : Uuid) (n : Nat)
    : ds.list ownerId (some n) = (ds.list ownerId none).take n := rfl

theorem mem_list : d ∈ ds.list ownerId none ↔ d ∈ ds ∧ d.ownerId = ownerId := by
  rw [list_none, Table.mem_select, beq_iff_eq]
  rfl

theorem list_ordered (ds : DeploymentTable) (ownerId : Uuid)
    : (ds.list ownerId none).Pairwise (fun d e => e.deployedAt < d.deployedAt) := by
  rw [list_none]
  exact ds.rows_ordered ownerId

theorem get_eq_some {id : Uuid} : ds.get id = some d ↔ d ∈ ds ∧ d.id = id := by
  constructor
  . intro h
    exact ⟨Table.mem_of_find? h, by simpa using Table.prop_of_find? h⟩
  . intro ⟨hmem, hid⟩
    apply Table.find?_eq_some hmem
    . simpa using hid
    . intro e he
      simp [Constrained.conflict, hid, (beq_iff_eq.mp he).symm]

theorem eq_of_id (hd : d ∈ ds) (he : e ∈ ds) (h : d.id = e.id) : d = e := by
  apply Table.eq_of_conflict hd he
  simp [Constrained.conflict, h]

/--
No two rows have the same time.
-/
theorem eq_of_deployedAt (hd : d ∈ ds) (he : e ∈ ds) (h : d.deployedAt = e.deployedAt) : d = e := by
  have hne := @List.Pairwise.forall_of_forall_of_flip _ ds.table.rows
    (fun d e : Deployment => d.deployedAt = e.deployedAt → d = e) (fun _ _ _ => rfl)
    (ds.ordered.imp (fun hlt heq => absurd heq (Nat.ne_of_gt hlt)))
    (ds.ordered.imp (fun hlt heq => absurd heq (Nat.ne_of_lt hlt)))
  exact hne hd he h

theorem mem_updateStatus {id : Uuid} {status : DeploymentStatus} (h : d ∈ ds)
    : ∃ d' ∈ ds.updateStatus id status, d'.id = d.id ∧ d'.ownerId = d.ownerId := by
  exists if d.id == id then d.setStatus status else d
  constructor
  . exact @Table.mem_modify_of_mem _ _ _ (·.id == id) _ (Deployment.conflict_setStatus status) _ h
  . split
    . exact ⟨rfl, rfl⟩
    . exact ⟨rfl, rfl⟩

theorem insert_eq_some {ds' : DeploymentTable} {id : Uuid} {version elapsed : Nat}
    (h : ds.insert id ownerId version elapsed = some (e, ds')) : ds.table.insert e = some ds'.table := by
  simp only [insert] at h
  split at h
  . next table hinsert =>
    cases h
    exact hinsert
  . cases h

theorem mem_insert {ds' : DeploymentTable} {id : Uuid} {version elapsed : Nat}
    (h : ds.insert id ownerId version elapsed = some (e, ds')) : d ∈ ds' ↔ d = e ∨ d ∈ ds :=
  Table.mem_insert (insert_eq_some h)

end DeploymentTable

namespace Tables

variable {t : Tables} {o : Owner}

theorem owner_of_getByName {orgId : Uuid} {name : String} (h : t.getByName orgId name = some o)
    : o ∈ t.owners ∧ o.orgId = orgId ∧ o.name = name := by
  have := Table.prop_of_find? h
  simp only [Bool.and_eq_true, beq_iff_eq] at this
  exact ⟨Table.mem_of_find? h, this⟩

theorem find?_owner (h : o ∈ t.owners) : t.owners.find? (·.id == o.id) = some o := by
  apply Table.find?_eq_some h
  . simp
  . intro p hp
    simp [Constrained.conflict, (beq_iff_eq.mp hp).symm]

theorem current_eq (h : o ∈ t.owners) : t.current o.id = o.currentDeploymentId := by
  rw [current, find?_owner h]
  rfl

theorem current_setCurrent_self (h : o ∈ t.owners) (id : Option Uuid)
    : (t.setCurrent o.id id).current o.id = id := by
  have hfind := @Table.find?_modify _ _ t.owners (·.id == o.id) (·.id == o.id) (Owner.setCurrent id)
    (Owner.conflict_setCurrent id) (fun _ => rfl)
  rw [find?_owner h, Option.map_some, if_pos (beq_self_eq_true _)] at hfind
  rw [current, setCurrent, hfind]
  rfl

end Tables

/-! ## The answers to the calls -/

section Answers

variable {E : Type} {database : E} {α : Type} {c : StoreCall}
  {f : c.Ret → Program (storeCalls E) α} {Q : Except E α → Session → Prop} {s : Session}

theorem answer_cases (database : E) (c : StoreCall) (s : Session)
    : ((answer database c s).1 = .error database ∧ (answer database c s).2.tables = s.tables)
        ∨ ∃ r tables, s.tables.exec (s.turns 0) c = some (r, tables)
            ∧ (answer database c s).2.tables = tables
            ∧ ((answer database c s).1 = .ok r ∨ (answer database c s).1 = .error database) := by
  unfold answer
  cases (s.turns 0).outcome with
  | refused => exact .inl ⟨rfl, rfl⟩
  | served =>
    cases h : s.tables.exec (s.turns 0) c with
    | none => exact .inl ⟨rfl, rfl⟩
    | some r => exact .inr ⟨r.1, r.2, rfl, rfl, .inl rfl⟩
  | lost =>
    cases h : s.tables.exec (s.turns 0) c with
    | none => exact .inl ⟨rfl, rfl⟩
    | some r => exact .inr ⟨r.1, r.2, rfl, rfl, .inr rfl⟩

/--
The rule for a call: it fails before or after the tables have changed, or it succeeds.
-/
theorem ensures_store
    (hfail : ∀ s', s'.tables = s.tables → Q (.error database) s')
    (hexec : ∀ r tables, s.tables.exec (s.turns 0) c = some (r, tables) → ∀ s', s'.tables = tables →
      (f r).Ensures (answer database) Q s' ∧ Q (.error database) s')
    : (store c >>= f).Ensures (answer database) Q s := by
  apply Program.ensures_bind
  apply Program.ensures_call
  apply Program.ensures_done
  cases answer_cases database c s with
  | inl h =>
    rw [h.1]
    exact hfail _ h.2
  | inr h =>
    obtain ⟨r, tables, hexec', htables, h | h⟩ := h
    . rw [h]
      exact (hexec r tables hexec' _ htables).1
    . rw [h]
      exact (hexec r tables hexec' _ htables).2

/--
The rule for a call that only reads.
-/
theorem ensures_query {r : c.Ret} (h : ∀ turn, s.tables.exec turn c = some (r, s.tables))
    (hfail : ∀ s', s'.tables = s.tables → Q (.error database) s')
    (hok : ∀ s', s'.tables = s.tables → (f r).Ensures (answer database) Q s')
    : (store c >>= f).Ensures (answer database) Q s := by
  apply ensures_store hfail
  intro r' tables hexec s' htables
  rw [h] at hexec
  cases hexec
  exact ⟨hok s' htables, hfail s' htables⟩

/--
A world in which every call is answered.
-/
def served : Nat → Turn := fun _ => ⟨.served, 0, 0⟩

theorem ensures_served {t t' : Tables} {r : c.Ret} (h : t.exec ⟨.served, 0, 0⟩ c = some (r, t'))
    (hok : (f r).Ensures (answer database) Q ⟨t', served⟩)
    : (store c >>= f).Ensures (answer database) Q ⟨t, served⟩ := by
  apply Program.ensures_bind
  apply Program.ensures_call
  apply Program.ensures_done
  have hanswer : answer database c ⟨t, served⟩ = (.ok r, ⟨t', served⟩) := by
    simp only [answer, served, h]
    rfl
  rw [hanswer]
  exact hok

end Answers

/-! ## Every deployment that is served belongs to whom serves it -/

def Owned (t : Tables) : Prop :=
  ∀ o ∈ t.owners, ∀ id, o.currentDeploymentId = some id →
    ∃ d ∈ t.deployments, d.id = id ∧ d.ownerId = o.id

namespace Owned

variable {t : Tables} {o : Owner} {d : Deployment}

theorem setCurrent (h : Owned t) (hd : d ∈ t.deployments)
    : Owned (t.setCurrent d.ownerId (some d.id)) := by
  intro o ho id hid
  obtain ⟨p, hp, rfl⟩ :=
    (@Table.mem_modify _ _ _ _ _ (Owner.conflict_setCurrent (some d.id)) _).mp ho
  split at hid
  . next heq =>
    cases hid
    rw [if_pos heq]
    exact ⟨d, hd, rfl, (beq_iff_eq.mp heq).symm⟩
  . next hne =>
    rw [if_neg hne]
    exact h p hp id hid

theorem updateStatus (h : Owned t) (id : Uuid) (status : DeploymentStatus)
    : Owned { t with deployments := t.deployments.updateStatus id status } := by
  intro o ho id' hid
  obtain ⟨d, hd, rfl, howner⟩ := h o ho id' hid
  obtain ⟨d', hd', hid', howner'⟩ := DeploymentTable.mem_updateStatus hd
  exact ⟨d', hd', hid', howner'.trans howner⟩

theorem insert {ds : DeploymentTable} {id ownerId : Uuid} {version elapsed : Nat} (h : Owned t)
    (hinsert : t.deployments.insert id ownerId version elapsed = some (d, ds))
    : Owned { t with deployments := ds } := by
  intro o ho id' hid
  obtain ⟨e, he, hid', howner⟩ := h o ho id' hid
  exact ⟨e, (DeploymentTable.mem_insert hinsert).mpr (.inr he), hid', howner⟩

/--
Only the call that sets the current deployment by the identifier of an owner needs care.
-/
theorem exec {c : StoreCall} {turn : Turn} {r : c.Ret} {t' : Tables} (h : Owned t)
    (hexec : t.exec turn c = some (r, t'))
    (hc : ∀ ownerId id, c = .setCurrentDeployment ownerId id →
      ∃ d ∈ t.deployments, d.ownerId = ownerId ∧ id = some d.id)
    : Owned t' := by
  cases c with
  | getByName orgId name =>
    cases hexec
    exact h
  | nextDeploymentVersion ownerId =>
    cases hexec
    exact h
  | createDeployment ownerId version =>
    simp only [Tables.exec] at hexec
    split at hexec
    . rw [Option.map_eq_some_iff] at hexec
      obtain ⟨⟨d, ds⟩, hinsert, heq⟩ := hexec
      cases heq
      exact h.insert hinsert
    . cases hexec
  | getDeployment id =>
    cases hexec
    exact h
  | listDeployments ownerId limit =>
    cases hexec
    exact h
  | updateDeploymentStatus id status =>
    cases hexec
    exact h.updateStatus id status
  | setCurrentDeployment ownerId id =>
    obtain ⟨d, hd, howner, hid⟩ := hc ownerId id rfl
    subst howner hid
    simp only [Tables.exec] at hexec
    split at hexec
    . cases hexec
      exact h.setCurrent hd
    . cases hexec
  | promoteDeployment id =>
    simp only [Tables.exec] at hexec
    split at hexec
    . next d hd =>
      cases hexec
      obtain ⟨hmem, rfl⟩ := DeploymentTable.get_eq_some.mp hd
      exact h.setCurrent hmem
    . cases hexec
      exact h
  | writeAuditEvent eventType =>
    cases hexec
    exact h
  | writeBundle id =>
    cases hexec
    exact h
  | deploy id =>
    cases hexec
    exact h

/--
The condition holds after a program that leaves the care to the other call.
-/
theorem eval {E α : Type} {database : E} {x : Program (storeCalls E) α} {s : Session}
    (h : Owned s.tables) (hx : x.Uses (fun c => ∀ ownerId id, c ≠ StoreCall.setCurrentDeployment ownerId id))
    : Owned (x.eval (answer database) s).2.tables := by
  induction x generalizing s with
  | done r => exact h
  | call c next ih =>
    apply ih _ _ (hx.2 _)
    cases answer_cases database c s with
    | inl hanswer =>
      rw [hanswer.2]
      exact h
    | inr hanswer =>
      obtain ⟨r, tables, hexec, htables, _⟩ := hanswer
      rw [htables]
      exact h.exec hexec (fun ownerId id heq => absurd heq (hx.1 ownerId id))

end Owned

/-! ## The requests of a service one after another -/

structure Service where
  Err : Type
  database : Err
  Op : Type
  program : Op → Program (storeCalls Err) Unit

namespace Service

variable (S : Service)

def perform (op : S.Op) (s : Session) : Except S.Err Unit × Session :=
  (S.program op).eval (answer S.database) s

/--
The tables after the requests, each with what the world adds to its calls.
-/
def after (history : List (S.Op × (Nat → Turn))) (t : Tables) : Tables :=
  history.foldl (fun t (op, turns) => (S.perform op ⟨t, turns⟩).2.tables) t

theorem after_keeps {P : Tables → Prop} {t : Tables} (ht : P t)
    (hop : ∀ op s, P s.tables → P (S.perform op s).2.tables) (history : List (S.Op × (Nat → Turn)))
    : P (S.after history t) := by
  induction history generalizing t with
  | nil => exact ht
  | cons turn history ih => exact ih (hop turn.1 ⟨t, turn.2⟩ ht)

end Service

/--
The owners before anything has been deployed.
-/
def start (owners : Table Owner) : Tables where
  owners := owners.modify (fun _ => true) (Owner.setCurrent none) (Owner.conflict_setCurrent none)
  deployments := .empty

theorem owned_start (owners : Table Owner) : Owned (start owners) := by
  intro o ho id hid
  obtain ⟨p, _, rfl⟩ := (@Table.mem_modify _ _ _ _ _ (Owner.conflict_setCurrent none) _).mp ho
  cases hid

/-! ## Going back -/

/--
The deployment to go back to: the newest of the ready ones that are older than the current one.
-/
structure IsPrevious (t : Tables) (ownerId : Uuid) (d : Deployment) : Prop where
  mem : d ∈ t.deployments
  owner : d.ownerId = ownerId
  ready : d.status = .ready
  older : ∃ c ∈ t.deployments, t.current ownerId = some c.id ∧ d.deployedAt < c.deployedAt
    ∧ ∀ e ∈ t.deployments, e.ownerId = ownerId → e.status = .ready → e.deployedAt < c.deployedAt →
      e.deployedAt ≤ d.deployedAt

/--
The request is refused and the owner serves what it did, or it serves one of the deployments now.
-/
def EndsWith {E α : Type} (P : Deployment → Prop) (t : Tables) (ownerId : Uuid) (r : Except E α)
    (s : Session) : Prop :=
  ((∃ e, r = .error e) ∧ s.tables.current ownerId = t.current ownerId)
    ∨ ∃ d, P d ∧ s.tables.current ownerId = some d.id

theorem EndsWith.of_ok {E α : Type} {P : Deployment → Prop} {t : Tables} {ownerId : Uuid}
    {r : Except E α} {s : Session} {a : α} (h : EndsWith P t ownerId r s) (hr : r = .ok a)
    : ∃ d, P d ∧ s.tables.current ownerId = some d.id := by
  cases h with
  | inl h =>
    obtain ⟨⟨e, he⟩, _⟩ := h
    rw [hr] at he
    cases he
  | inr h => exact h

/--
The request is refused and changes nothing, or it makes an owner serve one of its deployments.
-/
def Serves {E α : Type} (P : Owner → Deployment → Prop) (t : Tables) (r : Except E α) (s : Session)
    : Prop :=
  ((∃ e, r = .error e) ∧ s.tables = t)
    ∨ ∃ o ∈ t.owners, ∃ d ∈ t.deployments, P o d ∧ d.ownerId = o.id
        ∧ s.tables = t.setCurrent o.id (some d.id)

section Serves

variable {E α : Type} {P : Owner → Deployment → Prop} {t : Tables} {r : Except E α} {s : Session}

theorem Serves.refused {e : E} (h : s.tables = t) : Serves P t (.error e : Except E α) s :=
  .inl ⟨⟨e, rfl⟩, h⟩

theorem Serves.owned (h : Serves P t r s) (ht : Owned t) : Owned s.tables := by
  cases h with
  | inl h =>
    rw [h.2]
    exact ht
  | inr h =>
    obtain ⟨o, _, d, hd, _, howner, htables⟩ := h
    rw [htables, ← howner]
    exact ht.setCurrent hd

theorem Serves.endsWith {Q : Deployment → Prop} {o : Owner} (h : Serves P t r s)
    (hP : ∀ p d, d ∈ t.deployments → d.ownerId = p.id → P p d → p = o ∧ Q d)
    : EndsWith Q t o.id r s := by
  cases h with
  | inl h =>
    apply Or.inl
    rw [h.2]
    exact ⟨h.1, rfl⟩
  | inr h =>
    obtain ⟨p, hp, d, hd, hpd, howner, htables⟩ := h
    obtain ⟨rfl, hQ⟩ := hP p d hd howner hpd
    apply Or.inr
    exists d
    rw [htables]
    exact ⟨hQ, Tables.current_setCurrent_self hp _⟩

end Serves

end Reactor.Deployments
