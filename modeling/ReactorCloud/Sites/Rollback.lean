import ReactorCloud.Deployments.History
import ReactorCloud.Policy.Eval

/-!
This module contains the routes that create the deployments of a site, promote one and roll back to one, and
the deployments that a rollback of a site can end with.
-/

namespace Reactor.Sites

open Interleave
open Interleave.Program (okOr require)
open Reactor.Deployments
open Rust (Uuid)

inductive SitesError where
  | siteNotFound (name : String)
  | deploymentNotFound (id : String)
  | deploymentNotReady (id : String)
  | permissionDenied (permission : String)
  | database
deriving DecidableEq, Repr

structure SiteCtx where
  auth : AuthCtx
  orgId : ReactorId

def SiteCtx.activeOrg (ctx : SiteCtx) : Uuid :=
  ctx.orgId

def SiteCtx.hasPermission (ctx : SiteCtx) (permission : String) : Bool :=
  ctx.auth.hasPermission permission

abbrev Handler (α : Type) :=
  Program (storeCalls SitesError) α

def getSite (ctx : SiteCtx) (name : String) : Handler Owner := do
  let site ← store (.getByName ctx.activeOrg name)
  okOr site (.siteNotFound name)

def createDeployment (ctx : SiteCtx) (name : String) : Handler Deployment := do
  let perm := "sites:" ++ name ++ ":deploy"
  require (ctx.hasPermission perm) (.permissionDenied perm)
  let site ← getSite ctx name
  let version ← store (.nextDeploymentVersion site.id)
  let deployment ← store (.createDeployment site.id version)
  store (.writeAuditEvent "deployment.create")
  pure deployment

/--
The deployment a request is about, if it is one of the site.
-/
def siteDeployment (site : Owner) (id : Uuid) : Handler Deployment := do
  let deployment ← store (.getDeployment id)
  let deployment ← okOr deployment (.deploymentNotFound id.hyphenated)
  require (deployment.ownerId == site.id) (.deploymentNotFound id.hyphenated)
  pure deployment

def promoteDeployment (ctx : SiteCtx) (name : String) (deploymentId : Uuid) : Handler Deployment := do
  let perm := "sites:" ++ name ++ ":deploy"
  require (ctx.hasPermission perm) (.permissionDenied perm)
  let site ← getSite ctx name
  let deployment ← siteDeployment site deploymentId
  require (deployment.status == .ready) (.deploymentNotReady deploymentId.hyphenated)
  store (.promoteDeployment deploymentId)
  store (.writeAuditEvent "deployment.promote")
  pure deployment

def targetId (site : Owner) (toDeploymentId : Option Uuid) : Handler Uuid :=
  match toDeploymentId with
  | some id => pure id
  | none => do
    let deployments ← store (.listDeployments site.id (some 2))
    match deployments with
    | _ :: d :: _ => pure d.id
    | _ => Program.fail (.deploymentNotFound "no previous deployment")

def rollbackDeployment (ctx : SiteCtx) (name : String) (toDeploymentId : Option Uuid)
    : Handler Deployment := do
  let perm := "sites:" ++ name ++ ":admin"
  require (ctx.hasPermission perm) (.permissionDenied perm)
  let site ← getSite ctx name
  let target ← targetId site toDeploymentId
  let deployment ← siteDeployment site target
  store (.promoteDeployment target)
  store (.writeAuditEvent "deployment.rollback")
  pure deployment

end Reactor.Sites

namespace Reactor.Sites

open Interleave
open Interleave.Program (okOr require)
open Reactor.Deployments
open Rust (Uuid)

section Rules

variable {β : Type} {Q : Except SitesError β → Session → Prop} {s : Session}

theorem getSite_ensures {ctx : SiteCtx} {name : String} {f : Owner → Handler β}
    (hfail : ∀ e s', s'.tables = s.tables → Q (.error e) s')
    (hok : ∀ o s', s.tables.getByName ctx.activeOrg name = some o → s'.tables = s.tables →
      (f o).Ensures (answer .database) Q s')
    : (getSite ctx name >>= f).Ensures (answer .database) Q s := by
  unfold getSite
  rw [Program.bind_assoc]
  apply ensures_query
  . intro turn
    rfl
  . intro s' htables
    exact hfail _ s' htables
  . intro s' htables
    apply Program.ensures_okOr_bind
    . intro o ho
      exact hok o s' ho htables
    . intro _
      exact hfail _ s' htables

theorem siteDeployment_ensures {site : Owner} {id : Uuid} {f : Deployment → Handler β}
    (hfail : ∀ e s', s'.tables = s.tables → Q (.error e) s')
    (hok : ∀ d s', d ∈ s.tables.deployments → d.id = id → d.ownerId = site.id →
      s'.tables = s.tables → (f d).Ensures (answer .database) Q s')
    : (siteDeployment site id >>= f).Ensures (answer .database) Q s := by
  unfold siteDeployment
  simp only [Program.bind_assoc]
  apply ensures_query
  . intro turn
    rfl
  . intro s' htables
    exact hfail _ s' htables
  . intro s' htables
    apply Program.ensures_okOr_bind
    . intro d hd
      obtain ⟨hmem, hid⟩ := DeploymentTable.get_eq_some.mp hd
      apply Program.ensures_require_bind
      . intro howner
        exact hok d s' hmem hid (beq_iff_eq.mp howner) htables
      . intro _
        exact hfail _ s' htables
    . intro _
      exact hfail _ s' htables

end Rules

/-! ## What a rollback leaves behind -/

/--
The deployments a rollback can be about, whatever their status is.
-/
def IsTarget (t : Tables) (toDeploymentId : Option Uuid) (site : Owner) (d : Deployment) : Prop :=
  match toDeploymentId with
  | some id => d.id = id
  | none =>
    ∃ newest previous rest, t.deployments.list site.id none = newest :: previous :: rest
      ∧ previous.id = d.id

section Routes

variable {s : Session}

theorem exec_promoteDeployment {t : Tables} {d : Deployment} (hd : d ∈ t.deployments) (turn : Turn)
    : t.exec turn (.promoteDeployment d.id) = some ((), t.setCurrent d.ownerId (some d.id)) := by
  have hget := DeploymentTable.get_eq_some.mpr ⟨hd, rfl⟩
  simp only [Tables.exec, hget]
  rfl

theorem promote_ensures {P : Owner → Deployment → Prop} {t : Tables} {o : Owner} {d : Deployment}
    {eventType : String} (ho : o ∈ t.owners) (hd : d ∈ t.deployments) (hP : P o d)
    (howner : d.ownerId = o.id) (hs : s.tables = t)
    : (store (.promoteDeployment d.id) >>= fun _ => store (.writeAuditEvent eventType) >>= fun _ =>
        pure d).Ensures (answer SitesError.database) (Deployments.Serves P t) s := by
  apply ensures_store
  . intro s' htables
    exact .refused (htables.trans hs)
  . intro r tables hexec s' htables
    rw [hs, exec_promoteDeployment hd, howner] at hexec
    cases hexec
    have hserves : ∀ (r : Except SitesError Deployment) s'', s''.tables = s'.tables →
        Deployments.Serves P t r s'' := by
      intro r s'' htables'
      exact .inr ⟨o, ho, d, hd, hP, howner, htables'.trans htables⟩
    constructor
    . apply ensures_query
      . intro turn
        rfl
      . exact hserves _
      . intro s'' htables'
        exact hserves _ s'' htables'
    . exact hserves _ s' rfl

theorem rollback_serves (ctx : SiteCtx) (name : String) (toDeploymentId : Option Uuid)
    : (rollbackDeployment ctx name toDeploymentId).Ensures (answer .database)
        (Deployments.Serves (fun o d => s.tables.getByName ctx.activeOrg name = some o
          ∧ IsTarget s.tables toDeploymentId o d) s.tables) s := by
  unfold rollbackDeployment
  apply Program.ensures_require_bind
  . intro _
    apply getSite_ensures
    . intro e s' htables
      exact .refused htables
    . intro o s' ho htables
      have hserve : ∀ target s', s'.tables = s.tables →
          (∀ d, d.id = target → IsTarget s.tables toDeploymentId o d) →
          (siteDeployment o target >>= fun deployment =>
            store (.promoteDeployment target) >>= fun _ =>
              store (.writeAuditEvent "deployment.rollback") >>= fun _ =>
                pure deployment).Ensures (answer SitesError.database)
            (Deployments.Serves (fun o d => s.tables.getByName ctx.activeOrg name = some o
              ∧ IsTarget s.tables toDeploymentId o d) s.tables) s' := by
        intro target s' htables htarget
        apply siteDeployment_ensures
        . intro e s'' htables'
          exact .refused (htables'.trans htables)
        . intro d s'' hd hid howner htables'
          rw [htables] at hd
          rw [← hid]
          apply promote_ensures (Tables.owner_of_getByName ho).1 hd ⟨ho, htarget d hid⟩ howner
          exact htables'.trans htables
      unfold targetId
      cases toDeploymentId with
      | some id =>
        apply hserve id s' htables
        intro d hd
        exact hd
      | none =>
        simp only [Program.bind_assoc]
        apply ensures_query
        . intro turn
          rfl
        . intro s'' htables'
          exact .refused (htables'.trans htables)
        . intro s'' htables'
          rw [DeploymentTable.list_some, htables]
          cases hlist : s.tables.deployments.list o.id none with
          | nil => exact .refused (htables'.trans htables)
          | cons newest rest =>
            cases rest with
            | nil => exact .refused (htables'.trans htables)
            | cons previous rest =>
              apply hserve previous.id s'' (htables'.trans htables)
              intro d hd
              exact ⟨newest, previous, rest, hlist, hd.symm⟩
  . intro _
    exact .refused rfl

end Routes

/-! ## The service -/

/--
The requests, and the method of the store that says whether a deployment has become ready.
-/
inductive Op where
  | create (ctx : SiteCtx) (name : String)
  | updateDeploymentStatus (id : Uuid) (status : DeploymentStatus)
  | promote (ctx : SiteCtx) (name : String) (deploymentId : Uuid)
  | rollback (ctx : SiteCtx) (name : String) (toDeploymentId : Option Uuid)

def Op.program : Op → Handler Unit
  | .create ctx name => do
    let _ ← createDeployment ctx name
    pure ()
  | .updateDeploymentStatus id status => store (.updateDeploymentStatus id status)
  | .promote ctx name deploymentId => do
    let _ ← promoteDeployment ctx name deploymentId
    pure ()
  | .rollback ctx name toDeploymentId => do
    let _ ← rollbackDeployment ctx name toDeploymentId
    pure ()

def service : Service where
  Err := SitesError
  database := .database
  Op := Op
  program := Op.program

/--
The call that takes the owner of a deployment from elsewhere than its row.
-/
def SetsNone (c : StoreCall) : Prop :=
  ∀ ownerId id, c ≠ .setCurrentDeployment ownerId id

theorem uses_store {c : StoreCall} (hc : SetsNone c) : (store c : Handler c.Ret).Uses SetsNone :=
  Program.uses_request (I := storeCalls SitesError) c hc

theorem uses_getSite (ctx : SiteCtx) (name : String) : (getSite ctx name).Uses SetsNone := by
  apply Program.uses_bind
  . exact uses_store (fun _ _ h => by cases h)
  intro _
  apply Program.uses_okOr

theorem uses_siteDeployment (site : Owner) (id : Uuid) : (siteDeployment site id).Uses SetsNone := by
  apply Program.uses_bind
  . exact uses_store (fun _ _ h => by cases h)
  intro _
  apply Program.uses_bind
  . apply Program.uses_okOr
  intro _
  apply Program.uses_bind
  . apply Program.uses_require
  intro _
  apply Program.uses_pure

theorem uses_createDeployment (ctx : SiteCtx) (name : String)
    : (createDeployment ctx name).Uses SetsNone := by
  unfold createDeployment
  apply Program.uses_bind
  . apply Program.uses_require
  intro _
  apply Program.uses_bind
  . apply uses_getSite
  intro site
  apply Program.uses_bind
  . exact uses_store (fun _ _ h => by cases h)
  intro version
  apply Program.uses_bind
  . exact uses_store (fun _ _ h => by cases h)
  intro deployment
  apply Program.uses_bind
  . exact uses_store (fun _ _ h => by cases h)
  intro _
  apply Program.uses_pure

theorem uses_promoteDeployment (ctx : SiteCtx) (name : String) (deploymentId : Uuid)
    : (promoteDeployment ctx name deploymentId).Uses SetsNone := by
  unfold promoteDeployment
  apply Program.uses_bind
  . apply Program.uses_require
  intro _
  apply Program.uses_bind
  . apply uses_getSite
  intro site
  apply Program.uses_bind
  . apply uses_siteDeployment
  intro deployment
  apply Program.uses_bind
  . apply Program.uses_require
  intro _
  apply Program.uses_bind
  . exact uses_store (fun _ _ h => by cases h)
  intro _
  apply Program.uses_bind
  . exact uses_store (fun _ _ h => by cases h)
  intro _
  apply Program.uses_pure

theorem eval_discard {α : Type} (x : Handler α) (s : Session)
    : ((x >>= fun _ => pure ()).eval (answer .database) s).2 = (x.eval (answer .database) s).2 := by
  rw [Program.eval_bind]
  cases x.eval (answer .database) s with
  | mk r s' => cases r <;> rfl

theorem owned_perform (op : Op) (s : Session) (h : Deployments.Owned s.tables)
    : Deployments.Owned (service.perform op s).2.tables := by
  cases op with
  | create ctx name =>
    show Deployments.Owned ((createDeployment ctx name >>= fun _ => pure ()).eval (answer .database) s).2.tables
    rw [eval_discard]
    exact h.eval (uses_createDeployment ctx name)
  | updateDeploymentStatus id status => exact h.eval (uses_store (fun _ _ h => by cases h))
  | promote ctx name deploymentId =>
    show Deployments.Owned ((promoteDeployment ctx name deploymentId >>= fun _ => pure ()).eval
      (answer .database) s).2.tables
    rw [eval_discard]
    exact h.eval (uses_promoteDeployment ctx name deploymentId)
  | rollback ctx name toDeploymentId =>
    show Deployments.Owned ((rollbackDeployment ctx name toDeploymentId >>= fun _ => pure ()).eval
      (answer .database) s).2.tables
    rw [eval_discard]
    exact (rollback_serves ctx name toDeploymentId).owned h

/-! ## Every rollback -/

/--
The site serves its newest deployment, and the one before that is ready.
-/
def NewestServed (t : Tables) (orgId : Uuid) (name : String) : Prop :=
  ∀ o, t.getByName orgId name = some o →
    ∀ newest previous rest, t.deployments.list o.id none = newest :: previous :: rest →
      o.currentDeploymentId = some newest.id ∧ previous.status = .ready

def TargetReady (t : Tables) (orgId : Uuid) (name : String) (id : Uuid) : Prop :=
  ∀ o, t.getByName orgId name = some o →
    ∀ d ∈ t.deployments, d.id = id → d.ownerId = o.id → d.status = .ready

/--
Every rollback of the site that names no deployment ends with the previous one.
-/
def RollsBack (t : Tables) (orgId : Uuid) (name : String) : Prop :=
  ∀ o, t.getByName orgId name = some o → ∀ ctx : SiteCtx, ctx.activeOrg = orgId →
    ∀ turns, (rollbackDeployment ctx name none).Ensures (answer .database)
      (EndsWith (IsPrevious t o.id) t o.id) ⟨t, turns⟩

/--
Every rollback of the site to the deployment ends with that one, which is ready.
-/
def RollsBackTo (t : Tables) (orgId : Uuid) (name : String) (id : Uuid) : Prop :=
  ∀ o, t.getByName orgId name = some o → ∀ ctx : SiteCtx, ctx.activeOrg = orgId →
    ∀ turns, (rollbackDeployment ctx name (some id)).Ensures (answer .database)
      (EndsWith (fun d => d.id = id ∧ d ∈ t.deployments ∧ d.ownerId = o.id ∧ d.status = .ready) t o.id)
      ⟨t, turns⟩

section Rollback

variable {t : Tables} {orgId id : Uuid} {name : String} {o : Owner} {d : Deployment}
  {toDeploymentId : Option Uuid}

/--
Someone who may do everything in the organization.
-/
def owner (orgId : Uuid) : SiteCtx :=
  ⟨⟨none, none, none, ["*"]⟩, orgId⟩

theorem owner_hasPermission (orgId : Uuid) (permission : String)
    : (owner orgId).hasPermission permission = true := by
  simp [owner, SiteCtx.hasPermission, AuthCtx.hasPermission, Permissions.matchesAny,
    Permissions.permMatches]

theorem rollback_served (ho : t.getByName orgId name = some o)
    (htarget : IsTarget t toDeploymentId o d) (hd : d ∈ t.deployments) (howner : d.ownerId = o.id)
    : (rollbackDeployment (owner orgId) name toDeploymentId).Ensures (answer .database)
        (fun r s => r = .ok d ∧ s.tables = t.setCurrent o.id (some d.id)) ⟨t, served⟩ := by
  have hget := DeploymentTable.get_eq_some.mpr ⟨hd, rfl⟩
  have hserved : (siteDeployment o d.id >>= fun deployment =>
      store (.promoteDeployment d.id) >>= fun _ =>
        store (.writeAuditEvent "deployment.rollback") >>= fun _ =>
          pure deployment).Ensures (answer SitesError.database)
        (fun r s => r = .ok d ∧ s.tables = t.setCurrent o.id (some d.id)) ⟨t, served⟩ := by
    unfold siteDeployment
    simp only [Program.bind_assoc]
    apply ensures_served rfl
    rw [hget]
    apply Program.ensures_require_bind
    . intro _
      apply ensures_served (exec_promoteDeployment hd _)
      rw [howner]
      apply ensures_served rfl
      exact ⟨rfl, rfl⟩
    . intro hfalse
      simp [howner] at hfalse
  unfold rollbackDeployment
  apply Program.ensures_require_bind
  . intro _
    unfold getSite
    rw [Program.bind_assoc]
    apply ensures_served rfl
    apply Program.ensures_okOr_bind
    . intro site hsite
      have hsite : t.getByName orgId name = some site := hsite
      rw [ho] at hsite
      cases hsite
      unfold targetId
      cases toDeploymentId with
      | some id =>
        cases htarget
        exact hserved
      | none =>
        obtain ⟨newest, previous, rest, hlist, hid⟩ := htarget
        simp only [Program.bind_assoc]
        apply ensures_served rfl
        rw [DeploymentTable.list_some, hlist, ← hid]
        rw [← hid] at hserved
        exact hserved
    . intro hnone
      have hnone : t.getByName orgId name = none := hnone
      rw [ho] at hnone
      cases hnone
  . intro hfalse
    rw [owner_hasPermission] at hfalse
    cases hfalse

/--
A rollback to a deployment is right where it is ready, since nothing asks whether it is.
-/
theorem rollsBackTo_iff : RollsBackTo t orgId name id ↔ TargetReady t orgId name id := by
  constructor
  . intro h o ho d hd hid howner
    have htarget : IsTarget t (some id) o d := hid
    obtain ⟨d', ⟨hid', hd', _, hready⟩, _⟩ :=
      (h o ho (owner orgId) rfl served).of_ok (rollback_served ho htarget hd howner).1
    rw [DeploymentTable.eq_of_id hd hd' (hid.trans hid'.symm)]
    exact hready
  . intro h o ho ctx hctx turns
    apply (rollback_serves ctx name (some id)).endsWith
    intro o' d hd howner hserve
    obtain ⟨ho', htarget⟩ := hserve
    rw [hctx] at ho'
    cases ho.symm.trans ho'
    exact ⟨rfl, htarget, hd, howner, h o ho d hd htarget howner⟩

theorem newestServed_of_rollsBack (howned : Deployments.Owned t) (h : RollsBack t orgId name)
    : NewestServed t orgId name := by
  intro o ho newest previous rest hlist
  have hmem : ∀ d, d ∈ newest :: previous :: rest → d ∈ t.deployments ∧ d.ownerId = o.id := by
    intro d hd
    rw [← hlist] at hd
    exact DeploymentTable.mem_list.mp hd
  have hordered := DeploymentTable.list_ordered t.deployments o.id
  rw [hlist] at hordered
  have hprevious := hmem previous (by simp)
  have ho' := (Tables.owner_of_getByName ho).1
  have htarget : IsTarget t none o previous := ⟨newest, previous, rest, hlist, rfl⟩
  have hserved := rollback_served ho htarget hprevious.1 hprevious.2
  obtain ⟨d, hd, hcurrent⟩ := (h o ho (owner orgId) rfl served).of_ok hserved.1
  rw [hserved.2, Tables.current_setCurrent_self ho', Option.some.injEq] at hcurrent
  have heq := DeploymentTable.eq_of_id hprevious.1 hd.mem hcurrent
  obtain ⟨c, hc, hserves, holder, _⟩ := hd.older
  rw [Tables.current_eq ho'] at hserves
  constructor
  . obtain ⟨c', hc', hid, howner⟩ := howned o ho' c.id hserves
    rw [DeploymentTable.eq_of_id hc' hc hid] at howner
    have hmem' : c ∈ newest :: previous :: rest := by
      rw [← hlist]
      exact DeploymentTable.mem_list.mpr ⟨hc, howner⟩
    rw [← heq] at holder
    rw [hserves]
    cases hmem' with
    | head => rfl
    | tail _ hmem' =>
      cases hmem' with
      | head => exact absurd holder (Nat.lt_irrefl _)
      | tail _ hmem' =>
        have := List.rel_of_pairwise_cons (List.pairwise_cons.mp hordered).2 hmem'
        exact absurd holder (Nat.lt_asymm this)
  . rw [heq]
    exact hd.ready

theorem isPrevious_of_newestServed (h : NewestServed t orgId name) (ho : t.getByName orgId name = some o)
    {newest previous : Deployment} {rest : List Deployment}
    (hlist : t.deployments.list o.id none = newest :: previous :: rest) : IsPrevious t o.id previous := by
  obtain ⟨hcurrent, hready⟩ := h o ho newest previous rest hlist
  have hmem : ∀ d, d ∈ t.deployments ∧ d.ownerId = o.id ↔ d ∈ newest :: previous :: rest := by
    intro d
    rw [← hlist]
    exact DeploymentTable.mem_list.symm
  have hordered := DeploymentTable.list_ordered t.deployments o.id
  rw [hlist] at hordered
  have hprevious := (hmem previous).mpr (by simp)
  have hnewest := (hmem newest).mpr (by simp)
  refine ⟨hprevious.1, hprevious.2, hready, newest, hnewest.1, ?_, ?_, ?_⟩
  . rw [Tables.current_eq (Tables.owner_of_getByName ho).1, hcurrent]
  . exact List.rel_of_pairwise_cons hordered (by simp)
  . intro e he howner _ holder
    have hmem' := (hmem e).mp ⟨he, howner⟩
    cases hmem' with
    | head => exact absurd holder (Nat.lt_irrefl _)
    | tail _ hmem' =>
      cases hmem' with
      | head => exact Nat.le_refl _
      | tail _ hmem' =>
        exact Nat.le_of_lt (List.rel_of_pairwise_cons (List.pairwise_cons.mp hordered).2 hmem')

/--
A rollback that names no deployment goes to the second newest one, which is the previous one only where
the newest one is current.
-/
theorem rollsBack_iff (howned : Deployments.Owned t) : RollsBack t orgId name ↔ NewestServed t orgId name := by
  constructor
  . exact newestServed_of_rollsBack howned
  . intro h o ho ctx hctx turns
    apply (rollback_serves ctx name none).endsWith
    intro o' d hd _ hserve
    obtain ⟨ho', newest, previous, rest, hlist, hid⟩ := hserve
    rw [hctx] at ho'
    cases ho.symm.trans ho'
    have hprevious := isPrevious_of_newestServed h ho hlist
    rw [DeploymentTable.eq_of_id hprevious.mem hd hid] at hprevious
    exact ⟨rfl, hprevious⟩

end Rollback

end Reactor.Sites
