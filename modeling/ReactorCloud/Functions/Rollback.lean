import Mathlib.Data.List.TakeWhile
import ReactorCloud.Deployments.History
import ReactorCloud.Functions.Deployments

/-!
This module contains the deployments that a rollback of a function can end with.
-/

namespace Reactor.Functions

open Interleave
open Interleave.Program (okOr ofExcept require attempt fail)
open Reactor.Deployments
open Rust (Uuid Json)

section Rules

variable {α β : Type} {Q : Except FunctionsError β → Session → Prop} {s : Session}

theorem getFunction_ensures {ctx : FunctionCtx} {functionName : String} {f : Owner → Handler β}
    (hfail : ∀ e s', s'.tables = s.tables → Q (.error e) s')
    (hok : ∀ o s', s.tables.getByName ctx.activeOrg functionName = some o → s'.tables = s.tables →
      (f o).Ensures (answer .database) Q s')
    : (getFunctionByName ctx functionName >>= f).Ensures (answer .database) Q s := by
  unfold getFunctionByName
  rw [Program.bind_assoc]
  apply ensures_query
  . intro turn
    rfl
  . intro s' htables
    exact hfail _ s' htables
  . intro s' htables
    apply Program.ensures_okOr_bind
    . intro o ho
      exact hok o s' ho htables
    . intro _
      exact hfail _ s' htables

theorem readyDeployment_ensures {function : Owner} {id : Uuid} {idText action : String}
    {f : Deployment → Handler β} (hfail : ∀ e s', s'.tables = s.tables → Q (.error e) s')
    (hok : ∀ d s', d ∈ s.tables.deployments → d.id = id → d.ownerId = function.id →
      d.status = .ready → s'.tables = s.tables → (f d).Ensures (answer .database) Q s')
    : (readyDeployment function id idText action >>= f).Ensures (answer .database) Q s := by
  unfold readyDeployment
  simp only [Program.bind_assoc]
  apply ensures_query
  . intro turn
    rfl
  . intro s' htables
    exact hfail _ s' htables
  . intro s' htables
    apply Program.ensures_okOr_bind
    . intro d hd
      obtain ⟨hmem, hid⟩ := DeploymentTable.get_eq_some.mp hd
      apply Program.ensures_require_bind
      . intro howner
        apply Program.ensures_require_bind
        . intro hready
          exact hok d s' hmem hid (beq_iff_eq.mp howner) (beq_iff_eq.mp hready) htables
        . intro _
          exact hfail _ s' htables
      . intro _
        exact hfail _ s' htables
    . intro _
      exact hfail _ s' htables

end Rules

/-! ## What the routes leave behind -/

/--
The deployments a rollback can be about.
-/
def IsTarget (t : Tables) (body : Option Json) (function : Owner) (d : Deployment) : Prop :=
  d.status = .ready ∧
    match deploymentIdOf body with
    | some text => Uuid.parseStr text = some d.id
    | none =>
      ∃ p, previousOf function.currentDeploymentId (t.deployments.list function.id none) = some p
        ∧ p.id = d.id

theorem isTarget_of_text {t : Tables} {body : Option Json} {function : Owner} {d : Deployment}
    {text : String} (hready : d.status = .ready) (hbody : deploymentIdOf body = some text)
    (hid : Uuid.parseStr text = some d.id) : IsTarget t body function d := by
  unfold IsTarget
  rw [hbody]
  exact ⟨hready, hid⟩

theorem isTarget_of_previous {t : Tables} {body : Option Json} {function : Owner} {d p : Deployment}
    (hready : d.status = .ready) (hbody : deploymentIdOf body = none) (hid : p.id = d.id)
    (hprevious : previousOf function.currentDeploymentId (t.deployments.list function.id none) = some p)
    : IsTarget t body function d := by
  unfold IsTarget
  rw [hbody]
  exact ⟨hready, p, hprevious, hid⟩

section Routes

variable {s : Session}

theorem setCurrent_ensures {α : Type} {P : Owner → Deployment → Prop} {t : Tables} {o : Owner}
    {d : Deployment} {x : Handler α} (ho : o ∈ t.owners) (hd : d ∈ t.deployments) (hP : P o d)
    (howner : d.ownerId = o.id) (hs : s.tables = t)
    (hx : ∀ s, ∃ a, x.eval (answer .database) s = (.ok a, s))
    : (store (.setCurrentDeployment o.id (some d.id)) >>= fun _ => x).Ensures (answer .database)
        (Serves P t) s := by
  have hexec : ∀ turn, s.tables.exec turn (.setCurrentDeployment o.id (some d.id))
      = some ((), t.setCurrent o.id (some d.id)) := by
    intro turn
    have hget := DeploymentTable.get_eq_some.mpr ⟨hd, rfl⟩
    simp only [Tables.exec, hs, Option.all_some, hget, Option.isSome_some, if_true]
    rfl
  apply ensures_store
  . intro s' htables
    exact .refused (htables.trans hs)
  . intro r tables hexec' s' htables
    rw [hexec] at hexec'
    cases hexec'
    have hdone : s'.tables = t.setCurrent o.id (some d.id) := htables
    constructor
    . obtain ⟨a, heval⟩ := hx s'
      unfold Program.Ensures
      rw [heval]
      exact .inr ⟨o, ho, d, hd, hP, howner, hdone⟩
    . exact .inr ⟨o, ho, d, hd, hP, howner, hdone⟩

theorem promote_serves (ctx : FunctionCtx) (functionName : String) (body : Json)
    : (promoteDeployment ctx functionName body).Ensures (answer .database)
        (Serves (fun _ d => d.status = .ready) s.tables) s := by
  unfold promoteDeployment
  apply Program.ensures_require_bind
  . intro _
    apply getFunction_ensures
    . intro e s' htables
      exact .refused htables
    . intro o s' ho htables
      apply Program.ensures_okOr_bind
      . intro text _
        apply Program.ensures_okOr_bind
        . intro id _
          apply readyDeployment_ensures
          . intro e s'' htables'
            exact .refused (htables'.trans htables)
          . intro d s'' hd hid howner hready htables'
            rw [htables] at hd
            rw [← hid]
            apply setCurrent_ensures (Tables.owner_of_getByName ho).1 hd hready howner
            . exact htables'.trans htables
            . intro s
              exact ⟨_, rfl⟩
        . intro _
          exact .refused htables
      . intro _
        exact .refused htables
  . intro _
    exact .refused rfl

theorem rollback_serves (ctx : FunctionCtx) (functionName : String) (body : Option Json)
    : (rollbackDeployment ctx functionName body).Ensures (answer .database)
        (Serves (fun o d => s.tables.getByName ctx.activeOrg functionName = some o
          ∧ IsTarget s.tables body o d) s.tables) s := by
  unfold rollbackDeployment
  apply Program.ensures_require_bind
  . intro _
    apply getFunction_ensures
    . intro e s' htables
      exact .refused htables
    . intro o s' ho htables
      have hserve : ∀ target s', s'.tables = s.tables →
          (∀ d, d.id = target → d.status = .ready → IsTarget s.tables body o d) →
          (readyDeployment o target target.hyphenated "rollback to" >>= fun deployment =>
            store (.setCurrentDeployment o.id (some target)) >>= fun _ =>
              pure (⟨o.currentDeploymentId.map Uuid.hyphenated, target.hyphenated,
                "Rolled back to deployment " ++ target.hyphenated ++ " (version "
                  ++ toString deployment.version ++ ")"⟩ : PromoteResponse)).Ensures
            (answer .database)
            (Serves (fun o d => s.tables.getByName ctx.activeOrg functionName = some o
              ∧ IsTarget s.tables body o d) s.tables) s' := by
        intro target s' htables htarget
        apply readyDeployment_ensures
        . intro e s'' htables'
          exact .refused (htables'.trans htables)
        . intro d s'' hd hid howner hready htables'
          rw [htables] at hd
          rw [← hid]
          apply setCurrent_ensures (Tables.owner_of_getByName ho).1 hd ⟨ho, htarget d hid hready⟩ howner
          . exact htables'.trans htables
          . intro s
            exact ⟨_, rfl⟩
      unfold targetDeploymentId
      cases hbody : deploymentIdOf body with
      | some text =>
        apply Program.ensures_okOr_bind
        . intro id hid
          apply hserve id s' htables
          intro d hd hready
          rw [← hd] at hid
          exact isTarget_of_text hready hbody hid
        . intro _
          exact .refused htables
      | none =>
        simp only [Program.bind_assoc]
        apply ensures_query
        . intro turn
          rfl
        . intro s'' htables'
          exact .refused (htables'.trans htables)
        . intro s'' htables'
          apply Program.ensures_okOr_bind
          . intro p hp
            apply hserve p.id s'' (htables'.trans htables)
            intro d hd hready
            rw [htables] at hp
            exact isTarget_of_previous hready hbody hd.symm hp
          . intro _
            exact .refused (htables'.trans htables)
  . intro _
    exact .refused rfl

theorem uses_createDeployment (ctx : FunctionCtx) (functionName : String)
    (bundle : Except FunctionsError Unit) (hasRuntime : Bool)
    : (createDeployment ctx functionName bundle hasRuntime).Uses
        (fun c => ∀ ownerId id, c ≠ StoreCall.setCurrentDeployment ownerId id) := by
  have hstore : ∀ c : StoreCall, (∀ ownerId id, c ≠ StoreCall.setCurrentDeployment ownerId id) →
      (store c : Handler c.Ret).Uses
        (fun c => ∀ ownerId id, c ≠ StoreCall.setCurrentDeployment ownerId id) := by
    intro c hc
    exact Program.uses_request (I := storeCalls FunctionsError) c hc
  unfold createDeployment getFunctionByName
  apply Program.uses_bind
  . apply Program.uses_require
  intro _
  apply Program.uses_bind
  . apply Program.uses_bind
    . exact hstore _ (fun _ _ h => by cases h)
    . intro _
      apply Program.uses_okOr
  intro function
  apply Program.uses_bind
  . apply Program.uses_ofExcept
  intro _
  apply Program.uses_bind
  . exact hstore _ (fun _ _ h => by cases h)
  intro _
  apply Program.uses_bind
  . exact hstore _ (fun _ _ h => by cases h)
  intro version
  apply Program.uses_bind
  . exact hstore _ (fun _ _ h => by cases h)
  intro deployment
  apply Program.uses_bind
  . unfold runtimeDeploy
    split
    . apply Program.uses_bind
      . exact hstore _ (fun _ _ h => by cases h)
      . intro _
        apply Program.uses_attempt
        exact hstore _ (fun _ _ h => by cases h)
    . apply Program.uses_pure
  intro result
  unfold recordResult
  cases result with
  | ok _ =>
    apply Program.uses_bind
    . exact hstore _ (fun _ _ h => by cases h)
    intro _
    apply Program.uses_bind
    . exact hstore _ (fun _ _ h => by cases h)
    intro _
    apply Program.uses_okOr
  | error _ =>
    apply Program.uses_bind
    . exact hstore _ (fun _ _ h => by cases h)
    intro _
    apply Program.uses_fail

end Routes

/-! ## The service -/

inductive Op where
  | create (ctx : FunctionCtx) (functionName : String) (bundle : Except FunctionsError Unit)
      (hasRuntime : Bool)
  | promote (ctx : FunctionCtx) (functionName : String) (body : Json)
  | rollback (ctx : FunctionCtx) (functionName : String) (body : Option Json)

def Op.program : Op → Handler Unit
  | .create ctx functionName bundle hasRuntime => do
    let _ ← createDeployment ctx functionName bundle hasRuntime
    pure ()
  | .promote ctx functionName body => do
    let _ ← promoteDeployment ctx functionName body
    pure ()
  | .rollback ctx functionName body => do
    let _ ← rollbackDeployment ctx functionName body
    pure ()

def service : Service where
  Err := FunctionsError
  database := .database
  Op := Op
  program := Op.program

theorem eval_discard {α : Type} (x : Handler α) (s : Session)
    : ((x >>= fun _ => pure ()).eval (answer .database) s).2 = (x.eval (answer .database) s).2 := by
  rw [Program.eval_bind]
  cases x.eval (answer .database) s with
  | mk r s' => cases r <;> rfl

theorem owned_perform (op : Op) (s : Session) (h : Owned s.tables)
    : Owned (service.perform op s).2.tables := by
  cases op with
  | create ctx functionName bundle hasRuntime =>
    show Owned (((createDeployment ctx functionName bundle hasRuntime) >>= fun _ => pure ()).eval
      (answer .database) s).2.tables
    rw [eval_discard]
    exact h.eval (uses_createDeployment ctx functionName bundle hasRuntime)
  | promote ctx functionName body =>
    show Owned (((promoteDeployment ctx functionName body) >>= fun _ => pure ()).eval
      (answer .database) s).2.tables
    rw [eval_discard]
    exact (promote_serves ctx functionName body).owned h
  | rollback ctx functionName body =>
    show Owned (((rollbackDeployment ctx functionName body) >>= fun _ => pure ()).eval
      (answer .database) s).2.tables
    rw [eval_discard]
    exact (rollback_serves ctx functionName body).owned h

/-! ## The previous deployment -/

/--
Nothing that is ready is newer than the current deployment of the function.
-/
def NoneNewer (t : Tables) (orgId : Uuid) (functionName : String) : Prop :=
  ∀ o, t.getByName orgId functionName = some o →
    ∀ d ∈ t.deployments, d.ownerId = o.id → d.status = .ready →
      ∃ c ∈ t.deployments, o.currentDeploymentId = some c.id ∧ d.deployedAt ≤ c.deployedAt

/--
Every rollback of the function that names no deployment ends with the previous one.
-/
def RollsBack (t : Tables) (orgId : Uuid) (functionName : String) : Prop :=
  ∀ o, t.getByName orgId functionName = some o →
    ∀ ctx : FunctionCtx, ctx.activeOrg = orgId → ∀ body, deploymentIdOf body = none →
      ∀ turns, (rollbackDeployment ctx functionName body).Ensures (answer .database)
        (EndsWith (IsPrevious t o.id) t o.id) ⟨t, turns⟩

/--
Every rollback of the function to a deployment ends with that one, which is ready.
-/
def RollsBackTo (t : Tables) (orgId : Uuid) (functionName : String) : Prop :=
  ∀ o, t.getByName orgId functionName = some o →
    ∀ ctx : FunctionCtx, ctx.activeOrg = orgId → ∀ body text, deploymentIdOf body = some text →
      ∀ turns, (rollbackDeployment ctx functionName body).Ensures (answer .database)
        (EndsWith (fun d => Uuid.parseStr text = some d.id ∧ d ∈ t.deployments ∧ d.ownerId = o.id
          ∧ d.status = .ready) t o.id) ⟨t, turns⟩

section Previous

variable {currentId : Option Uuid} {deployments : List Deployment} {d p : Deployment}

theorem previousOf_eq_none (h : previousOf currentId deployments = none) (hd : d ∈ deployments)
    (hready : d.status = .ready) : currentId = some d.id := by
  rw [previousOf, List.head?_eq_none_iff, List.dropWhile_eq_nil_iff] at h
  have hmem : d ∈ deployments.filter (·.status == .ready) := by
    rw [List.mem_filter]
    exact ⟨hd, by simpa using hready⟩
  have := h d hmem
  rw [beq_iff_eq] at this
  exact this.symm

/--
The ready deployments in front of the previous one are the current one.
-/
theorem previousOf_eq_some (h : previousOf currentId deployments = some p)
    : ∃ front back, deployments.filter (·.status == .ready) = front ++ p :: back
      ∧ (∀ d ∈ front, currentId = some d.id) ∧ currentId ≠ some p.id := by
  unfold previousOf at h
  obtain ⟨back, hback⟩ := List.head?_eq_some_iff.mp h
  exists (deployments.filter (·.status == .ready)).takeWhile (fun d => some d.id == currentId), back
  refine ⟨?_, ?_, ?_⟩
  . rw [← hback]
    exact List.takeWhile_append_dropWhile.symm
  . intro d hd
    have := List.mem_takeWhile_imp hd
    rw [beq_iff_eq] at this
    exact this.symm
  . have := List.head?_dropWhile_not (fun d : Deployment => some d.id == currentId)
      (deployments.filter (·.status == .ready))
    simp only [hback, List.head?_cons] at this
    intro heq
    simp [heq] at this

variable {t : Tables} {o : Owner}

/--
A ready deployment is the current one or not newer than the previous one.
-/
theorem le_previousOf (h : previousOf currentId (t.deployments.list o.id none) = some p)
    (hd : d ∈ t.deployments) (howner : d.ownerId = o.id) (hready : d.status = .ready)
    : currentId = some d.id ∨ d.deployedAt ≤ p.deployedAt := by
  obtain ⟨front, back, hsplit, hfront, _⟩ := previousOf_eq_some h
  have hmem : d ∈ front ++ p :: back := by
    rw [← hsplit, List.mem_filter]
    exact ⟨DeploymentTable.mem_list.mpr ⟨hd, howner⟩, by simpa using hready⟩
  have hordered : (front ++ p :: back).Pairwise (fun d e => e.deployedAt < d.deployedAt) := by
    rw [← hsplit]
    exact (DeploymentTable.list_ordered t.deployments o.id).filter _
  rw [List.mem_append, List.mem_cons] at hmem
  cases hmem with
  | inl h => exact .inl (hfront d h)
  | inr h =>
    apply Or.inr
    cases h with
    | inl h => rw [h]
    | inr h =>
      have := (List.pairwise_append.mp hordered).2.1
      exact Nat.le_of_lt (List.rel_of_pairwise_cons this h)

theorem mem_of_previousOf (h : previousOf currentId (t.deployments.list o.id none) = some p)
    : p ∈ t.deployments ∧ p.ownerId = o.id ∧ p.status = .ready := by
  obtain ⟨front, back, hsplit, _⟩ := previousOf_eq_some h
  have hmem : p ∈ (t.deployments.list o.id none).filter (·.status == .ready) := by
    rw [hsplit]
    simp
  rw [List.mem_filter, DeploymentTable.mem_list] at hmem
  exact ⟨hmem.1.1, hmem.1.2, by simpa using hmem.2⟩

/--
Where nothing newer is ready, the deployment the route finds is the previous one.
-/
theorem isPrevious_of_noneNewer {orgId : Uuid} {functionName : String}
    (hnewer : NoneNewer t orgId functionName) (ho : t.getByName orgId functionName = some o)
    (h : previousOf o.currentDeploymentId (t.deployments.list o.id none) = some p)
    : IsPrevious t o.id p := by
  obtain ⟨hmem, howner, hready⟩ := mem_of_previousOf h
  obtain ⟨_, _, _, _, hne⟩ := previousOf_eq_some h
  obtain ⟨c, hc, hcurrent, hle⟩ := hnewer o ho p hmem howner hready
  refine ⟨hmem, howner, hready, c, hc, ?_, ?_, ?_⟩
  . rw [Tables.current_eq (Tables.owner_of_getByName ho).1, hcurrent]
  . apply Nat.lt_of_le_of_ne hle
    intro heq
    apply hne
    rw [hcurrent, DeploymentTable.eq_of_deployedAt hmem hc heq]
  . intro e he heowner heready holder
    cases le_previousOf h he heowner heready with
    | inl heq =>
      rw [hcurrent, Option.some.injEq] at heq
      rw [DeploymentTable.eq_of_id hc he heq] at holder
      exact absurd holder (Nat.lt_irrefl _)
    | inr hle => exact hle

end Previous

/-! ## Every rollback -/

section Rollback

variable {t : Tables} {orgId : Uuid} {functionName : String} {o : Owner} {p : Deployment}

/--
Someone who may do everything in the organization.
-/
def owner (orgId : Uuid) : FunctionCtx :=
  ⟨⟨none, none, none, ["*"]⟩, orgId⟩

theorem owner_hasPermission (orgId : Uuid) (permission : String)
    : (owner orgId).hasPermission permission = true := by
  simp [owner, FunctionCtx.hasPermission, AuthCtx.hasPermission, Permissions.matchesAny,
    Permissions.permMatches]

theorem rollback_served (ho : t.getByName orgId functionName = some o)
    (hp : previousOf o.currentDeploymentId (t.deployments.list o.id none) = some p)
    : (rollbackDeployment (owner orgId) functionName none).Ensures (answer .database)
        (fun _ s => s.tables = t.setCurrent o.id (some p.id)) ⟨t, served⟩ := by
  obtain ⟨hmem, howner, hready⟩ := mem_of_previousOf hp
  have hget := DeploymentTable.get_eq_some.mpr ⟨hmem, rfl⟩
  unfold rollbackDeployment
  apply Program.ensures_require_bind
  . intro _
    unfold getFunctionByName
    rw [Program.bind_assoc]
    apply ensures_served rfl
    apply Program.ensures_okOr_bind
    . intro function hfunction
      have hfunction : t.getByName orgId functionName = some function := hfunction
      rw [ho] at hfunction
      cases hfunction
      unfold targetDeploymentId readyDeployment
      simp only [deploymentIdOf, Option.bind_none, Program.bind_assoc]
      apply ensures_served rfl
      apply Program.ensures_okOr_bind
      . intro previous hprevious
        rw [hp] at hprevious
        cases hprevious
        apply ensures_served rfl
        rw [hget]
        apply Program.ensures_require_bind
        . intro _
          apply Program.ensures_require_bind
          . intro _
            apply ensures_served
            . simp only [Tables.exec, Option.all_some, hget, Option.isSome_some, if_true]
              rfl
            . rfl
          . intro hfalse
            simp [hready] at hfalse
        . intro hfalse
          simp [howner] at hfalse
      . intro hnone
        rw [hp] at hnone
        cases hnone
    . intro hnone
      have hnone : t.getByName orgId functionName = none := hnone
      rw [ho] at hnone
      cases hnone
  . intro hfalse
    rw [owner_hasPermission] at hfalse
    cases hfalse

theorem noneNewer_of_rollsBack (h : RollsBack t orgId functionName) : NoneNewer t orgId functionName := by
  intro o ho d hd howner hready
  have hmem : d ∈ t.deployments.list o.id none := DeploymentTable.mem_list.mpr ⟨hd, howner⟩
  cases hp : previousOf o.currentDeploymentId (t.deployments.list o.id none) with
  | none => exact ⟨d, hd, previousOf_eq_none hp hmem hready, Nat.le_refl _⟩
  | some p =>
    have hserved := rollback_served ho hp
    have hback := h o ho (owner orgId) rfl none rfl served
    obtain ⟨_, _, _, _, hne⟩ := previousOf_eq_some hp
    have hmem := (Tables.owner_of_getByName ho).1
    unfold Program.Ensures at hserved hback
    rw [EndsWith, hserved, Tables.current_setCurrent_self hmem, Tables.current_eq hmem] at hback
    cases hback with
    | inl hback => exact absurd hback.2.symm hne
    | inr hback =>
      obtain ⟨p', hprevious, hid⟩ := hback
      rw [Option.some.injEq] at hid
      obtain ⟨hp', _, _, c, hc, hcurrent, holder, _⟩ := hprevious
      rw [DeploymentTable.eq_of_id hp' (mem_of_previousOf hp).1 hid.symm] at holder
      rw [Tables.current_eq hmem] at hcurrent
      cases le_previousOf hp hd howner hready with
      | inl heq => exact ⟨d, hd, heq, Nat.le_refl _⟩
      | inr hle => exact ⟨c, hc, hcurrent, Nat.le_of_lt (Nat.lt_of_le_of_lt hle holder)⟩

/--
A rollback that names no deployment is right where nothing newer than the current one is ready.
-/
theorem rollsBack_iff : RollsBack t orgId functionName ↔ NoneNewer t orgId functionName := by
  constructor
  . exact noneNewer_of_rollsBack
  . intro h o ho ctx hctx body hbody turns
    apply (rollback_serves ctx functionName body).endsWith
    intro o' d hd _ hserve
    obtain ⟨ho', _, htarget⟩ := hserve
    rw [hctx] at ho'
    cases ho.symm.trans ho'
    rw [hbody] at htarget
    obtain ⟨p, hp, hid⟩ := htarget
    have hprevious := isPrevious_of_noneNewer h ho hp
    rw [DeploymentTable.eq_of_id hprevious.mem hd hid] at hprevious
    exact ⟨rfl, hprevious⟩

theorem rollsBackTo (t : Tables) (orgId : Uuid) (functionName : String)
    : RollsBackTo t orgId functionName := by
  intro o ho ctx hctx body text hbody turns
  apply (rollback_serves ctx functionName body).endsWith
  intro o' d hd howner hserve
  obtain ⟨ho', hready, htarget⟩ := hserve
  rw [hctx] at ho'
  cases ho.symm.trans ho'
  rw [hbody] at htarget
  exact ⟨rfl, htarget, hd, howner, hready⟩

end Rollback

end Reactor.Functions
