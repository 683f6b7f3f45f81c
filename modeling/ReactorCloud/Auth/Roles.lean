import ReactorCloud.Auth.Sessions
import ReactorCloud.Auth.Writes
import ReactorCloud.Interleave.Rely
import ReactorCloud.Interleave.Sequential

/-!
This module contains what the roles are in every state the service reaches.
-/

namespace Reactor.Auth

open Interleave
open Relational

namespace IdentityStore

section Statements

variable {s : IdentityStore}

theorem of_any {α : Type} [Constrained α] {t : Table α} {f : α → ReactorId} {id : ReactorId}
    (h : t.any (fun x => f x == id) = true) : ∃ x ∈ t, f x = id := by
  rw [Table.any_eq_true] at h
  simpa using h

theorem mem_createMembership {userId : UserId} {orgId : OrgId} {roleId : RoleId} {m : Membership}
    (h : m ∈ (s.createMembership userId orgId roleId).2.memberships) :
    m ∈ s.memberships ∨ (m.userId = userId ∧ m.orgId = orgId ∧ m.roleId = roleId
      ∧ ∃ r ∈ s.roles, r.id = roleId) := by
  unfold createMembership at h
  dsimp only at h
  split at h
  . next hinsert =>
    split at h
    . next hany =>
      simp only [Bool.and_eq_true] at hany
      cases (Table.mem_insert hinsert).mp h with
      | inl heq =>
        subst heq
        exact .inr ⟨rfl, rfl, rfl, of_any hany.2⟩
      | inr h => exact .inl h
    . exact .inl h
  . exact .inl h

theorem createMembership_keeps {userId : UserId} {orgId : OrgId} {roleId : RoleId} {m : Membership}
    (h : m ∈ s.memberships) : m ∈ (s.createMembership userId orgId roleId).2.memberships := by
  unfold createMembership
  dsimp only
  split
  . next hinsert =>
    split
    . exact (Table.mem_insert hinsert).mpr (.inr h)
    . exact h
  . exact h

theorem mem_updateMembershipRole {userId : UserId} {orgId : OrgId} {roleId : RoleId} {m : Membership}
    (h : m ∈ (s.updateMembershipRole userId orgId roleId).2.memberships) :
    m ∈ s.memberships ∨ (m.userId = userId ∧ m.orgId = orgId ∧ m.roleId = roleId
      ∧ ∃ r ∈ s.roles, r.id = roleId) := by
  unfold updateMembershipRole at h
  split at h
  . exact .inl h
  . split at h
    . next hany =>
      dsimp only at h
      rw [Table.mem_modify] at h
      obtain ⟨m', hm', heq⟩ := h
      split at heq
      . next hof =>
        simp only [ofMember, Bool.and_eq_true, beq_iff_eq] at hof
        subst heq
        exact .inr ⟨hof.1, hof.2, rfl, of_any hany⟩
      . subst heq
        exact .inl hm'
    . exact .inl h

theorem updateMembershipRole_keeps {userId : UserId} {orgId : OrgId} {roleId : RoleId}
    {m : Membership} (h : m ∈ s.memberships) :
    m ∈ (s.updateMembershipRole userId orgId roleId).2.memberships
      ∨ (m.userId = userId ∧ m.orgId = orgId) := by
  unfold updateMembershipRole
  split
  . exact .inl h
  . split
    . by_cases hof : ofMember userId orgId m = true
      . simp only [ofMember, Bool.and_eq_true, beq_iff_eq] at hof
        exact .inr hof
      . apply Or.inl
        dsimp only
        rw [Table.mem_modify]
        exact ⟨m, h, by simp [hof]⟩
    . exact .inl h

theorem mem_deleteMembership {userId : UserId} {orgId : OrgId} {m : Membership}
    (h : m ∈ (s.deleteMembership userId orgId).2.memberships) : m ∈ s.memberships := by
  unfold deleteMembership at h
  split at h
  . exact (Table.mem_delete.mp h).1
  . exact h

theorem deleteMembership_keeps {userId : UserId} {orgId : OrgId} {m : Membership}
    (h : m ∈ s.memberships) : m ∈ (s.deleteMembership userId orgId).2.memberships
      ∨ (m.userId = userId ∧ m.orgId = orgId) := by
  unfold deleteMembership
  split
  . by_cases hof : ofMember userId orgId m = true
    . simp only [ofMember, Bool.and_eq_true, beq_iff_eq] at hof
      exact .inr hof
    . exact .inl (Table.mem_delete.mpr ⟨h, by simpa using hof⟩)
  . exact .inl h

theorem mem_createInvitation {id : ReactorId} {tokenHash : Digest} {email : String} {orgId : OrgId}
    {roleId : RoleId} {expiresAt : Time} {i : InvitationRow}
    (h : i ∈ (s.createInvitation id tokenHash email orgId roleId expiresAt).2.invitations) :
    i ∈ s.invitations ∨ (i.orgId = orgId ∧ i.roleId = roleId ∧ ∃ r ∈ s.roles, r.id = roleId) := by
  unfold createInvitation at h
  dsimp only at h
  split at h
  . next hany =>
    simp only [Bool.and_eq_true] at hany
    split at h
    . next hinsert =>
      cases (Table.mem_insert hinsert).mp h with
      | inl heq =>
        subst heq
        exact .inr ⟨rfl, rfl, of_any hany.2⟩
      | inr h => exact .inl h
    . exact .inl h
  . exact .inl h

theorem mem_useInvitation {tokenHash : Digest} {i : InvitationRow}
    (h : i ∈ (s.useInvitation tokenHash).2.invitations) : ∃ i' ∈ s.invitations,
      i.toInvitation = i'.toInvitation ∧ i.tokenHash = i'.tokenHash := by
  unfold useInvitation at h
  split at h
  . dsimp only at h
    rw [Table.mem_modify] at h
    obtain ⟨i', hi', heq⟩ := h
    refine ⟨i', hi', ?_⟩
    rw [← heq]
    split
    . exact ⟨rfl, rfl⟩
    . exact ⟨rfl, rfl⟩
  . exact ⟨i, h, rfl, rfl⟩

end Statements

/--
Every role is one of the system roles, and what refers to a role refers to one that exists.
-/
structure SystemRoles (s : IdentityStore) : Prop where
  role : ∀ r ∈ s.roles, ∃ perms, (r.name, perms) ∈ systemRoles
    ∧ ∀ p, ⟨r.id, p⟩ ∈ s.rolePermissions ↔ p ∈ perms
  permission : ∀ p ∈ s.rolePermissions, ∃ r ∈ s.roles, r.id = p.roleId
  membership : ∀ m ∈ s.memberships, ∃ r ∈ s.roles, r.id = m.roleId
  invitation : ∀ i ∈ s.invitations, ∃ r ∈ s.roles, r.id = i.roleId

variable {s s' : IdentityStore}

theorem SystemRoles.of_changes {ts : List TableName} (h : s.SystemRoles) (hchanges : Changes ts s s')
    (hroles : .roles ∉ ts) (hpermissions : .rolePermissions ∉ ts)
    (hmembership : .memberships ∈ ts → ∀ m ∈ s'.memberships, ∃ r ∈ s.roles, r.id = m.roleId)
    (hinvitation : .invitations ∈ ts → ∀ i ∈ s'.invitations, ∃ r ∈ s.roles, r.id = i.roleId)
    : s'.SystemRoles where
  role r hr := by
    rw [hchanges.roles hroles] at hr
    rw [hchanges.rolePermissions hpermissions]
    exact h.role r hr
  permission p hp := by
    rw [hchanges.rolePermissions hpermissions] at hp
    rw [hchanges.roles hroles]
    exact h.permission p hp
  membership m hm := by
    rw [hchanges.roles hroles]
    by_cases hmem : .memberships ∈ ts
    . exact hmembership hmem m hm
    . rw [hchanges.memberships hmem] at hm
      exact h.membership m hm
  invitation i hi := by
    rw [hchanges.roles hroles]
    by_cases hmem : .invitations ∈ ts
    . exact hinvitation hmem i hi
    . rw [hchanges.invitations hmem] at hi
      exact h.invitation i hi

theorem mem_insertPermissions {roleId : RoleId} {ps : List String} {t t' : Table RolePermission}
    (h : insertPermissions roleId ps t = some t') (p : RolePermission)
    : p ∈ t' ↔ p ∈ t ∨ (p.roleId = roleId ∧ p.permission ∈ ps) := by
  induction ps generalizing t with
  | nil =>
    cases h
    simp
  | cons q ps ih =>
    simp only [insertPermissions, Option.bind_eq_some_iff] at h
    obtain ⟨t₁, hinsert, h⟩ := h
    rw [ih h, Table.mem_insert hinsert]
    obtain ⟨id, permission⟩ := p
    simp only [RolePermission.mk.injEq, List.mem_cons]
    tauto

theorem SystemRoles.createRole (h : s.SystemRoles) {id : RoleId} {orgId : OrgId} {name : String}
    {description : Option String} {isSystem : Bool} {permissions : List String}
    (hsystem : (name, permissions) ∈ systemRoles)
    : (s.createRole id orgId name description isSystem permissions).2.SystemRoles := by
  unfold IdentityStore.createRole
  dsimp only
  split
  . split
    . next roles rolePermissions hroles hpermissions =>
      have hfresh : ∀ r ∈ s.roles, r.id ≠ id := by
        intro r hr heq
        unfold Table.insert at hroles
        split at hroles
        . next hall =>
          have := List.all_eq_true.mp hall r hr
          simp [Constrained.conflict, heq] at this
        . cases hroles
      have hkept : ∀ roleId, (∃ r ∈ s.roles, r.id = roleId) → ∃ r ∈ roles, r.id = roleId := by
        intro roleId hr
        obtain ⟨r, hr, heq⟩ := hr
        exact ⟨r, (Table.mem_insert hroles).mpr (.inr hr), heq⟩
      constructor
      . intro r hr
        cases (Table.mem_insert hroles).mp hr with
        | inl heq =>
          subst heq
          refine ⟨permissions, hsystem, ?_⟩
          intro p
          rw [mem_insertPermissions hpermissions]
          constructor
          . intro hp
            cases hp with
            | inl hp =>
              obtain ⟨r, hr, heq⟩ := h.permission _ hp
              exact absurd heq (hfresh r hr)
            | inr hp => exact hp.2
          . intro hp
            exact .inr ⟨rfl, hp⟩
        | inr hr =>
          obtain ⟨perms, hmem, hperms⟩ := h.role r hr
          refine ⟨perms, hmem, ?_⟩
          intro p
          rw [mem_insertPermissions hpermissions, hperms]
          simp [hfresh r hr]
      . intro p hp
        cases (mem_insertPermissions hpermissions p).mp hp with
        | inl hp => exact hkept _ (h.permission p hp)
        | inr hp => exact ⟨_, (Table.mem_insert hroles).mpr (.inl rfl), hp.1.symm⟩
      . intro m hm
        exact hkept _ (h.membership m hm)
      . intro i hi
        exact hkept _ (h.invitation i hi)
    . exact h
  . exact h

theorem Role.eq_of_id {t : Table Role} {x y : Role} (hx : x ∈ t) (hy : y ∈ t) (h : x.id = y.id)
    : x = y := by
  apply Table.eq_of_conflict hx hy
  simp [Constrained.conflict, h]

theorem SystemRoles.deleteOrg (h : s.SystemRoles) (id : OrgId)
    : (s.deleteOrg id).2.SystemRoles := by
  unfold IdentityStore.deleteOrg
  dsimp only
  split
  . split
    . exact h
    . next hunused =>
      simp only [Bool.not_eq_true, Table.any_eq_false] at hunused
      have hkept : ∀ roleId, (∃ r ∈ s.roles, r.id = roleId)
          → s.roles.any (fun r => r.id == roleId && r.orgId == id) = false
          → ∃ r ∈ s.roles.delete (fun r => r.orgId == id), r.id = roleId := by
        intro roleId hr hany
        obtain ⟨r, hr, heq⟩ := hr
        have := Table.any_eq_false.mp hany r hr
        exact ⟨r, Table.mem_delete.mpr ⟨hr, by simpa [heq] using this⟩, heq⟩
      constructor
      . intro r hr
        have hr := Table.mem_delete.mp hr
        obtain ⟨perms, hmem, hperms⟩ := h.role r hr.1
        refine ⟨perms, hmem, ?_⟩
        intro p
        have hother : s.roles.any (fun r' => r'.id == r.id && r'.orgId == id) = false := by
          rw [Table.any_eq_false]
          intro r' hr'
          by_cases heq : r'.id = r.id
          . cases Role.eq_of_id hr' hr.1 heq
            simpa using hr.2
          . simp [heq]
        rw [Table.mem_delete, hperms]
        simp [hother]
      . intro p hp
        have hp := Table.mem_delete.mp hp
        exact hkept _ (h.permission p hp.1) hp.2
      . intro m hm
        have hm := Table.mem_delete.mp hm
        exact hkept _ (h.membership m hm.1) (Table.any_eq_false.mpr (hunused m hm.1))
      . intro i hi
        have hi := Table.mem_delete.mp hi
        simp only [Bool.or_eq_false_iff] at hi
        exact hkept _ (h.invitation i hi.1) hi.2.2
  . exact h

theorem SystemRoles.exec {env : Env} {pid : Nat} {c : Call} {e : Entropy}
    {r : Except AuthError c.Ret} (h : s.SystemRoles) (hexec : exec env pid c e s = some (r, s'))
    (hc : ∀ id orgId name description isSystem permissions,
      c = .createRole id orgId name description isSystem permissions
        → (name, permissions) ∈ systemRoles)
    : s'.SystemRoles := by
  have hchanges := exec_changes hexec
  cases c with
  | createRole id orgId name description isSystem permissions =>
    exact state_of_some hexec ▸ h.createRole (hc _ _ _ _ _ _ rfl)
  | deleteOrg id => exact state_of_some hexec ▸ h.deleteOrg id
  | createMembership userId orgId roleId =>
    apply h.of_changes hchanges (by simp [Call.tables]) (by simp [Call.tables]) _
      (by simp [Call.tables])
    intro _ m hm
    cases mem_createMembership (state_of_some hexec ▸ hm) with
    | inl hm => exact h.membership m hm
    | inr hm => exact hm.2.2.1 ▸ hm.2.2.2
  | updateMembershipRole userId orgId roleId =>
    apply h.of_changes hchanges (by simp [Call.tables]) (by simp [Call.tables]) _
      (by simp [Call.tables])
    intro _ m hm
    cases mem_updateMembershipRole (state_of_some hexec ▸ hm) with
    | inl hm => exact h.membership m hm
    | inr hm => exact hm.2.2.1 ▸ hm.2.2.2
  | deleteMembership userId orgId =>
    apply h.of_changes hchanges (by simp [Call.tables]) (by simp [Call.tables]) _
      (by simp [Call.tables])
    intro _ m hm
    exact h.membership m (mem_deleteMembership (state_of_some hexec ▸ hm))
  | createInvitation tokenHash email orgId roleId expiresAt =>
    apply h.of_changes hchanges (by simp [Call.tables]) (by simp [Call.tables])
      (by simp [Call.tables])
    intro _ i hi
    cases mem_createInvitation (state_of_some hexec ▸ hi) with
    | inl hi => exact h.invitation i hi
    | inr hi => exact hi.2.1 ▸ hi.2.2
  | useInvitation tokenHash =>
    apply h.of_changes hchanges (by simp [Call.tables]) (by simp [Call.tables])
      (by simp [Call.tables])
    intro _ i hi
    obtain ⟨i', hi', heq, _⟩ := mem_useInvitation (state_of_some hexec ▸ hi)
    rw [heq]
    exact h.invitation i' hi'
  | _ =>
    apply h.of_changes hchanges
    all_goals simp [Call.tables]

theorem mem_permissionsOf {id : RoleId} {p : String}
    : p ∈ s.permissionsOf id ↔ ⟨id, p⟩ ∈ s.rolePermissions := by
  unfold permissionsOf
  rw [List.mem_insertionSort, List.mem_map]
  constructor
  . intro h
    obtain ⟨q, hq, heq⟩ := h
    have hq := Table.mem_select.mp hq
    simp only [beq_iff_eq] at hq
    rw [← hq.2, ← heq]
    exact hq.1
  . intro h
    exists ⟨id, p⟩
    constructor
    . rw [Table.mem_select]
      exact ⟨h, by simp⟩
    . rfl

/--
The name of a role decides its permissions.
-/
theorem SystemRoles.permissionsOf (h : s.SystemRoles) {r : Role} (hr : r ∈ s.roles)
    : ∃ perms, (r.name, perms) ∈ systemRoles ∧ ∀ p, p ∈ s.permissionsOf r.id ↔ p ∈ perms := by
  obtain ⟨perms, hmem, hperms⟩ := h.role r hr
  refine ⟨perms, hmem, ?_⟩
  intro p
  rw [mem_permissionsOf, hperms]

end IdentityStore

/--
The configuration occurs in a run of the service from its first start on.
-/
abbrev Reachable {env : Env} (c : Config (system env)) : Prop :=
  Config.Reachable IdentityStore.empty c

/--
The process `pid` runs the operation to its end.
-/
def operation {env : Env} (pid : Nat) (req : Request) (choices : List Entropy)
    : List (Move (system env)) :=
  .spawn req :: @Move.alone calls (system env) pid choices

/--
Only system roles are ever created.
-/
theorem Reachable.systemRoles {env : Env} {c : Config (system env)} (h : Reachable c)
    : c.world.state.SystemRoles := by
  obtain ⟨ms, hrun⟩ := h
  refine Outline.run_invariant (S := system env) (P := fun c : Call =>
    ∀ id orgId name description isSystem permissions,
      c = .createRole id orgId name description isSystem permissions
        → (name, permissions) ∈ Auth.systemRoles) ?_ ?_ ?_ ?_ ?_ hrun
  . intro req
    apply (handle_uses env req).mono
    intro c hc id orgId name description isSystem permissions heq
    subst heq
    cases hc with
    | inl hread => cases hread
    | inr hwrites => cases req <;> first | exact hwrites | exact hwrites.elim
  . intro c hc pid s r s' hs hanswer
    cases hanswer.effect with
    | inl heq =>
      subst heq
      exact hs
    | inr hexec =>
      obtain ⟨e, r', hexec⟩ := hexec
      exact hs.exec hexec hc
  . intro pid s hs
    exact ⟨hs.role, hs.permission, hs.membership, hs.invitation⟩
  . intro d s hs
    exact ⟨hs.role, hs.permission, hs.membership, hs.invitation⟩
  . constructor
    all_goals
      intro x hx
      exact absurd hx (Table.not_mem_empty x)

end Reactor.Auth
