import ReactorCloud.Auth.Effect

/-!
This module contains when the operations of a caller give nobody more than the caller holds.
-/

namespace Reactor.Auth

open Interleave
open Relational

/--
Every permission that is wanted is matched by one that is granted.
-/
def Covers (granted wanted : List String) : Prop :=
  ∀ p ∈ wanted, Permissions.matchesAny granted p = true

/--
The user has the role in the organization.
-/
def IdentityStore.Holds (s : IdentityStore) (u : UserId) (o : OrgId) (r : Role) : Prop :=
  (∃ x ∈ s.orgs, x.id = o) ∧ r ∈ s.roles
    ∧ ∃ m ∈ s.memberships, m.userId = u ∧ m.orgId = o ∧ m.roleId = r.id

def IdentityStore.IsOwnerRole (s : IdentityStore) (id : RoleId) : Prop :=
  ∃ r ∈ s.roles, r.id = id ∧ r.name = "owner"

/--
An operation that takes the state `s` to `s'` gives somebody more than the role `r` of the state `s₀` in
the organization. An invitation from before `s₀` is not one of the caller's.
-/
inductive Escalates (env : Env) (s₀ : IdentityStore) (o : OrgId) (r : Role) (s : IdentityStore)
    (req : Request) (s' : IdentityStore) : Prop where
  | member (m : Membership) (hm : m ∈ s'.memberships) (hnew : m ∉ s.memberships) (ho : m.orgId = o)
      (hown : ∀ token, req = .acceptInvitation token →
        ∀ i ∈ s₀.invitations, i.tokenHash ≠ env.sha256 token)
      (hmore : ¬ Covers (s₀.permissionsOf r.id) (s'.permissionsOf m.roleId))
  | invitation (i : InvitationRow) (hi : i ∈ s'.invitations)
      (hnew : ∀ i' ∈ s.invitations, i'.tokenHash ≠ i.tokenHash) (ho : i.orgId = o)
      (hmore : ¬ Covers (s₀.permissionsOf r.id) (s'.permissionsOf i.roleId))
  | operator (m : PlatformMembership) (hexist : s.platformOperatorsExist = true)
      (hm : m ∈ s'.platformMemberships) (hoperator : IdentityStore.isOperator m = true)
      (hnew : ∀ m' ∈ s.platformMemberships, IdentityStore.isOperator m' = true → m'.userId ≠ m.userId)

/--
The request of a caller with the role `r` in the organization is none of those that are not guarded: a
promotion to operator, or the owner role in the hands of another role.
-/
structure Restrained (env : Env) (u : UserId) (o : OrgId) (r : Role) (s : IdentityStore)
    (req : Request) : Prop where
  by_user : req.By u
  promote : ∀ email, req = .promoteOperator email → s.platformOperatorsExist = false
  asks : r.name ≠ "owner" → ∀ roleId, req.asks s = some (o, roleId) → ¬ s.IsOwnerRole roleId
  /-- The caller does not become an owner by an invitation of somebody else. -/
  accepts : r.name ≠ "owner" → ∀ token i user, req = .acceptInvitation token →
    s.findInvitationByHash (env.sha256 token) = some i → i.orgId = o →
    s.findUserByEmail i.email = some user → user.id = u → ¬ s.IsOwnerRole i.roleId

/--
What the operations of a caller who is not an owner leave as it is: the caller is no owner of the
organization, and its new invitations are not for owners.
-/
structure Confined (s₀ : IdentityStore) (u : UserId) (o : OrgId) (r : Role) (s : IdentityStore)
    : Prop where
  org : ∃ x ∈ s.orgs, x.id = o
  unowned : ∀ m ∈ s.memberships, m.userId = u → m.orgId = o → ¬ s.IsOwnerRole m.roleId
  plain : r.name = "member" → ∃ m ∈ s.memberships, m.userId = u ∧ m.orgId = o
    ∧ ∃ role ∈ s.roles, role.id = m.roleId ∧ role.name = "member"
  invitation : ∀ i ∈ s.invitations, i.orgId = o →
    (∃ i₀ ∈ s₀.invitations, i₀.tokenHash = i.tokenHash)
      ∨ (r.name ≠ "member" ∧ ¬ s.IsOwnerRole i.roleId)

section Escalation

variable {env : Env} {u : UserId} {o : OrgId} {r : Role} {req : Request}
  {o' : OrgId} {s₀ b s s' : IdentityStore}

/--
What covers depends on the permissions of the roles in the system only.
-/
theorem covers_of_systemRoles {s₀ s : IdentityStore} (h : s₀.SystemRoles) (h' : s.SystemRoles)
    {x : Role} (hr : r ∈ s₀.roles) (hx : x ∈ s.roles)
    (hcovers : ∀ granted ∈ systemRoles, granted.1 = r.name → ∀ wanted ∈ systemRoles,
      wanted.1 = x.name → ∀ p ∈ wanted.2, Permissions.matchesAny granted.2 p = true)
    : Covers (s₀.permissionsOf r.id) (s.permissionsOf x.id) := by
  obtain ⟨granted, hgranted, hg⟩ := h.permissionsOf hr
  obtain ⟨wanted, hwanted, hw⟩ := h'.permissionsOf hx
  intro p hp
  have hmatch := hcovers _ hgranted rfl _ hwanted rfl p ((hw p).mp hp)
  simp only [Permissions.matchesAny, List.any_eq_true] at hmatch ⊢
  obtain ⟨g, hmem, hg'⟩ := hmatch
  exact ⟨g, (hg g).mpr hmem, hg'⟩

theorem covers_owner (h : s₀.SystemRoles) (h' : s.SystemRoles) (hr : r ∈ s₀.roles)
    (hname : r.name = "owner") {x : Role} (hx : x ∈ s.roles)
    : Covers (s₀.permissionsOf r.id) (s.permissionsOf x.id) := by
  have howner : ∀ granted ∈ systemRoles, granted.1 = "owner" → ∀ wanted ∈ systemRoles,
      ∀ p ∈ wanted.2, Permissions.matchesAny granted.2 p = true := by
    decide
  apply covers_of_systemRoles h h' hr hx
  rw [hname]
  intro granted hgranted hg wanted hwanted _
  exact howner granted hgranted hg wanted hwanted

theorem covers_admin (h : s₀.SystemRoles) (h' : s.SystemRoles) (hr : r ∈ s₀.roles)
    (hname : r.name = "admin") {x : Role} (hx : x ∈ s.roles) (howner : x.name ≠ "owner")
    : Covers (s₀.permissionsOf r.id) (s.permissionsOf x.id) := by
  have hadmin : ∀ granted ∈ systemRoles, granted.1 = "admin" → ∀ wanted ∈ systemRoles,
      wanted.1 ≠ "owner" → ∀ p ∈ wanted.2, Permissions.matchesAny granted.2 p = true := by
    decide
  apply covers_of_systemRoles h h' hr hx
  rw [hname]
  intro granted hgranted hg wanted hwanted hw
  exact hadmin granted hgranted hg wanted hwanted (hw ▸ howner)

/--
A role that something refers to does not change its name.
-/
theorem isOwnerRole_before (hroles : ∀ x ∈ b.roles, x ∈ s.roles) {id : RoleId}
    (hid : ∃ x ∈ b.roles, x.id = id) (h : s.IsOwnerRole id) : b.IsOwnerRole id := by
  obtain ⟨x, hx, hxid⟩ := hid
  obtain ⟨y, hy, hyid, hname⟩ := h
  have heq := IdentityStore.Role.eq_of_id (hroles x hx) hy (hxid.trans hyid.symm)
  subst heq
  exact ⟨x, hx, hxid, hname⟩

theorem isOwnerRole_mono (hroles : ∀ x ∈ s.roles, x ∈ b.roles) {id : RoleId} (h : s.IsOwnerRole id)
    : b.IsOwnerRole id := by
  obtain ⟨x, hx, hid, hname⟩ := h
  exact ⟨x, hroles x hx, hid, hname⟩

theorem Membership.eq_of_key {t : Table Membership} {x y : Membership} (hx : x ∈ t) (hy : y ∈ t)
    (hu : x.userId = y.userId) (ho : x.orgId = y.orgId) : x = y := by
  apply Table.eq_of_conflict hx hy
  simp [Constrained.conflict, hu, ho]

theorem Confined.plain_role (h : Confined s₀ u o r b) (hname : r.name = "member")
    {names : List String} (hnames : "member" ∉ names) : ¬ b.HasRole names u o := by
  intro hrole
  obtain ⟨m, hm, hu, ho, x, hx, hid, hmember⟩ := h.plain hname
  obtain ⟨m', hm', hu', ho', x', hx', hid', hmem⟩ := hrole
  have heq := Membership.eq_of_key hm hm' (hu.trans hu'.symm) (ho.trans ho'.symm)
  subst heq
  have heq := IdentityStore.Role.eq_of_id hx hx' (hid.trans hid'.symm)
  subst heq
  exact hnames (hmember ▸ hmem)

theorem Confined.start (hholds : s₀.Holds u o r) (hname : r.name ≠ "owner") : Confined s₀ u o r s₀ := by
  obtain ⟨horg, hr, m, hm, hu, ho, hrole⟩ := hholds
  refine ⟨horg, ?_, ?_, ?_⟩
  . intro m' hm' hu' ho' howner
    have heq := Membership.eq_of_key hm hm' (hu.trans hu'.symm) (ho.trans ho'.symm)
    subst heq
    obtain ⟨x, hx, hid, howner⟩ := howner
    have heq := IdentityStore.Role.eq_of_id hx hr (hid.trans hrole)
    subst heq
    exact hname howner
  . intro hmember
    exact ⟨m, hm, hu, ho, r, hr, hrole.symm, hmember⟩
  . intro i hi _
    exact .inl ⟨i, hi, rfl⟩

theorem createsOrg_of_asks {p : OrgId × RoleId} (h : req.asks b = some p)
    : req.createsOrg = false := by
  cases req <;> first
    | rfl
    | cases h

theorem mem_of_findInvitationByHash {h : Digest} {i : Invitation}
    (hi : b.findInvitationByHash h = some i)
    : ∃ row ∈ b.invitations, row.tokenHash = h ∧ row.toInvitation = i := by
  unfold IdentityStore.findInvitationByHash at hi
  rw [Option.map_eq_some_iff] at hi
  obtain ⟨row, hfind, heq⟩ := hi
  have := Table.prop_of_find? hfind
  simp only [IdentityStore.unusedInvitation, Bool.and_eq_true, beq_iff_eq] at this
  exact ⟨row, Table.mem_of_find? hfind, this.1, heq⟩

/--
No operation makes a restrained caller an owner.
-/
theorem Confined.given_caller (h : Confined s₀ u o r b) (hreq : Restrained env u o r b req)
    (hname : r.name ≠ "owner") {m : Membership} (hgiven : Given env u req b m) (hu : m.userId = u)
    (ho : m.orgId = o) : req.createsOrg = false ∧ ¬ b.IsOwnerRole m.roleId := by
  cases hgiven with
  | updated _ hasks => exact ⟨createsOrg_of_asks hasks, hreq.asks hname m.roleId (ho ▸ hasks)⟩
  | accepted token i user htoken hi huser hm =>
    obtain ⟨hmu, hmo, hmr⟩ := hm
    rw [hmr]
    exact ⟨htoken ▸ rfl, hreq.accepts hname token i user htoken hi (hmo.symm.trans ho) huser
      (hmu.symm.trans hu)⟩
  | created hnew =>
    obtain ⟨x, hx, hid⟩ := h.org
    exact absurd (hid.trans ho.symm) (hnew x hx)

/--
A membership that a restrained caller creates is not one of an owner, unless somebody else has invited
the user.
-/
theorem Confined.given_own (h : Confined s₀ u o r b) (hreq : Restrained env u o r b req)
    (hname : r.name ≠ "owner") {m : Membership} (hgiven : Given env u req b m) (ho : m.orgId = o)
    (hown : ∀ token, req = .acceptInvitation token →
      ∀ i ∈ s₀.invitations, i.tokenHash ≠ env.sha256 token)
    : req.createsOrg = false ∧ r.name ≠ "member" ∧ ¬ b.IsOwnerRole m.roleId := by
  cases hgiven with
  | updated hrole hasks =>
    rw [ho] at hasks hrole
    refine ⟨createsOrg_of_asks hasks, ?_, hreq.asks hname m.roleId hasks⟩
    intro hmember
    exact h.plain_role hmember (by decide) hrole
  | accepted token i user htoken hi huser hm =>
    obtain ⟨_, hmo, hmr⟩ := hm
    obtain ⟨row, hrow, hhash, heq⟩ := mem_of_findInvitationByHash hi
    subst heq
    rw [hmr]
    cases h.invitation row hrow (hmo.symm.trans ho) with
    | inl hold =>
      obtain ⟨i₀, hi₀, heq⟩ := hold
      exact absurd (heq.trans hhash) (hown token htoken i₀ hi₀)
    | inr hnew => exact ⟨htoken ▸ rfl, hnew⟩
  | created hnew =>
    obtain ⟨x, hx, hid⟩ := h.org
    exact absurd (hid.trans ho.symm) (hnew x hx)

/--
What is left of the state when an organization is deleted.
-/
structure Shrinks (id : OrgId) (s s' : IdentityStore) : Prop where
  org : ∀ x ∈ s.orgs, x.id ≠ id → x ∈ s'.orgs
  member : ∀ m ∈ s'.memberships, m ∈ s.memberships
  kept : ∀ m ∈ s.memberships, m.orgId ≠ id → m ∈ s'.memberships
  role : ∀ x ∈ s'.roles, x ∈ s.roles
  used : ∀ m ∈ s.memberships, ∀ x ∈ s.roles, x.id = m.roleId → x ∈ s'.roles
  invitation : ∀ i ∈ s'.invitations, i ∈ s.invitations
  platformMemberships : s'.platformMemberships = s.platformMemberships

theorem deleteOrg_shrinks (id : OrgId) (s : IdentityStore) : Shrinks id s (s.deleteOrg id).2 := by
  have hrefl : Shrinks id s s := by
    constructor
    . intro x hx _
      exact hx
    . intro m hm
      exact hm
    . intro m hm _
      exact hm
    . intro x hx
      exact hx
    . intro m _ x hx _
      exact hx
    . intro i hi
      exact hi
    . rfl
  unfold IdentityStore.deleteOrg
  dsimp only
  split
  . split
    . exact hrefl
    . next hunused =>
      simp only [Bool.not_eq_true, Table.any_eq_false] at hunused
      constructor
      . intro x hx hne
        exact Table.mem_delete.mpr ⟨hx, by simpa using hne⟩
      . intro m hm
        exact (Table.mem_delete.mp hm).1
      . intro m hm hne
        exact Table.mem_delete.mpr ⟨hm, by simpa using hne⟩
      . intro x hx
        exact (Table.mem_delete.mp hx).1
      . intro m hm x hx hid
        have := hunused m hm x hx
        exact Table.mem_delete.mpr ⟨hx, by simpa [hid] using this⟩
      . intro i hi
        exact (Table.mem_delete.mp hi).1
      . rfl
  . exact hrefl

theorem Deleted.shrinks (h : Deleted u b s) : ∃ o, b.HasRole ["owner"] u o ∧ Shrinks o b s := by
  obtain ⟨o, b', hrole, hrested, hsame⟩ := h
  have := deleteOrg_shrinks o b'
  refine ⟨o, hrole, ?_⟩
  constructor
  . rw [hsame.orgs, ← hrested.orgs]
    exact this.org
  . rw [hsame.memberships, ← hrested.memberships]
    exact this.member
  . rw [hsame.memberships, ← hrested.memberships]
    exact this.kept
  . rw [hsame.roles, ← hrested.roles]
    exact this.role
  . rw [hsame.roles, ← hrested.roles, ← hrested.memberships]
    exact this.used
  . rw [hsame.invitations, ← hrested.invitations]
    exact this.invitation
  . rw [hsame.platformMemberships, ← hrested.platformMemberships]
    exact this.platformMemberships

theorem Confined.shrinks (h : Confined s₀ u o r b) (hrole : b.HasRole ["owner"] u o')
    (hshrinks : Shrinks o' b s) : Confined s₀ u o r s := by
  have hne : o ≠ o' := by
    intro heq
    subst heq
    obtain ⟨m, hm, hu, ho, x, hx, hid, hname⟩ := hrole
    exact h.unowned m hm hu ho ⟨x, hx, hid, by simpa using hname⟩
  constructor
  . obtain ⟨x, hx, hid⟩ := h.org
    exact ⟨x, hshrinks.org x hx (hid ▸ hne), hid⟩
  . intro m hm hu ho howner
    exact h.unowned m (hshrinks.member m hm) hu ho (isOwnerRole_mono hshrinks.role howner)
  . intro hname
    obtain ⟨m, hm, hu, ho, x, hx, hid, hmember⟩ := h.plain hname
    exact ⟨m, hshrinks.kept m hm (ho ▸ hne), hu, ho, x, hshrinks.used m hm x hx hid, hid, hmember⟩
  . intro i hi ho
    cases h.invitation i (hshrinks.invitation i hi) ho with
    | inl hold => exact .inl hold
    | inr hnew =>
      exact .inr ⟨hnew.1, fun howner => hnew.2 (isOwnerRole_mono hshrinks.role howner)⟩

theorem Confined.effect (h : Confined s₀ u o r b) (hb : b.SystemRoles)
    (hreq : Restrained env u o r b req) (hname : r.name ≠ "owner") (heffect : Effect env u req b s)
    : Confined s₀ u o r s := by
  constructor
  . obtain ⟨x, hx, hid⟩ := h.org
    obtain ⟨x', hx', hid'⟩ := heffect.org x hx
    exact ⟨x', hx', hid'.trans hid⟩
  . intro m hm hu ho howner
    cases heffect.member m hm with
    | inl hold =>
      exact h.unowned m hold hu ho (isOwnerRole_before heffect.role (hb.membership m hold) howner)
    | inr hgiven =>
      have := h.given_caller hreq hname hgiven hu ho
      exact this.2 (isOwnerRole_mono (heffect.newRole this.1) howner)
  . intro hmember
    obtain ⟨m, hm, hu, ho, x, hx, hid, hplain⟩ := h.plain hmember
    cases heffect.kept m hm with
    | inl hkept => exact ⟨m, hkept, hu, ho, x, heffect.role x hx, hid, hplain⟩
    | inr hrole => exact absurd (ho ▸ hrole) (h.plain_role hmember (by decide))
  . intro i hi ho
    cases heffect.invitation i hi with
    | inl hold =>
      obtain ⟨i', hi', heq, hhash⟩ := hold
      rw [heq, hhash]
      rw [heq] at ho
      cases h.invitation i' hi' ho with
      | inl hold => exact .inl hold
      | inr hnew =>
        exact .inr ⟨hnew.1, fun howner =>
          hnew.2 (isOwnerRole_before heffect.role (hb.invitation i' hi') howner)⟩
    | inr hnew =>
      obtain ⟨hrole, hasks⟩ := hnew
      rw [ho] at hrole hasks
      apply Or.inr
      constructor
      . intro hmember
        exact h.plain_role hmember (by decide) hrole
      . intro howner
        exact hreq.asks hname i.roleId hasks
          (isOwnerRole_mono (heffect.newRole (createsOrg_of_asks hasks)) howner)

theorem Confined.not_escalates (h : Confined s₀ u o r b) (h₀ : s₀.SystemRoles) (hs : s.SystemRoles)
    (hr : r ∈ s₀.roles) (hreq : Restrained env u o r b req) (hname : r.name ≠ "owner")
    (heffect : Effect env u req b s) : ¬ Escalates env s₀ o r b req s := by
  have hcovers : ∀ roleId, (∃ x ∈ s.roles, x.id = roleId) → req.createsOrg = false →
      r.name ≠ "member" → ¬ b.IsOwnerRole roleId
        → Covers (s₀.permissionsOf r.id) (s.permissionsOf roleId) := by
    intro roleId hx hcreates hmember howner
    obtain ⟨x, hx, hid⟩ := hx
    subst hid
    have hadmin : r.name = "admin" := by
      obtain ⟨perms, hmem, _⟩ := h₀.role r hr
      simp only [systemRoles, List.mem_cons, Prod.mk.injEq, List.not_mem_nil] at hmem
      tauto
    apply covers_admin h₀ hs hr hadmin hx
    intro hx'
    exact howner ⟨x, heffect.newRole hcreates x hx, rfl, hx'⟩
  intro hescalates
  cases hescalates with
  | member m hm hnew ho hown hmore =>
    cases heffect.member m hm with
    | inl hold => exact hnew hold
    | inr hgiven =>
      obtain ⟨hcreates, hmember, howner⟩ := h.given_own hreq hname hgiven ho hown
      exact hmore (hcovers m.roleId (hs.membership m hm) hcreates hmember howner)
  | invitation i hi hnew ho hmore =>
    cases heffect.invitation i hi with
    | inl hold =>
      obtain ⟨i', hi', _, hhash⟩ := hold
      exact hnew i' hi' hhash.symm
    | inr hgiven =>
      obtain ⟨hrole, hasks⟩ := hgiven
      rw [ho] at hrole hasks
      have hmember : r.name ≠ "member" := fun hmember => h.plain_role hmember (by decide) hrole
      exact hmore (hcovers i.roleId (hs.invitation i hi) (createsOrg_of_asks hasks) hmember
        (hreq.asks hname i.roleId hasks))
  | operator m hexist hm hoperator hnew =>
    rw [heffect.operator hexist] at hm
    exact hnew m hm hoperator rfl

theorem Shrinks.not_escalates (hs : Shrinks o' b s) : ¬ Escalates env s₀ o r b req s := by
  intro hescalates
  cases hescalates with
  | member m hm hnew _ _ _ => exact hnew (hs.member m hm)
  | invitation i hi hnew _ _ => exact hnew i (hs.invitation i hi) rfl
  | operator m _ hm hoperator hnew =>
    rw [hs.platformMemberships] at hm
    exact hnew m hm hoperator rfl

/--
An owner has all there is to give.
-/
theorem not_escalates_owner (h₀ : s₀.SystemRoles) (hs : s.SystemRoles) (hr : r ∈ s₀.roles)
    (hname : r.name = "owner") (heffect : Effect env u req b s)
    : ¬ Escalates env s₀ o r b req s := by
  intro hescalates
  cases hescalates with
  | member m hm _ _ _ hmore =>
    obtain ⟨x, hx, hid⟩ := hs.membership m hm
    exact hmore (hid ▸ covers_owner h₀ hs hr hname hx)
  | invitation i hi _ _ hmore =>
    obtain ⟨x, hx, hid⟩ := hs.invitation i hi
    exact hmore (hid ▸ covers_owner h₀ hs hr hname hx)
  | operator m hexist hm hoperator hnew =>
    rw [heffect.operator hexist] at hm
    exact hnew m hm hoperator rfl

end Escalation

variable {env : Env} {u : UserId} {o : OrgId} {r : Role} {req : Request}
  {c₀ c c' : Config (system env)}

theorem operates_effect (hop : Config.Operates c req c') (hby : req.By u)
    (hpromote : ∀ email, req = .promoteOperator email → c.world.state.platformOperatorsExist = false) :
    Effect env u req c.world.state c'.world.state ∨ Deleted u c.world.state c'.world.state := by
  apply hop.within (handle_stays hby hpromote)
  . intro s hs
    exact hs.imp (fun h => h.same ⟨rfl, rfl, rfl, rfl, rfl⟩) (fun h => h.same ⟨rfl, rfl, rfl, rfl, rfl⟩)
  . intro d s hs
    exact hs.imp (fun h => h.same ⟨rfl, rfl, rfl, rfl, rfl⟩) (fun h => h.same ⟨rfl, rfl, rfl, rfl, rfl⟩)

theorem Confined.sequence (hreach : Reachable c₀) (hholds : c₀.world.state.Holds u o r)
    (hname : r.name ≠ "owner") (hseq : Config.Sequence (Restrained env u o r) c₀ c)
    : Confined c₀.world.state u o r c.world.state := by
  induction hseq with
  | nil => exact .start hholds hname
  | snoc hseq hreq hop ih =>
    cases operates_effect hop hreq.by_user hreq.promote with
    | inl heffect => exact ih.effect (Reachable.systemRoles (hreach.sequence hseq)) hreq hname heffect
    | inr hdeleted =>
      obtain ⟨o', hrole, hshrinks⟩ := hdeleted.shrinks
      exact ih.shrinks hrole hshrinks

/--
From any state the service reaches on, whatever the caller does one after another: the next operation
escalates nothing unless it is one of those without a guard.
-/
theorem no_escalation (hreach : Reachable c₀) (hholds : c₀.world.state.Holds u o r)
    (hseq : Config.Sequence (Restrained env u o r) c₀ c)
    (hreq : Restrained env u o r c.world.state req) (hop : Config.Operates c req c') :
    ¬ Escalates env c₀.world.state o r c.world.state req c'.world.state := by
  have h₀ := hreach.systemRoles
  have hs := Reachable.systemRoles ((hreach.sequence hseq).operates hop)
  cases operates_effect hop hreq.by_user hreq.promote with
  | inl heffect =>
    by_cases hname : r.name = "owner"
    . exact not_escalates_owner h₀ hs hholds.2.1 hname heffect
    . exact (Confined.sequence hreach hholds hname hseq).not_escalates h₀ hs hholds.2.1 hreq hname
        heffect
  | inr hdeleted =>
    obtain ⟨o', _, hshrinks⟩ := hdeleted.shrinks
    exact hshrinks.not_escalates

section Admin

def bearer (u : UserId) : AccessToken :=
  ⟨⟨some u, none, none, [], [], none, [], none, 0, 900⟩⟩

/--
The user 1 becomes the operator and the owner of an organization and invites the user 2 as an admin.
-/
def appointAdmin : List (Move (system Env.transparent)) :=
  operation 0 (.signup "ada@x" "password" .null) (List.replicate 13 ⟨1, "a"⟩)
    ++ operation 1 (.bootstrapOperator "ada@x") (List.replicate 3 ⟨0, ""⟩)
    ++ operation 2 (.signup "bob@x" "password" .null) (List.replicate 13 ⟨2, "b"⟩)
    ++ operation 3 (.createOrg (bearer 1) "Org" "org" .null)
      ([0, 10, 0, 11, 12, 13, 0, 0, 0, 0].map (⟨·, ""⟩))
    ++ operation 4 (.createInvitation (bearer 1) (.id 10) "bob@x" (some 12))
      (List.replicate 10 ⟨20, "c"⟩)
    ++ operation 5 (.acceptInvitation "c") (List.replicate 5 ⟨0, ""⟩)

def takeOver : Request := .updateMember (bearer 2) (.id 10) (some 2) (some 11)

/--
The admin of an organization makes itself its owner, and with a call that nothing guards a platform
operator.
-/
theorem escalation_by_admin : ∃ (c₀ c c' : Config (system Env.transparent)) (r : Role),
    Reachable c₀ ∧ c₀.world.state.Holds 2 10 r ∧ r.name = "admin"
      ∧ (∀ m ∈ c₀.world.state.platformMemberships, m.userId ≠ 2)
      ∧ takeOver.By 2 ∧ Config.Operates c₀ takeOver c
      ∧ Escalates Env.transparent c₀.world.state 10 r c₀.world.state takeOver c.world.state
      ∧ Config.Operates c₀ (.promoteOperator "bob@x") c'
      ∧ Escalates Env.transparent c₀.world.state 10 r c₀.world.state (.promoteOperator "bob@x")
        c'.world.state := by
  have hrun : (Config.run appointAdmin (Config.start IdentityStore.empty)).any (fun c₀ =>
      c₀.next == 6
        && c₀.world.state.orgs.any (fun x => x.id == 10)
        && c₀.world.state.memberships.any (fun m => m.userId == 2 && m.orgId == 10 && m.roleId == 12)
        && !c₀.world.state.memberships.any (fun m => m.roleId == 11 && m.userId == 2)
        && ((c₀.world.state.findRoleById 12).map Role.name == some "admin")
        && !Permissions.matchesAny (c₀.world.state.permissionsOf 12) "*"
        && c₀.world.state.platformOperatorsExist
        && !c₀.world.state.platformMemberships.any (fun m => m.userId == 2)
        && (Config.run (operation 6 takeOver (List.replicate 9 ⟨0, ""⟩)) c₀).any (fun c =>
          c.world.state.memberships.any (fun m => m.userId == 2 && m.orgId == 10 && m.roleId == 11)
            && (c.world.state.permissionsOf 11).contains "*")
        && (Config.run (operation 6 (.promoteOperator "bob@x") (List.replicate 2 ⟨0, ""⟩)) c₀).any
          (fun c => c.world.state.platformMemberships.any
            (fun m => m.userId == 2 && IdentityStore.isOperator m))) = true := by
    decide +kernel
  obtain ⟨c₀, hreach, hcheck⟩ := Config.exists_of_any hrun
  simp only [Bool.and_eq_true, Bool.not_eq_true', beq_iff_eq, Table.any_eq_false,
    Bool.and_eq_false_imp] at hcheck
  obtain ⟨⟨⟨⟨⟨⟨⟨⟨⟨hnext, horg⟩, hmember⟩, hnot⟩, hrole⟩, hstar⟩, hexist⟩, hplain⟩, htake⟩, hpromote⟩ :=
    hcheck
  obtain ⟨c, hop, hc⟩ := Config.exists_of_any htake
  obtain ⟨c', hop', hc'⟩ := Config.exists_of_any hpromote
  rw [Option.map_eq_some_iff] at hrole
  obtain ⟨r, hr, hname⟩ := hrole
  have hr := mem_of_findRoleById hr
  simp only [Bool.and_eq_true, Table.any_eq_true, beq_iff_eq] at horg hmember hc hc'
  obtain ⟨m₀, hm₀, ⟨hu₀, ho₀⟩, hr₀⟩ := hmember
  obtain ⟨⟨m, hm, ⟨hu, ho⟩, hrm⟩, hall⟩ := hc
  obtain ⟨m', hm', hu', hoperator⟩ := hc'
  refine ⟨c₀, c, c', r, ⟨_, hreach⟩, ⟨horg, hr.1, m₀, hm₀, hu₀, ho₀, hr₀.trans hr.2.symm⟩, hname, ?_,
    ?_, ?_, ?_, ?_, ?_⟩
  . intro m hm
    simpa using hplain m hm
  . intro token htoken
    cases htoken
    rfl
  . exact ⟨_, fun _ => hnext ▸ Move.isOf_alone, hop⟩
  . apply Escalates.member m hm _ ho
    . intro token htoken
      cases htoken
    . intro hcovers
      rw [hr.2, hrm] at hcovers
      have := hcovers "*" (by simpa using hall)
      rw [hstar] at this
      cases this
    . intro hold
      have := hnot m hold hrm
      simp [hu] at this
  . exact ⟨_, fun _ => hnext ▸ Move.isOf_alone, hop'⟩
  . apply Escalates.operator m' hexist hm' hoperator
    intro m hm _
    rw [hu']
    simpa using hplain m hm

def stepDown : Request := .updateMember (bearer 2) (.id 10) (some 2) (some 13)

/--
An admin that becomes a plain member.
-/
theorem no_escalation_stepDown : ∃ (c₀ c : Config (system Env.transparent)) (r : Role),
    Reachable c₀ ∧ c₀.world.state.Holds 2 10 r ∧ Config.Operates c₀ stepDown c
      ∧ ¬ Escalates Env.transparent c₀.world.state 10 r c₀.world.state stepDown c.world.state := by
  have hrun : (Config.run appointAdmin (Config.start IdentityStore.empty)).any (fun c₀ =>
      c₀.next == 6
        && c₀.world.state.orgs.any (fun x => x.id == 10)
        && c₀.world.state.memberships.any (fun m => m.userId == 2 && m.orgId == 10 && m.roleId == 12)
        && (c₀.world.state.findRoleById 12).isSome
        && !c₀.world.state.roles.any (fun x => x.id == 13 && x.name == "owner")
        && (Config.run (operation 6 stepDown (List.replicate 9 ⟨0, ""⟩)) c₀).any (fun c =>
          c.world.state.memberships.any (fun m => m.userId == 2 && m.roleId == 13))) = true := by
    decide +kernel
  obtain ⟨c₀, hreach, hcheck⟩ := Config.exists_of_any hrun
  simp only [Bool.and_eq_true, Bool.not_eq_true', beq_iff_eq, Table.any_eq_false,
    Bool.and_eq_false_imp] at hcheck
  obtain ⟨⟨⟨⟨⟨hnext, horg⟩, hmember⟩, hrole⟩, hplain⟩, hstep⟩ := hcheck
  obtain ⟨c, hop, _⟩ := Config.exists_of_any hstep
  obtain ⟨r, hr⟩ := Option.isSome_iff_exists.mp hrole
  have hr := mem_of_findRoleById hr
  simp only [Bool.and_eq_true, Table.any_eq_true, beq_iff_eq] at horg hmember
  obtain ⟨m₀, hm₀, ⟨hu₀, ho₀⟩, hr₀⟩ := hmember
  have hreach : Reachable c₀ := ⟨_, hreach⟩
  have hholds : c₀.world.state.Holds 2 10 r := ⟨horg, hr.1, m₀, hm₀, hu₀, ho₀, hr₀.trans hr.2.symm⟩
  have hop : Config.Operates c₀ stepDown c := ⟨_, fun _ => hnext ▸ Move.isOf_alone, hop⟩
  have hreq : Restrained Env.transparent 2 10 r c₀.world.state stepDown := by
    constructor
    . intro token htoken
      cases htoken
      rfl
    . intro email heq
      cases heq
    . intro _ roleId hasks howner
      cases hasks
      obtain ⟨x, hx, hid, hname⟩ := howner
      have := hplain x hx hid
      simp [hname] at this
    . intro _ token _ _ heq
      cases heq
  exact ⟨c₀, c, r, hreach, hholds, hop, no_escalation hreach hholds .nil hreq hop⟩

end Admin

end Reactor.Auth
