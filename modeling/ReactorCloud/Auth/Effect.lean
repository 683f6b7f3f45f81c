import ReactorCloud.Auth.Roles

/-!
This module contains what an operation of a caller that runs alone can do to the organizations, to their
members and invitations and to the platform operators.
-/

namespace Reactor.Auth

open Interleave
open Interleave.Program
open Relational

/--
The states agree on the organizations, on who belongs to them and on the platform operators.
-/
structure SameOrgs (s s' : IdentityStore) : Prop where
  orgs : s'.orgs = s.orgs
  roles : s'.roles = s.roles
  memberships : s'.memberships = s.memberships
  invitations : s'.invitations = s.invitations
  platformMemberships : s'.platformMemberships = s.platformMemberships

/--
Nothing an operation on organizations reads has changed.
-/
structure Rested (s s' : IdentityStore) : Prop extends SameOrgs s s' where
  users : s'.users = s.users

theorem SameOrgs.refl (s : IdentityStore) : SameOrgs s s := ⟨rfl, rfl, rfl, rfl, rfl⟩

theorem SameOrgs.trans {s s' s'' : IdentityStore} (h : SameOrgs s s') (h' : SameOrgs s' s'')
    : SameOrgs s s'' where
  orgs := h'.orgs.trans h.orgs
  roles := h'.roles.trans h.roles
  memberships := h'.memberships.trans h.memberships
  invitations := h'.invitations.trans h.invitations
  platformMemberships := h'.platformMemberships.trans h.platformMemberships

theorem Rested.refl (s : IdentityStore) : Rested s s := ⟨.refl s, rfl⟩

theorem Rested.trans {s s' s'' : IdentityStore} (h : Rested s s') (h' : Rested s' s'')
    : Rested s s'' where
  toSameOrgs := h.toSameOrgs.trans h'.toSameOrgs
  users := h'.users.trans h.users

theorem Rested.of_elapses {env : Env} {s s' : IdentityStore} (h : Elapses (system env) s s')
    : Rested s s' := by
  apply h.of_tick (.refl s)
  intro t s' hs
  exact hs.trans ⟨⟨rfl, rfl, rfl, rfl, rfl⟩, rfl⟩

/--
The operation of the process `pid` stays within `C` when it runs alone.
-/
abbrev Stays (env : Env) (pid : Nat) (C : IdentityStore → Prop) {α : Type} (x : AuthM α)
    (s : IdentityStore) : Prop :=
  @Wlp calls (system env) α pid C x s

/--
The organization that the text of a reference means.
-/
def IdentityStore.orgOf (s : IdentityStore) : OrgRef → Option OrgId
  | .id id => some id
  | .slug slug => (s.findOrgBySlug slug).map Org.id

/--
The user has a role with one of the names in the organization.
-/
def IdentityStore.HasRole (s : IdentityStore) (names : List String) (u : UserId) (o : OrgId) : Prop :=
  ∃ m ∈ s.memberships, m.userId = u ∧ m.orgId = o ∧ ∃ r ∈ s.roles, r.id = m.roleId ∧ r.name ∈ names

theorem Rested.orgOf {b s : IdentityStore} (h : Rested b s) (orgRef : OrgRef)
    : s.orgOf orgRef = b.orgOf orgRef := by
  cases orgRef with
  | id id => rfl
  | slug slug => simp only [IdentityStore.orgOf, IdentityStore.findOrgBySlug, h.orgs]

section Reads

variable {env : Env} {pid : Nat} {C : IdentityStore → Prop} {α : Type} {b s : IdentityStore}

theorem stays_read (hC : ∀ s, Rested b s → C s) {c : Call} {f : c.Ret → AuthM α}
    (hread : c.isRead = true) (hs : Rested b s)
    (hf : ∀ e a s', Rested b s' → IdentityStore.exec env pid c e s' = some (.ok a, s')
      → Stays env pid C (f a) s') : Stays env pid C (query c >>= f) s := by
  apply wlp_call
  intro s' helapses
  have hs' := hs.trans (.of_elapses helapses)
  constructor
  . exact hC s' hs'
  . intro r s'' hanswer
    have heq : s'' = s' := by
      cases hanswer.effect with
      | inl heq => exact heq
      | inr hexec =>
        obtain ⟨e, r', hexec⟩ := hexec
        exact exec_isRead hexec hread
    subst heq
    cases r with
    | ok a =>
      obtain ⟨e, hexec⟩ := hanswer.ok
      exact hf e a _ hs' hexec
    | error e =>
      intro s''' helapses'
      exact hC s''' (hs'.trans (.of_elapses helapses'))

theorem stays_okOr {β : Type} (hC : ∀ s, Rested b s → C s) {o : Option β} {e : AuthError}
    {f : β → AuthM α} (hs : Rested b s) (hf : ∀ a, o = some a → Stays env pid C (f a) s)
    : Stays env pid C (Program.okOr o e >>= f) s := by
  apply wlp_okOr hf
  intro _ s' helapses
  exact hC s' (hs.trans (.of_elapses helapses))

theorem stays_require (hC : ∀ s, Rested b s → C s) {p : Bool} {e : AuthError}
    {f : Unit → AuthM α} (hs : Rested b s) (hf : p = true → Stays env pid C (f ()) s)
    : Stays env pid C (Program.require p e >>= f) s := by
  apply wlp_require hf
  intro _ s' helapses
  exact hC s' (hs.trans (.of_elapses helapses))

theorem stays_bearerUser (hC : ∀ s, Rested b s → C s) {token : AccessToken} {u : UserId}
    {f : UserId → AuthM α} (huser : token.claims.userId = some u) (hs : Rested b s)
    (hf : ∀ s', Rested b s' → Stays env pid C (f u) s')
    : Stays env pid C (bearerUser token >>= f) s := by
  simp only [bearerUser, verifyToken, bind_assoc, pure_bind]
  apply stays_read hC rfl hs
  intro _ now s' hs' _
  apply stays_require hC hs'
  intro _
  apply stays_okOr hC hs'
  intro u' hu'
  rw [huser] at hu'
  cases hu'
  exact hf s' hs'

theorem stays_getOrgByRef (hC : ∀ s, Rested b s → C s) {orgRef : OrgRef} {f : Org → AuthM α}
    (hs : Rested b s)
    (hf : ∀ org s', Rested b s' → b.orgOf orgRef = some org.id → Stays env pid C (f org) s')
    : Stays env pid C (AuthService.getOrgByRef orgRef >>= f) s := by
  cases orgRef with
  | id id =>
    simp only [AuthService.getOrgByRef, bind_assoc]
    apply stays_read hC rfl hs
    intro _ org s' hs' hexec
    cases hexec
    apply stays_okOr hC hs'
    intro org horg
    have := Table.prop_of_find? horg
    simp only [beq_iff_eq] at this
    exact hf org s' hs' (by rw [this]; rfl)
  | slug slug =>
    simp only [AuthService.getOrgByRef, bind_assoc]
    apply stays_read hC rfl hs
    intro _ org s' hs' hexec
    cases hexec
    apply stays_okOr hC hs'
    intro org horg
    apply hf org s' hs'
    rw [← hs'.orgOf]
    simp only [IdentityStore.orgOf, horg, Option.map_some]

theorem mem_of_findMembership {s : IdentityStore} {u : UserId} {o : OrgId} {m : Membership}
    (h : s.findMembership u o = some m) : m ∈ s.memberships ∧ m.userId = u ∧ m.orgId = o := by
  have := Table.prop_of_find? h
  simp only [IdentityStore.ofMember, Bool.and_eq_true, beq_iff_eq] at this
  exact ⟨Table.mem_of_find? h, this⟩

theorem mem_of_findRoleById {s : IdentityStore} {id : RoleId} {r : Role}
    (h : s.findRoleById id = some r) : r ∈ s.roles ∧ r.id = id := by
  have := Table.prop_of_find? h
  simp only [beq_iff_eq] at this
  exact ⟨Table.mem_of_find? h, this⟩

theorem stays_requireOrgOwner (hC : ∀ s, Rested b s → C s) {u : UserId} {o : OrgId}
    {f : Unit → AuthM α} (hs : Rested b s)
    (hf : ∀ s', Rested b s' → b.HasRole ["owner"] u o → Stays env pid C (f ()) s')
    : Stays env pid C (AuthService.requireOrgOwner u o >>= f) s := by
  simp only [AuthService.requireOrgOwner, bind_assoc]
  apply stays_read hC rfl hs
  intro _ m s₁ hs₁ hexec
  cases hexec
  apply stays_okOr hC hs₁
  intro m hm
  apply stays_read hC rfl hs₁
  intro _ r s₂ hs₂ hexec
  cases hexec
  apply stays_okOr hC hs₂
  intro r hr
  apply stays_require hC hs₂
  intro hname
  apply hf s₂ hs₂
  have hm := mem_of_findMembership hm
  have hr := mem_of_findRoleById hr
  rw [hs₁.memberships] at hm
  rw [hs₂.roles] at hr
  exact ⟨m, hm.1, hm.2.1, hm.2.2, r, hr.1, hr.2, by simpa using hname⟩

theorem stays_requireOrgAdminOrOwner (hC : ∀ s, Rested b s → C s) {u : UserId} {o : OrgId}
    {f : Unit → AuthM α} (hs : Rested b s)
    (hf : ∀ s', Rested b s' → b.HasRole ["owner", "admin"] u o → Stays env pid C (f ()) s')
    : Stays env pid C (AuthService.requireOrgAdminOrOwner u o >>= f) s := by
  simp only [AuthService.requireOrgAdminOrOwner, bind_assoc]
  apply stays_read hC rfl hs
  intro _ m s₁ hs₁ hexec
  cases hexec
  apply stays_okOr hC hs₁
  intro m hm
  apply stays_read hC rfl hs₁
  intro _ r s₂ hs₂ hexec
  cases hexec
  apply stays_okOr hC hs₂
  intro r hr
  apply stays_require hC hs₂
  intro hname
  apply hf s₂ hs₂
  have hm := mem_of_findMembership hm
  have hr := mem_of_findRoleById hr
  rw [hs₁.memberships] at hm
  rw [hs₂.roles] at hr
  exact ⟨m, hm.1, hm.2.1, hm.2.2, r, hr.1, hr.2, by simpa using hname⟩

end Reads

/--
The organization and the role that a request asks for.
-/
def Request.asks (s : IdentityStore) : Request → Option (OrgId × RoleId)
  | updateMember _ orgRef _ roleId => (s.orgOf orgRef).bind (fun o => roleId.map (fun r => (o, r)))
  | createInvitation _ orgRef _ roleId =>
    (s.orgOf orgRef).bind (fun o => roleId.map (fun r => (o, r)))
  | _ => none

def Request.createsOrg : Request → Bool
  | createOrg _ _ _ _ => true
  | _ => false

/--
The membership `m` is one that the request of `u` can create in the state `b`.
-/
inductive Given (env : Env) (u : UserId) (req : Request) (b : IdentityStore) (m : Membership)
    : Prop where
  | updated (hrole : b.HasRole ["owner", "admin"] u m.orgId)
      (hasks : req.asks b = some (m.orgId, m.roleId))
  | accepted (token : String) (i : Invitation) (user : User) (hreq : req = .acceptInvitation token)
      (hi : b.findInvitationByHash (env.sha256 token) = some i)
      (huser : b.findUserByEmail i.email = some user) (hm : m.userId = user.id ∧ m.orgId = i.orgId
        ∧ m.roleId = i.roleId)
  | created (hnew : ∀ x ∈ b.orgs, x.id ≠ m.orgId)

/--
What the operation `req` of the user `u` can have made of the state `b`, short of the deletion of an
organization.
-/
structure Effect (env : Env) (u : UserId) (req : Request) (b s : IdentityStore) : Prop where
  member : ∀ m ∈ s.memberships, m ∈ b.memberships ∨ Given env u req b m
  kept : ∀ m ∈ b.memberships, m ∈ s.memberships ∨ b.HasRole ["owner", "admin"] u m.orgId
  invitation : ∀ i ∈ s.invitations,
    (∃ i' ∈ b.invitations, i.toInvitation = i'.toInvitation ∧ i.tokenHash = i'.tokenHash)
      ∨ (b.HasRole ["owner", "admin"] u i.orgId ∧ req.asks b = some (i.orgId, i.roleId))
  org : ∀ x ∈ b.orgs, ∃ x' ∈ s.orgs, x'.id = x.id
  role : ∀ x ∈ b.roles, x ∈ s.roles
  newRole : req.createsOrg = false → ∀ x ∈ s.roles, x ∈ b.roles
  operator : b.platformOperatorsExist = true → s.platformMemberships = b.platformMemberships

section Effect

variable {env : Env} {u : UserId} {req : Request} {b s s' : IdentityStore}

theorem Effect.of_rested (h : Rested b s) : Effect env u req b s where
  member _ hm := .inl (h.memberships ▸ hm)
  kept _ hm := .inl (h.memberships.symm ▸ hm)
  invitation i hi := .inl ⟨i, h.invitations ▸ hi, rfl, rfl⟩
  org x hx := ⟨x, h.orgs.symm ▸ hx, rfl⟩
  role _ hx := h.roles.symm ▸ hx
  newRole _ _ hx := h.roles ▸ hx
  operator _ := h.platformMemberships

/--
One more step of the operation.
-/
theorem Effect.step (h : Effect env u req b s)
    (member : ∀ m ∈ s'.memberships, m ∈ s.memberships ∨ Given env u req b m)
    (kept : ∀ m ∈ s.memberships, m ∈ s'.memberships ∨ b.HasRole ["owner", "admin"] u m.orgId)
    (invitation : ∀ i ∈ s'.invitations,
      (∃ i' ∈ s.invitations, i.toInvitation = i'.toInvitation ∧ i.tokenHash = i'.tokenHash)
        ∨ (b.HasRole ["owner", "admin"] u i.orgId ∧ req.asks b = some (i.orgId, i.roleId)))
    (org : ∀ x ∈ s.orgs, ∃ x' ∈ s'.orgs, x'.id = x.id) (role : ∀ x ∈ s.roles, x ∈ s'.roles)
    (newRole : req.createsOrg = false → ∀ x ∈ s'.roles, x ∈ s.roles)
    (operator : b.platformOperatorsExist = true → s'.platformMemberships = s.platformMemberships)
    : Effect env u req b s' where
  member m hm := (member m hm).elim (h.member m) .inr
  kept m hm := (h.kept m hm).elim (kept m) .inr
  invitation i hi := by
    cases invitation i hi with
    | inl hold =>
      obtain ⟨i', hi', heq, hhash⟩ := hold
      rw [heq, hhash]
      exact h.invitation i' hi'
    | inr hnew => exact .inr hnew
  org x hx := by
    obtain ⟨x', hx', heq⟩ := h.org x hx
    obtain ⟨x'', hx'', heq'⟩ := org x' hx'
    exact ⟨x'', hx'', heq'.trans heq⟩
  role x hx := role x (h.role x hx)
  newRole hreq x hx := h.newRole hreq x (newRole hreq x hx)
  operator hb := (operator hb).trans (h.operator hb)

variable (env u req b) in
/--
The calls of an operation of `u` that have no more than its effect.
-/
def Permits : Call → Prop
  | .createMembership userId orgId roleId =>
    ∀ time, Given env u req b ⟨userId, orgId, roleId, time⟩
  | .updateMembershipRole _ orgId roleId =>
    b.HasRole ["owner", "admin"] u orgId ∧ req.asks b = some (orgId, roleId)
  | .deleteMembership _ orgId => b.HasRole ["owner", "admin"] u orgId
  | .createInvitation _ _ orgId roleId _ =>
    b.HasRole ["owner", "admin"] u orgId ∧ req.asks b = some (orgId, roleId)
  | .createRole _ _ _ _ _ _ => req.createsOrg = true
  | .grantPlatformRole _ _ _ => b.platformOperatorsExist = false
  | .deleteOrg _ => False
  | _ => True

theorem createOrg_keeps {id : OrgId} {name slug : String} {metadata : Rust.Json} {x : Org}
    (hx : x ∈ s.orgs) : x ∈ (s.createOrg id name slug metadata).2.orgs := by
  unfold IdentityStore.createOrg
  split
  . exact hx
  . dsimp only
    split
    . next hinsert => exact (Table.mem_insert hinsert).mpr (.inr hx)
    . exact hx

theorem updateOrg_keeps {id : OrgId} {name slug : Option String} {metadata : Option Rust.Json}
    {x : Org} (hx : x ∈ s.orgs)
    : ∃ x' ∈ (s.updateOrg id name slug metadata).2.orgs, x'.id = x.id := by
  unfold IdentityStore.updateOrg
  dsimp only
  split
  . exact ⟨x, hx, rfl⟩
  . split
    . next hupdate =>
      refine ⟨_, (Table.mem_update hupdate).mpr ⟨x, hx, rfl⟩, ?_⟩
      split <;> rfl
    . exact ⟨x, hx, rfl⟩

theorem createRole_keeps {id : RoleId} {orgId : OrgId} {name : String} {description : Option String}
    {isSystem : Bool} {permissions : List String} {x : Role} (hx : x ∈ s.roles)
    : x ∈ (s.createRole id orgId name description isSystem permissions).2.roles := by
  unfold IdentityStore.createRole
  dsimp only
  split
  . split
    . next hinsert _ => exact (Table.mem_insert hinsert).mpr (.inr hx)
    . exact hx
  . exact hx

theorem Effect.exec {pid : Nat} {c : Call} {e : Entropy} {r : Except AuthError c.Ret}
    (h : Effect env u req b s) (hexec : IdentityStore.exec env pid c e s = some (r, s'))
    (hc : Permits env u req b c) : Effect env u req b s' := by
  have hchanges := IdentityStore.exec_changes hexec
  have hmember : .memberships ∉ c.tables → ∀ m ∈ s'.memberships,
      m ∈ s.memberships ∨ Given env u req b m := by
    intro hts m hm
    exact .inl (hchanges.memberships hts ▸ hm)
  have hkept : .memberships ∉ c.tables → ∀ m ∈ s.memberships,
      m ∈ s'.memberships ∨ b.HasRole ["owner", "admin"] u m.orgId := by
    intro hts m hm
    exact .inl ((hchanges.memberships hts).symm ▸ hm)
  have hinvitation : .invitations ∉ c.tables → ∀ i ∈ s'.invitations,
      (∃ i' ∈ s.invitations, i.toInvitation = i'.toInvitation ∧ i.tokenHash = i'.tokenHash)
        ∨ (b.HasRole ["owner", "admin"] u i.orgId ∧ req.asks b = some (i.orgId, i.roleId)) := by
    intro hts i hi
    exact .inl ⟨i, hchanges.invitations hts ▸ hi, rfl, rfl⟩
  have horg : .orgs ∉ c.tables → ∀ x ∈ s.orgs, ∃ x' ∈ s'.orgs, x'.id = x.id := by
    intro hts x hx
    exact ⟨x, (hchanges.orgs hts).symm ▸ hx, rfl⟩
  have hrole : .roles ∉ c.tables → ∀ x ∈ s.roles, x ∈ s'.roles := by
    intro hts x hx
    exact (hchanges.roles hts).symm ▸ hx
  have hnewRole : .roles ∉ c.tables → req.createsOrg = false → ∀ x ∈ s'.roles, x ∈ s.roles := by
    intro hts _ x hx
    exact hchanges.roles hts ▸ hx
  have hoperator : .platformMemberships ∉ c.tables → b.platformOperatorsExist = true
      → s'.platformMemberships = s.platformMemberships :=
    fun hts _ => hchanges.platformMemberships hts
  -- A call that does not write a table leaves its part of the effect alone.
  cases c with
  | createMembership userId orgId roleId =>
    have hs := IdentityStore.state_of_some hexec
    apply h.step _ _ (hinvitation (by simp [Call.tables])) (horg (by simp [Call.tables]))
      (hrole (by simp [Call.tables])) (hnewRole (by simp [Call.tables]))
      (hoperator (by simp [Call.tables]))
    . intro m hm
      cases IdentityStore.mem_createMembership (hs ▸ hm) with
      | inl hm => exact .inl hm
      | inr hm =>
        obtain ⟨hu, ho, hr, _⟩ := hm
        have := hc m.joinedAt
        rw [← hu, ← ho, ← hr] at this
        exact .inr this
    . intro m hm
      exact .inl (hs ▸ IdentityStore.createMembership_keeps hm)
  | updateMembershipRole userId orgId roleId =>
    have hs := IdentityStore.state_of_some hexec
    apply h.step _ _ (hinvitation (by simp [Call.tables])) (horg (by simp [Call.tables]))
      (hrole (by simp [Call.tables])) (hnewRole (by simp [Call.tables]))
      (hoperator (by simp [Call.tables]))
    . intro m hm
      cases IdentityStore.mem_updateMembershipRole (hs ▸ hm) with
      | inl hm => exact .inl hm
      | inr hm =>
        obtain ⟨_, ho, hr, _⟩ := hm
        exact .inr (.updated (ho ▸ hc.1) (ho ▸ hr ▸ hc.2))
    . intro m hm
      cases IdentityStore.updateMembershipRole_keeps hm with
      | inl hm => exact .inl (hs ▸ hm)
      | inr hof => exact .inr (hof.2 ▸ hc.1)
  | deleteMembership userId orgId =>
    have hs := IdentityStore.state_of_some hexec
    apply h.step _ _ (hinvitation (by simp [Call.tables])) (horg (by simp [Call.tables]))
      (hrole (by simp [Call.tables])) (hnewRole (by simp [Call.tables]))
      (hoperator (by simp [Call.tables]))
    . intro m hm
      exact .inl (IdentityStore.mem_deleteMembership (hs ▸ hm))
    . intro m hm
      cases IdentityStore.deleteMembership_keeps hm with
      | inl hm => exact .inl (hs ▸ hm)
      | inr hof => exact .inr (hof.2 ▸ hc)
  | createInvitation tokenHash email orgId roleId expiresAt =>
    apply h.step (hmember (by simp [Call.tables])) (hkept (by simp [Call.tables])) _
      (horg (by simp [Call.tables])) (hrole (by simp [Call.tables]))
      (hnewRole (by simp [Call.tables])) (hoperator (by simp [Call.tables]))
    intro i hi
    cases IdentityStore.mem_createInvitation (IdentityStore.state_of_some hexec ▸ hi) with
    | inl hi => exact .inl ⟨i, hi, rfl, rfl⟩
    | inr hi =>
      obtain ⟨ho, hr, _⟩ := hi
      rw [← ho, ← hr] at hc
      exact .inr hc
  | useInvitation tokenHash =>
    apply h.step (hmember (by simp [Call.tables])) (hkept (by simp [Call.tables])) _
      (horg (by simp [Call.tables])) (hrole (by simp [Call.tables]))
      (hnewRole (by simp [Call.tables])) (hoperator (by simp [Call.tables]))
    intro i hi
    exact .inl (IdentityStore.mem_useInvitation (IdentityStore.state_of_some hexec ▸ hi))
  | createOrg id name slug metadata =>
    apply h.step (hmember (by simp [Call.tables])) (hkept (by simp [Call.tables]))
      (hinvitation (by simp [Call.tables])) _ (hrole (by simp [Call.tables]))
      (hnewRole (by simp [Call.tables])) (hoperator (by simp [Call.tables]))
    intro x hx
    exact ⟨x, IdentityStore.state_of_some hexec ▸ createOrg_keeps hx, rfl⟩
  | updateOrg id name slug metadata =>
    apply h.step (hmember (by simp [Call.tables])) (hkept (by simp [Call.tables]))
      (hinvitation (by simp [Call.tables])) _ (hrole (by simp [Call.tables]))
      (hnewRole (by simp [Call.tables])) (hoperator (by simp [Call.tables]))
    intro x hx
    exact IdentityStore.state_of_some hexec ▸ updateOrg_keeps hx
  | createRole id orgId name description isSystem permissions =>
    apply h.step (hmember (by simp [Call.tables])) (hkept (by simp [Call.tables]))
      (hinvitation (by simp [Call.tables])) (horg (by simp [Call.tables])) _ _
      (hoperator (by simp [Call.tables]))
    . intro x hx
      exact IdentityStore.state_of_some hexec ▸ createRole_keeps hx
    . intro hreq
      cases hreq.symm.trans hc
  | grantPlatformRole userId roleName grantedBy =>
    apply h.step (hmember (by simp [Call.tables])) (hkept (by simp [Call.tables]))
      (hinvitation (by simp [Call.tables])) (horg (by simp [Call.tables]))
      (hrole (by simp [Call.tables])) (hnewRole (by simp [Call.tables]))
    intro hexist
    cases hexist.symm.trans hc
  | deleteOrg id => exact hc.elim
  | _ =>
    apply h.step (hmember (by simp [Call.tables])) (hkept (by simp [Call.tables]))
      (hinvitation (by simp [Call.tables])) (horg (by simp [Call.tables]))
      (hrole (by simp [Call.tables])) (hnewRole (by simp [Call.tables]))
      (hoperator (by simp [Call.tables]))

theorem Effect.answers {pid : Nat} {c : Call} {r : Except AuthError c.Ret}
    (h : Effect env u req b s) (hanswer : Answers (system env) pid c s r s')
    (hc : Permits env u req b c) : Effect env u req b s' := by
  cases hanswer.effect with
  | inl heq =>
    subst heq
    exact h
  | inr hexec =>
    obtain ⟨e, r', hexec⟩ := hexec
    exact h.exec hexec hc

theorem Effect.same (h : Effect env u req b s) (hsame : SameOrgs s s') : Effect env u req b s' where
  member m hm := h.member m (hsame.memberships ▸ hm)
  kept m hm := hsame.memberships.symm ▸ h.kept m hm
  invitation i hi := h.invitation i (hsame.invitations ▸ hi)
  org x hx := hsame.orgs.symm ▸ h.org x hx
  role x hx := hsame.roles.symm ▸ h.role x hx
  newRole hreq x hx := h.newRole hreq x (hsame.roles ▸ hx)
  operator hb := hsame.platformMemberships.trans (h.operator hb)

theorem Effect.elapses (h : Effect env u req b s) (helapses : Elapses (system env) s s')
    : Effect env u req b s' :=
  h.same (Rested.of_elapses helapses).toSameOrgs

theorem createOrg_fresh {id : OrgId} {name slug : String} {metadata : Rust.Json} {org : Org}
    (h : s.createOrg id name slug metadata = (.ok org, s')) : ∀ x ∈ s.orgs, x.id ≠ id := by
  unfold IdentityStore.createOrg at h
  dsimp only at h
  split at h
  . cases h
  . split at h
    . next hinsert =>
      intro x hx heq
      unfold Table.insert at hinsert
      split at hinsert
      . next hall =>
        have := List.all_eq_true.mp hall x hx
        simp [Constrained.conflict, heq] at this
      . cases hinsert
    . cases h

/--
A program of permitted calls has no more than the effect of its operation.
-/
theorem stays_permits {pid : Nat} {α : Type} {x : AuthM α} (h : Effect env u req b s)
    (hx : x.Uses (Permits env u req b)) : Stays env pid (Effect env u req b) x s := by
  apply wlp_of_uses hx h
  . intro c hc s r s' hs hanswer
    exact hs.answers hanswer hc
  . intro d s hs
    exact hs.same ⟨rfl, rfl, rfl, rfl, rfl⟩

theorem permits_isRead {c : Call} (h : c.isRead = true) : Permits env u req b c := by
  cases c <;> trivial

/--
The token a request is authenticated by.
-/
def Request.bearer? : Request → Option AccessToken
  | logout token => some token
  | updateUser token _ _ _ => some token
  | deleteUser token => some token
  | createOrg token _ _ _ => some token
  | updateOrg token _ _ _ _ => some token
  | deleteOrg token _ => some token
  | updateMember token _ _ _ => some token
  | deleteMember token _ _ => some token
  | createInvitation token _ _ _ => some token
  | authenticateFinish token _ _ => some token
  | _ => none

/--
The request can be one of the user.
-/
def Request.By (u : UserId) (req : Request) : Prop :=
  ∀ token, req.bearer? = some token → token.claims.userId = some u

section Uses

variable {P : Call → Prop}

theorem requireOtherOwner_uses (hread : ∀ c, Call.isRead c = true → P c) (orgId : OrgId)
    (roleId : RoleId) : (AuthService.requireOtherOwner orgId roleId).Uses P := by
  unfold AuthService.requireOtherOwner
  apply uses_bind (uses_query _ (hread _ rfl))
  intro ownerCount
  apply uses_require

theorem updateMemberRole_uses (hread : ∀ c, Call.isRead c = true → P c) {orgId : OrgId}
    {userId : UserId} {newRoleId : RoleId} (hupdate : P (.updateMembershipRole userId orgId newRoleId))
    : (AuthService.updateMemberRole orgId userId newRoleId).Uses P := by
  unfold AuthService.updateMemberRole
  apply uses_bind (uses_query _ (hread _ rfl))
  intro membership
  apply uses_bind (uses_okOr _ _)
  intro membership
  apply uses_bind (uses_query _ (hread _ rfl))
  intro currentRole
  apply uses_bind (uses_okOr _ _)
  intro currentRole
  apply uses_bind (uses_query _ (hread _ rfl))
  intro newRole
  apply uses_bind (uses_okOr _ _)
  intro newRole
  apply uses_bind (uses_require _ _)
  intro _
  have hrest : (do
      let updatedMembership ← query (.updateMembershipRole userId orgId newRoleId)
      let user ← Program.okOr (← query (.findUserById userId)) .userNotFound
      pure (user, updatedMembership, newRole) : AuthM (User × Membership × Role)).Uses P := by
    apply uses_bind (uses_query _ hupdate)
    intro updatedMembership
    apply uses_bind (uses_query _ (hread _ rfl))
    intro user
    apply uses_bind (uses_okOr _ _)
    intro user
    apply uses_pure
  apply uses_ite
  . exact uses_bind (requireOtherOwner_uses hread _ _) (fun _ => hrest)
  . exact hrest

theorem removeMember_uses (hread : ∀ c, Call.isRead c = true → P c) {orgId : OrgId}
    {userId : UserId} (hdelete : P (.deleteMembership userId orgId))
    : (AuthService.removeMember orgId userId).Uses P := by
  unfold AuthService.removeMember
  apply uses_bind (uses_query _ (hread _ rfl))
  intro membership
  apply uses_bind (uses_okOr _ _)
  intro membership
  apply uses_bind (uses_query _ (hread _ rfl))
  intro role
  apply uses_bind (uses_okOr _ _)
  intro role
  apply uses_ite
  . exact uses_bind (requireOtherOwner_uses hread _ _) (fun _ => uses_query _ hdelete)
  . exact uses_query _ hdelete

theorem createInvitation_uses (env : Env) (hread : ∀ c, Call.isRead c = true → P c)
    (hmail : ∀ email, P (.sendEmail email)) {orgId : OrgId} {roleId : RoleId}
    (hcreate : ∀ tokenHash email expiresAt, P (.createInvitation tokenHash email orgId roleId expiresAt))
    (email : String) : (AuthService.createInvitation env orgId email roleId).Uses P := by
  unfold AuthService.createInvitation
  apply uses_bind (uses_query _ (hread _ rfl))
  intro role
  apply uses_bind (uses_okOr _ _)
  intro role
  apply uses_bind (uses_require _ _)
  intro _
  apply uses_bind (uses_query _ (hread _ rfl))
  intro org
  apply uses_bind (uses_okOr _ _)
  intro org
  apply uses_bind (uses_query _ (hread _ rfl))
  intro token
  apply uses_bind (uses_query _ (hread _ rfl))
  intro now
  apply uses_bind (uses_query _ (hcreate _ _ _))
  intro _
  apply uses_bind (uses_query _ (hread _ rfl))
  intro invitation
  apply uses_bind (uses_okOr _ _)
  intro invitation
  apply uses_ite
  . exact uses_bind (uses_attempt (uses_query _ (hmail _))) (fun _ => uses_pure _)
  . exact uses_pure _

theorem promoteToPlatformOperator_uses (hread : ∀ c, Call.isRead c = true → P c)
    (hgrant : ∀ userId roleName grantedBy, P (.grantPlatformRole userId roleName grantedBy))
    (email : String) (grantedBy : Option UserId)
    : (AuthService.promoteToPlatformOperator email grantedBy).Uses P := by
  unfold AuthService.promoteToPlatformOperator
  apply uses_bind (uses_query _ (hread _ rfl))
  intro user
  apply uses_bind (uses_okOr _ _)
  intro user
  apply uses_bind (uses_query _ (hgrant _ _ _))
  intro _
  apply uses_pure

end Uses

section Handlers

variable {pid : Nat}

theorem updateMember_stays {token : AccessToken} {orgRef : OrgRef} {userId roleId : ParsedId}
    (hreq : req = .updateMember token orgRef userId roleId) (hby : req.By u)
    : Stays env pid (Effect env u req b) (Routes.updateMember token orgRef userId roleId) b := by
  have hC : ∀ s, Rested b s → Effect env u req b s := fun _ => .of_rested
  unfold Routes.updateMember
  apply stays_bearerUser hC (hby token (hreq ▸ rfl)) (.refl b)
  intro s₁ hs₁
  apply stays_getOrgByRef hC hs₁
  intro org s₂ hs₂ horg
  apply stays_requireOrgAdminOrOwner hC hs₂
  intro s₃ hs₃ hrole
  apply stays_okOr hC hs₃
  intro targetId _
  apply stays_okOr hC hs₃
  intro newRoleId hnew
  have hasks : req.asks b = some (org.id, newRoleId) := by
    simp [hreq, Request.asks, horg, hnew]
  exact stays_permits (.of_rested hs₃) (updateMemberRole_uses (fun _ => permits_isRead) ⟨hrole, hasks⟩)

theorem deleteMember_stays {token : AccessToken} {orgRef : OrgRef} {userId : ParsedId}
    (hreq : req = .deleteMember token orgRef userId) (hby : req.By u)
    : Stays env pid (Effect env u req b) (Routes.deleteMember token orgRef userId) b := by
  have hC : ∀ s, Rested b s → Effect env u req b s := fun _ => .of_rested
  unfold Routes.deleteMember
  apply stays_bearerUser hC (hby token (hreq ▸ rfl)) (.refl b)
  intro s₁ hs₁
  apply stays_getOrgByRef hC hs₁
  intro org s₂ hs₂ _
  apply stays_requireOrgAdminOrOwner hC hs₂
  intro s₃ hs₃ hrole
  apply stays_okOr hC hs₃
  intro targetId _
  exact stays_permits (.of_rested hs₃) (removeMember_uses (fun _ => permits_isRead) hrole)

theorem createInvitation_stays {token : AccessToken} {orgRef : OrgRef} {email : String}
    {roleId : ParsedId} (hreq : req = .createInvitation token orgRef email roleId) (hby : req.By u)
    : Stays env pid (Effect env u req b) (Routes.createInvitation env token orgRef email roleId) b := by
  have hC : ∀ s, Rested b s → Effect env u req b s := fun _ => .of_rested
  unfold Routes.createInvitation
  apply stays_bearerUser hC (hby token (hreq ▸ rfl)) (.refl b)
  intro s₁ hs₁
  apply stays_getOrgByRef hC hs₁
  intro org s₂ hs₂ horg
  apply stays_requireOrgAdminOrOwner hC hs₂
  intro s₃ hs₃ hrole
  apply stays_okOr hC hs₃
  intro newRoleId hnew
  have hasks : req.asks b = some (org.id, newRoleId) := by
    simp [hreq, Request.asks, horg, hnew]
  exact stays_permits (.of_rested hs₃) (createInvitation_uses env (fun _ => permits_isRead)
    (fun _ => trivial) (fun _ _ _ => ⟨hrole, hasks⟩) email)

theorem acceptInvitation_stays {token : String} (hreq : req = .acceptInvitation token)
    : Stays env pid (Effect env u req b) (AuthService.acceptInvitation env token) b := by
  have hC : ∀ s, Rested b s → Effect env u req b s := fun _ => .of_rested
  unfold AuthService.acceptInvitation
  apply stays_read hC rfl (.refl b)
  intro _ invitation s₁ hs₁ hexec
  cases hexec
  apply stays_okOr hC hs₁
  intro i hi
  apply stays_read hC rfl hs₁
  intro _ now s₂ hs₂ _
  apply stays_require hC hs₂
  intro _
  apply stays_read hC rfl hs₂
  intro _ user s₃ hs₃ hexec
  cases hexec
  split
  . next user huser =>
    apply stays_permits (.of_rested hs₃)
    apply uses_bind
    . apply uses_query
      intro time
      apply Given.accepted token i user hreq _ _ ⟨rfl, rfl, rfl⟩
      . rw [← hi]
        simp only [IdentityStore.findInvitationByHash, hs₁.invitations]
      . rw [← huser]
        simp only [IdentityStore.findUserByEmail, hs₃.users]
    . intro _
      apply uses_bind (uses_query _ trivial)
      intro _
      apply uses_pure
  . exact stays_permits (.of_rested hs₃) (uses_pure _)

theorem createOrg_stays {token : AccessToken} {name slug : String} {metadata : Rust.Json}
    (hreq : req = .createOrg token name slug metadata) (hby : req.By u)
    : Stays env pid (Effect env u req b) (Routes.createOrg token name slug metadata) b := by
  have hC : ∀ s, Rested b s → Effect env u req b s := fun _ => .of_rested
  unfold Routes.createOrg
  apply stays_bearerUser hC (hby token (hreq ▸ rfl)) (.refl b)
  intro s₁ hs₁
  unfold AuthService.createOrg
  apply stays_read hC rfl hs₁
  intro _ orgId s₂ hs₂ _
  apply wlp_call
  intro s₃ helapses
  have hs₃ := hs₂.trans (.of_elapses helapses)
  constructor
  . exact hC s₃ hs₃
  . intro r s₄ hanswer
    have heffect := (hC s₃ hs₃).answers hanswer trivial
    cases r with
    | error e =>
      intro s₅ helapses'
      exact heffect.elapses helapses'
    | ok org =>
      obtain ⟨_, hexec⟩ := hanswer.ok
      have hfresh : ∀ x ∈ b.orgs, x.id ≠ orgId := hs₃.orgs ▸ createOrg_fresh (Option.some.inj hexec)
      apply stays_permits heffect
      apply uses_bind (uses_query _ trivial)
      intro ownerRoleId
      apply uses_bind (uses_query _ trivial)
      intro adminRoleId
      apply uses_bind (uses_query _ trivial)
      intro memberRoleId
      have hcreates : req.createsOrg = true := hreq ▸ rfl
      apply uses_bind (uses_query _ hcreates)
      intro _
      apply uses_bind (uses_query _ hcreates)
      intro _
      apply uses_bind (uses_query _ hcreates)
      intro _
      apply uses_bind (uses_query _ (fun _ => .created hfresh))
      intro _
      apply uses_pure

theorem bootstrapOperator_stays {email : String}
    : Stays env pid (Effect env u req b) (Routes.bootstrapOperator email) b := by
  have hC : ∀ s, Rested b s → Effect env u req b s := fun _ => .of_rested
  unfold Routes.bootstrapOperator
  apply stays_read hC rfl (.refl b)
  intro _ operatorsExist s₁ hs₁ hexec
  cases hexec
  apply stays_require hC hs₁
  intro hnone
  have hnone : b.platformOperatorsExist = false := by
    rw [IdentityStore.platformOperatorsExist, ← hs₁.platformMemberships]
    simpa [IdentityStore.platformOperatorsExist] using hnone
  exact stays_permits (.of_rested hs₁) (promoteToPlatformOperator_uses (fun _ => permits_isRead)
    (fun _ _ _ => hnone) email none)

/--
The user, an owner, has deleted an organization of the state `b`.
-/
def Deleted (u : UserId) (b s : IdentityStore) : Prop :=
  ∃ o b', b.HasRole ["owner"] u o ∧ Rested b b' ∧ SameOrgs (b'.deleteOrg o).2 s

theorem Deleted.same (h : Deleted u b s) (hsame : SameOrgs s s') : Deleted u b s' := by
  obtain ⟨o, b', hrole, hrested, hdelete⟩ := h
  exact ⟨o, b', hrole, hrested, hdelete.trans hsame⟩

theorem deleteOrg_stays {token : AccessToken} {orgRef : OrgRef}
    (hreq : req = .deleteOrg token orgRef) (hby : req.By u) :
    Stays env pid (fun s => Effect env u req b s ∨ Deleted u b s) (Routes.deleteOrg token orgRef)
      b := by
  have hC : ∀ s, Rested b s → Effect env u req b s ∨ Deleted u b s := fun _ hs => .inl (.of_rested hs)
  unfold Routes.deleteOrg
  apply stays_bearerUser hC (hby token (hreq ▸ rfl)) (.refl b)
  intro s₁ hs₁
  apply stays_getOrgByRef hC hs₁
  intro org s₂ hs₂ _
  apply stays_requireOrgOwner hC hs₂
  intro s₃ hs₃ hrole s₄ helapses
  have hs₄ := hs₃.trans (.of_elapses helapses)
  constructor
  . exact hC s₄ hs₄
  . intro r s₅ hanswer s₆ helapses'
    have hsame : SameOrgs s₅ s₆ := (Rested.of_elapses helapses').toSameOrgs
    cases hanswer.effect with
    | inl heq =>
      subst heq
      exact hC s₆ (hs₄.trans (.of_elapses helapses'))
    | inr hexec =>
      obtain ⟨_, _, hexec⟩ := hexec
      have := IdentityStore.state_of_some hexec
      subst this
      exact .inr ⟨org.id, s₄, hrole, hs₄, hsame⟩

/--
An operation of the user has its effect or deletes an organization.
-/
theorem handle_stays (hby : req.By u)
    (hpromote : ∀ email, req = .promoteOperator email → b.platformOperatorsExist = false) :
    Stays env pid (fun s => Effect env u req b s ∨ Deleted u b s) (Routes.handle env req) b := by
  have hquiet : (∀ c, req.writes c → Permits env u req b c)
      → Stays env pid (fun s => Effect env u req b s ∨ Deleted u b s) (Routes.handle env req) b := by
    intro hwrites
    have hpermits : (Routes.handle env req).Uses (Permits env u req b) := by
      apply (handle_uses env req).mono
      intro c hc
      exact hc.elim permits_isRead (hwrites c)
    exact wlp_mono (stays_permits (.of_rested (.refl b)) hpermits) (fun _ => .inl)
  cases req with
  | updateMember => exact wlp_mono (updateMember_stays rfl hby) (fun _ => .inl)
  | deleteMember => exact wlp_mono (deleteMember_stays rfl hby) (fun _ => .inl)
  | createInvitation => exact wlp_mono (createInvitation_stays rfl hby) (fun _ => .inl)
  | acceptInvitation => exact wlp_mono (acceptInvitation_stays rfl) (fun _ => .inl)
  | createOrg => exact wlp_mono (createOrg_stays rfl hby) (fun _ => .inl)
  | bootstrapOperator => exact wlp_mono bootstrapOperator_stays (fun _ => .inl)
  | deleteOrg => exact deleteOrg_stays rfl hby
  | promoteOperator email =>
    apply hquiet
    intro c hc
    cases c with
    | grantPlatformRole => exact hpromote email rfl
    | _ => exact hc.elim
  | _ =>
    apply hquiet
    intro c hc
    cases c <;> trivial

end Handlers

end Effect
end Reactor.Auth
