import ReactorCloud.Auth.Routes

/-!
This module contains the two implementations of `AuthClient::resolve_ctx` and when the organization
they make active is one the user belongs to.
-/

namespace Reactor.Auth

open Interleave
open Interleave.Program (fail okOr require)

structure AuthCtx where
  claims : Claims
  activeOrg : Option OrgId
  permissions : List String

/--
What the policies of the other services see of the context.
-/
def AuthCtx.toPolicyCtx (ctx : AuthCtx) : Reactor.AuthCtx :=
  ⟨ctx.claims.userId, ctx.activeOrg, ctx.claims.email, ctx.permissions⟩

def resolveOrgRef (orgRef : Option OrgRef) : AuthM (Option OrgId) := do
  match orgRef with
  | some (.id id) => pure (some id)
  | some (.slug slug) =>
    let org ← AuthService.getOrgByRef (.slug slug)
    pure (some org.id)
  | none => pure none

namespace InProcessAuthClient

def resolveCtx (token : AccessToken) (requestedOrg : Option OrgRef) : AuthM AuthCtx := do
  let claims ← verifyToken token
  let resolvedOrg ← resolveOrgRef requestedOrg
  let activeOrg := resolvedOrg <|> claims.defaultOrg
  require (activeOrg.all (fun oid => claims.orgs.contains oid)) .notOrgMember
  match activeOrg, claims.userId with
  | some oid, some uid =>
    let permissions ← query (.getUserPermissions uid oid)
    pure ⟨claims, activeOrg, permissions⟩
  | _, _ => pure ⟨claims, activeOrg, []⟩

end InProcessAuthClient

/--
The handler behind `RemoteAuthClient`.
-/
def Routes.resolveCtx (token : AccessToken) (orgRef : Option OrgRef) : AuthM AuthCtx := do
  let claims ← verifyToken token
  let userId ← okOr claims.userId .unauthorized
  let resolvedOrg ← resolveOrgRef orgRef
  let orgId := resolvedOrg <|> claims.defaultOrg
  match orgId with
  | some oid =>
    let permissions ← query (.getUserPermissions userId oid)
    pure ⟨claims, orgId, permissions⟩
  | none => pure ⟨claims, orgId, []⟩

/--
The answers of a store that nobody else uses.
-/
def IdentityStore.respond (env : Env) (c : Call) (s : IdentityStore)
    : Except AuthError c.Ret × IdentityStore :=
  (s.exec env 0 c ⟨0, ""⟩).getD (.error .internal, s)

section ResolveCtx

variable (env : Env) (s : IdentityStore)

def inProcessCtx (token : AccessToken) (requestedOrg : Option OrgRef) : Except AuthError AuthCtx :=
  ((InProcessAuthClient.resolveCtx token requestedOrg).eval (IdentityStore.respond env) s).1

def handlerCtx (token : AccessToken) (requestedOrg : Option OrgRef) : Except AuthError AuthCtx :=
  ((Routes.resolveCtx token requestedOrg).eval (IdentityStore.respond env) s).1

/--
The user of the context is a member of its organization and has the permissions of that membership.
-/
def AuthCtx.OfMember (ctx : AuthCtx) : Prop :=
  ∀ o, ctx.activeOrg = some o → ∃ uid m, ctx.claims.userId = some uid
    ∧ s.findMembership uid o = some m ∧ ctx.permissions = s.permissionsOf m.roleId

def SameCtx : Except AuthError AuthCtx → Except AuthError AuthCtx → Prop
  | .ok ctx, .ok ctx' => ctx.activeOrg = ctx'.activeOrg ∧ ctx.permissions = ctx'.permissions
  | .error _, .error _ => True
  | _, _ => False

/--
Both implementations only make an organization of the user active, and they agree.
-/
structure ResolvesMembership (token : AccessToken) (requestedOrg : Option OrgRef) : Prop where
  inProcess : ∀ ctx, inProcessCtx env s token requestedOrg = .ok ctx → ctx.OfMember s
  handler : ∀ ctx, handlerCtx env s token requestedOrg = .ok ctx → ctx.OfMember s
  agree : SameCtx (inProcessCtx env s token requestedOrg) (handlerCtx env s token requestedOrg)

/--
The organization a request is about: the one it names, else the default one of the token. No
organization has an unknown slug.
-/
def targetOrg (claims : Claims) : Option OrgRef → Option OrgId
  | some (.id id) => some id
  | some (.slug slug) => (s.findOrgBySlug slug).map Org.id
  | none => claims.defaultOrg

variable {env s}

theorem verifyToken_eval {token : AccessToken} (h : s.now / seconds 1 ≤ token.claims.exp + 60)
    : (verifyToken token).eval (IdentityStore.respond env) s = (.ok token.claims, s) := by
  simp [verifyToken, Program.eval_bind, IdentityStore.respond, IdentityStore.exec, h]

theorem resolveOrgRef_eval (requestedOrg : Option OrgRef)
    : (resolveOrgRef requestedOrg).eval (IdentityStore.respond env) s
        =
      (match requestedOrg with
        | some (.slug slug) =>
          match s.findOrgBySlug slug with
          | some org => .ok (some org.id)
          | none => .error .orgNotFound
        | some (.id id) => .ok (some id)
        | none => .ok none, s) := by
  match requestedOrg with
  | none => rfl
  | some (.id id) => rfl
  | some (.slug slug) =>
    simp only [resolveOrgRef, AuthService.getOrgByRef, Program.eval_bind, Program.eval_call,
      Program.eval_done, IdentityStore.respond, IdentityStore.exec, Option.getD_some]
    cases s.findOrgBySlug slug <;> rfl

variable (s) in
/--
The request names an organization that does not exist.
-/
def unknownSlug : Option OrgRef → Bool
  | some (.slug slug) => (s.findOrgBySlug slug).isNone
  | _ => false

theorem resolveOrgRef_unknown {requestedOrg : Option OrgRef} (h : unknownSlug s requestedOrg = true)
    : (resolveOrgRef requestedOrg).eval (IdentityStore.respond env) s = (.error .orgNotFound, s) := by
  rw [resolveOrgRef_eval]
  match requestedOrg with
  | some (.slug slug) =>
    simp only [unknownSlug, Option.isNone_iff_eq_none] at h
    simp [h]

variable (env) in
theorem resolveOrgRef_known {requestedOrg : Option OrgRef} (h : unknownSlug s requestedOrg = false)
    (claims : Claims) : ∃ resolved,
      (resolveOrgRef requestedOrg).eval (IdentityStore.respond env) s = (.ok resolved, s)
        ∧ (resolved <|> claims.defaultOrg) = targetOrg s claims requestedOrg := by
  rw [resolveOrgRef_eval]
  match requestedOrg with
  | none => exact ⟨none, rfl, rfl⟩
  | some (.id id) => exact ⟨some id, rfl, rfl⟩
  | some (.slug slug) =>
    cases hfind : s.findOrgBySlug slug with
    | none => simp [unknownSlug, hfind] at h
    | some org => exact ⟨some org.id, by simp [hfind], by simp [targetOrg, hfind]⟩

section Eval

variable {token : AccessToken} {requestedOrg : Option OrgRef} {uid : UserId}

variable (env) in
theorem inProcessCtx_unknown (hvalid : s.now / seconds 1 ≤ token.claims.exp + 60)
    (h : unknownSlug s requestedOrg = true)
    : inProcessCtx env s token requestedOrg = .error .orgNotFound := by
  simp [inProcessCtx, InProcessAuthClient.resolveCtx, Program.eval_bind, verifyToken_eval hvalid,
    resolveOrgRef_unknown h]

variable (env) in
theorem handlerCtx_unknown (hvalid : s.now / seconds 1 ≤ token.claims.exp + 60)
    (huser : token.claims.userId = some uid) (h : unknownSlug s requestedOrg = true)
    : handlerCtx env s token requestedOrg = .error .orgNotFound := by
  simp [handlerCtx, Routes.resolveCtx, Program.eval_bind, verifyToken_eval hvalid, huser,
    resolveOrgRef_unknown h]

variable (env uid) in
/--
The in-process client trusts the organizations of the token.
-/
theorem inProcessCtx_eq (hvalid : s.now / seconds 1 ≤ token.claims.exp + 60)
    (huser : token.claims.userId = some uid) (h : unknownSlug s requestedOrg = false)
    : inProcessCtx env s token requestedOrg
        =
      match targetOrg s token.claims requestedOrg with
      | some o =>
        if o ∈ token.claims.orgs then
          .ok ⟨token.claims, some o, s.getUserPermissions uid o⟩
        else
          .error .notOrgMember
      | none => .ok ⟨token.claims, none, []⟩ := by
  obtain ⟨resolved, heval, htarget⟩ := resolveOrgRef_known env h token.claims
  simp only [inProcessCtx, InProcessAuthClient.resolveCtx, Program.eval_bind,
    verifyToken_eval hvalid, heval, htarget, huser]
  cases targetOrg s token.claims requestedOrg with
  | none => simp
  | some o =>
    by_cases hmem : o ∈ token.claims.orgs
    . simp [hmem, Program.eval_bind, IdentityStore.respond, IdentityStore.exec]
    . simp [hmem]

variable (env uid) in
/--
The handler does not look at the organizations of the user at all.
-/
theorem handlerCtx_eq (hvalid : s.now / seconds 1 ≤ token.claims.exp + 60)
    (huser : token.claims.userId = some uid) (h : unknownSlug s requestedOrg = false)
    : handlerCtx env s token requestedOrg
        =
      match targetOrg s token.claims requestedOrg with
      | some o => .ok ⟨token.claims, some o, s.getUserPermissions uid o⟩
      | none => .ok ⟨token.claims, none, []⟩ := by
  obtain ⟨resolved, heval, htarget⟩ := resolveOrgRef_known env h token.claims
  simp only [handlerCtx, Routes.resolveCtx, Program.eval_bind, verifyToken_eval hvalid, heval,
    htarget, huser, Program.eval_okOr_some]
  cases targetOrg s token.claims requestedOrg with
  | none => simp
  | some o => simp [Program.eval_bind, IdentityStore.respond, IdentityStore.exec]

theorem ofMember_none (claims : Claims) : AuthCtx.OfMember s ⟨claims, none, []⟩ := by
  intro o h
  cases h

theorem ofMember_some {claims : Claims} {o : OrgId} (huser : claims.userId = some uid)
    : AuthCtx.OfMember s ⟨claims, some o, s.getUserPermissions uid o⟩
        ↔ (s.findMembership uid o).isSome = true := by
  constructor
  . intro h
    obtain ⟨uid', m, huser', hfind, _⟩ := h o rfl
    rw [huser] at huser'
    cases huser'
    rw [hfind]
    rfl
  . intro h o' ho'
    cases ho'
    obtain ⟨m, hm⟩ := Option.isSome_iff_exists.mp h
    refine ⟨uid, m, huser, hm, ?_⟩
    simp [IdentityStore.getUserPermissions, hm]

/--
For a token of a user, the context is that of a membership and the same in both implementations if
and only if the organization the request is about is in the token and still has the user as a member.
-/
theorem resolvesMembership_iff (env : Env) (s : IdentityStore) (token : AccessToken)
    (requestedOrg : Option OrgRef) (uid : UserId)
    (hvalid : s.now / seconds 1 ≤ token.claims.exp + 60) (huser : token.claims.userId = some uid)
    : ResolvesMembership env s token requestedOrg
        ↔
      ∀ o, targetOrg s token.claims requestedOrg = some o →
        o ∈ token.claims.orgs ∧ (s.findMembership uid o).isSome = true := by
  cases hslug : unknownSlug s requestedOrg with
  | true =>
    have hin := inProcessCtx_unknown env hvalid hslug
    have hhandler := handlerCtx_unknown env hvalid huser hslug
    constructor
    . intro _ o ho
      match requestedOrg with
      | some (.slug slug) =>
        simp only [unknownSlug, Option.isNone_iff_eq_none] at hslug
        simp [targetOrg, hslug] at ho
    . intro _
      constructor
      . simp [hin]
      . simp [hhandler]
      . simp [hin, hhandler, SameCtx]
  | false =>
    have hin := inProcessCtx_eq env uid hvalid huser hslug
    have hhandler := handlerCtx_eq env uid hvalid huser hslug
    cases htarget : targetOrg s token.claims requestedOrg with
    | none =>
      simp only [htarget] at hin hhandler
      constructor
      . intro _ o ho
        cases ho
      . intro _
        constructor
        . rw [hin]
          intro ctx heq
          cases heq
          exact ofMember_none _
        . rw [hhandler]
          intro ctx heq
          cases heq
          exact ofMember_none _
        . simp [hin, hhandler, SameCtx]
    | some o =>
      simp only [htarget] at hin hhandler
      constructor
      . intro h o' ho'
        cases ho'
        have hmember := h.handler _ hhandler
        rw [ofMember_some huser] at hmember
        refine ⟨?_, hmember⟩
        have hagree := h.agree
        by_contra hmem
        simp [hin, hhandler, hmem, SameCtx] at hagree
      . intro h
        obtain ⟨hmem, hmember⟩ := h o rfl
        rw [if_pos hmem] at hin
        constructor
        . rw [hin]
          intro ctx heq
          cases heq
          exact (ofMember_some huser).mpr hmember
        . rw [hhandler]
          intro ctx heq
          cases heq
          exact (ofMember_some huser).mpr hmember
        . simp [hin, hhandler, SameCtx]

end Eval

/--
A member with the permissions of the role, and a token that was issued to the member.
-/
theorem resolvesMembership_iff_member :
    let s := { IdentityStore.empty with
      memberships := ⟨[⟨1, 7, 70, 0⟩], by decide⟩,
      rolePermissions := ⟨[⟨70, "data:*:read"⟩], by decide⟩ }
    let token : AccessToken := ⟨⟨some 1, none, some 5, [.pwd], [7], none, [], none, 0, 900⟩⟩
    ∀ env, ResolvesMembership env s token (some (.id 7)) := by
  intro s token env
  rw [resolvesMembership_iff env s token (some (.id 7)) 1 (by decide) rfl]
  intro o ho
  cases ho
  constructor
  . decide
  . decide

/--
The handler makes the organization of another user active, which the in-process client refuses, and
both keep one active that the user of the token has left.
-/
theorem resolvesMembership_not_always :
    let s := { IdentityStore.empty with memberships := ⟨[⟨2, 7, 70, 0⟩], by decide⟩ }
    let stranger : AccessToken := ⟨⟨some 1, none, some 5, [.pwd], [], none, [], none, 0, 900⟩⟩
    let former : AccessToken := ⟨⟨some 1, none, some 5, [.pwd], [7], none, [], none, 0, 900⟩⟩
    ∀ env, ¬ ResolvesMembership env s stranger (some (.id 7))
      ∧ ¬ ResolvesMembership env s former (some (.id 7)) := by
  intro s stranger former env
  constructor
  . intro h
    have hagree := h.agree
    rw [inProcessCtx_eq env 1 (by decide) rfl rfl, handlerCtx_eq env 1 (by decide) rfl rfl]
      at hagree
    exact hagree
  . intro h
    have hctx : inProcessCtx env s former (some (.id 7)) = .ok ⟨former.claims, some 7, []⟩ := by
      rw [inProcessCtx_eq env 1 (by decide) rfl rfl]
      rfl
    obtain ⟨uid, m, huser, hfind, _⟩ := h.inProcess _ hctx 7 rfl
    cases huser
    cases hfind

end ResolveCtx
end Reactor.Auth
