import ReactorCloud.Auth.Frame
import ReactorCloud.Auth.Routes

/-!
This module contains which statements each HTTP operation can issue and what their answers can be.
-/

namespace Reactor.Auth

open Interleave
open Interleave.Program

/--
The call neither writes nor hands out anything.
-/
def Call.isRead : Call → Bool
  | utcNow => true
  | newId => true
  | generateToken => true
  | findUserById _ => true
  | findUserByEmail _ => true
  | getPasswordHash _ => true
  | findSessionById _ => true
  | findOrgById _ => true
  | findOrgBySlug _ => true
  | listUserOrgs _ => true
  | findRoleById _ => true
  | findMembership _ _ => true
  | countMembersWithRole _ _ => true
  | getUserPermissions _ _ => true
  | findInvitationByHash _ => true
  | findVerificationTokenByHash _ _ => true
  | findAuthorizationCodeByHash _ => true
  | platformOperatorsExist => true
  | findCredentialsByUser _ => true
  | _ => false

/--
The roles of a new organization with their permissions.
-/
def systemRoles : List (String × List String) :=
  [("owner", ["*"]),
    ("admin", ["auth:*:read", "auth:users:write", "auth:orgs:read", "data:*:*", "storage:*:*",
      "functions:*:*"]),
    ("member", ["auth:users:read", "auth:orgs:read", "data:*:read", "storage:*:read"])]

/--
The calls of an operation other than its reads.
-/
def Request.writes : Request → Call → Prop
  | signup _ _ _, c =>
    match c with
    | .createUser _ _ _ _ => True
    | .createVerificationToken _ _ tokenType _ => tokenType = "email"
    | .sendEmail _ => True
    | .createSession _ _ _ => True
    | .issueAccessToken _ => True
    | .createRefreshToken _ _ _ _ => True
    | _ => False
  | passwordGrant _ _, c =>
    match c with
    | .createSession _ _ _ => True
    | .issueAccessToken _ => True
    | .createRefreshToken _ _ _ _ => True
    | _ => False
  | refresh _, c =>
    match c with
    | .beginTransaction => True
    | .selectTokenForUpdate _ => True
    | .revokeSessionInTransaction _ => True
    | .useTokenInTransaction _ _ => True
    | .insertTokenInTransaction _ _ _ _ => True
    | .commit => True
    | .rollback => True
    | .issueAccessToken _ => True
    | _ => False
  | exchange _ _ _ _, c =>
    match c with
    | .createSession _ _ _ => True
    | .useAuthorizationCode _ _ => True
    | .issueAccessToken _ => True
    | .createRefreshToken _ _ _ _ => True
    | _ => False
  | authorize _, _ => False
  | authorizeSubmit _, c =>
    match c with
    | .createSession _ _ _ => True
    | .issueAccessToken _ => True
    | .createRefreshToken _ _ _ _ => True
    | .createAuthorizationCode _ _ _ _ _ _ _ _ _ _ _ _ => True
    | _ => False
  | verifyEmail _, c =>
    match c with
    | .useVerificationToken _ => True
    | .updateUser _ email passwordHash verified _ _ =>
      email = none ∧ passwordHash = none ∧ verified = some true
    | _ => False
  | resendVerification _, c =>
    match c with
    | .createVerificationToken _ _ tokenType _ => tokenType = "email"
    | .sendEmail _ => True
    | _ => False
  | requestPasswordReset _, c =>
    match c with
    | .createVerificationToken _ _ tokenType _ => tokenType = "password_reset"
    | .sendEmail _ => True
    | _ => False
  | confirmPasswordReset _ _, c =>
    match c with
    | .useVerificationToken _ => True
    | .updateUser _ email _ verified _ _ => email = none ∧ verified = none
    | .revokeUserSessions _ => True
    | _ => False
  | logout _, c =>
    match c with
    | .revokeSession _ => True
    | _ => False
  | updateUser _ _ _ _, c =>
    match c with
    | .updateUser _ email _ verified _ _ => verified = if email.isSome then some false else none
    | _ => False
  | deleteUser _, c =>
    match c with
    | .revokeUserSessions _ => True
    | .disableUser _ => True
    | _ => False
  | createOrg _ _ _ _, c =>
    match c with
    | .createOrg _ _ _ _ => True
    | .createRole _ _ name _ _ permissions => (name, permissions) ∈ systemRoles
    | .createMembership _ _ _ => True
    | _ => False
  | updateOrg _ _ _ _ _, c =>
    match c with
    | .updateOrg _ _ _ _ => True
    | _ => False
  | deleteOrg _ _, c =>
    match c with
    | .deleteOrg _ => True
    | _ => False
  | updateMember _ _ _ _, c =>
    match c with
    | .updateMembershipRole _ _ _ => True
    | _ => False
  | deleteMember _ _ _, c =>
    match c with
    | .deleteMembership _ _ => True
    | _ => False
  | createInvitation _ _ _ _, c =>
    match c with
    | .createInvitation _ _ _ _ _ => True
    | .sendEmail _ => True
    | _ => False
  | acceptInvitation _, c =>
    match c with
    | .createMembership _ _ _ => True
    | .useInvitation _ => True
    | _ => False
  | bootstrapOperator _, c =>
    match c with
    | .grantPlatformRole _ _ _ => True
    | _ => False
  | promoteOperator _, c =>
    match c with
    | .grantPlatformRole _ _ _ => True
    | _ => False
  | registerStart _, c =>
    match c with
    | .createChallenge _ _ _ _ _ _ => True
    | .setChallenge _ _ => True
    | _ => False
  | registerFinish _ _ _ _, c =>
    match c with
    | .consumeChallenge _ _ => True
    | .createCredential _ _ _ _ _ _ => True
    | _ => False
  | authenticateStart _, c =>
    match c with
    | .createChallenge _ _ _ _ _ _ => True
    | .setChallenge _ _ => True
    | _ => False
  | authenticateFinish _ _ _, c =>
    match c with
    | .consumeChallenge _ _ => True
    | .updateCredentialCounter _ _ => True
    | .issueAccessToken _ => True
    | .createRefreshToken _ _ _ _ => True
    | _ => False

section Uses

variable (env : Env) {P : Call → Prop}

theorem uses_query (c : Call) (h : P c) : (query c).Uses P :=
  @uses_request calls P c h

end Uses

/--
An operation only issues its own statements and reads.
-/
theorem handle_uses (env : Env) (req : Request)
    : (Routes.handle env req).Uses (fun c : Call => c.isRead = true ∨ req.writes c) := by
  cases req <;>
    (simp only [Routes.handle, Routes.authorize, Routes.authorizeSubmit, Routes.resendVerification, Routes.logout, Routes.updateUser,
        Routes.hashGiven, Routes.deleteUser, Routes.createOrg, Routes.updateOrg, Routes.deleteOrg, Routes.updateMember, Routes.deleteMember,
        Routes.createInvitation, Routes.bootstrapOperator, Routes.promoteOperator, Routes.authenticateFinish, Routes.registerStart, Routes.registerFinish,
        Routes.authenticateStart, Routes.createChallenge, Routes.ceremonyUser, bearerUser, verifyToken,
        AuthService.signup, AuthService.sendVerificationEmail, AuthService.issueTokens, AuthService.newRefreshToken,
        AuthService.passwordGrant, AuthService.refresh, AuthService.exchangeAuthorizationCode, AuthService.verifyEmail,
        AuthService.requestPasswordReset, AuthService.confirmPasswordReset, AuthService.logout, AuthService.updateUser,
        AuthService.deleteUser, AuthService.createOrg, AuthService.getOrgByRef, AuthService.requireOrgOwner, AuthService.requireOrgAdminOrOwner,
        AuthService.requireOtherOwner, AuthService.updateMemberRole, AuthService.removeMember, AuthService.createInvitation,
        AuthService.acceptInvitation, AuthService.issueMfaTokens, AuthService.createAuthorizationCode, AuthService.promoteToPlatformOperator,
        rotateRefreshToken, transaction]
     repeat' first
      | with_reducible apply uses_attempt
      | with_reducible apply uses_pure
      | with_reducible apply uses_fail
      | with_reducible apply uses_okOr
      | with_reducible apply uses_require
      | with_reducible apply uses_ofExcept
      | ((with_reducible apply uses_query) <;> first | exact .inl rfl | exact .inr trivial | exact .inr rfl | exact .inr ⟨rfl, rfl, rfl⟩ | exact .inr ⟨rfl, rfl⟩ | exact .inr (by simp [Request.writes, systemRoles]))
      | with_reducible apply uses_bind
      | intro _
      | split)

theorem exec_isRead {env : Env} {pid : Nat} {c : Call} {e : Entropy} {s s' : IdentityStore}
    {r : Except AuthError c.Ret} (h : IdentityStore.exec env pid c e s = some (r, s'))
    (hread : c.isRead = true) : s' = s := by
  cases c <;> first
    | (cases h; rfl)
    | cases hread

section Answers

variable {env : Env} {pid : Nat} {c : Call} {s s' : IdentityStore} {r : Except AuthError c.Ret}

end Answers

end Reactor.Auth
