import ReactorCloud.Auth.Store

/-!
This module contains `AuthService`, whose methods are programs over the statements of the identity
store.
-/

namespace Reactor.Auth

open Interleave
open Interleave.Program (fail okOr require)

abbrev calls : Interface where
  Call := Call
  Ret := Call.Ret
  Err := AuthError

abbrev AuthM (α : Type) := Program calls α

abbrev query (c : Call) : AuthM c.Ret :=
  @Program.request calls c

/--
A transaction that is dropped before its commit is rolled back.
-/
def transaction {α : Type} (body : AuthM α) : AuthM α := do
  query .beginTransaction
  match ← body.attempt with
  | .ok a => pure a
  | .error e =>
    let _ ← (query .rollback).attempt
    fail e

def rotateRefreshToken (oldTokenHash : Digest) (newId : ReactorId) (newTokenHash : Digest)
    (newExpiresAt : Time) : AuthM RefreshToken :=
  transaction do
    let oldToken ← okOr (← query (.selectTokenForUpdate oldTokenHash)) .invalidRefreshToken
    if oldToken.usedAt.isSome then
      query (.revokeSessionInTransaction oldToken.sessionId)
      query .commit
      fail .refreshTokenReuse
    else
      let now ← query .utcNow
      require (!decide (oldToken.expiresAt < now)) .invalidRefreshToken
      query (.useTokenInTransaction oldToken.id newId)
      let newToken ←
        query (.insertTokenInTransaction newId oldToken.sessionId newTokenHash newExpiresAt)
      query .commit
      pure newToken

structure RefreshTokenData where
  id : ReactorId
  tokenHash : Digest
  expiresAt : Time

namespace AuthService

variable (env : Env)

/--
`RefreshTokenData::new`
-/
def newRefreshToken : AuthM (String × RefreshTokenData) := do
  let random ← query .generateToken
  let token := "rrf_" ++ random
  let id ← query .newId
  let now ← query .utcNow
  pure (token, ⟨id, env.sha256 token, now + seconds env.refreshTtlSecs⟩)

def grantOf (user : User) (session : Session) (orgs : List Org) : Grant where
  userId := user.id
  email := some user.email
  sessionId := session.id
  amr := session.amr.filterMap parseAmr
  orgs := orgs.map Org.id
  defaultOrg := user.defaultOrgId
  scopes := []
  mfaAt := none

def issueTokens (user : User) (session : Session) : AuthM AuthResponse := do
  let orgs ← query (.listUserOrgs user.id)
  let accessToken ← query (.issueAccessToken (grantOf user session orgs))
  let (refreshToken, refreshData) ← newRefreshToken env
  let _ ← query
    (.createRefreshToken refreshData.id session.id refreshData.tokenHash refreshData.expiresAt)
  let now ← query .utcNow
  pure ⟨user, session, accessToken, refreshToken, now + seconds env.accessTtlSecs⟩

/--
`public_url` without the slashes at its end.
-/
def baseUrl : String :=
  String.ofList (env.publicUrl.toList.reverse.dropWhile (· = '/')).reverse

def verifyLink (token : String) : String :=
  baseUrl env ++ "/auth/v1/verify?token=" ++ token

def sendVerificationEmail (user : User) : AuthM Unit := do
  let token ← query .generateToken
  let tokenHash := env.sha256 token
  let now ← query .utcNow
  let _ ← query (.createVerificationToken user.id tokenHash "email" (now + hours 24))
  query (.sendEmail ⟨user.email, .emailVerification (verifyLink env token) 24⟩)

def signup (email : String) (password : String) (metadata : Rust.Json) : AuthM AuthResponse := do
  let existing ← query (.findUserByEmail email)
  require existing.isNone .emailExists
  let salt ← query .generateToken
  let userId ← query .newId
  let user ← query (.createUser userId email (some (env.hashPassword password salt)) metadata)
  -- Only a warning is logged when the email fails.
  let _ ← if env.emailEnabled then (sendVerificationEmail env user).attempt else pure (.ok ())
  let sessionId ← query .newId
  let session ← query (.createSession sessionId user.id ["pwd"])
  issueTokens env user session

def verifyEmail (token : String) : AuthM User := do
  let tokenHash := env.sha256 token
  let verification ← okOr (← query (.findVerificationTokenByHash tokenHash "email")) .invalidToken
  query (.useVerificationToken tokenHash)
  query (.updateUser verification.userId none none (some true) none none)

def resetLink (token : String) : String :=
  baseUrl env ++ "/reset?token=" ++ token

def requestPasswordReset (email : String) : AuthM Unit := do
  match ← query (.findUserByEmail email) with
  | none => pure ()
  | some user =>
    if user.isDisabled then
      pure ()
    else if !user.emailVerified then
      pure ()
    else
      let token ← query .generateToken
      let tokenHash := env.sha256 token
      let now ← query .utcNow
      let _ ← query (.createVerificationToken user.id tokenHash "password_reset" (now + hours 1))
      query (.sendEmail ⟨user.email, .passwordReset (resetLink env token) 60⟩)

/--
`PasswordPolicy::default().validate`
-/
def validatePassword (password : String) : Except String Unit :=
  if password.utf8ByteSize < 8 then
    .error "password must be at least 8 characters"
  else if password.utf8ByteSize > 128 then
    .error "password must be at most 128 characters"
  else
    .ok ()

def confirmPasswordReset (token : String) (newPassword : String) : AuthM Unit := do
  let tokenHash := env.sha256 token
  let verification ←
    okOr (← query (.findVerificationTokenByHash tokenHash "password_reset")) .invalidToken
  match validatePassword newPassword with
  | .error e => fail (.weakPassword e)
  | .ok () =>
    let salt ← query .generateToken
    query (.useVerificationToken tokenHash)
    let _ ← query (.updateUser verification.userId none
      (some (env.hashPassword newPassword salt)) none none none)
    let _ ← query (.revokeUserSessions verification.userId)
    pure ()

def passwordGrant (email : String) (password : String) : AuthM AuthResponse := do
  let user ← okOr (← query (.findUserByEmail email)) .invalidCredentials
  require (!user.isDisabled) .userDisabled
  let passwordHash ← okOr (← query (.getPasswordHash user.id)) .invalidCredentials
  let valid ← okOr (env.verifyPassword password passwordHash) .internal
  require valid .invalidCredentials
  let sessionId ← query .newId
  let session ← query (.createSession sessionId user.id ["pwd"])
  issueTokens env user session

def refresh (refreshToken : String) : AuthM AuthResponse := do
  let tokenHash := env.sha256 refreshToken
  let (newToken, newData) ← newRefreshToken env
  let newRefresh ← rotateRefreshToken tokenHash newData.id newData.tokenHash newData.expiresAt
  let session ← okOr (← query (.findSessionById newRefresh.sessionId)) .sessionRevoked
  require session.revokedAt.isNone .sessionRevoked
  let user ← okOr (← query (.findUserById session.userId)) .userNotFound
  require (!user.isDisabled) .userDisabled
  let orgs ← query (.listUserOrgs user.id)
  let accessToken ← query (.issueAccessToken (grantOf user session orgs))
  let now ← query .utcNow
  pure ⟨user, session, accessToken, newToken, now + seconds env.accessTtlSecs⟩

def logout (sessionId : SessionId) : AuthM Unit :=
  query (.revokeSession sessionId)

def updateUser (id : UserId) (email : Option String) (passwordHash : Option String)
    (metadata : Option Rust.Json) : AuthM User :=
  let emailVerified := if email.isSome then some false else none
  query (.updateUser id email passwordHash emailVerified metadata none)

def deleteUser (id : UserId) : AuthM Unit := do
  let _ ← query (.revokeUserSessions id)
  query (.disableUser id)

def createOrg (creatorId : UserId) (name : String) (slug : String) (metadata : Rust.Json)
    : AuthM Org := do
  let orgId ← query .newId
  let org ← query (.createOrg orgId name slug metadata)
  let ownerRoleId ← query .newId
  let adminRoleId ← query .newId
  let memberRoleId ← query .newId
  let _ ← query (.createRole ownerRoleId orgId "owner" (some "Full access") true ["*"])
  let _ ← query (.createRole adminRoleId orgId "admin" (some "Administrative access") true
    ["auth:*:read", "auth:users:write", "auth:orgs:read", "data:*:*", "storage:*:*",
      "functions:*:*"])
  let _ ← query (.createRole memberRoleId orgId "member" (some "Basic access") true
    ["auth:users:read", "auth:orgs:read", "data:*:read", "storage:*:read"])
  let _ ← query (.createMembership creatorId orgId ownerRoleId)
  pure org

/--
The text of a reference is an id if it parses as one.
-/
def getOrgByRef (orgRef : OrgRef) : AuthM Org := do
  match orgRef with
  | .id id => okOr (← query (.findOrgById id)) .orgNotFound
  | .slug slug => okOr (← query (.findOrgBySlug slug)) .orgNotFound

def requireOrgOwner (userId : UserId) (orgId : OrgId) : AuthM Unit := do
  let membership ← okOr (← query (.findMembership userId orgId)) .permissionDenied
  let role ← okOr (← query (.findRoleById membership.roleId)) .internal
  require (role.name == "owner") .permissionDenied

def requireOrgAdminOrOwner (userId : UserId) (orgId : OrgId) : AuthM Unit := do
  let membership ← okOr (← query (.findMembership userId orgId)) .permissionDenied
  let role ← okOr (← query (.findRoleById membership.roleId)) .internal
  require (role.name == "owner" || role.name == "admin") .permissionDenied

/--
The guard of `update_member_role` and `remove_member` against the loss of the last owner.
-/
def requireOtherOwner (orgId : OrgId) (roleId : RoleId) : AuthM Unit := do
  let ownerCount ← query (.countMembersWithRole orgId roleId)
  require (!decide (ownerCount ≤ 1)) .lastOwner

def updateMemberRole (orgId : OrgId) (userId : UserId) (newRoleId : RoleId)
    : AuthM (User × Membership × Role) := do
  let membership ← okOr (← query (.findMembership userId orgId)) .membershipNotFound
  let currentRole ← okOr (← query (.findRoleById membership.roleId)) .internal
  let newRole ← okOr (← query (.findRoleById newRoleId)) .roleNotFound
  require (newRole.orgId == orgId) .roleNotFound
  let _ ←
    if currentRole.name == "owner" && newRole.name != "owner" then
      requireOtherOwner orgId membership.roleId
    else
      pure ()
  let updatedMembership ← query (.updateMembershipRole userId orgId newRoleId)
  let user ← okOr (← query (.findUserById userId)) .userNotFound
  pure (user, updatedMembership, newRole)

def removeMember (orgId : OrgId) (userId : UserId) : AuthM Unit := do
  let membership ← okOr (← query (.findMembership userId orgId)) .membershipNotFound
  let role ← okOr (← query (.findRoleById membership.roleId)) .internal
  let _ ← if role.name == "owner" then requireOtherOwner orgId membership.roleId else pure ()
  query (.deleteMembership userId orgId)

def inviteLink (token : String) : String :=
  env.publicUrl ++ "/auth/v1/invitations/accept?token=" ++ token

def createInvitation (orgId : OrgId) (email : String) (roleId : RoleId)
    : AuthM (Invitation × String) := do
  let role ← okOr (← query (.findRoleById roleId)) .roleNotFound
  require (role.orgId == orgId) .roleNotFound
  let org ← okOr (← query (.findOrgById orgId)) .orgNotFound
  let token ← query .generateToken
  let tokenHash := env.sha256 token
  let now ← query .utcNow
  let _ ← query (.createInvitation tokenHash email orgId roleId (now + days 7))
  let link := inviteLink env token
  let invitation ← okOr (← query (.findInvitationByHash tokenHash)) .internal
  let mail : Email := ⟨email, .invitation org.name role.name link 168⟩
  let _ ← if env.emailEnabled then (query (.sendEmail mail)).attempt else pure (.ok ())
  pure (invitation, link)

inductive AcceptInvitationResponse where
  | joined (userId : UserId) (orgId : OrgId) (email : String)
  | pendingSignup (orgId : OrgId) (email : String)

def acceptInvitation (token : String) : AuthM AcceptInvitationResponse := do
  let tokenHash := env.sha256 token
  let invitation ← okOr (← query (.findInvitationByHash tokenHash)) .invitationNotFound
  let now ← query .utcNow
  require (!decide (invitation.expiresAt < now)) .invitationNotFound
  match ← query (.findUserByEmail invitation.email) with
  | some user =>
    let _ ← query (.createMembership user.id invitation.orgId invitation.roleId)
    query (.useInvitation tokenHash)
    pure (.joined user.id invitation.orgId invitation.email)
  | none => pure (.pendingSignup invitation.orgId invitation.email)

def issueMfaTokens (userId : UserId) (sessionId : SessionId) (scopes : List String)
    : AuthM MfaAuthResponse := do
  let user ← okOr (← query (.findUserById userId)) .userNotFound
  let session ← okOr (← query (.findSessionById sessionId)) .invalidToken
  let amr := if session.amr.contains "hwk" then session.amr else session.amr ++ ["hwk"]
  let orgs ← query (.listUserOrgs user.id)
  let now ← query .utcNow
  let mfaAt := now / seconds 1
  let accessToken ← query (.issueAccessToken { grantOf user session orgs with
    amr := amr.filterMap parseAmr, scopes := scopes, mfaAt := some mfaAt })
  let (refreshToken, refreshData) ← newRefreshToken env
  let _ ← query
    (.createRefreshToken refreshData.id session.id refreshData.tokenHash refreshData.expiresAt)
  let now ← query .utcNow
  pure ⟨accessToken, refreshToken, now + seconds env.accessTtlSecs, mfaAt, scopes⟩

def createAuthorizationCode (userId : UserId) (clientId : String) (redirectUri : String)
    (scopes : List String) (codeChallenge : String) (codeChallengeMethod : String)
    (nonce : Option String) (state : Option String) (sessionId : Option SessionId)
    : AuthM String := do
  let code ← query .generateToken
  let codeHash := env.sha256 code
  let now ← query .utcNow
  let codeId ← query .newId
  let _ ← query (.createAuthorizationCode codeId userId clientId redirectUri scopes codeHash
    codeChallenge codeChallengeMethod nonce state (now + minutes 10) sessionId)
  pure code

def verifyPkceChallenge (verifier : String) (challenge : String) (method : String) : Bool :=
  if method = "S256" then
    env.base64Url (env.sha256 verifier) == challenge
  else if method = "plain" then
    verifier == challenge
  else
    false

def exchangeAuthorizationCode (code : String) (codeVerifier : String) (clientId : String)
    (redirectUri : String) : AuthM AuthorizationCodeResponse := do
  let codeHash := env.sha256 code
  let authCode ← okOr (← query (.findAuthorizationCodeByHash codeHash)) .invalidToken
  require (authCode.clientId == clientId) .invalidToken
  require (authCode.redirectUri == redirectUri) .invalidToken
  require (verifyPkceChallenge env codeVerifier authCode.codeChallenge authCode.codeChallengeMethod)
    .invalidToken
  let user ← okOr (← query (.findUserById authCode.userId)) .userNotFound
  require (!user.isDisabled) .userDisabled
  let sessionId ← query .newId
  let session ← query (.createSession sessionId user.id ["pkce"])
  query (.useAuthorizationCode codeHash session.id)
  let response ← issueTokens env user session
  pure ⟨response.user, response.session, response.accessToken, response.refreshToken,
    response.expiresAt, authCode.scopes⟩

def promoteToPlatformOperator (userEmail : String) (grantedBy : Option UserId)
    : AuthM UserId := do
  let user ← okOr (← query (.findUserByEmail userEmail)) .userNotFound
  query (.grantPlatformRole user.id "platform_operator" grantedBy)
  pure user.id

end AuthService
end Reactor.Auth
