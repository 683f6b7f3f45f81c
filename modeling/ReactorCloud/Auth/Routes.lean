import ReactorCloud.Auth.Service

/-!
This module contains the handlers of the HTTP operations and the system of all clients that call them
at once.
-/

namespace Reactor.Auth

open Interleave
open Interleave.Program (fail okOr ofExcept require)

/--
`AuthService::verify_token` with a key of the keyring. The validation leaves 60 seconds of leeway.
-/
def verifyToken (token : AccessToken) : AuthM Claims := do
  let now ← query .utcNow
  require (!decide (token.claims.exp + 60 < now / seconds 1)) .tokenExpired
  pure token.claims

/--
The user of a request with a bearer token.
-/
def bearerUser (token : AccessToken) : AuthM UserId := do
  let claims ← verifyToken token
  okOr claims.userId .unauthorized

structure AuthorizeForm where
  email : String
  password : String
  clientId : String
  redirectUri : String
  codeChallenge : String
  codeChallengeMethod : String
  state : Option String
  nonce : Option String
  scopes : String

structure AuthorizeQuery where
  responseType : String
  clientId : String
  redirectUri : String
  codeChallenge : String
  codeChallengeMethod : String
  scope : Option String
  state : Option String
  nonce : Option String

inductive AuthorizeResponse where
  | errorRedirect (error : String) (description : String)
  | form (query : AuthorizeQuery) (scopes : List String)
  | redirect (url : String)
  | formWithError (form : AuthorizeForm) (scopes : List String) (error : String)

inductive ResendResponse where
  | notFound
  | resent (sent : Bool) (message : String)

/--
The answer to the start of a ceremony.
-/
structure StartCeremonyResponse where
  sessionId : ReactorId
  options : Rust.Json

structure FinishAuthenticationResponse where
  credentialId : List UInt8
  accessToken : AccessToken
  refreshToken : String
  expiresAt : Time

/--
An id in a path or in a body, none if the text does not parse.
-/
abbrev ParsedId := Option ReactorId

inductive Request where
  | signup (email : String) (password : String) (metadata : Rust.Json)
  | passwordGrant (email : String) (password : String)
  | refresh (refreshToken : String)
  | exchange (code : String) (codeVerifier : String) (clientId : String) (redirectUri : String)
  | authorize (query : AuthorizeQuery)
  | authorizeSubmit (form : AuthorizeForm)
  | verifyEmail (token : String)
  | resendVerification (email : String)
  | requestPasswordReset (email : String)
  | confirmPasswordReset (token : String) (newPassword : String)
  | logout (token : AccessToken)
  | updateUser (token : AccessToken) (email : Option String) (password : Option String)
      (metadata : Option Rust.Json)
  | deleteUser (token : AccessToken)
  | createOrg (token : AccessToken) (name : String) (slug : String) (metadata : Rust.Json)
  | updateOrg (token : AccessToken) (orgRef : OrgRef) (name : Option String) (slug : Option String)
      (metadata : Option Rust.Json)
  | deleteOrg (token : AccessToken) (orgRef : OrgRef)
  | updateMember (token : AccessToken) (orgRef : OrgRef) (userId : ParsedId) (roleId : ParsedId)
  | deleteMember (token : AccessToken) (orgRef : OrgRef) (userId : ParsedId)
  | createInvitation (token : AccessToken) (orgRef : OrgRef) (email : String) (roleId : ParsedId)
  | acceptInvitation (token : String)
  | bootstrapOperator (email : String)
  | promoteOperator (email : String)
  | registerStart (token : AccessToken)
  | registerFinish (token : AccessToken) (sessionId : ParsedId) (credential : Rust.Json)
      (name : Option String)
  | authenticateStart (token : AccessToken)
  | authenticateFinish (token : AccessToken) (sessionId : ParsedId) (credential : Rust.Json)

@[reducible]
def Request.Reply : Request → Type
  | signup _ _ _ => AuthResponse
  | passwordGrant _ _ => AuthResponse
  | refresh _ => AuthResponse
  | exchange _ _ _ _ => AuthorizationCodeResponse
  | authorize _ => AuthorizeResponse
  | authorizeSubmit _ => AuthorizeResponse
  | verifyEmail _ => User
  | resendVerification _ => ResendResponse
  | requestPasswordReset _ => Unit
  | confirmPasswordReset _ _ => Unit
  | logout _ => Unit
  | updateUser _ _ _ _ => User
  | deleteUser _ => Unit
  | createOrg _ _ _ _ => Org
  | updateOrg _ _ _ _ _ => Org
  | deleteOrg _ _ => Unit
  | updateMember _ _ _ _ => User × Membership × Role
  | deleteMember _ _ _ => Unit
  | createInvitation _ _ _ _ => Invitation × String
  | acceptInvitation _ => AuthService.AcceptInvitationResponse
  | bootstrapOperator _ => UserId
  | promoteOperator _ => UserId
  | registerStart _ => StartCeremonyResponse
  | registerFinish _ _ _ _ => ReactorId
  | authenticateStart _ => StartCeremonyResponse
  | authenticateFinish _ _ _ => FinishAuthenticationResponse

namespace Routes

variable (env : Env)

def knownClients : List String := ["reactor-cli", "reactor-web"]

/--
The first check of `GET /authorize` that fails, with its error and description.
-/
def authorizeError (query : AuthorizeQuery) : Option (String × String) :=
  if query.responseType ≠ "code" then
    some ("unsupported_response_type", "Only 'code' response_type is supported")
  else if !knownClients.contains query.clientId then
    some ("unauthorized_client", "Unknown client_id")
  else if query.codeChallengeMethod ≠ "S256" then
    some ("invalid_request", "Only S256 code_challenge_method is supported")
  else if query.codeChallenge.utf8ByteSize < 43 then
    some ("invalid_request", "Invalid code_challenge")
  else
    none

/--
`split_whitespace`
-/
def splitWhitespace (s : String) : List String :=
  ((s.toList.splitOnP Rust.Str.isWhitespace).filter (fun part => !part.isEmpty)).map String.ofList

def authorize (query : AuthorizeQuery) : AuthM AuthorizeResponse :=
  match authorizeError query with
  | some (error, description) => pure (.errorRedirect error description)
  | none => pure (.form query ((query.scope.map splitWhitespace).getD ["openid"]))

def formScopes (form : AuthorizeForm) : List String :=
  ((Rust.Str.splitOnChar ',' form.scopes).map Rust.Str.trim).filter (fun s => s ≠ "")

def redirectUrl (form : AuthorizeForm) (code : String) : String :=
  let separator := if form.redirectUri.toList.contains '?' then "&" else "?"
  let url := form.redirectUri ++ separator ++ "code=" ++ code
  match form.state with
  | some state => url ++ "&state=" ++ state
  | none => url

def authorizeSubmit (form : AuthorizeForm) : AuthM AuthorizeResponse := do
  match ← (AuthService.passwordGrant env form.email form.password).attempt with
  | .ok response =>
    let code ← AuthService.createAuthorizationCode env response.user.id form.clientId
      form.redirectUri (formScopes form) form.codeChallenge form.codeChallengeMethod form.nonce
      form.state (some response.session.id)
    pure (.redirect (redirectUrl form code))
  | .error .invalidCredentials =>
    pure (.formWithError form (formScopes form) "Invalid email or password")
  | .error e => fail e

def resendVerification (email : String) : AuthM ResendResponse := do
  match ← query (.findUserByEmail email) with
  | none => pure .notFound
  | some user =>
    if user.emailVerified then
      pure (.resent false "Email is already verified")
    else
      AuthService.sendVerificationEmail env user
      pure (.resent true "Verification email sent")

def logout (token : AccessToken) : AuthM Unit := do
  let claims ← verifyToken token
  match claims.sessionId with
  | some sessionId => AuthService.logout sessionId
  | none => pure ()

def hashGiven (password : Option String) : AuthM (Option String) := do
  match password with
  | some password =>
    let salt ← query .generateToken
    pure (some (env.hashPassword password salt))
  | none => pure none

def updateUser (token : AccessToken) (email : Option String) (password : Option String)
    (metadata : Option Rust.Json) : AuthM User := do
  let userId ← bearerUser token
  let passwordHash ← hashGiven env password
  AuthService.updateUser userId email passwordHash metadata

def deleteUser (token : AccessToken) : AuthM Unit := do
  let userId ← bearerUser token
  AuthService.deleteUser userId

def createOrg (token : AccessToken) (name : String) (slug : String) (metadata : Rust.Json)
    : AuthM Org := do
  let userId ← bearerUser token
  AuthService.createOrg userId name slug metadata

def updateOrg (token : AccessToken) (orgRef : OrgRef) (name : Option String) (slug : Option String)
    (metadata : Option Rust.Json) : AuthM Org := do
  let userId ← bearerUser token
  let org ← AuthService.getOrgByRef orgRef
  AuthService.requireOrgOwner userId org.id
  query (.updateOrg org.id name slug metadata)

def deleteOrg (token : AccessToken) (orgRef : OrgRef) : AuthM Unit := do
  let userId ← bearerUser token
  let org ← AuthService.getOrgByRef orgRef
  AuthService.requireOrgOwner userId org.id
  query (.deleteOrg org.id)

def updateMember (token : AccessToken) (orgRef : OrgRef) (targetUserId : ParsedId)
    (roleId : ParsedId) : AuthM (User × Membership × Role) := do
  let userId ← bearerUser token
  let org ← AuthService.getOrgByRef orgRef
  AuthService.requireOrgAdminOrOwner userId org.id
  let targetId ← okOr targetUserId (.validationError "invalid user_id")
  let newRoleId ← okOr roleId (.validationError "invalid role_id")
  AuthService.updateMemberRole org.id targetId newRoleId

def deleteMember (token : AccessToken) (orgRef : OrgRef) (targetUserId : ParsedId)
    : AuthM Unit := do
  let userId ← bearerUser token
  let org ← AuthService.getOrgByRef orgRef
  AuthService.requireOrgAdminOrOwner userId org.id
  let targetId ← okOr targetUserId (.validationError "invalid user_id")
  AuthService.removeMember org.id targetId

def createInvitation (token : AccessToken) (orgRef : OrgRef) (email : String) (roleId : ParsedId)
    : AuthM (Invitation × String) := do
  let userId ← bearerUser token
  let org ← AuthService.getOrgByRef orgRef
  AuthService.requireOrgAdminOrOwner userId org.id
  let roleId ← okOr roleId (.validationError "invalid role_id")
  AuthService.createInvitation env org.id email roleId

def bootstrapOperator (email : String) : AuthM UserId := do
  let operatorsExist ← query .platformOperatorsExist
  require (!operatorsExist) (.validationError
    "Bootstrap already completed. Use 'promote' endpoint to add more operators.")
  AuthService.promoteToPlatformOperator email none

/--
Nothing is known about the caller.
-/
def promoteOperator (email : String) : AuthM UserId :=
  AuthService.promoteToPlatformOperator email none

/--
`WebAuthnStore::create_challenge`, two statements.
-/
def createChallenge (sessionId : ReactorId) (challenge : List UInt8)
    (challengeType : ChallengeType) (userId : UserId) (state : List UInt8) : AuthM Unit := do
  let id ← query .newId
  let now ← query .utcNow
  query (.createChallenge id sessionId challenge challengeType (some userId) (now + minutes 5))
  query (.setChallenge id state)

def ceremonyUser (token : AccessToken) : AuthM UserId := do
  let claims ← verifyToken token
  okOr claims.userId .permissionDenied

def registerStart (token : AccessToken) : AuthM StartCeremonyResponse := do
  let userId ← ceremonyUser token
  let existing ← query (.findCredentialsByUser userId)
  let user ← okOr (← query (.findUserById userId)) .userNotFound
  let random ← query .generateToken
  let (options, challenge, state) ← okOr (env.startRegistration random userId user.email
    (existing.map WebAuthnCredential.credentialId)) .internal
  let sessionId ← query .newId
  createChallenge sessionId challenge .registration userId state
  pure ⟨sessionId, options⟩

def registerFinish (token : AccessToken) (sessionId : ParsedId) (credential : Rust.Json)
    (name : Option String) : AuthM ReactorId := do
  let userId ← ceremonyUser token
  let challengeId ← okOr sessionId .invalidToken
  let challenge ← okOr (← query (.consumeChallenge challengeId .registration)) .invalidToken
  require (challenge.userId == some userId) .permissionDenied
  let (credentialId, publicKey) ← ofExcept (env.finishRegistration credential challenge.state)
  let id ← query .newId
  let credential ← query (.createCredential id userId credentialId publicKey 0 name)
  pure credential.id

def authenticateStart (token : AccessToken) : AuthM StartCeremonyResponse := do
  let userId ← ceremonyUser token
  let credentials ← query (.findCredentialsByUser userId)
  require (!credentials.isEmpty)
    (.validationError "No passkeys registered. Please register a passkey first.")
  let passkeys := (credentials.map WebAuthnCredential.publicKey).filter env.isPasskey
  require (!passkeys.isEmpty) .internal
  let random ← query .generateToken
  let (options, challenge, state) ← okOr (env.startAuthentication random passkeys) .internal
  let sessionId ← query .newId
  createChallenge sessionId challenge .authentication userId state
  pure ⟨sessionId, options⟩

def authenticateFinish (token : AccessToken) (sessionId : ParsedId) (credential : Rust.Json)
    : AuthM FinishAuthenticationResponse := do
  let claims ← verifyToken token
  let userId ← okOr claims.userId .permissionDenied
  let challengeId ← okOr sessionId .invalidToken
  let challenge ← okOr (← query (.consumeChallenge challengeId .authentication)) .invalidToken
  require (challenge.userId == some userId) .permissionDenied
  let (credentialId, counter) ← ofExcept (env.finishAuthentication credential challenge.state)
  query (.updateCredentialCounter credentialId counter)
  let sessionId ← okOr claims.sessionId .invalidToken
  let response ← AuthService.issueMfaTokens env userId sessionId claims.scopes
  pure ⟨credentialId, response.accessToken, response.refreshToken, response.expiresAt⟩

/--
The handler of `request_password_reset` answers at once and leaves the rest to a task.
-/
def handle : (req : Request) → AuthM req.Reply
  | .signup email password metadata => AuthService.signup env email password metadata
  | .passwordGrant email password => AuthService.passwordGrant env email password
  | .refresh refreshToken => AuthService.refresh env refreshToken
  | .exchange code codeVerifier clientId redirectUri =>
    AuthService.exchangeAuthorizationCode env code codeVerifier clientId redirectUri
  | .authorize query => authorize query
  | .authorizeSubmit form => authorizeSubmit env form
  | .verifyEmail token => AuthService.verifyEmail env token
  | .resendVerification email => resendVerification env email
  | .requestPasswordReset email => AuthService.requestPasswordReset env email
  | .confirmPasswordReset token newPassword =>
    AuthService.confirmPasswordReset env token newPassword
  | .logout token => logout token
  | .updateUser token email password metadata => updateUser env token email password metadata
  | .deleteUser token => deleteUser token
  | .createOrg token name slug metadata => createOrg token name slug metadata
  | .updateOrg token orgRef name slug metadata => updateOrg token orgRef name slug metadata
  | .deleteOrg token orgRef => deleteOrg token orgRef
  | .updateMember token orgRef userId roleId => updateMember token orgRef userId roleId
  | .deleteMember token orgRef userId => deleteMember token orgRef userId
  | .createInvitation token orgRef email roleId => createInvitation env token orgRef email roleId
  | .acceptInvitation token => AuthService.acceptInvitation env token
  | .bootstrapOperator email => bootstrapOperator email
  | .promoteOperator email => promoteOperator email
  | .registerStart token => registerStart env token
  | .registerFinish token sessionId credential name =>
    registerFinish env token sessionId credential name
  | .authenticateStart token => authenticateStart env token
  | .authenticateFinish token sessionId credential =>
    authenticateFinish env token sessionId credential

end Routes

/--
Any number of clients call the operations at once.
-/
@[reducible]
def system (env : Env) : System calls where
  State := IdentityStore
  Request := Request
  Reply := Request.Reply
  program := Routes.handle env
  Choice := Entropy
  exec := IdentityStore.exec env
  failure := .internal
  release pid s := s.endTransaction pid
  Tick := Time
  tick d s := { s with now := s.now + d }

end Reactor.Auth
