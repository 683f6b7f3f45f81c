import ReactorCloud.Policy.Eval
import ReactorCloud.Relational.Table
import ReactorCloud.Rust.Json

/-!
This module contains the rows of the identity store and the values the auth service passes around.
-/

namespace Reactor.Auth

abbrev UserId := ReactorId
abbrev SessionId := ReactorId
abbrev OrgId := ReactorId
abbrev RoleId := ReactorId

/--
Microseconds, the resolution of a `TIMESTAMPTZ`.
-/
abbrev Time := Nat

def seconds (n : Nat) : Time := n * 1000000
def minutes (n : Nat) : Time := seconds (60 * n)
def hours (n : Nat) : Time := minutes (60 * n)
def days (n : Nat) : Time := hours (24 * n)

abbrev Digest := List UInt8

inductive AuthError where
  | invalidCredentials
  | tokenExpired
  | invalidToken
  | userNotFound
  | userDisabled
  | emailExists
  | orgNotFound
  | orgSlugExists
  | membershipExists
  | membershipNotFound
  | notOrgMember
  | permissionDenied
  | sessionRevoked
  | invalidRefreshToken
  | refreshTokenReuse
  | invitationNotFound
  | roleNotFound
  | lastOwner
  | validationError (message : String)
  | weakPassword (message : String)
  | internal
  | unauthorized
  deriving DecidableEq

/--
The text a `CITEXT` column is compared by in its `UNIQUE` constraint. A bound parameter is `TEXT`, so
queries compare the column as it is.
-/
def citext (s : String) : String := s.toLower

structure User where
  id : UserId
  email : String
  emailVerified : Bool
  metadata : Rust.Json
  defaultOrgId : Option OrgId
  disabledAt : Option Time
  createdAt : Time
  updatedAt : Time

def User.isDisabled (user : User) : Bool :=
  user.disabledAt.isSome

structure UserRow extends User where
  passwordHash : Option String

structure Session where
  id : SessionId
  userId : UserId
  amr : List String
  createdAt : Time
  revokedAt : Option Time

structure RefreshToken where
  id : ReactorId
  sessionId : SessionId
  tokenHash : Digest
  issuedAt : Time
  expiresAt : Time
  usedAt : Option Time
  replacedBy : Option ReactorId

structure Org where
  id : OrgId
  name : String
  slug : String
  metadata : Rust.Json
  createdAt : Time
  updatedAt : Time

structure Role where
  id : RoleId
  orgId : OrgId
  name : String
  description : Option String
  isSystem : Bool
  createdAt : Time

structure RolePermission where
  roleId : RoleId
  permission : String

structure Membership where
  userId : UserId
  orgId : OrgId
  roleId : RoleId
  joinedAt : Time

structure Invitation where
  id : ReactorId
  email : String
  orgId : OrgId
  roleId : RoleId
  createdAt : Time
  expiresAt : Time

structure InvitationRow extends Invitation where
  tokenHash : Digest
  usedAt : Option Time

structure VerificationToken where
  id : ReactorId
  userId : UserId
  tokenType : String
  createdAt : Time
  expiresAt : Time
  usedAt : Option Time

structure VerificationTokenRow extends VerificationToken where
  tokenHash : Digest

structure AuthorizationCode where
  id : ReactorId
  userId : UserId
  clientId : String
  redirectUri : String
  scopes : List String
  codeChallenge : String
  codeChallengeMethod : String
  nonce : Option String
  state : Option String
  createdAt : Time
  expiresAt : Time
  usedAt : Option Time
  sessionId : Option SessionId

structure AuthorizationCodeRow extends AuthorizationCode where
  codeHash : Digest

structure PlatformMembership where
  userId : UserId
  roleId : RoleId
  grantedBy : Option UserId
  grantedAt : Time
  revokedAt : Option Time

inductive ChallengeType where
  | registration
  | authentication
  deriving DecidableEq

/--
The column `challenge` of a row first holds the challenge and then the state of the ceremony.
-/
structure WebAuthnChallenge where
  id : ReactorId
  sessionId : ReactorId
  state : List UInt8
  challengeType : ChallengeType
  userId : Option UserId
  expiresAt : Time
  consumedAt : Option Time

structure WebAuthnCredential where
  id : ReactorId
  userId : UserId
  credentialId : List UInt8
  publicKey : List UInt8
  counter : Nat
  name : Option String
  createdAt : Time
  lastUsedAt : Option Time

section Constraints

open Relational

instance : Constrained UserRow where
  conflict r s := r.id == s.id || citext r.email == citext s.email
  conflict_comm r s := by rw [BEq.comm (a := r.id), BEq.comm (a := citext r.email)]

instance : Constrained Session where
  conflict r s := r.id == s.id
  conflict_comm _ _ := BEq.comm

instance : Constrained RefreshToken where
  conflict r s := r.id == s.id || r.tokenHash == s.tokenHash
  conflict_comm r s := by rw [BEq.comm (a := r.id), BEq.comm (a := r.tokenHash)]

instance : Constrained Org where
  conflict r s := r.id == s.id || citext r.slug == citext s.slug
  conflict_comm r s := by rw [BEq.comm (a := r.id), BEq.comm (a := citext r.slug)]

instance : Constrained Role where
  conflict r s := r.id == s.id || (r.orgId == s.orgId && r.name == s.name)
  conflict_comm r s := by
    rw [BEq.comm (a := r.id), BEq.comm (a := r.orgId), BEq.comm (a := r.name)]

instance : Constrained RolePermission where
  conflict r s := r.roleId == s.roleId && r.permission == s.permission
  conflict_comm r s := by rw [BEq.comm (a := r.roleId), BEq.comm (a := r.permission)]

instance : Constrained Membership where
  conflict r s := r.userId == s.userId && r.orgId == s.orgId
  conflict_comm r s := by rw [BEq.comm (a := r.userId), BEq.comm (a := r.orgId)]

instance : Constrained InvitationRow where
  conflict r s := r.id == s.id || r.tokenHash == s.tokenHash
  conflict_comm r s := by rw [BEq.comm (a := r.id), BEq.comm (a := r.tokenHash)]

instance : Constrained VerificationTokenRow where
  conflict r s := r.id == s.id || r.tokenHash == s.tokenHash
  conflict_comm r s := by rw [BEq.comm (a := r.id), BEq.comm (a := r.tokenHash)]

instance : Constrained AuthorizationCodeRow where
  conflict r s := r.id == s.id || r.codeHash == s.codeHash
  conflict_comm r s := by rw [BEq.comm (a := r.id), BEq.comm (a := r.codeHash)]

instance : Constrained PlatformMembership where
  conflict r s := r.userId == s.userId && r.roleId == s.roleId
  conflict_comm r s := by rw [BEq.comm (a := r.userId), BEq.comm (a := r.roleId)]

instance : Constrained WebAuthnChallenge where
  conflict r s := r.id == s.id
  conflict_comm _ _ := BEq.comm

instance : Constrained WebAuthnCredential where
  conflict r s := r.id == s.id || r.credentialId == s.credentialId
  conflict_comm r s := by rw [BEq.comm (a := r.id), BEq.comm (a := r.credentialId)]

end Constraints

inductive AuthMethod where
  | pwd
  | totp
  | apikey
  | magicLink
  deriving DecidableEq

def parseAmr (s : String) : Option AuthMethod :=
  if s = "pwd" then
    some .pwd
  else if s = "totp" then
    some .totp
  else if s = "apikey" then
    some .apikey
  else if s = "magic_link" then
    some .magicLink
  else
    none

/--
What an access token is issued for.
-/
structure Grant where
  userId : UserId
  email : Option String
  sessionId : SessionId
  amr : List AuthMethod
  orgs : List OrgId
  defaultOrg : Option OrgId
  scopes : List String
  mfaAt : Option Nat

/--
The claims of a verified access token. The user id is the one its subject parses to, the subject of an
API key has none.
-/
structure Claims where
  userId : Option UserId
  email : Option String
  sessionId : Option SessionId
  amr : List AuthMethod
  orgs : List OrgId
  defaultOrg : Option OrgId
  scopes : List String
  mfaAt : Option Nat
  iat : Nat
  exp : Nat

/--
A signed token, which only the issuer can make.
-/
structure AccessToken where
  claims : Claims

structure AuthResponse where
  user : User
  session : Session
  accessToken : AccessToken
  refreshToken : String
  expiresAt : Time

structure MfaAuthResponse where
  accessToken : AccessToken
  refreshToken : String
  expiresAt : Time
  mfaAt : Nat
  scopes : List String

structure AuthorizationCodeResponse where
  user : User
  session : Session
  accessToken : AccessToken
  refreshToken : String
  expiresAt : Time
  scopes : List String

inductive OrgRef where
  | id (id : OrgId)
  | slug (slug : String)

inductive EmailTemplate where
  | emailVerification (link : String) (hours : Nat)
  | passwordReset (link : String) (minutes : Nat)
  | invitation (org : String) (role : String) (link : String) (hours : Nat)
  deriving DecidableEq

structure Email where
  recipient : String
  template : EmailTemplate
  deriving DecidableEq

/--
The configuration of the service and the functions it takes from other crates.
-/
structure Env where
  publicUrl : String
  accessTtlSecs : Nat
  refreshTtlSecs : Nat
  /-- `email_sender.is_enabled()` -/
  emailEnabled : Bool
  /-- SHA-256 of the bytes of a text. -/
  sha256 : String → Digest
  /-- Argon2id of a password with a salt. -/
  hashPassword : String → String → String
  /-- Nothing for a hash that cannot be parsed. -/
  verifyPassword : String → String → Option Bool
  /-- `URL_SAFE_NO_PAD.encode` -/
  base64Url : Digest → String
  /-- The options, the challenge and the state for some randomness, a user and its credentials. -/
  startRegistration : String → UserId → String → List (List UInt8)
    → Option (Rust.Json × List UInt8 × List UInt8)
  /-- The credential id and the passkey of a valid response, or the error it is answered with. -/
  finishRegistration : Rust.Json → List UInt8 → Except AuthError (List UInt8 × List UInt8)
  /-- The stored bytes are those of a passkey. -/
  isPasskey : List UInt8 → Bool
  startAuthentication : String → List (List UInt8) → Option (Rust.Json × List UInt8 × List UInt8)
  /-- The credential id and the counter of a valid response, or the error it is answered with. -/
  finishAuthentication : Rust.Json → List UInt8 → Except AuthError (List UInt8 × Nat)

/--
An environment whose hashes show what they are of.
-/
def Env.transparent : Env where
  publicUrl := "https://auth.test/"
  accessTtlSecs := 900
  refreshTtlSecs := 2592000
  emailEnabled := false
  sha256 s := s.toList.map (fun c => UInt8.ofNat c.toNat)
  hashPassword password _ := password
  verifyPassword password hash := some (password == hash)
  base64Url digest := String.ofList (digest.map (fun b => Char.ofNat b.toNat))
  startRegistration random _ _ _ := some (.null, [], random.toUTF8.toList)
  finishRegistration _ state := .ok (state, state)
  isPasskey _ := true
  startAuthentication random _ := some (.null, [], random.toUTF8.toList)
  finishAuthentication _ state := .ok (state, 0)

end Reactor.Auth
