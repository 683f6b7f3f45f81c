import Mathlib.Data.List.Sort
import ReactorCloud.Auth.Types
import ReactorCloud.Interleave.System

/-!
This module contains the identity store and what each of its statements does. A statement outside of a
transaction takes effect at once. The statements of the transaction in `rotate_refresh_token` collect
their writes until the commit and lock the rows they read for update or write.
-/

namespace Reactor.Auth

open Relational (Table)

inductive Write where
  | revokeSession (id : SessionId) (time : Time)
  | useRefreshToken (id : ReactorId) (time : Time) (replacedBy : ReactorId)
  | insertRefreshToken (row : RefreshToken)

/--
The row is about to be inserted by a transaction.
-/
def Write.inserts (row : RefreshToken) : Write → Bool
  | .insertRefreshToken r => Relational.Constrained.conflict r row
  | _ => false

/--
An open transaction. `NOW()` is the time it began.
-/
structure Transaction where
  beganAt : Time
  lockedTokens : List ReactorId
  lockedSessions : List SessionId
  writes : List Write

structure IdentityStore where
  users : Table UserRow
  sessions : Table Session
  refreshTokens : Table RefreshToken
  orgs : Table Org
  roles : Table Role
  rolePermissions : Table RolePermission
  memberships : Table Membership
  invitations : Table InvitationRow
  verificationTokens : Table VerificationTokenRow
  authorizationCodes : Table AuthorizationCodeRow
  platformMemberships : Table PlatformMembership
  challenges : Table WebAuthnChallenge
  credentials : Table WebAuthnCredential
  transactions : List (Nat × Transaction)
  now : Time

def IdentityStore.empty : IdentityStore :=
  ⟨.empty, .empty, .empty, .empty, .empty, .empty, .empty, .empty, .empty, .empty, .empty, .empty,
    .empty, [], 0⟩

/--
The role that the migration inserts.
-/
def platformOperatorRole : RoleId := 1

/--
What the environment decides in a call: the random values and the ids it generates.
-/
structure Entropy where
  id : ReactorId
  token : String

inductive Call where
  | utcNow
  | newId
  | generateToken
  | sendEmail (email : Email)
  | issueAccessToken (grant : Grant)
  | findUserById (id : UserId)
  | findUserByEmail (email : String)
  | createUser (id : UserId) (email : String) (passwordHash : Option String) (metadata : Rust.Json)
  | updateUser (id : UserId) (email : Option String) (passwordHash : Option String)
      (emailVerified : Option Bool) (metadata : Option Rust.Json)
      (defaultOrgId : Option (Option OrgId))
  | getPasswordHash (userId : UserId)
  | disableUser (id : UserId)
  | createSession (id : SessionId) (userId : UserId) (amr : List String)
  | findSessionById (id : SessionId)
  | revokeSession (id : SessionId)
  | revokeUserSessions (userId : UserId)
  | createRefreshToken (id : ReactorId) (sessionId : SessionId) (tokenHash : Digest)
      (expiresAt : Time)
  | beginTransaction
  | selectTokenForUpdate (tokenHash : Digest)
  | revokeSessionInTransaction (id : SessionId)
  | useTokenInTransaction (id : ReactorId) (replacedBy : ReactorId)
  | insertTokenInTransaction (id : ReactorId) (sessionId : SessionId) (tokenHash : Digest)
      (expiresAt : Time)
  | commit
  | rollback
  | createOrg (id : OrgId) (name : String) (slug : String) (metadata : Rust.Json)
  | findOrgById (id : OrgId)
  | findOrgBySlug (slug : String)
  | updateOrg (id : OrgId) (name : Option String) (slug : Option String)
      (metadata : Option Rust.Json)
  | deleteOrg (id : OrgId)
  | listUserOrgs (userId : UserId)
  | createRole (id : RoleId) (orgId : OrgId) (name : String) (description : Option String)
      (isSystem : Bool) (permissions : List String)
  | findRoleById (id : RoleId)
  | createMembership (userId : UserId) (orgId : OrgId) (roleId : RoleId)
  | findMembership (userId : UserId) (orgId : OrgId)
  | updateMembershipRole (userId : UserId) (orgId : OrgId) (roleId : RoleId)
  | deleteMembership (userId : UserId) (orgId : OrgId)
  | countMembersWithRole (orgId : OrgId) (roleId : RoleId)
  | getUserPermissions (userId : UserId) (orgId : OrgId)
  | createInvitation (tokenHash : Digest) (email : String) (orgId : OrgId) (roleId : RoleId)
      (expiresAt : Time)
  | findInvitationByHash (tokenHash : Digest)
  | useInvitation (tokenHash : Digest)
  | createVerificationToken (userId : UserId) (tokenHash : Digest) (tokenType : String)
      (expiresAt : Time)
  | findVerificationTokenByHash (tokenHash : Digest) (tokenType : String)
  | useVerificationToken (tokenHash : Digest)
  | createAuthorizationCode (id : ReactorId) (userId : UserId) (clientId : String)
      (redirectUri : String) (scopes : List String) (codeHash : Digest) (codeChallenge : String)
      (codeChallengeMethod : String) (nonce : Option String) (state : Option String)
      (expiresAt : Time) (sessionId : Option SessionId)
  | findAuthorizationCodeByHash (codeHash : Digest)
  | useAuthorizationCode (codeHash : Digest) (sessionId : SessionId)
  | grantPlatformRole (userId : UserId) (roleName : String) (grantedBy : Option UserId)
  | platformOperatorsExist
  | findCredentialsByUser (userId : UserId)
  | createCredential (id : ReactorId) (userId : UserId) (credentialId : List UInt8)
      (publicKey : List UInt8) (counter : Nat) (name : Option String)
  | createChallenge (id : ReactorId) (sessionId : ReactorId) (challenge : List UInt8)
      (challengeType : ChallengeType) (userId : Option UserId) (expiresAt : Time)
  | setChallenge (id : ReactorId) (state : List UInt8)
  | consumeChallenge (sessionId : ReactorId) (challengeType : ChallengeType)
  | updateCredentialCounter (credentialId : List UInt8) (counter : Nat)

namespace Call

@[reducible]
def Ret : Call → Type
  | utcNow => Time
  | newId => ReactorId
  | generateToken => String
  | sendEmail _ => Unit
  | issueAccessToken _ => AccessToken
  | findUserById _ => Option User
  | findUserByEmail _ => Option User
  | createUser _ _ _ _ => User
  | updateUser _ _ _ _ _ _ => User
  | getPasswordHash _ => Option String
  | disableUser _ => Unit
  | createSession _ _ _ => Session
  | findSessionById _ => Option Session
  | revokeSession _ => Unit
  | revokeUserSessions _ => Nat
  | createRefreshToken _ _ _ _ => RefreshToken
  | beginTransaction => Unit
  | selectTokenForUpdate _ => Option RefreshToken
  | revokeSessionInTransaction _ => Unit
  | useTokenInTransaction _ _ => Unit
  | insertTokenInTransaction _ _ _ _ => RefreshToken
  | commit => Unit
  | rollback => Unit
  | createOrg _ _ _ _ => Org
  | findOrgById _ => Option Org
  | findOrgBySlug _ => Option Org
  | updateOrg _ _ _ _ => Org
  | deleteOrg _ => Unit
  | listUserOrgs _ => List Org
  | createRole _ _ _ _ _ _ => Role
  | findRoleById _ => Option Role
  | createMembership _ _ _ => Membership
  | findMembership _ _ => Option Membership
  | updateMembershipRole _ _ _ => Membership
  | deleteMembership _ _ => Unit
  | countMembersWithRole _ _ => Nat
  | getUserPermissions _ _ => List String
  | createInvitation _ _ _ _ _ => Unit
  | findInvitationByHash _ => Option Invitation
  | useInvitation _ => Unit
  | createVerificationToken _ _ _ _ => VerificationToken
  | findVerificationTokenByHash _ _ => Option VerificationToken
  | useVerificationToken _ => Unit
  | createAuthorizationCode _ _ _ _ _ _ _ _ _ _ _ _ => AuthorizationCode
  | findAuthorizationCodeByHash _ => Option AuthorizationCode
  | useAuthorizationCode _ _ => Unit
  | grantPlatformRole _ _ _ => Unit
  | platformOperatorsExist => Bool
  | findCredentialsByUser _ => List WebAuthnCredential
  | createCredential _ _ _ _ _ _ => WebAuthnCredential
  | createChallenge _ _ _ _ _ _ => Unit
  | setChallenge _ _ => Unit
  | consumeChallenge _ _ => Option WebAuthnChallenge
  | updateCredentialCounter _ _ => Unit

end Call

namespace IdentityStore

def transaction? (s : IdentityStore) (pid : Nat) : Option Transaction :=
  s.transactions.lookup pid

/--
Some other transaction satisfies `p`.
-/
def heldByOther (s : IdentityStore) (pid : Nat) (p : Transaction → Bool) : Bool :=
  s.transactions.any (fun (q, tx) => q != pid && p tx)

def setTransaction (s : IdentityStore) (pid : Nat) (tx : Transaction) : IdentityStore :=
  { s with transactions := (pid, tx) :: s.transactions.filter (fun (q, _) => q != pid) }

/--
A transaction that ends releases its locks.
-/
def endTransaction (s : IdentityStore) (pid : Nat) : IdentityStore :=
  { s with transactions := s.transactions.filter (fun (q, _) => q != pid) }

section Users

def findUserById (s : IdentityStore) (id : UserId) : Option User :=
  (s.users.find? (fun u => u.id == id)).map UserRow.toUser

def findUserByEmail (s : IdentityStore) (email : String) : Option User :=
  (s.users.find? (fun u => u.email == email)).map UserRow.toUser

def createUser (s : IdentityStore) (id : UserId) (email : String) (passwordHash : Option String)
    (metadata : Rust.Json) : Except AuthError User × IdentityStore :=
  if s.users.any (fun u => citext u.email == citext email) then
    (.error .emailExists, s)
  else
    let row : UserRow := ⟨⟨id, email, false, metadata, none, none, s.now, s.now⟩, passwordHash⟩
    match s.users.insert row with
    | some users => (.ok row.toUser, { s with users := users })
    | none => (.error .internal, s)

/--
The columns that are not given keep their value.
-/
def setUser (email : Option String) (passwordHash : Option String) (emailVerified : Option Bool)
    (metadata : Option Rust.Json) (defaultOrgId : Option (Option OrgId)) (now : Time)
    (u : UserRow) : UserRow where
  id := u.id
  email := email.getD u.email
  emailVerified := emailVerified.getD u.emailVerified
  metadata := metadata.getD u.metadata
  defaultOrgId := defaultOrgId.getD u.defaultOrgId
  disabledAt := u.disabledAt
  createdAt := u.createdAt
  updatedAt := now
  passwordHash := passwordHash <|> u.passwordHash

def updateUser (s : IdentityStore) (id : UserId) (email : Option String)
    (passwordHash : Option String) (emailVerified : Option Bool) (metadata : Option Rust.Json)
    (defaultOrgId : Option (Option OrgId)) : Except AuthError User × IdentityStore :=
  match s.users.find? (fun u => u.id == id) with
  | none => (.error .userNotFound, s)
  | some row =>
    let set := setUser email passwordHash emailVerified metadata defaultOrgId s.now
    match s.users.update (fun u => u.id == id) set with
    | some users => (.ok (set row).toUser, { s with users := users })
    | none => (.error .internal, s)

def getPasswordHash (s : IdentityStore) (userId : UserId) : Option String :=
  (s.users.find? (fun u => u.id == userId)).bind UserRow.passwordHash

def disableUser (s : IdentityStore) (id : UserId) : Except AuthError Unit × IdentityStore :=
  let p := fun (u : UserRow) => u.id == id && u.disabledAt.isNone
  if s.users.any p then
    let set := fun (u : UserRow) => { u with disabledAt := some s.now, updatedAt := s.now }
    (.ok (), { s with users := s.users.modify p set (fun _ _ => rfl) })
  else
    (.error .userNotFound, s)

end Users

section Sessions

def createSession (s : IdentityStore) (id : SessionId) (userId : UserId) (amr : List String)
    : Except AuthError Session × IdentityStore :=
  let row : Session := ⟨id, userId, amr, s.now, none⟩
  if s.users.any (fun u => u.id == userId) then
    match s.sessions.insert row with
    | some sessions => (.ok row, { s with sessions := sessions })
    | none => (.error .internal, s)
  else
    (.error .internal, s)

def findSessionById (s : IdentityStore) (id : SessionId) : Option Session :=
  s.sessions.find? (fun session => session.id == id)

/--
The rows that an `UPDATE` of a session's `revoked_at` has to lock.
-/
def revokes (p : Session → Bool) (session : Session) : Bool :=
  p session && session.revokedAt.isNone

def revokeSessions (s : IdentityStore) (p : Session → Bool) (now : Time) : IdentityStore :=
  { s with
    sessions := s.sessions.modify (revokes p) (fun session => { session with revokedAt := some now })
      (fun _ _ => rfl) }

/--
The update waits for the transactions that have locked one of its rows.
-/
def sessionsLocked (s : IdentityStore) (pid : Nat) (p : Session → Bool) : Bool :=
  (s.sessions.select (revokes p)).any
    (fun session => s.heldByOther pid (fun tx => tx.lockedSessions.contains session.id))

def revokeSession (s : IdentityStore) (pid : Nat) (id : SessionId)
    : Option (Except AuthError Unit × IdentityStore) :=
  let p := fun (session : Session) => session.id == id
  if s.sessionsLocked pid p then
    none
  else
    some (.ok (), s.revokeSessions p s.now)

def revokeUserSessions (s : IdentityStore) (pid : Nat) (userId : UserId)
    : Option (Except AuthError Nat × IdentityStore) :=
  let p := fun (session : Session) => session.userId == userId
  if s.sessionsLocked pid p then
    none
  else
    some (.ok (s.sessions.count (revokes p)), s.revokeSessions p s.now)

end Sessions

section RefreshTokens

/--
An insert waits for the transactions that have inserted a row it conflicts with.
-/
def createRefreshToken (s : IdentityStore) (pid : Nat) (id : ReactorId) (sessionId : SessionId)
    (tokenHash : Digest) (expiresAt : Time)
    : Option (Except AuthError RefreshToken × IdentityStore) :=
  let row : RefreshToken := ⟨id, sessionId, tokenHash, s.now, expiresAt, none, none⟩
  if s.heldByOther pid (fun tx => tx.writes.any (Write.inserts row)) then
    none
  else if s.sessions.any (fun session => session.id == sessionId) then
    match s.refreshTokens.insert row with
    | some refreshTokens => some (.ok row, { s with refreshTokens := refreshTokens })
    | none => some (.error .internal, s)
  else
    some (.error .internal, s)

def beginTransaction (s : IdentityStore) (pid : Nat) : Except AuthError Unit × IdentityStore :=
  (.ok (), s.setTransaction pid ⟨s.now, [], [], []⟩)

/--
`SELECT .. FOR UPDATE` waits for the row.
-/
def selectTokenForUpdate (s : IdentityStore) (pid : Nat) (tokenHash : Digest)
    : Option (Except AuthError (Option RefreshToken) × IdentityStore) :=
  match s.transaction? pid with
  | none => some (.error .internal, s)
  | some tx =>
    match s.refreshTokens.find? (fun t => t.tokenHash == tokenHash) with
    | none => some (.ok none, s)
    | some row =>
      if s.heldByOther pid (fun tx => tx.lockedTokens.contains row.id) then
        none
      else
        some (.ok (some row),
          s.setTransaction pid { tx with lockedTokens := row.id :: tx.lockedTokens })

def revokeSessionInTransaction (s : IdentityStore) (pid : Nat) (id : SessionId)
    : Option (Except AuthError Unit × IdentityStore) :=
  match s.transaction? pid with
  | none => some (.error .internal, s)
  | some tx =>
    if s.sessionsLocked pid (fun session => session.id == id) then
      none
    else
      some (.ok (), s.setTransaction pid { tx with
        lockedSessions := id :: tx.lockedSessions,
        writes := tx.writes ++ [.revokeSession id tx.beganAt] })

def useTokenInTransaction (s : IdentityStore) (pid : Nat) (id : ReactorId) (replacedBy : ReactorId)
    : Option (Except AuthError Unit × IdentityStore) :=
  match s.transaction? pid with
  | none => some (.error .internal, s)
  | some tx =>
    if s.heldByOther pid (fun tx => tx.lockedTokens.contains id) then
      none
    else
      some (.ok (), s.setTransaction pid { tx with
        lockedTokens := id :: tx.lockedTokens,
        writes := tx.writes ++ [.useRefreshToken id tx.beganAt replacedBy] })

def insertTokenInTransaction (s : IdentityStore) (pid : Nat) (id : ReactorId)
    (sessionId : SessionId) (tokenHash : Digest) (expiresAt : Time)
    : Option (Except AuthError RefreshToken × IdentityStore) :=
  match s.transaction? pid with
  | none => some (.error .internal, s)
  | some tx =>
    let row : RefreshToken := ⟨id, sessionId, tokenHash, tx.beganAt, expiresAt, none, none⟩
    if s.heldByOther pid (fun tx => tx.writes.any (Write.inserts row)) then
      none
    else if s.sessions.any (fun session => session.id == sessionId)
        && (s.refreshTokens.insert row).isSome then
      some (.ok row, s.setTransaction pid { tx with
        writes := tx.writes ++ [.insertRefreshToken row] })
    else
      some (.error .internal, s)

def applyWrite (s : IdentityStore) : Write → Option IdentityStore
  | .revokeSession id now => some (s.revokeSessions (fun session => session.id == id) now)
  | .useRefreshToken id now replacedBy =>
    some { s with
      refreshTokens := s.refreshTokens.modify (fun t => t.id == id)
        (fun t => { t with usedAt := some now, replacedBy := some replacedBy }) (fun _ _ => rfl) }
  | .insertRefreshToken row =>
    (s.refreshTokens.insert row).map (fun refreshTokens => { s with refreshTokens := refreshTokens })

def applyWrites : List Write → IdentityStore → Option IdentityStore
  | [], s => some s
  | w :: ws, s => (s.applyWrite w).bind (applyWrites ws)

def commit (s : IdentityStore) (pid : Nat) : Except AuthError Unit × IdentityStore :=
  match s.transaction? pid with
  | none => (.error .internal, s)
  | some tx =>
    match applyWrites tx.writes s with
    | some s' => (.ok (), s'.endTransaction pid)
    | none => (.error .internal, s.endTransaction pid)

def rollback (s : IdentityStore) (pid : Nat) : Except AuthError Unit × IdentityStore :=
  (.ok (), s.endTransaction pid)

end RefreshTokens

section Orgs

def createOrg (s : IdentityStore) (id : OrgId) (name : String) (slug : String)
    (metadata : Rust.Json) : Except AuthError Org × IdentityStore :=
  if s.orgs.any (fun o => citext o.slug == citext slug) then
    (.error .orgSlugExists, s)
  else
    let row : Org := ⟨id, name, slug, metadata, s.now, s.now⟩
    match s.orgs.insert row with
    | some orgs => (.ok row, { s with orgs := orgs })
    | none => (.error .internal, s)

def findOrgById (s : IdentityStore) (id : OrgId) : Option Org :=
  s.orgs.find? (fun o => o.id == id)

def findOrgBySlug (s : IdentityStore) (slug : String) : Option Org :=
  s.orgs.find? (fun o => o.slug == slug)

def updateOrg (s : IdentityStore) (id : OrgId) (name : Option String) (slug : Option String)
    (metadata : Option Rust.Json) : Except AuthError Org × IdentityStore :=
  let set := fun (o : Org) => { o with
    name := name.getD o.name,
    slug := slug.getD o.slug,
    metadata := metadata.getD o.metadata,
    updatedAt := s.now }
  match s.orgs.find? (fun o => o.id == id) with
  | none => (.error .orgNotFound, s)
  | some row =>
    match s.orgs.update (fun o => o.id == id) set with
    | some orgs => (.ok (set row), { s with orgs := orgs })
    | none => (.error .orgSlugExists, s)

/--
The roles are deleted before the memberships, and a membership restricts the deletion of its role.
-/
def deleteOrg (s : IdentityStore) (id : OrgId) : Except AuthError Unit × IdentityStore :=
  let ofOrg := fun (roleId : RoleId) => s.roles.any (fun r => r.id == roleId && r.orgId == id)
  if s.orgs.any (fun o => o.id == id) then
    if s.memberships.any (fun m => ofOrg m.roleId) then
      (.error .internal, s)
    else
      (.ok (), { s with
        users := s.users.modify (fun u => u.defaultOrgId == some id)
          (fun u => { u with defaultOrgId := none }) (fun _ _ => rfl),
        orgs := s.orgs.delete (fun o => o.id == id),
        rolePermissions := s.rolePermissions.delete (fun p => ofOrg p.roleId),
        roles := s.roles.delete (fun r => r.orgId == id),
        memberships := s.memberships.delete (fun m => m.orgId == id),
        invitations := s.invitations.delete (fun i => i.orgId == id || ofOrg i.roleId) })
  else
    (.error .orgNotFound, s)

def listUserOrgs (s : IdentityStore) (userId : UserId) : List Org :=
  (s.orgs.select (fun o => s.memberships.any (fun m => m.orgId == o.id && m.userId == userId))
    ).insertionSort (fun a b => b.createdAt ≤ a.createdAt)

end Orgs

section Roles

def insertPermissions (roleId : RoleId) : List String → Table RolePermission
    → Option (Table RolePermission)
  | [], t => some t
  | p :: ps, t => (t.insert ⟨roleId, p⟩).bind (insertPermissions roleId ps)

/--
A transaction of inserts that nothing else waits for.
-/
def createRole (s : IdentityStore) (id : RoleId) (orgId : OrgId) (name : String)
    (description : Option String) (isSystem : Bool) (permissions : List String)
    : Except AuthError Role × IdentityStore :=
  let row : Role := ⟨id, orgId, name, description, isSystem, s.now⟩
  if s.orgs.any (fun o => o.id == orgId) then
    match s.roles.insert row, insertPermissions id permissions s.rolePermissions with
    | some roles, some rolePermissions =>
      (.ok row, { s with roles := roles, rolePermissions := rolePermissions })
    | _, _ => (.error .internal, s)
  else
    (.error .internal, s)

def findRoleById (s : IdentityStore) (id : RoleId) : Option Role :=
  s.roles.find? (fun r => r.id == id)

/--
The permissions of a role in their order.
-/
def permissionsOf (s : IdentityStore) (roleId : RoleId) : List String :=
  ((s.rolePermissions.select (fun p => p.roleId == roleId)).map RolePermission.permission
    ).insertionSort (fun a b => a ≤ b)

end Roles

section Memberships

def createMembership (s : IdentityStore) (userId : UserId) (orgId : OrgId) (roleId : RoleId)
    : Except AuthError Membership × IdentityStore :=
  let row : Membership := ⟨userId, orgId, roleId, s.now⟩
  match s.memberships.insert row with
  | some memberships =>
    if s.users.any (fun u => u.id == userId) && s.orgs.any (fun o => o.id == orgId)
        && s.roles.any (fun r => r.id == roleId) then
      (.ok row, { s with memberships := memberships })
    else
      (.error .internal, s)
  | none => (.error .membershipExists, s)

def ofMember (userId : UserId) (orgId : OrgId) (m : Membership) : Bool :=
  m.userId == userId && m.orgId == orgId

def findMembership (s : IdentityStore) (userId : UserId) (orgId : OrgId) : Option Membership :=
  s.memberships.find? (ofMember userId orgId)

def updateMembershipRole (s : IdentityStore) (userId : UserId) (orgId : OrgId) (roleId : RoleId)
    : Except AuthError Membership × IdentityStore :=
  match s.memberships.find? (ofMember userId orgId) with
  | none => (.error .membershipNotFound, s)
  | some row =>
    if s.roles.any (fun r => r.id == roleId) then
      let set := fun (m : Membership) => { m with roleId := roleId }
      (.ok (set row), { s with
        memberships := s.memberships.modify (ofMember userId orgId) set (fun _ _ => rfl) })
    else
      (.error .internal, s)

def deleteMembership (s : IdentityStore) (userId : UserId) (orgId : OrgId)
    : Except AuthError Unit × IdentityStore :=
  if s.memberships.any (ofMember userId orgId) then
    (.ok (), { s with memberships := s.memberships.delete (ofMember userId orgId) })
  else
    (.error .membershipNotFound, s)

def countMembersWithRole (s : IdentityStore) (orgId : OrgId) (roleId : RoleId) : Nat :=
  s.memberships.count (fun m => m.orgId == orgId && m.roleId == roleId)

def getUserPermissions (s : IdentityStore) (userId : UserId) (orgId : OrgId) : List String :=
  match s.findMembership userId orgId with
  | some m => s.permissionsOf m.roleId
  | none => []

end Memberships

section Invitations

def createInvitation (s : IdentityStore) (id : ReactorId) (tokenHash : Digest) (email : String)
    (orgId : OrgId) (roleId : RoleId) (expiresAt : Time) : Except AuthError Unit × IdentityStore :=
  let row : InvitationRow := ⟨⟨id, email, orgId, roleId, s.now, expiresAt⟩, tokenHash, none⟩
  if s.orgs.any (fun o => o.id == orgId) && s.roles.any (fun r => r.id == roleId) then
    match s.invitations.insert row with
    | some invitations => (.ok (), { s with invitations := invitations })
    | none => (.error .internal, s)
  else
    (.error .internal, s)

def unusedInvitation (tokenHash : Digest) (i : InvitationRow) : Bool :=
  i.tokenHash == tokenHash && i.usedAt.isNone

def findInvitationByHash (s : IdentityStore) (tokenHash : Digest) : Option Invitation :=
  (s.invitations.find? (unusedInvitation tokenHash)).map InvitationRow.toInvitation

def useInvitation (s : IdentityStore) (tokenHash : Digest)
    : Except AuthError Unit × IdentityStore :=
  if s.invitations.any (unusedInvitation tokenHash) then
    (.ok (), { s with
      invitations := s.invitations.modify (unusedInvitation tokenHash)
        (fun i => { i with usedAt := some s.now }) (fun _ _ => rfl) })
  else
    (.error .invitationNotFound, s)

end Invitations

section VerificationTokens

def createVerificationToken (s : IdentityStore) (id : ReactorId) (userId : UserId)
    (tokenHash : Digest) (tokenType : String) (expiresAt : Time)
    : Except AuthError VerificationToken × IdentityStore :=
  let token : VerificationToken := ⟨id, userId, tokenType, s.now, expiresAt, none⟩
  if s.users.any (fun u => u.id == userId) then
    match s.verificationTokens.insert ⟨token, tokenHash⟩ with
    | some tokens => (.ok token, { s with verificationTokens := tokens })
    | none => (.error .internal, s)
  else
    (.error .internal, s)

def findVerificationTokenByHash (s : IdentityStore) (tokenHash : Digest) (tokenType : String)
    : Option VerificationToken :=
  (s.verificationTokens.find? (fun t => t.tokenHash == tokenHash && t.tokenType == tokenType
    && t.usedAt.isNone && s.now < t.expiresAt)).map VerificationTokenRow.toVerificationToken

def useVerificationToken (s : IdentityStore) (tokenHash : Digest)
    : Except AuthError Unit × IdentityStore :=
  let p := fun (t : VerificationTokenRow) => t.tokenHash == tokenHash && t.usedAt.isNone
  if s.verificationTokens.any p then
    (.ok (), { s with
      verificationTokens := s.verificationTokens.modify p (fun t => { t with usedAt := some s.now })
        (fun _ _ => rfl) })
  else
    (.error .invalidToken, s)

end VerificationTokens

section AuthorizationCodes

def createAuthorizationCode (s : IdentityStore) (code : AuthorizationCode) (codeHash : Digest)
    : Except AuthError AuthorizationCode × IdentityStore :=
  if s.users.any (fun u => u.id == code.userId)
      && code.sessionId.all (fun id => s.sessions.any (fun session => session.id == id))
      && (code.codeChallengeMethod == "S256" || code.codeChallengeMethod == "plain") then
    match s.authorizationCodes.insert ⟨code, codeHash⟩ with
    | some codes => (.ok code, { s with authorizationCodes := codes })
    | none => (.error .internal, s)
  else
    (.error .internal, s)

def usableCode (codeHash : Digest) (now : Time) (c : AuthorizationCodeRow) : Bool :=
  c.codeHash == codeHash && c.usedAt.isNone && now < c.expiresAt

def findAuthorizationCodeByHash (s : IdentityStore) (codeHash : Digest)
    : Option AuthorizationCode :=
  (s.authorizationCodes.find? (usableCode codeHash s.now)).map AuthorizationCodeRow.toAuthorizationCode

def useAuthorizationCode (s : IdentityStore) (codeHash : Digest) (sessionId : SessionId)
    : Except AuthError Unit × IdentityStore :=
  if s.authorizationCodes.any (usableCode codeHash s.now) then
    (.ok (), { s with
      authorizationCodes := s.authorizationCodes.modify (usableCode codeHash s.now)
        (fun c => { c with usedAt := some s.now, sessionId := some sessionId }) (fun _ _ => rfl) })
  else
    (.error .invalidToken, s)

end AuthorizationCodes

section PlatformOperators

def isOperator (m : PlatformMembership) : Bool :=
  m.roleId == platformOperatorRole && m.revokedAt.isNone

/--
There is one platform role, a grant of any other name inserts nothing.
-/
def grantPlatformRole (s : IdentityStore) (userId : UserId) (roleName : String)
    (grantedBy : Option UserId) : Except AuthError Unit × IdentityStore :=
  if roleName = "platform_operator" then
    if s.users.any (fun u => u.id == userId) then
      let row : PlatformMembership := ⟨userId, platformOperatorRole, grantedBy, s.now, none⟩
      match s.platformMemberships.insert row with
      | some memberships => (.ok (), { s with platformMemberships := memberships })
      | none =>
        (.ok (), { s with
          platformMemberships := s.platformMemberships.modify
            (fun m => m.userId == userId && m.roleId == platformOperatorRole)
            (fun m => { m with revokedAt := none, grantedBy := grantedBy, grantedAt := s.now })
            (fun _ _ => rfl) })
    else
      (.error .internal, s)
  else
    (.ok (), s)

def platformOperatorsExist (s : IdentityStore) : Bool :=
  s.platformMemberships.any isOperator

end PlatformOperators

section WebAuthn

def findCredentialsByUser (s : IdentityStore) (userId : UserId) : List WebAuthnCredential :=
  (s.credentials.select (fun c => c.userId == userId)).insertionSort
    (fun a b => b.createdAt ≤ a.createdAt)

def createCredential (s : IdentityStore) (id : ReactorId) (userId : UserId)
    (credentialId : List UInt8) (publicKey : List UInt8) (counter : Nat) (name : Option String)
    : Except AuthError WebAuthnCredential × IdentityStore :=
  let row : WebAuthnCredential := ⟨id, userId, credentialId, publicKey, counter, name, s.now, none⟩
  if s.users.any (fun u => u.id == userId) then
    match s.credentials.insert row with
    | some credentials => (.ok row, { s with credentials := credentials })
    | none => (.error .internal, s)
  else
    (.error .internal, s)

def createChallenge (s : IdentityStore) (id : ReactorId) (sessionId : ReactorId)
    (challenge : List UInt8) (challengeType : ChallengeType) (userId : Option UserId)
    (expiresAt : Time) : Except AuthError Unit × IdentityStore :=
  let row : WebAuthnChallenge := ⟨id, sessionId, challenge, challengeType, userId, expiresAt, none⟩
  if userId.all (fun userId => s.users.any (fun u => u.id == userId)) then
    match s.challenges.insert row with
    | some challenges => (.ok (), { s with challenges := challenges })
    | none => (.error .internal, s)
  else
    (.error .internal, s)

def setChallenge (s : IdentityStore) (id : ReactorId) (state : List UInt8)
    : Except AuthError Unit × IdentityStore :=
  (.ok (), { s with
    challenges := s.challenges.modify (fun c => c.id == id) (fun c => { c with state := state })
      (fun _ _ => rfl) })

def openChallenge (sessionId : ReactorId) (challengeType : ChallengeType) (now : Time)
    (c : WebAuthnChallenge) : Bool :=
  c.sessionId == sessionId && c.challengeType == challengeType && c.consumedAt.isNone
    && now < c.expiresAt

def consumeChallenge (s : IdentityStore) (sessionId : ReactorId) (challengeType : ChallengeType)
    : Except AuthError (Option WebAuthnChallenge) × IdentityStore :=
  let p := openChallenge sessionId challengeType s.now
  let set := fun (c : WebAuthnChallenge) => { c with consumedAt := some s.now }
  (.ok ((s.challenges.find? p).map set), { s with
    challenges := s.challenges.modify p set (fun _ _ => rfl) })

def updateCredentialCounter (s : IdentityStore) (credentialId : List UInt8) (counter : Nat)
    : Except AuthError Unit × IdentityStore :=
  (.ok (), { s with
    credentials := s.credentials.modify (fun c => c.credentialId == credentialId)
      (fun c => { c with counter := counter, lastUsedAt := some s.now }) (fun _ _ => rfl) })

end WebAuthn

/--
`TokenIssuer::issue_access_token_with_scopes`
-/
def issueAccessToken (env : Env) (s : IdentityStore) (grant : Grant) : AccessToken where
  claims := {
    userId := some grant.userId,
    email := grant.email,
    sessionId := some grant.sessionId,
    amr := grant.amr,
    orgs := grant.orgs,
    defaultOrg := grant.defaultOrg,
    scopes := grant.scopes,
    mfaAt := grant.mfaAt,
    iat := s.now / seconds 1,
    exp := (s.now + seconds env.accessTtlSecs) / seconds 1 }

/--
The effect of a call of the process `pid`.
-/
def exec (env : Env) (pid : Nat) (c : Call) (e : Entropy) (s : IdentityStore)
    : Option (Except AuthError c.Ret × IdentityStore) :=
  match c with
  | .utcNow => some (.ok s.now, s)
  | .newId => some (.ok e.id, s)
  | .generateToken => some (.ok e.token, s)
  | .sendEmail _ => some (.ok (), s)
  | .issueAccessToken grant => some (.ok (s.issueAccessToken env grant), s)
  | .findUserById id => some (.ok (s.findUserById id), s)
  | .findUserByEmail email => some (.ok (s.findUserByEmail email), s)
  | .createUser id email passwordHash metadata => some (s.createUser id email passwordHash metadata)
  | .updateUser id email passwordHash emailVerified metadata defaultOrgId =>
    some (s.updateUser id email passwordHash emailVerified metadata defaultOrgId)
  | .getPasswordHash userId => some (.ok (s.getPasswordHash userId), s)
  | .disableUser id => some (s.disableUser id)
  | .createSession id userId amr => some (s.createSession id userId amr)
  | .findSessionById id => some (.ok (s.findSessionById id), s)
  | .revokeSession id => s.revokeSession pid id
  | .revokeUserSessions userId => s.revokeUserSessions pid userId
  | .createRefreshToken id sessionId tokenHash expiresAt =>
    s.createRefreshToken pid id sessionId tokenHash expiresAt
  | .beginTransaction => some (s.beginTransaction pid)
  | .selectTokenForUpdate tokenHash => s.selectTokenForUpdate pid tokenHash
  | .revokeSessionInTransaction id => s.revokeSessionInTransaction pid id
  | .useTokenInTransaction id replacedBy => s.useTokenInTransaction pid id replacedBy
  | .insertTokenInTransaction id sessionId tokenHash expiresAt =>
    s.insertTokenInTransaction pid id sessionId tokenHash expiresAt
  | .commit => some (s.commit pid)
  | .rollback => some (s.rollback pid)
  | .createOrg id name slug metadata => some (s.createOrg id name slug metadata)
  | .findOrgById id => some (.ok (s.findOrgById id), s)
  | .findOrgBySlug slug => some (.ok (s.findOrgBySlug slug), s)
  | .updateOrg id name slug metadata => some (s.updateOrg id name slug metadata)
  | .deleteOrg id => some (s.deleteOrg id)
  | .listUserOrgs userId => some (.ok (s.listUserOrgs userId), s)
  | .createRole id orgId name description isSystem permissions =>
    some (s.createRole id orgId name description isSystem permissions)
  | .findRoleById id => some (.ok (s.findRoleById id), s)
  | .createMembership userId orgId roleId => some (s.createMembership userId orgId roleId)
  | .findMembership userId orgId => some (.ok (s.findMembership userId orgId), s)
  | .updateMembershipRole userId orgId roleId => some (s.updateMembershipRole userId orgId roleId)
  | .deleteMembership userId orgId => some (s.deleteMembership userId orgId)
  | .countMembersWithRole orgId roleId => some (.ok (s.countMembersWithRole orgId roleId), s)
  | .getUserPermissions userId orgId => some (.ok (s.getUserPermissions userId orgId), s)
  | .createInvitation tokenHash email orgId roleId expiresAt =>
    some (s.createInvitation e.id tokenHash email orgId roleId expiresAt)
  | .findInvitationByHash tokenHash => some (.ok (s.findInvitationByHash tokenHash), s)
  | .useInvitation tokenHash => some (s.useInvitation tokenHash)
  | .createVerificationToken userId tokenHash tokenType expiresAt =>
    some (s.createVerificationToken e.id userId tokenHash tokenType expiresAt)
  | .findVerificationTokenByHash tokenHash tokenType =>
    some (.ok (s.findVerificationTokenByHash tokenHash tokenType), s)
  | .useVerificationToken tokenHash => some (s.useVerificationToken tokenHash)
  | .createAuthorizationCode id userId clientId redirectUri scopes codeHash codeChallenge
      codeChallengeMethod nonce state expiresAt sessionId =>
    some (s.createAuthorizationCode ⟨id, userId, clientId, redirectUri, scopes, codeChallenge,
      codeChallengeMethod, nonce, state, s.now, expiresAt, none, sessionId⟩ codeHash)
  | .findAuthorizationCodeByHash codeHash => some (.ok (s.findAuthorizationCodeByHash codeHash), s)
  | .useAuthorizationCode codeHash sessionId => some (s.useAuthorizationCode codeHash sessionId)
  | .grantPlatformRole userId roleName grantedBy =>
    some (s.grantPlatformRole userId roleName grantedBy)
  | .platformOperatorsExist => some (.ok s.platformOperatorsExist, s)
  | .findCredentialsByUser userId => some (.ok (s.findCredentialsByUser userId), s)
  | .createCredential id userId credentialId publicKey counter name =>
    some (s.createCredential id userId credentialId publicKey counter name)
  | .createChallenge id sessionId challenge challengeType userId expiresAt =>
    some (s.createChallenge id sessionId challenge challengeType userId expiresAt)
  | .setChallenge id state => some (s.setChallenge id state)
  | .consumeChallenge sessionId challengeType => some (s.consumeChallenge sessionId challengeType)
  | .updateCredentialCounter credentialId counter =>
    some (s.updateCredentialCounter credentialId counter)

end IdentityStore
end Reactor.Auth
