import ReactorCloud.Auth.Store

/-!
This module contains which tables a statement can change.
-/

namespace Reactor.Auth

inductive TableName where
  | users
  | sessions
  | refreshTokens
  | orgs
  | roles
  | rolePermissions
  | memberships
  | invitations
  | verificationTokens
  | authorizationCodes
  | platformMemberships
  | challenges
  | credentials
  | transactions
  deriving DecidableEq

/--
The tables that a statement writes.
-/
def Call.tables : Call → List TableName
  | createUser _ _ _ _ => [.users]
  | updateUser _ _ _ _ _ _ => [.users]
  | disableUser _ => [.users]
  | createSession _ _ _ => [.sessions]
  | revokeSession _ => [.sessions]
  | revokeUserSessions _ => [.sessions]
  | createRefreshToken _ _ _ _ => [.refreshTokens]
  | beginTransaction => [.transactions]
  | selectTokenForUpdate _ => [.transactions]
  | revokeSessionInTransaction _ => [.transactions]
  | useTokenInTransaction _ _ => [.transactions]
  | insertTokenInTransaction _ _ _ _ => [.transactions]
  | commit => [.sessions, .refreshTokens, .transactions]
  | rollback => [.transactions]
  | createOrg _ _ _ _ => [.orgs]
  | updateOrg _ _ _ _ => [.orgs]
  | deleteOrg _ => [.users, .orgs, .roles, .rolePermissions, .memberships, .invitations]
  | createRole _ _ _ _ _ _ => [.roles, .rolePermissions]
  | createMembership _ _ _ => [.memberships]
  | updateMembershipRole _ _ _ => [.memberships]
  | deleteMembership _ _ => [.memberships]
  | createInvitation _ _ _ _ _ => [.invitations]
  | useInvitation _ => [.invitations]
  | createVerificationToken _ _ _ _ => [.verificationTokens]
  | useVerificationToken _ => [.verificationTokens]
  | createAuthorizationCode _ _ _ _ _ _ _ _ _ _ _ _ => [.authorizationCodes]
  | useAuthorizationCode _ _ => [.authorizationCodes]
  | grantPlatformRole _ _ _ => [.platformMemberships]
  | createCredential _ _ _ _ _ _ => [.credentials]
  | createChallenge _ _ _ _ _ _ => [.challenges]
  | setChallenge _ _ => [.challenges]
  | consumeChallenge _ _ => [.challenges]
  | updateCredentialCounter _ _ => [.credentials]
  | _ => []

/--
The states agree outside of some tables.
-/
structure Changes (ts : List TableName) (s s' : IdentityStore) : Prop where
  users : .users ∉ ts → s'.users = s.users
  sessions : .sessions ∉ ts → s'.sessions = s.sessions
  refreshTokens : .refreshTokens ∉ ts → s'.refreshTokens = s.refreshTokens
  orgs : .orgs ∉ ts → s'.orgs = s.orgs
  roles : .roles ∉ ts → s'.roles = s.roles
  rolePermissions : .rolePermissions ∉ ts → s'.rolePermissions = s.rolePermissions
  memberships : .memberships ∉ ts → s'.memberships = s.memberships
  invitations : .invitations ∉ ts → s'.invitations = s.invitations
  verificationTokens : .verificationTokens ∉ ts → s'.verificationTokens = s.verificationTokens
  authorizationCodes : .authorizationCodes ∉ ts → s'.authorizationCodes = s.authorizationCodes
  platformMemberships : .platformMemberships ∉ ts → s'.platformMemberships = s.platformMemberships
  transactions : .transactions ∉ ts → s'.transactions = s.transactions
  now : s'.now = s.now

namespace Changes

variable {ts : List TableName} {s s' : IdentityStore}

theorem refl (ts : List TableName) (s : IdentityStore) : Changes ts s s := by
  constructor <;> intros <;> rfl

theorem trans {s'' : IdentityStore} (h : Changes ts s s') (h' : Changes ts s' s'')
    : Changes ts s s'' where
  users hts := (h'.users hts).trans (h.users hts)
  sessions hts := (h'.sessions hts).trans (h.sessions hts)
  refreshTokens hts := (h'.refreshTokens hts).trans (h.refreshTokens hts)
  orgs hts := (h'.orgs hts).trans (h.orgs hts)
  roles hts := (h'.roles hts).trans (h.roles hts)
  rolePermissions hts := (h'.rolePermissions hts).trans (h.rolePermissions hts)
  memberships hts := (h'.memberships hts).trans (h.memberships hts)
  invitations hts := (h'.invitations hts).trans (h.invitations hts)
  verificationTokens hts := (h'.verificationTokens hts).trans (h.verificationTokens hts)
  authorizationCodes hts := (h'.authorizationCodes hts).trans (h.authorizationCodes hts)
  platformMemberships hts := (h'.platformMemberships hts).trans (h.platformMemberships hts)
  transactions hts := (h'.transactions hts).trans (h.transactions hts)
  now := h'.now.trans h.now

theorem mono {ts' : List TableName} (h : Changes ts s s') (hts : ts ⊆ ts') : Changes ts' s s' where
  users hn := h.users (fun hmem => hn (hts hmem))
  sessions hn := h.sessions (fun hmem => hn (hts hmem))
  refreshTokens hn := h.refreshTokens (fun hmem => hn (hts hmem))
  orgs hn := h.orgs (fun hmem => hn (hts hmem))
  roles hn := h.roles (fun hmem => hn (hts hmem))
  rolePermissions hn := h.rolePermissions (fun hmem => hn (hts hmem))
  memberships hn := h.memberships (fun hmem => hn (hts hmem))
  invitations hn := h.invitations (fun hmem => hn (hts hmem))
  verificationTokens hn := h.verificationTokens (fun hmem => hn (hts hmem))
  authorizationCodes hn := h.authorizationCodes (fun hmem => hn (hts hmem))
  platformMemberships hn := h.platformMemberships (fun hmem => hn (hts hmem))
  transactions hn := h.transactions (fun hmem => hn (hts hmem))
  now := h.now

end Changes

namespace IdentityStore

variable {s s' : IdentityStore}

theorem createUser_changes (id email passwordHash metadata)
    : Changes [.users] s (s.createUser id email passwordHash metadata).2 := by
  unfold createUser
  split
  . exact .refl _ _
  . dsimp only
    split
    . constructor <;> simp
    . exact .refl _ _

theorem updateUser_changes (id email passwordHash emailVerified metadata defaultOrgId) :
    Changes [.users] s
      (s.updateUser id email passwordHash emailVerified metadata defaultOrgId).2 := by
  unfold updateUser
  split
  . exact .refl _ _
  . dsimp only
    split
    . constructor <;> simp
    . exact .refl _ _

theorem disableUser_changes (id) : Changes [.users] s (s.disableUser id).2 := by
  unfold disableUser
  dsimp only
  split
  . constructor <;> simp
  . exact .refl _ _

theorem createSession_changes (id userId amr)
    : Changes [.sessions] s (s.createSession id userId amr).2 := by
  unfold createSession
  dsimp only
  split
  . split
    . constructor <;> simp
    . exact .refl _ _
  . exact .refl _ _

theorem revokeSessions_changes (p now) : Changes [.sessions] s (s.revokeSessions p now) := by
  constructor <;> simp [revokeSessions]

theorem revokeSession_changes {pid id r} (h : s.revokeSession pid id = some (r, s'))
    : Changes [.sessions] s s' := by
  unfold revokeSession at h
  dsimp only at h
  split at h
  . cases h
  . cases h
    exact revokeSessions_changes _ _

theorem revokeUserSessions_changes {pid id r} (h : s.revokeUserSessions pid id = some (r, s'))
    : Changes [.sessions] s s' := by
  unfold revokeUserSessions at h
  dsimp only at h
  split at h
  . cases h
  . cases h
    exact revokeSessions_changes _ _

theorem createRefreshToken_changes {pid id sessionId tokenHash expiresAt r}
    (h : s.createRefreshToken pid id sessionId tokenHash expiresAt = some (r, s'))
    : Changes [.refreshTokens] s s' := by
  unfold createRefreshToken at h
  dsimp only at h
  split at h
  . cases h
  . split at h
    . split at h
      . cases h
        constructor <;> simp
      . cases h
        exact .refl _ _
    . cases h
      exact .refl _ _

theorem setTransaction_changes (pid tx) : Changes [.transactions] s (s.setTransaction pid tx) := by
  constructor <;> simp [setTransaction]

theorem endTransaction_changes (pid) : Changes [.transactions] s (s.endTransaction pid) := by
  constructor <;> simp [endTransaction]

theorem selectTokenForUpdate_changes {pid tokenHash r}
    (h : s.selectTokenForUpdate pid tokenHash = some (r, s')) : Changes [.transactions] s s' := by
  unfold selectTokenForUpdate at h
  split at h
  . cases h
    exact .refl _ _
  . split at h
    . cases h
      exact .refl _ _
    . split at h
      . cases h
      . cases h
        exact setTransaction_changes _ _

theorem revokeSessionInTransaction_changes {pid id r}
    (h : s.revokeSessionInTransaction pid id = some (r, s')) : Changes [.transactions] s s' := by
  unfold revokeSessionInTransaction at h
  split at h
  . cases h
    exact .refl _ _
  . split at h
    . cases h
    . cases h
      exact setTransaction_changes _ _

theorem useTokenInTransaction_changes {pid id replacedBy r}
    (h : s.useTokenInTransaction pid id replacedBy = some (r, s'))
    : Changes [.transactions] s s' := by
  unfold useTokenInTransaction at h
  split at h
  . cases h
    exact .refl _ _
  . split at h
    . cases h
    . cases h
      exact setTransaction_changes _ _

theorem insertTokenInTransaction_changes {pid id sessionId tokenHash expiresAt r}
    (h : s.insertTokenInTransaction pid id sessionId tokenHash expiresAt = some (r, s'))
    : Changes [.transactions] s s' := by
  unfold insertTokenInTransaction at h
  split at h
  . cases h
    exact .refl _ _
  . dsimp only at h
    split at h
    . cases h
    . split at h
      . cases h
        exact setTransaction_changes _ _
      . cases h
        exact .refl _ _

theorem applyWrite_changes {w} (h : s.applyWrite w = some s')
    : Changes [.sessions, .refreshTokens] s s' := by
  unfold applyWrite at h
  split at h
  . cases h
    constructor <;> simp [revokeSessions]
  . cases h
    constructor <;> simp
  . rw [Option.map_eq_some_iff] at h
    obtain ⟨_, _, rfl⟩ := h
    constructor <;> simp

theorem applyWrites_changes {ws} (h : applyWrites ws s = some s')
    : Changes [.sessions, .refreshTokens] s s' := by
  induction ws generalizing s with
  | nil =>
    cases h
    exact .refl _ _
  | cons w ws ih =>
    simp only [applyWrites, Option.bind_eq_some_iff] at h
    obtain ⟨s₁, hw, hws⟩ := h
    exact (applyWrite_changes hw).trans (ih hws)

theorem commit_changes (pid)
    : Changes [.sessions, .refreshTokens, .transactions] s (s.commit pid).2 := by
  unfold commit
  split
  . exact .refl _ _
  . split
    . next happly =>
      exact ((applyWrites_changes happly).mono (by decide)).trans
        ((endTransaction_changes pid).mono (by decide))
    . exact (endTransaction_changes pid).mono (by decide)

theorem createOrg_changes (id name slug metadata)
    : Changes [.orgs] s (s.createOrg id name slug metadata).2 := by
  unfold createOrg
  split
  . exact .refl _ _
  . dsimp only
    split
    . constructor <;> simp
    . exact .refl _ _

theorem updateOrg_changes (id name slug metadata)
    : Changes [.orgs] s (s.updateOrg id name slug metadata).2 := by
  unfold updateOrg
  dsimp only
  split
  . exact .refl _ _
  . split
    . constructor <;> simp
    . exact .refl _ _

theorem deleteOrg_changes (id) :
    Changes [.users, .orgs, .roles, .rolePermissions, .memberships, .invitations] s
      (s.deleteOrg id).2 := by
  unfold deleteOrg
  dsimp only
  split
  . split
    . exact .refl _ _
    . constructor <;> simp
  . exact .refl _ _

theorem createRole_changes (id orgId name description isSystem permissions) :
    Changes [.roles, .rolePermissions] s
      (s.createRole id orgId name description isSystem permissions).2 := by
  unfold createRole
  dsimp only
  split
  . split
    . constructor <;> simp
    . exact .refl _ _
  . exact .refl _ _

theorem createMembership_changes (userId orgId roleId)
    : Changes [.memberships] s (s.createMembership userId orgId roleId).2 := by
  unfold createMembership
  dsimp only
  split
  . split
    . constructor <;> simp
    . exact .refl _ _
  . exact .refl _ _

theorem updateMembershipRole_changes (userId orgId roleId)
    : Changes [.memberships] s (s.updateMembershipRole userId orgId roleId).2 := by
  unfold updateMembershipRole
  split
  . exact .refl _ _
  . split
    . constructor <;> simp
    . exact .refl _ _

theorem deleteMembership_changes (userId orgId)
    : Changes [.memberships] s (s.deleteMembership userId orgId).2 := by
  unfold deleteMembership
  split
  . constructor <;> simp
  . exact .refl _ _

theorem createInvitation_changes (id tokenHash email orgId roleId expiresAt) :
    Changes [.invitations] s (s.createInvitation id tokenHash email orgId roleId expiresAt).2 := by
  unfold createInvitation
  dsimp only
  split
  . split
    . constructor <;> simp
    . exact .refl _ _
  . exact .refl _ _

theorem useInvitation_changes (tokenHash)
    : Changes [.invitations] s (s.useInvitation tokenHash).2 := by
  unfold useInvitation
  split
  . constructor <;> simp
  . exact .refl _ _

theorem createVerificationToken_changes (id userId tokenHash tokenType expiresAt) :
    Changes [.verificationTokens] s
      (s.createVerificationToken id userId tokenHash tokenType expiresAt).2 := by
  unfold createVerificationToken
  dsimp only
  split
  . split
    . constructor <;> simp
    . exact .refl _ _
  . exact .refl _ _

theorem useVerificationToken_changes (tokenHash)
    : Changes [.verificationTokens] s (s.useVerificationToken tokenHash).2 := by
  unfold useVerificationToken
  dsimp only
  split
  . constructor <;> simp
  . exact .refl _ _

theorem createAuthorizationCode_changes (code codeHash)
    : Changes [.authorizationCodes] s (s.createAuthorizationCode code codeHash).2 := by
  unfold createAuthorizationCode
  split
  . split
    . constructor <;> simp
    . exact .refl _ _
  . exact .refl _ _

theorem useAuthorizationCode_changes (codeHash sessionId)
    : Changes [.authorizationCodes] s (s.useAuthorizationCode codeHash sessionId).2 := by
  unfold useAuthorizationCode
  split
  . constructor <;> simp
  . exact .refl _ _

theorem grantPlatformRole_changes (userId roleName grantedBy)
    : Changes [.platformMemberships] s (s.grantPlatformRole userId roleName grantedBy).2 := by
  unfold grantPlatformRole
  dsimp only
  split
  . split
    . split <;> constructor <;> simp
    . exact .refl _ _
  . exact .refl _ _

theorem createCredential_changes (id userId credentialId publicKey counter name)
    : Changes [.credentials] s
      (s.createCredential id userId credentialId publicKey counter name).2 := by
  unfold createCredential
  dsimp only
  split
  . split
    . constructor <;> simp
    . exact .refl _ _
  . exact .refl _ _

theorem createChallenge_changes (id sessionId challenge challengeType userId expiresAt)
    : Changes [.challenges] s
      (s.createChallenge id sessionId challenge challengeType userId expiresAt).2 := by
  unfold createChallenge
  dsimp only
  split
  . split
    . constructor <;> simp
    . exact .refl _ _
  . exact .refl _ _

theorem state_of_some {α : Type} {x : α × IdentityStore} {r : α} (h : some x = some (r, s'))
    : x.2 = s' := by
  cases h
  rfl

/--
A call only changes the tables it writes.
-/
theorem exec_changes {env : Env} {pid : Nat} {c : Call} {e : Entropy} {r : Except AuthError c.Ret}
    (h : exec env pid c e s = some (r, s')) : Changes c.tables s s' := by
  cases c with
  | createUser => exact state_of_some h ▸ createUser_changes ..
  | updateUser => exact state_of_some h ▸ updateUser_changes ..
  | disableUser => exact state_of_some h ▸ disableUser_changes ..
  | createSession => exact state_of_some h ▸ createSession_changes ..
  | revokeSession => exact revokeSession_changes h
  | revokeUserSessions => exact revokeUserSessions_changes h
  | createRefreshToken => exact createRefreshToken_changes h
  | beginTransaction => exact state_of_some h ▸ setTransaction_changes ..
  | selectTokenForUpdate => exact selectTokenForUpdate_changes h
  | revokeSessionInTransaction => exact revokeSessionInTransaction_changes h
  | useTokenInTransaction => exact useTokenInTransaction_changes h
  | insertTokenInTransaction => exact insertTokenInTransaction_changes h
  | commit => exact state_of_some h ▸ commit_changes ..
  | rollback => exact state_of_some h ▸ endTransaction_changes ..
  | createOrg => exact state_of_some h ▸ createOrg_changes ..
  | updateOrg => exact state_of_some h ▸ updateOrg_changes ..
  | deleteOrg => exact state_of_some h ▸ deleteOrg_changes ..
  | createRole => exact state_of_some h ▸ createRole_changes ..
  | createMembership => exact state_of_some h ▸ createMembership_changes ..
  | updateMembershipRole => exact state_of_some h ▸ updateMembershipRole_changes ..
  | deleteMembership => exact state_of_some h ▸ deleteMembership_changes ..
  | createInvitation => exact state_of_some h ▸ createInvitation_changes ..
  | useInvitation => exact state_of_some h ▸ useInvitation_changes ..
  | createVerificationToken => exact state_of_some h ▸ createVerificationToken_changes ..
  | useVerificationToken => exact state_of_some h ▸ useVerificationToken_changes ..
  | createAuthorizationCode => exact state_of_some h ▸ createAuthorizationCode_changes ..
  | useAuthorizationCode => exact state_of_some h ▸ useAuthorizationCode_changes ..
  | grantPlatformRole => exact state_of_some h ▸ grantPlatformRole_changes ..
  | createCredential => exact state_of_some h ▸ createCredential_changes ..
  | createChallenge => exact state_of_some h ▸ createChallenge_changes ..
  | setChallenge => cases h; constructor <;> intros <;> rfl
  | consumeChallenge => cases h; constructor <;> intros <;> rfl
  | updateCredentialCounter => cases h; constructor <;> intros <;> rfl
  | _ => cases h; exact .refl _ _

end IdentityStore
end Reactor.Auth
