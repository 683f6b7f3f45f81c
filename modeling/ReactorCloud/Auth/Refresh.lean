import ReactorCloud.Auth.Lasts
import ReactorCloud.Interleave.Rely

/-!
This module contains the exchange of refresh tokens: how a rotation runs in a transaction while other
clients present the same token.
-/

namespace Reactor.Auth

open Interleave
open Interleave.Program
open Relational

namespace IdentityStore

/--
Every refresh token, also one that a transaction is about to insert, belongs to a session.
-/
structure Owned (s : IdentityStore) : Prop where
  token : ∀ x ∈ s.refreshTokens, ∃ y ∈ s.sessions, y.id = x.sessionId
  pending : ∀ pid tx, s.transaction? pid = some tx → ∀ x, .insertRefreshToken x ∈ tx.writes →
    ∃ y ∈ s.sessions, y.id = x.sessionId

variable {s s' : IdentityStore} {pid : Nat}

theorem Owned.session_lasts {id : SessionId} (hlasts : Lasts s s') (h : ∃ y ∈ s.sessions, y.id = id)
    : ∃ y ∈ s'.sessions, y.id = id := by
  obtain ⟨y, hy, hid⟩ := h
  obtain ⟨y', hy', hrevised⟩ := hlasts.session y hy
  exact ⟨y', hy', hrevised.id.trans hid⟩

/--
The writes of an open transaction come from its statements.
-/
theorem exec_pending {env : Env} {c : Call} {e : Entropy} {r : Except AuthError c.Ret}
    (h : exec env pid c e s = some (r, s')) {q : Nat} {tx : Transaction}
    (htx : s'.transaction? q = some tx) {x : RefreshToken} (hx : .insertRefreshToken x ∈ tx.writes) :
    (∃ tx', s.transaction? q = some tx' ∧ .insertRefreshToken x ∈ tx'.writes)
      ∨ ∃ y ∈ s.sessions, y.id = x.sessionId := by
  by_cases hq : q = pid
  . subst hq
    have hsame : .transactions ∉ c.tables → s'.transaction? q = s.transaction? q := by
      intro hc
      rw [transaction?, (exec_changes h).transactions hc]
      rfl
    cases c with
    | beginTransaction =>
      cases h
      rw [setTransaction_self] at htx
      cases htx
      cases hx
    | selectTokenForUpdate tokenHash =>
      simp only [exec, selectTokenForUpdate] at h
      split at h
      . cases h
        exact .inl ⟨tx, htx, hx⟩
      . next tx' htx' =>
        split at h
        . cases h
          exact .inl ⟨tx, htx, hx⟩
        . split at h
          . cases h
          . cases h
            rw [setTransaction_self] at htx
            cases htx
            exact .inl ⟨tx', htx', hx⟩
    | revokeSessionInTransaction id =>
      simp only [exec, revokeSessionInTransaction] at h
      split at h
      . cases h
        exact .inl ⟨tx, htx, hx⟩
      . next tx' htx' =>
        split at h
        . cases h
        . cases h
          rw [setTransaction_self] at htx
          cases htx
          exact .inl ⟨tx', htx', by simpa using hx⟩
    | useTokenInTransaction id replacedBy =>
      simp only [exec, useTokenInTransaction] at h
      split at h
      . cases h
        exact .inl ⟨tx, htx, hx⟩
      . next tx' htx' =>
        split at h
        . cases h
        . cases h
          rw [setTransaction_self] at htx
          cases htx
          exact .inl ⟨tx', htx', by simpa using hx⟩
    | insertTokenInTransaction id sessionId tokenHash expiresAt =>
      simp only [exec, insertTokenInTransaction] at h
      split at h
      . cases h
        exact .inl ⟨tx, htx, hx⟩
      . next tx' htx' =>
        split at h
        . cases h
        . split at h
          . next hany =>
            cases h
            rw [setTransaction_self] at htx
            cases htx
            simp only [List.mem_append, List.mem_singleton, Write.insertRefreshToken.injEq] at hx
            cases hx with
            | inl hx => exact .inl ⟨tx', htx', hx⟩
            | inr heq =>
              subst heq
              simp only [Bool.and_eq_true, Table.any_eq_true, beq_iff_eq] at hany
              exact .inr hany.1
          . cases h
            exact .inl ⟨tx, htx, hx⟩
    | commit =>
      have hs := state_of_some h
      unfold commit at hs
      split at hs
      . subst hs
        exact .inl ⟨tx, htx, hx⟩
      . split at hs
        . subst hs
          rw [endTransaction_self] at htx
          cases htx
        . subst hs
          rw [endTransaction_self] at htx
          cases htx
    | rollback =>
      cases h
      rw [endTransaction_self] at htx
      cases htx
    | _ => exact .inl ⟨tx, (hsame (by simp [Call.tables])).symm.trans htx, hx⟩
  . rw [exec_transaction_other h hq] at htx
    exact .inl ⟨tx, htx, hx⟩

theorem exec_owned {env : Env} {c : Call} {e : Entropy} {r : Except AuthError c.Ret}
    (h : exec env pid c e s = some (r, s')) (howned : s.Owned) : s'.Owned where
  token x hx := by
    have hlasts := Lasts.of_exec h
    cases (exec_refreshTokens h).backward x hx with
    | inl hnew =>
      apply Owned.session_lasts hlasts
      cases c with
      | createRefreshToken id sessionId tokenHash expiresAt =>
        rw [hnew.1]
        exact hnew.2
      | commit =>
        obtain ⟨tx, htx, y, hy, hrevised⟩ := hnew
        rw [hrevised.sessionId]
        exact howned.pending pid tx htx y hy
      | _ => exact hnew.elim
    | inr hold =>
      obtain ⟨x', hx', hrevised⟩ := hold
      rw [hrevised.sessionId]
      exact Owned.session_lasts hlasts (howned.token x' hx')
  pending q tx htx x hx := by
    apply Owned.session_lasts (Lasts.of_exec h)
    cases exec_pending h htx hx with
    | inl hold =>
      obtain ⟨tx', htx', hx'⟩ := hold
      exact howned.pending q tx' htx' x hx'
    | inr hsession => exact hsession

theorem applyWrites_used {ws : List Write} {id newId : ReactorId} {time : Time}
    (h : applyWrites ws s = some s') (hmem : .useRefreshToken id time newId ∈ ws)
    (hx : ∃ x ∈ s.refreshTokens, x.id = id)
    : ∃ x ∈ s'.refreshTokens, x.id = id ∧ x.usedAt ≠ none := by
  induction ws generalizing s with
  | nil => cases hmem
  | cons w ws ih =>
    simp only [applyWrites, Option.bind_eq_some_iff] at h
    obtain ⟨s₁, hw, hws⟩ := h
    obtain ⟨x, hx, hid⟩ := hx
    cases hmem with
    | head =>
      cases hw
      have hx' : { x with usedAt := some time, replacedBy := some newId } ∈ Table.modify s.refreshTokens
          (fun t => t.id == id) (fun t => { t with usedAt := some time, replacedBy := some newId })
          (fun _ _ => rfl) := by
        rw [Table.mem_modify]
        exact ⟨x, hx, by simp [hid]⟩
      obtain ⟨x', hmem, hrevised⟩ := (applyWrites_refreshTokens hws).forward _ hx'
      exact ⟨x', hmem, hrevised.id.trans hid, hrevised.used (by simp)⟩
    | tail _ hmem =>
      have hone : applyWrites [w] s = some s₁ := by
        simp [applyWrites, hw]
      obtain ⟨x', hx', hrevised⟩ := (applyWrites_refreshTokens hone).forward x hx
      exact ih hws hmem ⟨x', hx', hrevised.id.trans hid⟩

theorem applyWrites_revoked {ws : List Write} {id : SessionId} {time : Time}
    (h : applyWrites ws s = some s') (hmem : .revokeSession id time ∈ ws)
    (hy : ∃ y ∈ s.sessions, y.id = id) : s'.SessionRevoked id := by
  induction ws generalizing s with
  | nil => cases hmem
  | cons w ws ih =>
    simp only [applyWrites, Option.bind_eq_some_iff] at h
    obtain ⟨s₁, hw, hws⟩ := h
    obtain ⟨y, hy, hid⟩ := hy
    cases hmem with
    | head =>
      cases hw
      have hrevoked : (s.revokeSessions (fun session => session.id == id) time).SessionRevoked y.id :=
        revokeSessions_revoked hy (by simpa using hid)
      rw [hid] at hrevoked
      obtain ⟨y, hy, hid', hrevoked⟩ := hrevoked
      obtain ⟨y', hy', hrevised⟩ := (applyWrites_sessions hws).forward y hy
      rw [hrevised.revoked hrevoked] at hy'
      exact ⟨y, hy', hid', hrevoked⟩
    | tail _ hmem =>
      have hone : applyWrites [w] s = some s₁ := by
        simp [applyWrites, hw]
      obtain ⟨y', hy', hrevised⟩ := (applyWrites_sessions hone).forward y hy
      exact ih hws hmem ⟨y', hy', hrevised.id.trans hid⟩

theorem commit_applies {env : Env} {e : Entropy} {tx : Transaction}
    (htx : s.transaction? pid = some tx) (h : exec env pid .commit e s = some (.ok (), s'))
    : ∃ s₁, applyWrites tx.writes s = some s₁ ∧ s' = s₁.endTransaction pid := by
  simp only [exec, commit, htx] at h
  split at h
  . next s₁ happly =>
    cases h
    exact ⟨s₁, happly, rfl⟩
  . cases h

theorem Owned.of_transactions (h : s.Owned) (hsessions : s'.sessions = s.sessions)
    (htokens : s'.refreshTokens = s.refreshTokens)
    (htx : ∀ q tx, s'.transaction? q = some tx → s.transaction? q = some tx) : s'.Owned where
  token x hx := by
    rw [hsessions]
    exact h.token x (htokens ▸ hx)
  pending q tx hq x hx := by
    rw [hsessions]
    exact h.pending q tx (htx q tx hq) x hx

end IdentityStore

section Facts

variable (env : Env) (K : Nat → IdentityStore → Prop)

/--
The process has used the refresh token in a transaction and committed it.
-/
def Won (pid : Nat) (id : ReactorId) (w : World (system env)) : Prop :=
  (∃ newId, .call pid (Call.useTokenInTransaction id newId) (.ok ()) ∈ w.trace)
    ∧ .call pid Call.commit (.ok ()) ∈ w.trace

def CallFailed (pid : Nat) (w : World (system env)) : Prop :=
  ∃ c : Call, .call pid c (.error AuthError.internal) ∈ w.trace

/--
The session is the one of the token, and it had not been revoked when the process looked at it.
-/
def IssuedFor (pid : Nat) (tok : String) (id : SessionId) (w : World (system env)) : Prop :=
  (∃ x ∈ w.state.refreshTokens, x.tokenHash = env.sha256 tok ∧ x.sessionId = id)
    ∧ ∃ s, K pid s ∧ ∃ y ∈ s.sessions, y.id = id ∧ y.revokedAt = none

/--
The row of the token that the process has locked had not been used, or there is none.
-/
def SawUnused (pid : Nat) (tok : String) (w : World (system env)) : Prop :=
  ∃ found, .call pid (Call.selectTokenForUpdate (env.sha256 tok)) (.ok found) ∈ w.trace
    ∧ ∀ x, found = some x → x.usedAt = none

/--
The token had not been used when the process looked at it, or did not exist.
-/
def Unused (pid : Nat) (tok : String) (w : World (system env)) : Prop :=
  SawUnused env pid tok w ∧ ∃ s, K pid s ∧ ¬ s.TokenUsed (env.sha256 tok)

/--
The process has exchanged the token.
-/
structure Exchanged (pid : Nat) (tok : String) (w : World (system env)) : Prop where
  unused : Unused env K pid tok w
  won : ∃ x ∈ w.state.refreshTokens, x.tokenHash = env.sha256 tok ∧ Won env pid x.id w
  issued : ∃ grant token, .call pid (Call.issueAccessToken grant) (.ok token) ∈ w.trace

/--
The process can end with the error.
-/
structure Rejected (pid : Nat) (tok : String) (e : AuthError) (w : World (system env)) : Prop where
  reuse : e = .refreshTokenReuse →
    ∃ x ∈ w.state.refreshTokens, x.tokenHash = env.sha256 tok ∧ w.state.SessionRevoked x.sessionId
  reason : CallFailed env pid w ∨ e = .refreshTokenReuse ∨ Unused env K pid tok w

variable {env K}
variable {pid : Nat} {tok : String} {id : ReactorId} {e : AuthError} {w w' : World (system env)}

theorem Won.later (h : Won env pid id w) (hlater : Later w w') : Won env pid id w' := by
  obtain ⟨⟨newId, huse⟩, hcommit⟩ := h
  exact ⟨⟨newId, hlater.trace _ huse⟩, hlater.trace _ hcommit⟩

theorem CallFailed.later (h : CallFailed env pid w) (hlater : Later w w') : CallFailed env pid w' := by
  obtain ⟨c, hc⟩ := h
  exact ⟨c, hlater.trace _ hc⟩

theorem token_later {p p' : RefreshToken → Prop} (hlater : Later w w')
    (hp : ∀ x x', RefreshToken.Revised (fun _ => True) x x' → p x → p' x')
    (h : ∃ x ∈ w.state.refreshTokens, p x) : ∃ x ∈ w'.state.refreshTokens, p' x := by
  obtain ⟨x, hx, hpx⟩ := h
  obtain ⟨x', hx', hrevised⟩ := hlater.lasts.refreshToken x hx
  exact ⟨x', hx', hp x x' hrevised hpx⟩

theorem IssuedFor.later {id : SessionId} (h : IssuedFor env K pid tok id w) (hlater : Later w w')
    : IssuedFor env K pid tok id w' := by
  obtain ⟨hx, hs⟩ := h
  constructor
  . apply token_later hlater _ hx
    intro x x' hrevised hx
    rw [hrevised.tokenHash, hrevised.sessionId]
    exact hx
  . exact hs

theorem Unused.later (h : Unused env K pid tok w) (hlater : Later w w') : Unused env K pid tok w' := by
  obtain ⟨⟨found, hfound, hunused⟩, hs⟩ := h
  exact ⟨⟨found, hlater.trace _ hfound, hunused⟩, hs⟩

theorem Exchanged.later (h : Exchanged env K pid tok w) (hlater : Later w w')
    : Exchanged env K pid tok w' where
  unused := h.unused.later hlater
  won := by
    apply token_later hlater _ h.won
    intro x x' hrevised hx
    rw [hrevised.tokenHash, hrevised.id]
    exact ⟨hx.1, hx.2.later hlater⟩
  issued := by
    obtain ⟨grant, token, hissue⟩ := h.issued
    exact ⟨grant, token, hlater.trace _ hissue⟩

theorem Rejected.later (h : Rejected env K pid tok e w) (hlater : Later w w')
    : Rejected env K pid tok e w' where
  reuse he := by
    apply token_later hlater _ (h.reuse he)
    intro x x' hrevised hx
    rw [hrevised.tokenHash, hrevised.sessionId]
    exact ⟨hx.1, hx.2.lasts hlater.lasts⟩
  reason := h.reason.imp (fun h => h.later hlater) (fun h => h.imp (fun h => h) (fun h => h.later hlater))

end Facts

section Outline

variable (env : Env) (K : Nat → IdentityStore → Prop)

/--
What holds throughout: a token is used by one process only, which is the only one to exchange it. The
condition `K pid` has held since the process `pid` was spawned.
-/
structure RefreshInv (w : World (system env)) : Prop where
  locked : w.state.Locked
  owned : w.state.Owned
  unique : ∀ pid req req', .spawn pid req ∈ w.trace → .spawn pid req' ∈ w.trace → req = req'
  known : ∀ pid req, .spawn pid req ∈ w.trace → K pid w.state
  winner : ∀ p q id, Won env p id w → Won env q id w → p = q
  used : ∀ pid id, Won env pid id w → ∃ x ∈ w.state.refreshTokens, x.id = id ∧ x.usedAt ≠ none
  issued : ∀ pid tok grant r, .spawn pid (.refresh tok) ∈ w.trace →
    .call pid (Call.issueAccessToken grant) r ∈ w.trace → IssuedFor env K pid tok grant.sessionId w
  exchanged : ∀ pid tok response, .finish pid (.refresh tok) (.ok response) ∈ w.trace →
    Exchanged env K pid tok w
  rejected : ∀ pid tok e, .finish pid (.refresh tok) (.error e) ∈ w.trace →
    Rejected env K pid tok e w

/--
What the others leave to a process: its transaction and the tokens that it has locked.
-/
structure RefreshRely (pid : Nat) (s s' : IdentityStore) : Prop where
  transaction : s'.transaction? pid = s.transaction? pid
  locked : ∀ tx, s.transaction? pid = some tx → ∀ x ∈ s.refreshTokens, x.id ∈ tx.lockedTokens →
    x ∈ s'.refreshTokens
  lasts : Lasts s s'

/--
How an operation ends, where it exchanges a token.
-/
def RefreshPost (pid : Nat) : (req : Request) → Except AuthError req.Reply → World (system env) → Prop
  | .refresh tok, .ok _, w => Exchanged env K pid tok w
  | .refresh tok, .error e, w => Rejected env K pid tok e w
  | _, _, _ => True

def refreshOutline : Outline (system env) where
  inv := RefreshInv env K
  ok w e := ∀ pid req, e = .spawn pid req → K pid w.state
  safe _ _ := True
  rely pid w w' := RefreshRely pid w.state w'.state
  post := RefreshPost env K
  rely_refl _ w := ⟨rfl, fun _ _ _ hx _ => hx, .refl w.state⟩
  rely_trans _ _ _ _ h h' := {
    transaction := h'.transaction.trans h.transaction
    locked tx htx x hx hid :=
      h'.locked tx (h.transaction.trans htx) x (h.locked tx htx x hx hid) hid
    lasts := h.lasts.trans h'.lasts }

variable {env K} (hK : ∀ pid s s', Lasts s s' → K pid s → K pid s')
variable {w w' : World (system env)} {s : IdentityStore} {pid : Nat}

include hK in
/--
An event changes nothing about the exchanges so far.
-/
theorem RefreshInv.later (h : RefreshInv env K w) {s : IdentityStore} {e : Event (system env)}
    (hlasts : Lasts w.state s) (hlocked : s.Locked) (howned : s.Owned)
    (hspawn : ∀ pid req, e = .spawn pid req → Fresh pid w ∧ K pid w.state)
    (hwon : ∀ pid id, Won env pid id (w.after s e) → Won env pid id w
      ∨ (e.pid? = some pid ∧ (∃ x ∈ w.state.refreshTokens, x.id = id ∧ x.usedAt = none)
        ∧ ∃ x ∈ s.refreshTokens, x.id = id ∧ x.usedAt ≠ none))
    (hissued : ∀ pid tok grant r, .spawn pid (.refresh tok) ∈ (w.after s e).trace →
      .call pid (Call.issueAccessToken grant) r ∈ (w.after s e).trace →
      (.spawn pid (.refresh tok) ∈ w.trace ∧ .call pid (Call.issueAccessToken grant) r ∈ w.trace)
        ∨ IssuedFor env K pid tok grant.sessionId (w.after s e))
    (hexchanged : ∀ pid tok response, e = .finish pid (.refresh tok) (.ok response) →
      Exchanged env K pid tok w)
    (hrejected : ∀ pid tok error, e = .finish pid (.refresh tok) (.error error) →
      Rejected env K pid tok error w)
    : RefreshInv env K (w.after s e) := by
  have hlater : Later w (w.after s e) := .after e hlasts
  constructor
  . exact hlocked
  . exact howned
  . intro pid req req' hmem hmem'
    cases hmem with
    | head =>
      cases hmem' with
      | head => rfl
      | tail _ hmem' => exact absurd rfl ((hspawn _ _ rfl).1 _ hmem')
    | tail _ hmem =>
      cases hmem' with
      | head => exact absurd rfl ((hspawn _ _ rfl).1 _ hmem)
      | tail _ hmem' => exact h.unique pid req req' hmem hmem'
  . intro pid req hmem
    cases hmem with
    | head => exact hK pid w.state s hlasts (hspawn _ _ rfl).2
    | tail _ hmem => exact hK pid w.state s hlasts (h.known pid req hmem)
  . intro p q id hp hq
    cases hwon p id hp with
    | inl hp =>
      cases hwon q id hq with
      | inl hq => exact h.winner p q id hp hq
      | inr hq =>
        obtain ⟨x, hx, hid, hused⟩ := h.used p id hp
        obtain ⟨_, ⟨x', hx', hid', hunused⟩, _⟩ := hq
        rw [RefreshToken.eq_of_id hx hx' (hid.trans hid'.symm)] at hused
        exact absurd hunused hused
    | inr hp =>
      cases hwon q id hq with
      | inl hq =>
        obtain ⟨x, hx, hid, hused⟩ := h.used q id hq
        obtain ⟨_, ⟨x', hx', hid', hunused⟩, _⟩ := hp
        rw [RefreshToken.eq_of_id hx hx' (hid.trans hid'.symm)] at hused
        exact absurd hunused hused
      | inr hq => exact Option.some.inj (hp.1.symm.trans hq.1)
  . intro p id hp
    cases hwon p id hp with
    | inl hp =>
      apply token_later hlater _ (h.used p id hp)
      intro x x' hrevised hx
      exact ⟨hrevised.id.trans hx.1, hrevised.used hx.2⟩
    | inr hp => exact hp.2.2
  . intro p tok grant r hspawned hissue
    cases hissued p tok grant r hspawned hissue with
    | inl hold => exact (h.issued p tok grant r hold.1 hold.2).later hlater
    | inr hnew => exact hnew
  . intro p tok response hmem
    cases hmem with
    | head => exact (hexchanged _ _ _ rfl).later hlater
    | tail _ hmem => exact (h.exchanged p tok response hmem).later hlater
  . intro p tok error hmem
    cases hmem with
    | head => exact (hrejected _ _ _ rfl).later hlater
    | tail _ hmem => exact (h.rejected p tok error hmem).later hlater

/--
What the others see of a call.
-/
theorem RefreshRely.call {c : Call} {r : Except AuthError c.Ret} {q : Nat}
    (hlocked : w.state.Locked) (h : Answers (system env) pid c w.state r s) (hq : q ≠ pid)
    : RefreshRely q w.state s where
  transaction := by
    cases h.effect with
    | inl heq => rw [heq]
    | inr hexec =>
      obtain ⟨_, _, hexec⟩ := hexec
      exact IdentityStore.exec_transaction_other hexec hq
  locked tx htx x hx hid := by
    cases h.effect with
    | inl heq =>
      rw [heq]
      exact hx
    | inr hexec =>
      obtain ⟨_, _, hexec⟩ := hexec
      exact IdentityStore.exec_lockedToken hexec hlocked hq htx hx hid
  lasts := .of_answers h

/--
The calls that decide nothing about the exchange.
-/
def Call.isMinor : Call → Bool
  | useTokenInTransaction _ _ => false
  | commit => false
  | issueAccessToken _ => false
  | _ => true

theorem answers_locked {c : Call} {r : Except AuthError c.Ret}
    (h : Answers (system env) pid c w.state r s) (hlocked : w.state.Locked) : s.Locked := by
  cases h.effect with
  | inl heq =>
    rw [heq]
    exact hlocked
  | inr hexec =>
    obtain ⟨_, _, hexec⟩ := hexec
    exact IdentityStore.exec_locked hexec hlocked

theorem answers_owned {c : Call} {r : Except AuthError c.Ret}
    (h : Answers (system env) pid c w.state r s) (howned : w.state.Owned) : s.Owned := by
  cases h.effect with
  | inl heq =>
    rw [heq]
    exact howned
  | inr hexec =>
    obtain ⟨_, _, hexec⟩ := hexec
    exact IdentityStore.exec_owned hexec howned

include hK in
theorem keeps_call (h : RefreshInv env K w) {c : Call} {r : Except AuthError c.Ret}
    (hanswer : Answers (system env) pid c w.state r s)
    (hwon : ∀ id, Won env pid id (w.after s (.call pid c r)) → Won env pid id w
      ∨ ((∃ x ∈ w.state.refreshTokens, x.id = id ∧ x.usedAt = none)
        ∧ ∃ x ∈ s.refreshTokens, x.id = id ∧ x.usedAt ≠ none))
    (hissued : ∀ tok grant, c = .issueAccessToken grant → .spawn pid (.refresh tok) ∈ w.trace →
      IssuedFor env K pid tok grant.sessionId (w.after s (.call pid c r)))
    : (refreshOutline env K).Keeps w s (.call pid c r) where
  safe := trivial
  inv := by
    apply h.later hK (.of_answers hanswer) (answers_locked hanswer h.locked)
      (answers_owned hanswer h.owned)
    . intro _ _ heq
      cases heq
    . intro p id hp
      by_cases hpid : p = pid
      . subst hpid
        exact (hwon id hp).imp (fun h => h) (fun h => ⟨rfl, h⟩)
      . obtain ⟨⟨newId, huse⟩, hcommit⟩ := hp
        have huse : _ ∈ w.trace := List.mem_of_ne_of_mem (by rintro ⟨⟩; exact hpid rfl) huse
        have hcommit : _ ∈ w.trace := List.mem_of_ne_of_mem (by rintro ⟨⟩; exact hpid rfl) hcommit
        exact .inl ⟨⟨newId, huse⟩, hcommit⟩
    . intro p tok grant r' hspawned hissue
      cases hspawned with
      | tail _ hspawned =>
        cases hissue with
        | head => exact .inr (hissued tok grant rfl hspawned)
        | tail _ hissue => exact .inl ⟨hspawned, hissue⟩
    . intro _ _ _ heq
      cases heq
    . intro _ _ _ heq
      cases heq
  rely q hq := by
    apply RefreshRely.call h.locked hanswer
    intro heq
    subst heq
    exact hq rfl

include hK in
theorem keeps_minor (h : RefreshInv env K w) {c : Call} {r : Except AuthError c.Ret}
    (hanswer : Answers (system env) pid c w.state r s) (hc : c.isMinor = true)
    : (refreshOutline env K).Keeps w s (.call pid c r) := by
  apply keeps_call hK h hanswer
  . intro id hp
    obtain ⟨⟨newId, huse⟩, hcommit⟩ := hp
    have huse : _ ∈ w.trace := List.mem_of_ne_of_mem (by rintro ⟨⟩; cases hc) huse
    have hcommit : _ ∈ w.trace := List.mem_of_ne_of_mem (by rintro ⟨⟩; cases hc) hcommit
    exact .inl ⟨⟨newId, huse⟩, hcommit⟩
  . intro _ _ heq
    subst heq
    cases hc

/--
Only a call can win a token.
-/
theorem won_of_not_call {e : Event (system env)} (he : ∀ pid c r, e ≠ .call pid c r) {id : ReactorId}
    (h : Won env pid id (w.after s e)) : Won env pid id w := by
  obtain ⟨⟨newId, huse⟩, hcommit⟩ := h
  have huse : _ ∈ w.trace := List.mem_of_ne_of_mem (he _ _ _).symm huse
  have hcommit : _ ∈ w.trace := List.mem_of_ne_of_mem (he _ _ _).symm hcommit
  exact ⟨⟨newId, huse⟩, hcommit⟩

include hK in
theorem keeps_spawn (h : RefreshInv env K w) {req : Request} (hfresh : Fresh pid w)
    (hk : K pid w.state) : (refreshOutline env K).Keeps w w.state (.spawn pid req) where
  safe := trivial
  inv := by
    apply h.later hK (.refl _) h.locked h.owned
    . intro p req' heq
      cases heq
      exact ⟨hfresh, hk⟩
    . intro p id hp
      exact .inl (won_of_not_call (by intro _ _ _ heq; cases heq) hp)
    . intro p tok grant r hspawned hissue
      cases hissue with
      | tail _ hissue =>
        cases hspawned with
        | head => exact absurd rfl (hfresh _ hissue)
        | tail _ hspawned => exact .inl ⟨hspawned, hissue⟩
    . intro _ _ _ heq
      cases heq
    . intro _ _ _ heq
      cases heq
  rely _ _ := ⟨rfl, fun _ _ _ hx _ => hx, .refl _⟩

theorem endTransaction_rely {q : Nat} (hq : q ≠ pid)
    : RefreshRely q w.state (w.state.endTransaction pid) where
  transaction := IdentityStore.endTransaction_other _ hq
  locked _ _ _ hx _ := hx
  lasts := .endTransaction _ pid

theorem endTransaction_owned (h : w.state.Owned) : (w.state.endTransaction pid).Owned := by
  refine h.of_transactions rfl rfl ?_
  intro q tx htx
  by_cases hq : q = pid
  . subst hq
    rw [IdentityStore.endTransaction_self] at htx
    cases htx
  . rwa [IdentityStore.endTransaction_other _ hq] at htx

include hK in
theorem keeps_finish (h : RefreshInv env K w) {req : Request} {r : Except AuthError req.Reply}
    (hpost : RefreshPost env K pid req r w)
    : (refreshOutline env K).Keeps w (w.state.endTransaction pid) (.finish pid req r) where
  safe := trivial
  inv := by
    apply h.later hK (.endTransaction _ pid) (h.locked.endTransaction pid)
      (endTransaction_owned h.owned)
    . intro _ _ heq
      cases heq
    . intro p id hp
      exact .inl (won_of_not_call (by intro _ _ _ heq; cases heq) hp)
    . intro p tok grant r' hspawned hissue
      cases hissue with
      | tail _ hissue =>
        cases hspawned with
        | tail _ hspawned => exact .inl ⟨hspawned, hissue⟩
    . intro _ _ _ heq
      cases heq
      exact hpost
    . intro _ _ _ heq
      cases heq
      exact hpost
  rely q hq := by
    apply endTransaction_rely
    intro heq
    subst heq
    exact hq rfl

include hK in
theorem keeps_crash (h : RefreshInv env K w)
    : (refreshOutline env K).Keeps w (w.state.endTransaction pid) (.crash pid) where
  safe := trivial
  inv := by
    apply h.later hK (.endTransaction _ pid) (h.locked.endTransaction pid)
      (endTransaction_owned h.owned)
    . intro _ _ heq
      cases heq
    . intro p id hp
      exact .inl (won_of_not_call (by intro _ _ _ heq; cases heq) hp)
    . intro p tok grant r' hspawned hissue
      cases hissue with
      | tail _ hissue =>
        cases hspawned with
        | tail _ hspawned => exact .inl ⟨hspawned, hissue⟩
    . intro _ _ _ heq
      cases heq
    . intro _ _ _ heq
      cases heq
  rely q hq := by
    apply endTransaction_rely
    intro heq
    subst heq
    exact hq rfl

include hK in
theorem keeps_tick (h : RefreshInv env K w) (d : Time)
    : (refreshOutline env K).Keeps w { w.state with now := w.state.now + d } .tick where
  safe := trivial
  inv := by
    apply h.later hK (.tick _ d) ⟨h.locked.writes, h.locked.exclusive⟩
      ⟨h.owned.token, h.owned.pending⟩
    . intro _ _ heq
      cases heq
    . intro p id hp
      exact .inl (won_of_not_call (by intro _ _ _ heq; cases heq) hp)
    . intro p tok grant r' hspawned hissue
      cases hissue with
      | tail _ hissue =>
        cases hspawned with
        | tail _ hspawned => exact .inl ⟨hspawned, hissue⟩
    . intro _ _ _ heq
      cases heq
    . intro _ _ _ heq
      cases heq
  rely _ _ := ⟨rfl, fun _ _ _ hx _ => hx, .tick _ d⟩

end Outline
end Reactor.Auth
