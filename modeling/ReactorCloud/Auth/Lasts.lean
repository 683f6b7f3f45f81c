import ReactorCloud.Auth.Sessions
import ReactorCloud.Auth.Writes

/-!
This module contains what the row locks guarantee: a refresh token that a transaction has locked does
not change until that transaction ends.
-/

namespace Reactor.Auth.IdentityStore

/--
A transaction only uses tokens it has locked, and no two transactions have locked the same one.
-/
structure Locked (s : IdentityStore) : Prop where
  writes : ∀ q tx, s.transaction? q = some tx → ∀ id t n,
    .useRefreshToken id t n ∈ tx.writes → id ∈ tx.lockedTokens
  exclusive : ∀ p q tx tx', s.transaction? p = some tx → s.transaction? q = some tx' → p ≠ q
    → ∀ id ∈ tx.lockedTokens, id ∉ tx'.lockedTokens

variable {s s' : IdentityStore} {pid q : Nat} {tx tx' : Transaction}

theorem Locked.of_transactions (h : s.Locked) (heq : ∀ q, s'.transaction? q = s.transaction? q)
    : s'.Locked where
  writes q tx htx := h.writes q tx (heq q ▸ htx)
  exclusive p q tx tx' htx htx' := h.exclusive p q tx tx' (heq p ▸ htx) (heq q ▸ htx')

theorem Locked.endTransaction (h : s.Locked) (pid : Nat) : (s.endTransaction pid).Locked where
  writes q tx htx := by
    by_cases hq : q = pid
    . subst hq
      rw [endTransaction_self] at htx
      cases htx
    . rw [endTransaction_other s hq] at htx
      exact h.writes q tx htx
  exclusive p q tx tx' htx htx' := by
    by_cases hp : p = pid
    . subst hp
      rw [endTransaction_self] at htx
      cases htx
    . by_cases hq : q = pid
      . subst hq
        rw [endTransaction_self] at htx'
        cases htx'
      . rw [endTransaction_other s hp] at htx
        rw [endTransaction_other s hq] at htx'
        exact h.exclusive p q tx tx' htx htx'

/--
A transaction can lock tokens that no other one has locked.
-/
theorem Locked.setTransaction (h : s.Locked)
    (hwrites : ∀ id t n, .useRefreshToken id t n ∈ tx.writes → id ∈ tx.lockedTokens)
    (hfree : ∀ q tx', q ≠ pid → s.transaction? q = some tx' →
      ∀ id ∈ tx.lockedTokens, id ∉ tx'.lockedTokens)
    : (s.setTransaction pid tx).Locked where
  writes q tx' htx := by
    by_cases hq : q = pid
    . subst hq
      rw [setTransaction_self] at htx
      cases htx
      exact hwrites
    . rw [setTransaction_other s tx hq] at htx
      exact h.writes q tx' htx
  exclusive p q tx₁ tx₂ htx₁ htx₂ hne id hid hid' := by
    by_cases hp : p = pid
    . subst hp
      rw [setTransaction_self] at htx₁
      cases htx₁
      rw [setTransaction_other s tx hne.symm] at htx₂
      exact hfree q tx₂ hne.symm htx₂ id hid hid'
    . rw [setTransaction_other s tx hp] at htx₁
      by_cases hq : q = pid
      . subst hq
        rw [setTransaction_self] at htx₂
        cases htx₂
        exact hfree p tx₁ hp htx₁ id hid' hid
      . rw [setTransaction_other s tx hq] at htx₂
        exact h.exclusive p q tx₁ tx₂ htx₁ htx₂ hne id hid hid'

/--
The locks of the transaction as it is, and of one more token that no other one has locked.
-/
theorem Locked.free (h : s.Locked) (htx : s.transaction? pid = some tx) {id : ReactorId}
    (hheld : s.heldByOther pid (fun tx => tx.lockedTokens.contains id) = false)
    (hq : q ≠ pid) (htx' : s.transaction? q = some tx')
    : ∀ id' ∈ id :: tx.lockedTokens, id' ∉ tx'.lockedTokens := by
  intro id' hid'
  cases hid' with
  | head =>
    have := of_heldByOther hheld htx' hq
    simpa using this
  | tail _ hid' => exact h.exclusive pid q tx tx' htx htx' hq.symm id' hid'

theorem exec_locked {env : Env} {c : Call} {e : Entropy} {r : Except AuthError c.Ret}
    (h : exec env pid c e s = some (r, s')) (hlocked : s.Locked) : s'.Locked := by
  have hsame : .transactions ∉ c.tables → s'.Locked := by
    intro hc
    apply hlocked.of_transactions
    intro q
    rw [transaction?, (exec_changes h).transactions hc]
    rfl
  cases c with
  | beginTransaction =>
    cases h
    apply hlocked.setTransaction
    . intro id t n hmem
      cases hmem
    . intro q tx' _ _ id hid
      cases hid
  | selectTokenForUpdate tokenHash =>
    simp only [exec, selectTokenForUpdate] at h
    split at h
    . cases h
      exact hlocked
    . next tx htx =>
      split at h
      . cases h
        exact hlocked
      . split at h
        . cases h
        . next hheld =>
          cases h
          apply hlocked.setTransaction
          . intro id t n hmem
            exact List.mem_cons_of_mem _ (hlocked.writes pid tx htx id t n hmem)
          . intro q tx' hq htx'
            exact hlocked.free htx (by simpa using hheld) hq htx'
  | revokeSessionInTransaction id =>
    simp only [exec, revokeSessionInTransaction] at h
    split at h
    . cases h
      exact hlocked
    . next tx htx =>
      split at h
      . cases h
      . cases h
        apply hlocked.setTransaction
        . intro id t n hmem
          simp only [List.mem_append, List.mem_singleton, reduceCtorEq, or_false] at hmem
          exact hlocked.writes pid tx htx id t n hmem
        . intro q tx' hq htx' id hid
          exact hlocked.exclusive pid q tx tx' htx htx' hq.symm id hid
  | useTokenInTransaction id replacedBy =>
    simp only [exec, useTokenInTransaction] at h
    split at h
    . cases h
      exact hlocked
    . next tx htx =>
      split at h
      . cases h
      . next hheld =>
        cases h
        apply hlocked.setTransaction
        . intro id' t n hmem
          simp only [List.mem_append, List.mem_singleton, Write.useRefreshToken.injEq] at hmem
          cases hmem with
          | inl hmem => exact List.mem_cons_of_mem _ (hlocked.writes pid tx htx id' t n hmem)
          | inr heq =>
            rw [heq.1]
            exact List.mem_cons_self
        . intro q tx' hq htx'
          exact hlocked.free htx (by simpa using hheld) hq htx'
  | insertTokenInTransaction id sessionId tokenHash expiresAt =>
    simp only [exec, insertTokenInTransaction] at h
    split at h
    . cases h
      exact hlocked
    . next tx htx =>
      split at h
      . cases h
      . split at h
        . cases h
          apply hlocked.setTransaction
          . intro id t n hmem
            simp only [List.mem_append, List.mem_singleton, reduceCtorEq, or_false] at hmem
            exact hlocked.writes pid tx htx id t n hmem
          . intro q tx' hq htx' id hid
            exact hlocked.exclusive pid q tx tx' htx htx' hq.symm id hid
        . cases h
          exact hlocked
  | commit =>
    have hs := state_of_some h
    unfold commit at hs
    split at hs
    . subst hs
      exact hlocked
    . split at hs
      . next happly =>
        subst hs
        apply Locked.endTransaction
        apply hlocked.of_transactions
        intro q
        rw [transaction?, (applyWrites_changes happly).transactions (by decide)]
        rfl
      . subst hs
        exact hlocked.endTransaction pid
  | rollback =>
    cases h
    exact hlocked.endTransaction pid
  | _ => exact hsame (by simp [Call.tables])

/--
No other process changes a token that a transaction has locked.
-/
theorem exec_lockedToken {env : Env} {c : Call} {e : Entropy} {r : Except AuthError c.Ret}
    (h : exec env pid c e s = some (r, s')) (hlocked : s.Locked) (hq : q ≠ pid)
    (htx : s.transaction? q = some tx) {x : RefreshToken} (hx : x ∈ s.refreshTokens)
    (hid : x.id ∈ tx.lockedTokens) : x ∈ s'.refreshTokens := by
  obtain ⟨x', hx', hrevised⟩ := (exec_refreshTokens h).forward x hx
  cases hrevised with
  | inl heq =>
    rw [← heq]
    exact hx'
  | inr hconsumed =>
    obtain ⟨⟨_, tx', htx', t, n, hmem⟩, _⟩ := hconsumed
    have := hlocked.writes pid tx' htx' x.id t n hmem
    exact absurd hid (hlocked.exclusive pid q tx' tx htx' htx hq.symm x.id this)

end Reactor.Auth.IdentityStore

/-!
This module contains what the statements can do to users and what no step of the service undoes: users,
sessions and refresh tokens stay, and so do disabled users, revoked sessions and used tokens.
-/

namespace Reactor.Auth

open Relational

/--
What a call in the state `s` can make of a user.
-/
def UserRow.Revised (s : IdentityStore) (c : Call) (u u' : UserRow) : Prop :=
  u' = u ∨
    match c with
    | .updateUser id email passwordHash emailVerified metadata defaultOrgId =>
      u.id = id ∧ u' = IdentityStore.setUser email passwordHash emailVerified metadata defaultOrgId
        s.now u
    | .disableUser id =>
      u.id = id ∧ u.disabledAt = none ∧ u' = { u with disabledAt := some s.now, updatedAt := s.now }
    | .deleteOrg _ => u' = { u with defaultOrgId := none }
    | _ => False

namespace UserRow.Revised

variable {s : IdentityStore} {c : Call} {u u' : UserRow}

theorem refl (u : UserRow) : Revised s c u u := .inl rfl

theorem id (h : Revised s c u u') : u'.id = u.id := by
  cases h with
  | inl h => rw [h]
  | inr h =>
    cases c with
    | updateUser => rw [h.2]; rfl
    | disableUser => rw [h.2.2]
    | deleteOrg => rw [h]
    | _ => exact h.elim

theorem disabledAt (h : Revised s c u u') (hdisabled : u.disabledAt ≠ none)
    : u'.disabledAt ≠ none := by
  cases h with
  | inl h => rwa [h]
  | inr h =>
    cases c with
    | updateUser =>
      rw [h.2]
      exact hdisabled
    | disableUser => exact absurd h.2.1 hdisabled
    | deleteOrg => rwa [h]
    | _ => exact h.elim

end UserRow.Revised

namespace IdentityStore

variable {s s' : IdentityStore}

/--
A user is only ever created by `createUser`, and never removed.
-/
theorem exec_users {env : Env} {pid : Nat} {c : Call} {e : Entropy} {r : Except AuthError c.Ret}
    (h : exec env pid c e s = some (r, s'))
    : Table.Evolves (fun u => ∃ id email passwordHash metadata,
        c = .createUser id email passwordHash metadata
          ∧ u = ⟨⟨id, email, false, metadata, none, none, s.now, s.now⟩, passwordHash⟩)
        (UserRow.Revised s c) s.users s'.users := by
  have hsame : .users ∉ c.tables → Table.Evolves (fun u => ∃ id email passwordHash metadata,
      c = .createUser id email passwordHash metadata
        ∧ u = ⟨⟨id, email, false, metadata, none, none, s.now, s.now⟩, passwordHash⟩)
        (UserRow.Revised s c) s.users s'.users :=
    fun hc => .of_eq UserRow.Revised.refl ((exec_changes h).users hc)
  cases c with
  | createUser id email passwordHash metadata =>
    have hs := state_of_some h
    unfold createUser at hs
    split at hs
    . subst hs
      exact .refl UserRow.Revised.refl _
    . dsimp only at hs
      split at hs
      . next hinsert =>
        subst hs
        exact .insert UserRow.Revised.refl ⟨id, email, passwordHash, metadata, rfl, rfl⟩ hinsert
      . subst hs
        exact .refl UserRow.Revised.refl _
  | updateUser id email passwordHash emailVerified metadata defaultOrgId =>
    have hs := state_of_some h
    unfold updateUser at hs
    split at hs
    . subst hs
      exact .refl UserRow.Revised.refl _
    . dsimp only at hs
      split at hs
      . next hupdate =>
        subst hs
        apply Table.Evolves.update _ hupdate
        intro u _
        split
        . next hid => exact .inr ⟨by simpa using hid, rfl⟩
        . exact .refl u
      . subst hs
        exact .refl UserRow.Revised.refl _
  | disableUser id =>
    have hs := state_of_some h
    unfold disableUser at hs
    dsimp only at hs
    split at hs
    . subst hs
      dsimp only
      apply Table.Evolves.modify
      intro u _
      split
      . next hp =>
        simp only [Bool.and_eq_true, beq_iff_eq, Option.isNone_iff_eq_none] at hp
        exact .inr ⟨hp.1, hp.2, rfl⟩
      . exact .refl u
    . subst hs
      exact .refl UserRow.Revised.refl _
  | deleteOrg id =>
    have hs := state_of_some h
    unfold deleteOrg at hs
    dsimp only at hs
    split at hs
    . split at hs
      . subst hs
        exact .refl UserRow.Revised.refl _
      . subst hs
        dsimp only
        apply Table.Evolves.modify
        intro u _
        split
        . exact .inr rfl
        . exact .refl u
    . subst hs
      exact .refl UserRow.Revised.refl _
  | _ => exact hsame (by simp [Call.tables])

end IdentityStore
end Reactor.Auth

namespace Reactor.Auth

open Interleave
open Relational

structure Lasts (s s' : IdentityStore) : Prop where
  user : ∀ u ∈ s.users, ∃ u' ∈ s'.users,
    u'.id = u.id ∧ (u.disabledAt ≠ none → u'.disabledAt ≠ none)
  session : ∀ y ∈ s.sessions, ∃ y' ∈ s'.sessions, Session.Revised (fun _ => True) y y'
  refreshToken : ∀ x ∈ s.refreshTokens, ∃ x' ∈ s'.refreshTokens,
    RefreshToken.Revised (fun _ => True) x x'

namespace Lasts

variable {s s' s'' : IdentityStore}

theorem refl (s : IdentityStore) : Lasts s s where
  user u hu := ⟨u, hu, rfl, fun h => h⟩
  session y hy := ⟨y, hy, .refl y⟩
  refreshToken x hx := ⟨x, hx, .refl x⟩

theorem of_eq (husers : s'.users = s.users) (hsessions : s'.sessions = s.sessions)
    (htokens : s'.refreshTokens = s.refreshTokens) : Lasts s s' where
  user u hu := ⟨u, husers.symm ▸ hu, rfl, fun h => h⟩
  session y hy := ⟨y, hsessions.symm ▸ hy, .refl y⟩
  refreshToken x hx := ⟨x, htokens.symm ▸ hx, .refl x⟩

theorem endTransaction (s : IdentityStore) (pid : Nat) : Lasts s (s.endTransaction pid) :=
  .of_eq rfl rfl rfl

theorem tick (s : IdentityStore) (d : Time) : Lasts s { s with now := s.now + d } :=
  .of_eq rfl rfl rfl

theorem trans (h : Lasts s s') (h' : Lasts s' s'') : Lasts s s'' where
  user u hu := by
    obtain ⟨u', hu', hid, hdisabled⟩ := h.user u hu
    obtain ⟨u'', hu'', hid', hdisabled'⟩ := h'.user u' hu'
    exact ⟨u'', hu'', hid'.trans hid, fun h => hdisabled' (hdisabled h)⟩
  session y hy := by
    obtain ⟨y', hy', hrevised⟩ := h.session y hy
    obtain ⟨y'', hy'', hrevised'⟩ := h'.session y' hy'
    exact ⟨y'', hy'', hrevised.trans hrevised'⟩
  refreshToken x hx := by
    obtain ⟨x', hx', hrevised⟩ := h.refreshToken x hx
    obtain ⟨x'', hx'', hrevised'⟩ := h'.refreshToken x' hx'
    exact ⟨x'', hx'', hrevised.trans hrevised'⟩

theorem of_exec {env : Env} {pid : Nat} {c : Call} {e : Entropy} {r : Except AuthError c.Ret}
    (h : IdentityStore.exec env pid c e s = some (r, s')) : Lasts s s' where
  user u hu := by
    obtain ⟨u', hu', hrevised⟩ := (IdentityStore.exec_users h).forward u hu
    exact ⟨u', hu', hrevised.id, hrevised.disabledAt⟩
  session y hy := by
    obtain ⟨y', hy', hrevised⟩ := (IdentityStore.exec_sessions h).forward y hy
    refine ⟨y', hy', ?_⟩
    exact hrevised.imp (fun h => h) (fun h => ⟨trivial, h.2⟩)
  refreshToken x hx := by
    obtain ⟨x', hx', hrevised⟩ := (IdentityStore.exec_refreshTokens h).forward x hx
    refine ⟨x', hx', ?_⟩
    exact hrevised.imp (fun h => h) (fun h => ⟨trivial, h.2⟩)

theorem of_answers {env : Env} {pid : Nat} {c : Call} {r : Except AuthError c.Ret}
    (h : Answers (system env) pid c s r s') : Lasts s s' := by
  cases h.effect with
  | inl heq =>
    subst heq
    exact .refl _
  | inr hexec =>
    obtain ⟨e, r', hexec⟩ := hexec
    exact .of_exec hexec

end Lasts

namespace IdentityStore

variable {s s' : IdentityStore}

/--
The session exists and has been revoked.
-/
def SessionRevoked (s : IdentityStore) (id : SessionId) : Prop :=
  ∃ y ∈ s.sessions, y.id = id ∧ y.revokedAt ≠ none

/--
The token exists and has been used.
-/
def TokenUsed (s : IdentityStore) (tokenHash : Digest) : Prop :=
  ∃ x ∈ s.refreshTokens, x.tokenHash = tokenHash ∧ x.usedAt ≠ none

def UserDisabled (s : IdentityStore) (id : UserId) : Prop :=
  ∃ u ∈ s.users, u.id = id ∧ u.disabledAt ≠ none

theorem revokeSessions_revoked {p : Session → Bool} {time : Time} {y : Session}
    (hy : y ∈ s.sessions) (hp : p y = true) : (s.revokeSessions p time).SessionRevoked y.id := by
  have hmem : (if revokes p y then { y with revokedAt := some time } else y)
      ∈ (s.revokeSessions p time).sessions := by
    simp only [revokeSessions, Table.mem_modify]
    exact ⟨y, hy, rfl⟩
  cases hrevoked : y.revokedAt with
  | none => exact ⟨_, hmem, by simp [revokes, hp, hrevoked]⟩
  | some t => exact ⟨_, hmem, by simp [revokes, hp, hrevoked]⟩

theorem SessionRevoked.lasts {id : SessionId} (h : s.SessionRevoked id) (hlasts : Lasts s s')
    : s'.SessionRevoked id := by
  obtain ⟨y, hy, hid, hrevoked⟩ := h
  obtain ⟨y', hy', hrevised⟩ := hlasts.session y hy
  rw [hrevised.revoked hrevoked] at hy'
  exact ⟨y, hy', hid, hrevoked⟩

theorem TokenUsed.lasts {tokenHash : Digest} (h : s.TokenUsed tokenHash) (hlasts : Lasts s s')
    : s'.TokenUsed tokenHash := by
  obtain ⟨x, hx, hhash, hused⟩ := h
  obtain ⟨x', hx', hrevised⟩ := hlasts.refreshToken x hx
  exact ⟨x', hx', hrevised.tokenHash.trans hhash, hrevised.used hused⟩

end IdentityStore

/--
The world `w'` comes after `w`.
-/
structure Later {env : Env} (w w' : World (system env)) : Prop where
  trace : ∀ e ∈ w.trace, e ∈ w'.trace
  lasts : Lasts w.state w'.state

namespace Later

variable {env : Env} {w w' w'' : World (system env)}

theorem trans (h : Later w w') (h' : Later w' w'') : Later w w'' :=
  ⟨fun e he => h'.trace e (h.trace e he), h.lasts.trans h'.lasts⟩

theorem after {s : IdentityStore} (e : Event (system env)) (h : Lasts w.state s)
    : Later w (w.after s e) :=
  ⟨fun _ he => List.mem_cons_of_mem _ he, h⟩

end Later

end Reactor.Auth
