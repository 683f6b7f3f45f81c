import ReactorCloud.Auth.Frame

/-!
This module contains what the statements can do to sessions and refresh tokens, and the locks that keep
the transactions on refresh tokens apart.
-/

namespace Reactor.Auth

open Relational

section Rows

variable {s : IdentityStore}

theorem Session.eq_of_id {t : Table Session} {x y : Session} (hx : x ∈ t) (hy : y ∈ t)
    (h : x.id = y.id) : x = y := by
  apply Table.eq_of_conflict hx hy
  simp [Constrained.conflict, h]

theorem RefreshToken.eq_of_id {t : Table RefreshToken} {x y : RefreshToken} (hx : x ∈ t)
    (hy : y ∈ t) (h : x.id = y.id) : x = y := by
  apply Table.eq_of_conflict hx hy
  simp [Constrained.conflict, h]

theorem RefreshToken.eq_of_tokenHash {t : Table RefreshToken} {x y : RefreshToken} (hx : x ∈ t)
    (hy : y ∈ t) (h : x.tokenHash = y.tokenHash) : x = y := by
  apply Table.eq_of_conflict hx hy
  simp [Constrained.conflict, h]

end Rows

/--
The row is the same, or it satisfies `P` and has been revoked.
-/
def Session.Revised (P : Session → Prop) (x x' : Session) : Prop :=
  x' = x ∨ (P x ∧ x.revokedAt = none ∧ ∃ t, x' = { x with revokedAt := some t })

/--
The row is the same, or it satisfies `P` and has been used.
-/
def RefreshToken.Revised (P : RefreshToken → Prop) (x x' : RefreshToken) : Prop :=
  x' = x ∨ (P x ∧ ∃ t id, x' = { x with usedAt := some t, replacedBy := some id })

namespace Session.Revised

variable {P : Session → Prop} {x x' x'' : Session}

theorem refl (x : Session) : Revised P x x := .inl rfl

theorem id (h : Revised P x x') : x'.id = x.id := by
  cases h with
  | inl h => rw [h]
  | inr h =>
    obtain ⟨_, _, _, rfl⟩ := h
    rfl

theorem revoked (h : Revised P x x') (hrev : x.revokedAt ≠ none) : x' = x := by
  cases h with
  | inl h => exact h
  | inr h => exact absurd h.2.1 hrev

theorem trans (h : Revised P x x') (h' : Revised P x' x'') : Revised P x x'' := by
  cases h with
  | inl h =>
    subst h
    exact h'
  | inr h =>
    obtain ⟨hp, hnone, t, rfl⟩ := h
    cases h' with
    | inl h' =>
      subst h'
      exact .inr ⟨hp, hnone, t, rfl⟩
    | inr h' => simp at h'

theorem evolves {N : Session → Prop} {t t' t'' : Table Session}
    (hN : ∀ x x', N x → Revised P x x' → N x') (h : t.Evolves N (Revised P) t')
    (h' : t'.Evolves N (Revised P) t'') : t.Evolves N (Revised P) t'' :=
  h.trans hN (fun _ _ _ hx hx' => hx.trans hx') h'

end Session.Revised

namespace RefreshToken.Revised

variable {P : RefreshToken → Prop} {x x' x'' : RefreshToken}

theorem refl (x : RefreshToken) : Revised P x x := .inl rfl

theorem id (h : Revised P x x') : x'.id = x.id := by
  cases h with
  | inl h => rw [h]
  | inr h =>
    obtain ⟨_, _, _, rfl⟩ := h
    rfl

theorem tokenHash (h : Revised P x x') : x'.tokenHash = x.tokenHash := by
  cases h with
  | inl h => rw [h]
  | inr h =>
    obtain ⟨_, _, _, rfl⟩ := h
    rfl

theorem sessionId (h : Revised P x x') : x'.sessionId = x.sessionId := by
  cases h with
  | inl h => rw [h]
  | inr h =>
    obtain ⟨_, _, _, rfl⟩ := h
    rfl

theorem used (h : Revised P x x') (hused : x.usedAt ≠ none) : x'.usedAt ≠ none := by
  cases h with
  | inl h => rwa [h]
  | inr h =>
    obtain ⟨_, _, _, rfl⟩ := h
    simp

theorem trans (h : Revised P x x') (h' : Revised P x' x'') : Revised P x x'' := by
  cases h with
  | inl h =>
    subst h
    exact h'
  | inr h =>
    obtain ⟨hp, t, id, rfl⟩ := h
    cases h' with
    | inl h' =>
      subst h'
      exact .inr ⟨hp, t, id, rfl⟩
    | inr h' =>
      obtain ⟨_, t', id', rfl⟩ := h'
      exact .inr ⟨hp, t', id', rfl⟩

theorem evolves {N : RefreshToken → Prop} {t t' t'' : Table RefreshToken}
    (hN : ∀ x x', N x → Revised P x x' → N x') (h : t.Evolves N (Revised P) t')
    (h' : t'.Evolves N (Revised P) t'') : t.Evolves N (Revised P) t'' :=
  h.trans hN (fun _ _ _ hx hx' => hx.trans hx') h'

end RefreshToken.Revised

namespace IdentityStore

variable {s s' : IdentityStore}

/--
The sessions that a call of the process `pid` revokes.
-/
def Revokes (s : IdentityStore) (pid : Nat) (c : Call) (x : Session) : Prop :=
  match c with
  | .revokeSession id => x.id = id
  | .revokeUserSessions userId => x.userId = userId
  | .commit => ∃ tx, s.transaction? pid = some tx ∧ ∃ t, .revokeSession x.id t ∈ tx.writes
  | _ => False

/--
The refresh tokens that a call of the process `pid` uses.
-/
def Consumes (s : IdentityStore) (pid : Nat) (c : Call) (x : RefreshToken) : Prop :=
  c = .commit ∧ ∃ tx, s.transaction? pid = some tx ∧ ∃ t id, .useRefreshToken x.id t id ∈ tx.writes

/--
The refresh tokens that a call of the process `pid` inserts.
-/
def Inserts (s : IdentityStore) (pid : Nat) (c : Call) (x : RefreshToken) : Prop :=
  match c with
  | .createRefreshToken id sessionId tokenHash expiresAt =>
    x = ⟨id, sessionId, tokenHash, s.now, expiresAt, none, none⟩
      ∧ ∃ y ∈ s.sessions, y.id = sessionId
  | .commit => ∃ tx, s.transaction? pid = some tx ∧ ∃ y, .insertRefreshToken y ∈ tx.writes
      ∧ RefreshToken.Revised (s.Consumes pid .commit) y x
  | _ => False

theorem revokeSessions_evolves {N : Session → Prop} {P : Session → Prop} {p : Session → Bool}
    {now : Time} (hP : ∀ x, p x = true → P x)
    : Table.Evolves N (Session.Revised P) s.sessions (s.revokeSessions p now).sessions := by
  simp only [revokeSessions]
  apply Table.Evolves.modify
  intro x _
  split
  . next h =>
    simp only [revokes, Bool.and_eq_true, Option.isNone_iff_eq_none] at h
    exact .inr ⟨hP x h.1, h.2, now, rfl⟩
  . exact .refl x

theorem applyWrites_sessions {ws : List Write} (h : applyWrites ws s = some s')
    : Table.Evolves (fun _ => False)
        (Session.Revised (fun x => ∃ t, .revokeSession x.id t ∈ ws)) s.sessions s'.sessions := by
  induction ws generalizing s with
  | nil =>
    cases h
    exact .refl Session.Revised.refl _
  | cons w ws ih =>
    simp only [applyWrites, Option.bind_eq_some_iff] at h
    obtain ⟨s₁, hw, hws⟩ := h
    apply Session.Revised.evolves (by simp)
    . show Table.Evolves _ _ s.sessions s₁.sessions
      cases w with
      | revokeSession id t =>
        cases hw
        apply revokeSessions_evolves
        intro x hx
        simp only [beq_iff_eq] at hx
        exact ⟨t, by simp [hx]⟩
      | useRefreshToken id t replacedBy =>
        cases hw
        exact .refl Session.Revised.refl _
      | insertRefreshToken row =>
        simp only [applyWrite, Option.map_eq_some_iff] at hw
        obtain ⟨_, _, rfl⟩ := hw
        exact .refl Session.Revised.refl _
    . apply (ih hws).mono (by simp)
      intro x x' hx
      cases hx with
      | inl h => exact .inl h
      | inr h =>
        obtain ⟨⟨t, hmem⟩, h⟩ := h
        exact .inr ⟨⟨t, List.mem_cons_of_mem _ hmem⟩, h⟩

theorem applyWrites_refreshTokens {ws : List Write} (h : applyWrites ws s = some s') :
    let P := fun (x : RefreshToken) => ∃ t id, .useRefreshToken x.id t id ∈ ws
    Table.Evolves (fun x => ∃ y, .insertRefreshToken y ∈ ws ∧ RefreshToken.Revised P y x)
      (RefreshToken.Revised P) s.refreshTokens s'.refreshTokens := by
  intro P
  induction ws generalizing s with
  | nil =>
    cases h
    exact .refl RefreshToken.Revised.refl _
  | cons w ws ih =>
    simp only [applyWrites, Option.bind_eq_some_iff] at h
    obtain ⟨s₁, hw, hws⟩ := h
    apply RefreshToken.Revised.evolves
    . intro x x' hx hxx'
      obtain ⟨y, hmem, hy⟩ := hx
      exact ⟨y, hmem, hy.trans hxx'⟩
    . show Table.Evolves _ _ s.refreshTokens s₁.refreshTokens
      cases w with
      | revokeSession id t =>
        cases hw
        exact .refl RefreshToken.Revised.refl _
      | useRefreshToken id t replacedBy =>
        cases hw
        simp only
        apply Table.Evolves.modify
        intro x _
        split
        . next hid =>
          simp only [beq_iff_eq] at hid
          exact .inr ⟨⟨t, replacedBy, by simp [hid]⟩, t, replacedBy, rfl⟩
        . exact .refl x
      | insertRefreshToken row =>
        simp only [applyWrite, Option.map_eq_some_iff] at hw
        obtain ⟨_, hinsert, rfl⟩ := hw
        apply Table.Evolves.insert RefreshToken.Revised.refl _ hinsert
        exact ⟨row, List.mem_cons_self, .refl row⟩
    . have hrevised : ∀ x x', RefreshToken.Revised (fun (x : RefreshToken) => ∃ t id,
          .useRefreshToken x.id t id ∈ ws) x x' → RefreshToken.Revised P x x' := by
        intro x x' hx
        cases hx with
        | inl h => exact .inl h
        | inr h =>
          obtain ⟨⟨t, id, hmem⟩, h⟩ := h
          exact .inr ⟨⟨t, id, List.mem_cons_of_mem _ hmem⟩, h⟩
      apply (ih hws).mono _ hrevised
      intro x hx
      obtain ⟨y, hmem, hy⟩ := hx
      exact ⟨y, List.mem_cons_of_mem _ hmem, hrevised y x hy⟩

/--
A session is only ever created by `createSession`, and only revoked.
-/
theorem exec_sessions {env : Env} {pid : Nat} {c : Call} {e : Entropy} {r : Except AuthError c.Ret}
    (h : exec env pid c e s = some (r, s'))
    : Table.Evolves (fun x => ∃ id userId amr, c = .createSession id userId amr
          ∧ x = ⟨id, userId, amr, s.now, none⟩)
        (Session.Revised (s.Revokes pid c)) s.sessions s'.sessions := by
  have hsame : .sessions ∉ c.tables → Table.Evolves (fun x => ∃ id userId amr,
      c = .createSession id userId amr ∧ x = ⟨id, userId, amr, s.now, none⟩)
        (Session.Revised (s.Revokes pid c)) s.sessions s'.sessions :=
    fun hc => .of_eq Session.Revised.refl ((exec_changes h).sessions hc)
  cases c with
  | createSession id userId amr =>
    have hs := state_of_some h
    unfold createSession at hs
    dsimp only at hs
    split at hs
    . split at hs
      . next hinsert =>
        subst hs
        exact .insert Session.Revised.refl ⟨id, userId, amr, rfl, rfl⟩ hinsert
      . subst hs
        exact .refl Session.Revised.refl _
    . subst hs
      exact .refl Session.Revised.refl _
  | revokeSession id =>
    simp only [exec, revokeSession] at h
    split at h
    . cases h
    . cases h
      apply revokeSessions_evolves
      intro x hx
      simpa [Revokes] using hx
  | revokeUserSessions userId =>
    simp only [exec, revokeUserSessions] at h
    split at h
    . cases h
    . cases h
      apply revokeSessions_evolves
      intro x hx
      simpa [Revokes] using hx
  | commit =>
    have hs := state_of_some h
    unfold commit at hs
    split at hs
    . subst hs
      exact .refl Session.Revised.refl _
    . next tx htx =>
      split at hs
      . next happly =>
        subst hs
        apply (applyWrites_sessions happly).mono (by simp)
        intro x x' hx
        cases hx with
        | inl hx => exact .inl hx
        | inr hx => exact .inr ⟨⟨tx, htx, hx.1⟩, hx.2⟩
      . subst hs
        exact .refl Session.Revised.refl _
  | _ => exact hsame (by simp [Call.tables])

theorem exec_refreshTokens {env : Env} {pid : Nat} {c : Call} {e : Entropy}
    {r : Except AuthError c.Ret} (h : exec env pid c e s = some (r, s'))
    : Table.Evolves (s.Inserts pid c) (RefreshToken.Revised (s.Consumes pid c)) s.refreshTokens
        s'.refreshTokens := by
  have hsame : .refreshTokens ∉ c.tables → Table.Evolves (s.Inserts pid c)
      (RefreshToken.Revised (s.Consumes pid c)) s.refreshTokens s'.refreshTokens :=
    fun hc => .of_eq RefreshToken.Revised.refl ((exec_changes h).refreshTokens hc)
  cases c with
  | createRefreshToken id sessionId tokenHash expiresAt =>
    simp only [exec, createRefreshToken] at h
    split at h
    . cases h
    . split at h
      . next hany =>
        simp only [Table.any_eq_true, beq_iff_eq] at hany
        split at h
        . next hinsert =>
          cases h
          exact .insert RefreshToken.Revised.refl ⟨rfl, hany⟩ hinsert
        . cases h
          exact .refl RefreshToken.Revised.refl _
      . cases h
        exact .refl RefreshToken.Revised.refl _
  | commit =>
    have hs := state_of_some h
    unfold commit at hs
    split at hs
    . subst hs
      exact .refl RefreshToken.Revised.refl _
    . next tx htx =>
      split at hs
      . next happly =>
        subst hs
        have hrevised : ∀ x x', RefreshToken.Revised (fun (x : RefreshToken) => ∃ t id,
            .useRefreshToken x.id t id ∈ tx.writes) x x'
              → RefreshToken.Revised (s.Consumes pid .commit) x x' := by
          intro x x' hx
          cases hx with
          | inl hx => exact .inl hx
          | inr hx => exact .inr ⟨⟨rfl, tx, htx, hx.1⟩, hx.2⟩
        apply (applyWrites_refreshTokens happly).mono _ hrevised
        intro x hx
        obtain ⟨y, hmem, hy⟩ := hx
        exact ⟨tx, htx, y, hmem, hrevised y x hy⟩
      . subst hs
        exact .refl RefreshToken.Revised.refl _
  | _ => exact hsame (by simp [Call.tables])

section Transactions

variable {pid q : Nat} {tx tx' : Transaction}

theorem lookup_filter_ne (l : List (Nat × Transaction)) (pid q : Nat)
    : (l.filter (fun (p, _) => p != pid)).lookup q = if q = pid then none else l.lookup q := by
  induction l with
  | nil => simp
  | cons x l ih =>
    obtain ⟨p, tx⟩ := x
    by_cases hp : p = pid
    . subst hp
      have hfilter : ((p, tx) :: l).filter (fun (q, _) => q != p)
          = l.filter (fun (q, _) => q != p) := by
        simp
      rw [hfilter, ih]
      by_cases hq : q = p
      . simp [hq]
      . have hbeq : (q == p) = false := by simpa using hq
        simp [List.lookup_cons, hq, hbeq]
    . have hfilter : ((p, tx) :: l).filter (fun (q, _) => q != pid)
          = (p, tx) :: l.filter (fun (q, _) => q != pid) := by
        simp [hp]
      rw [hfilter, List.lookup_cons, List.lookup_cons, ih]
      by_cases hq : q = p
      . simp [hq, hp]
      . have hbeq : (q == p) = false := by simpa using hq
        simp [hbeq]

theorem setTransaction_self (s : IdentityStore) (pid : Nat) (tx : Transaction)
    : (s.setTransaction pid tx).transaction? pid = some tx := by
  simp [setTransaction, transaction?]

theorem setTransaction_other (s : IdentityStore) (tx : Transaction) (h : q ≠ pid)
    : (s.setTransaction pid tx).transaction? q = s.transaction? q := by
  have hq : (q == pid) = false := by simpa using h
  simp [setTransaction, transaction?, List.lookup_cons, hq, lookup_filter_ne, h]

theorem endTransaction_self (s : IdentityStore) (pid : Nat)
    : (s.endTransaction pid).transaction? pid = none := by
  simp [endTransaction, transaction?, lookup_filter_ne]

theorem endTransaction_other (s : IdentityStore) (h : q ≠ pid)
    : (s.endTransaction pid).transaction? q = s.transaction? q := by
  simp [endTransaction, transaction?, lookup_filter_ne, h]

theorem of_heldByOther {p : Transaction → Bool} (h : s.heldByOther pid p = false)
    (htx : s.transaction? q = some tx) (hq : q ≠ pid) : p tx = false := by
  have hmem : (q, tx) ∈ s.transactions := by
    rw [transaction?, List.lookup_eq_some_iff] at htx
    obtain ⟨l, l', heq, _⟩ := htx
    rw [heq]
    simp
  simp only [heldByOther, List.any_eq_false] at h
  have := h (q, tx) hmem
  simpa [hq] using this

/--
A call leaves the transactions of the other processes alone.
-/
theorem exec_transaction_other {env : Env} {c : Call} {e : Entropy} {r : Except AuthError c.Ret}
    (h : exec env pid c e s = some (r, s')) (hq : q ≠ pid)
    : s'.transaction? q = s.transaction? q := by
  have hsame : .transactions ∉ c.tables → s'.transaction? q = s.transaction? q := by
    intro hc
    rw [transaction?, (exec_changes h).transactions hc]
    rfl
  cases c with
  | beginTransaction =>
    cases h
    exact setTransaction_other s _ hq
  | selectTokenForUpdate tokenHash =>
    simp only [exec, selectTokenForUpdate] at h
    split at h
    . cases h
      rfl
    . split at h
      . cases h
        rfl
      . split at h
        . cases h
        . cases h
          exact setTransaction_other s _ hq
  | revokeSessionInTransaction id =>
    simp only [exec, revokeSessionInTransaction] at h
    split at h
    . cases h
      rfl
    . split at h
      . cases h
      . cases h
        exact setTransaction_other s _ hq
  | useTokenInTransaction id replacedBy =>
    simp only [exec, useTokenInTransaction] at h
    split at h
    . cases h
      rfl
    . split at h
      . cases h
      . cases h
        exact setTransaction_other s _ hq
  | insertTokenInTransaction id sessionId tokenHash expiresAt =>
    simp only [exec, insertTokenInTransaction] at h
    split at h
    . cases h
      rfl
    . split at h
      . cases h
      . split at h
        . cases h
          exact setTransaction_other s _ hq
        . cases h
          rfl
  | commit =>
    have hs := state_of_some h
    unfold commit at hs
    split at hs
    . subst hs
      rfl
    . split at hs
      . next happly =>
        subst hs
        rw [endTransaction_other _ hq, transaction?, (applyWrites_changes happly).transactions (by decide)]
        rfl
      . subst hs
        exact endTransaction_other s hq
  | rollback =>
    cases h
    exact endTransaction_other s hq
  | _ => exact hsame (by simp [Call.tables])

end Transactions

end IdentityStore
end Reactor.Auth
