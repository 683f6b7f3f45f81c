import ReactorCloud.Auth.Refresh

/-!
This module contains how one refresh runs among all other operations, and what follows for the refresh
tokens in every run.
-/

namespace Reactor.Auth

open Interleave
open Interleave.Program
open Relational

section Rules

variable {env : Env} {K : Nat → IdentityStore → Prop} {pid : Nat} {tok : String} {α : Type}
  {w w' : World (system env)} {s : IdentityStore}

/--
The calls that end with no other error than an internal one.
-/
def Call.isInternal : Call → Bool
  | utcNow => true
  | newId => true
  | generateToken => true
  | beginTransaction => true
  | selectTokenForUpdate _ => true
  | revokeSessionInTransaction _ => true
  | useTokenInTransaction _ _ => true
  | insertTokenInTransaction _ _ _ _ => true
  | commit => true
  | rollback => true
  | findSessionById _ => true
  | findUserById _ => true
  | listUserOrgs _ => true
  | issueAccessToken _ => true
  | _ => false

theorem exec_internal {c : Call} {e : Entropy} {error : AuthError} {s' : IdentityStore}
    (hc : c.isInternal = true) (h : IdentityStore.exec env pid c e s = some (.error error, s'))
    : error = .internal := by
  cases c with
  | selectTokenForUpdate =>
    simp only [IdentityStore.exec, IdentityStore.selectTokenForUpdate] at h
    split at h
    . cases h
      rfl
    . split at h
      . cases h
      . split at h <;> cases h
  | revokeSessionInTransaction =>
    simp only [IdentityStore.exec, IdentityStore.revokeSessionInTransaction] at h
    split at h
    . cases h
      rfl
    . split at h <;> cases h
  | useTokenInTransaction =>
    simp only [IdentityStore.exec, IdentityStore.useTokenInTransaction] at h
    split at h
    . cases h
      rfl
    . split at h <;> cases h
  | insertTokenInTransaction =>
    simp only [IdentityStore.exec, IdentityStore.insertTokenInTransaction] at h
    split at h
    . cases h
      rfl
    . split at h
      . cases h
      . split at h
        . cases h
        . cases h
          rfl
  | commit =>
    simp only [IdentityStore.exec, IdentityStore.commit] at h
    split at h
    . cases h
      rfl
    . split at h
      . cases h
      . cases h
        rfl
  | _ => first
    | cases hc; done
    | cases h

theorem answers_internal {c : Call} {error : AuthError} {s' : IdentityStore}
    (hc : c.isInternal = true) (h : Answers (system env) pid c s (.error error) s')
    : error = .internal := by
  cases h.error with
  | inl heq => exact heq
  | inr hexec =>
    obtain ⟨_, hexec⟩ := hexec
    exact exec_internal hc hexec

theorem answers_ok {c : Call} {a : c.Ret} {s' : IdentityStore}
    (h : Answers (system env) pid c s (.ok a) s')
    : ∃ e, IdentityStore.exec env pid c e s = some (.ok a, s') := h.ok

theorem rely_later (h : (refreshOutline env K).Rely pid w w') : Later w w' :=
  ⟨fun _ he => h.1.mem he, h.2.lasts⟩

theorem later_call (hrely : (refreshOutline env K).Rely pid w w') {c : Call}
    {r : Except AuthError c.Ret} (hanswer : Answers (system env) pid c w'.state r s)
    : Later w (w'.after s (.call pid c r)) :=
  (rely_later hrely).trans (.after _ (.of_answers hanswer))

theorem later_exec (hrely : (refreshOutline env K).Rely pid w w') {c : Call} {e : Entropy}
    {r : Except AuthError c.Ret} (hexec : IdentityStore.exec env pid c e w'.state = some (r, s))
    : Later w (w'.after s (.call pid c r)) :=
  (rely_later hrely).trans (.after _ (.of_exec hexec))

/--
Where a refresh is: it has only made calls that satisfy `P`.
-/
structure Stage (pid : Nat) (tok : String) (P : Call → Prop) (w : World (system env)) : Prop where
  spawned : .spawn pid (.refresh tok) ∈ w.trace
  calls : ∀ (c : Call) r, .call pid c r ∈ w.trace → P c

theorem Stage.rely {P : Call → Prop} (h : Stage pid tok P w)
    (hrely : (refreshOutline env K).Rely pid w w') : Stage pid tok P w' where
  spawned := hrely.1.mem h.spawned
  calls c r hmem := h.calls c r ((hrely.1.mem_iff rfl).mp hmem)

theorem Stage.after {P P' : Call → Prop} (h : Stage pid tok P w) {c : Call}
    {r : Except AuthError c.Ret} (hc : P' c) (hP : ∀ c, P c → P' c)
    : Stage pid tok P' (w.after s (.call pid c r)) where
  spawned := List.mem_cons_of_mem _ h.spawned
  calls c' r' hmem := by
    cases hmem with
    | head => exact hc
    | tail _ hmem => exact hP c' (h.calls c' r' hmem)

theorem Stage.minor (h : Stage pid tok (fun c => c.isMinor = true) w) {c : Call}
    {r : Except AuthError c.Ret} (s : IdentityStore) (hc : c.isMinor = true)
    : Stage pid tok (fun c => c.isMinor = true) (w.after s (.call pid c r)) :=
  h.after hc (fun _ h => h)

variable (env K pid tok) in
/--
A part of the refresh ends with `A` or with an error that the refresh can end with.
-/
def Outcome (A : α → World (system env) → Prop) (r : Except AuthError α) (w : World (system env))
    : Prop :=
  match r with
  | .ok a => A a w
  | .error e => Rejected env K pid tok e w

variable {A : α → World (system env) → Prop}

theorem wp_rejected {e : AuthError} (h : Rejected env K pid tok e w)
    : (refreshOutline env K).Wp pid (Outcome env K pid tok A) (fail e) w := by
  apply Outline.wp_fail
  intro w' hrely _
  exact h.later (rely_later hrely)

theorem rejected_of_failed {c : Call}
    : Rejected env K pid tok .internal (w.after s (.call pid c (.error .internal))) where
  reuse heq := by cases heq
  reason := .inl ⟨c, List.mem_cons_self⟩

variable (hK : ∀ pid s s', Lasts s s' → K pid s → K pid s')

include hK in
/--
The rule for a call that decides nothing.
-/
theorem wp_minor {c : Call} {f : c.Ret → AuthM α} (hminor : c.isMinor = true)
    (hinternal : c.isInternal = true)
    (h : ∀ w', (refreshOutline env K).Rely pid w w' → RefreshInv env K w' → ∀ e a s,
      IdentityStore.exec env pid c e w'.state = some (.ok a, s) →
        (refreshOutline env K).Wp pid (Outcome env K pid tok A) (f a)
          (w'.after s (.call pid c (.ok a))))
    : (refreshOutline env K).Wp pid (Outcome env K pid tok A) (query c >>= f) w := by
  apply Outline.wp_call
  intro w' hrely hinv r s hanswer _
  constructor
  . exact keeps_minor hK hinv hanswer hminor
  . cases r with
    | ok a =>
      obtain ⟨e, hexec⟩ := answers_ok hanswer
      exact h w' hrely hinv e a s hexec
    | error e =>
      cases answers_internal hinternal hanswer
      exact wp_rejected rejected_of_failed

end Rules

namespace IdentityStore

variable {env : Env} {pid : Nat} {e : Entropy} {s s' : IdentityStore} {tx : Transaction}

/--
The row that is read is locked from then on.
-/
theorem select_ok {tokenHash : Digest} {a : Option RefreshToken}
    (h : exec env pid (.selectTokenForUpdate tokenHash) e s = some (.ok a, s'))
    (htx : s.transaction? pid = some tx)
    : (a = none ∧ ¬ s.TokenUsed tokenHash)
      ∨ ∃ x ∈ s.refreshTokens, a = some x ∧ x.tokenHash = tokenHash
        ∧ s'.transaction? pid = some { tx with lockedTokens := x.id :: tx.lockedTokens } := by
  simp only [exec, selectTokenForUpdate, htx] at h
  split at h
  . next hfind =>
    cases h
    apply Or.inl
    constructor
    . rfl
    . rintro ⟨x, hx, hhash, _⟩
      have := Table.find?_eq_none hfind hx
      simp [hhash] at this
  . next x hfind =>
    split at h
    . cases h
    . cases h
      have := Table.prop_of_find? hfind
      exact .inr ⟨x, Table.mem_of_find? hfind, rfl, by simpa using this, setTransaction_self _ _ _⟩

theorem revokeInTransaction_ok {id : SessionId}
    (h : exec env pid (.revokeSessionInTransaction id) e s = some (.ok (), s'))
    (htx : s.transaction? pid = some tx)
    : ∃ ids, s'.transaction? pid = some { tx with
      lockedSessions := ids, writes := tx.writes ++ [.revokeSession id tx.beganAt] } := by
  simp only [exec, revokeSessionInTransaction, htx] at h
  split at h
  . cases h
  . cases h
    exact ⟨_, setTransaction_self _ _ _⟩

theorem useInTransaction_ok {id newId : ReactorId}
    (h : exec env pid (.useTokenInTransaction id newId) e s = some (.ok (), s'))
    (htx : s.transaction? pid = some tx)
    : s'.transaction? pid = some { tx with
      lockedTokens := id :: tx.lockedTokens,
      writes := tx.writes ++ [.useRefreshToken id tx.beganAt newId] } := by
  simp only [exec, useTokenInTransaction, htx] at h
  split at h
  . cases h
  . cases h
    exact setTransaction_self _ _ _

theorem insertInTransaction_ok {id : ReactorId} {sessionId : SessionId} {tokenHash : Digest}
    {expiresAt : Time} {a : RefreshToken}
    (h : exec env pid (.insertTokenInTransaction id sessionId tokenHash expiresAt) e s
      = some (.ok a, s'))
    (htx : s.transaction? pid = some tx)
    : a.sessionId = sessionId
      ∧ s'.transaction? pid = some { tx with writes := tx.writes ++ [.insertRefreshToken a] } := by
  simp only [exec, insertTokenInTransaction, htx] at h
  split at h
  . cases h
  . split at h
    . cases h
      exact ⟨rfl, setTransaction_self _ _ _⟩
    . cases h

end IdentityStore

section Rotation

variable {env : Env} {K : Nat → IdentityStore → Prop}
  (hK : ∀ pid s s', Lasts s s' → K pid s → K pid s')
variable {pid : Nat} {tok : String} {α β : Type} {w w' : World (system env)}

/--
The process has its own transaction `tx`, in which it has locked the unused token `x`.
-/
structure Holds (pid : Nat) (x : RefreshToken) (tx : Transaction) (w : World (system env)) : Prop where
  transaction : w.state.transaction? pid = some tx
  locked : x.id ∈ tx.lockedTokens
  token : x ∈ w.state.refreshTokens
  unused : x.usedAt = none

theorem Holds.rely {x : RefreshToken} {tx : Transaction} (h : Holds pid x tx w)
    (hrely : (refreshOutline env K).Rely pid w w') : Holds pid x tx w' where
  transaction := hrely.2.transaction.trans h.transaction
  locked := h.locked
  token := hrely.2.locked tx h.transaction x h.token h.locked
  unused := h.unused

/--
What a rotation leaves that succeeds.
-/
structure Rotated (env : Env) (K : Nat → IdentityStore → Prop) (pid : Nat) (tok : String)
    (newToken : RefreshToken) (w : World (system env)) : Prop where
  spawned : .spawn pid (.refresh tok) ∈ w.trace
  unused : Unused env K pid tok w
  token : ∃ x ∈ w.state.refreshTokens, x.tokenHash = env.sha256 tok
    ∧ x.sessionId = newToken.sessionId ∧ Won env pid x.id w

theorem Rotated.later {newToken : RefreshToken} (h : Rotated env K pid tok newToken w)
    (hlater : Later w w') : Rotated env K pid tok newToken w' where
  spawned := hlater.trace _ h.spawned
  unused := h.unused.later hlater
  token := by
    apply token_later hlater _ h.token
    intro x x' hrevised hx
    rw [hrevised.tokenHash, hrevised.sessionId, hrevised.id]
    exact ⟨hx.1, hx.2.1, hx.2.2.later hlater⟩

theorem rejected_of_unused (h : Unused env K pid tok w) {e : AuthError} (he : e ≠ .refreshTokenReuse)
    : Rejected env K pid tok e w where
  reuse heq := absurd heq he
  reason := .inr (.inr h)

variable (env K pid tok) in
/--
What the body of the transaction ends with.
-/
abbrev RotationOutcome : Except AuthError RefreshToken → World (system env) → Prop :=
  Outcome env K pid tok (Rotated env K pid tok)

theorem unused_now {P : Call → Prop} (hstage : Stage pid tok P w) (hinv : RefreshInv env K w)
    (h : ¬ w.state.TokenUsed (env.sha256 tok)) (found : Option RefreshToken)
    (hfound : ∀ x, found = some x → x.usedAt = none) (s : IdentityStore)
    : Unused env K pid tok
      (w.after s (.call pid (Call.selectTokenForUpdate (env.sha256 tok)) (.ok found))) :=
  ⟨⟨found, List.mem_cons_self, hfound⟩, w.state, hinv.known pid _ hstage.spawned, h⟩

/--
The token and its session.
-/
def TokenOf (env : Env) (tok : String) (id : SessionId) (s : IdentityStore) : Prop :=
  ∃ x ∈ s.refreshTokens, x.tokenHash = env.sha256 tok ∧ x.sessionId = id

theorem TokenOf.lasts {id : SessionId} {s s' : IdentityStore} (h : TokenOf env tok id s)
    (hlasts : Lasts s s') : TokenOf env tok id s' := by
  obtain ⟨x, hx, hhash, hid⟩ := h
  obtain ⟨x', hx', hrevised⟩ := hlasts.refreshToken x hx
  exact ⟨x', hx', hrevised.tokenHash.trans hhash, hrevised.sessionId.trans hid⟩

theorem TokenOf.session {id : SessionId} {s : IdentityStore} (h : TokenOf env tok id s)
    (howned : s.Owned) : ∃ y ∈ s.sessions, y.id = id := by
  obtain ⟨x, hx, _, hid⟩ := h
  rw [← hid]
  exact howned.token x hx

include hK in
/--
A token that has been used: its session is revoked and the transaction committed.
-/
theorem reuse_wp {id : SessionId} {tx : Transaction}
    (hstage : Stage pid tok (fun c => c.isMinor = true) w)
    (htx : w.state.transaction? pid = some tx) (hx : TokenOf env tok id w.state)
    : (refreshOutline env K).Wp pid (RotationOutcome env K pid tok)
      (do
        query (.revokeSessionInTransaction id)
        query .commit
        fail .refreshTokenReuse) w := by
  apply wp_minor hK rfl rfl
  intro w₁ hrely₁ hinv₁ e₁ _ s₁ hexec₁
  obtain ⟨ids, htx₁⟩ :=
    IdentityStore.revokeInTransaction_ok hexec₁ (hrely₁.2.transaction.trans htx)
  have hx₁ : TokenOf env tok id s₁ := (hx.lasts hrely₁.2.lasts).lasts (.of_exec hexec₁)
  have hstage₁ := (hstage.rely hrely₁).minor (c := .revokeSessionInTransaction id) (r := .ok ()) s₁ rfl
  apply Outline.wp_call
  intro w₂ hrely₂ hinv₂ r s₂ hanswer _
  have hx₂ := hx₁.lasts hrely₂.2.lasts
  constructor
  . apply keeps_call hK hinv₂ hanswer
    . intro id' hwon
      obtain ⟨⟨newId, huse⟩, _⟩ := hwon
      have huse : _ ∈ w₂.trace := List.mem_of_ne_of_mem (by rintro ⟨⟩) huse
      have := (hstage₁.rely hrely₂).calls _ _ huse
      cases this
    . intro _ _ heq
      cases heq
  . cases r with
    | error e =>
      cases answers_internal rfl hanswer
      exact wp_rejected rejected_of_failed
    | ok _ =>
      obtain ⟨e, hexec⟩ := answers_ok hanswer
      obtain ⟨s₃, happly, hs₂⟩ := IdentityStore.commit_applies (hrely₂.2.transaction.trans htx₁) hexec
      have hmem : .revokeSession id tx.beganAt ∈ tx.writes ++ [.revokeSession id tx.beganAt] := by
        simp
      have hrevoked : s₃.SessionRevoked id :=
        IdentityStore.applyWrites_revoked happly hmem (hx₂.session hinv₂.owned)
      apply wp_rejected
      constructor
      . intro _
        obtain ⟨x, hx, hhash, hid⟩ := hx₂.lasts (.of_answers hanswer)
        exact ⟨x, hx, hhash, hid ▸ hs₂ ▸ hrevoked⟩
      . exact .inr (.inl rfl)

theorem Holds.of_exec {x : RefreshToken} {tx tx' : Transaction} (h : Holds pid x tx w) {c : Call}
    {e : Entropy} {r : Except AuthError c.Ret} {s : IdentityStore}
    (hexec : IdentityStore.exec env pid c e w.state = some (r, s)) (hc : .refreshTokens ∉ c.tables)
    (hs : s.transaction? pid = some tx') (hlocked : x.id ∈ tx'.lockedTokens)
    : Holds pid x tx' (w.after s (.call pid c r)) where
  transaction := hs
  locked := hlocked
  token := by
    have htokens : s.refreshTokens = w.state.refreshTokens :=
      (IdentityStore.exec_changes hexec).refreshTokens hc
    exact htokens ▸ h.token
  unused := h.unused

/--
The process is about to commit: it has marked the token in its transaction.
-/
structure Marked (env : Env) (pid : Nat) (tok : String) (x : RefreshToken) (tx : Transaction)
    (w : World (system env)) : Prop where
  stage : Stage pid tok (fun c => c.isMinor = true ∨ ∃ n, c = .useTokenInTransaction x.id n) w
  holds : Holds pid x tx w
  used : ∃ n, .call pid (Call.useTokenInTransaction x.id n) (.ok ()) ∈ w.trace
  write : ∃ t n, .useRefreshToken x.id t n ∈ tx.writes

theorem Marked.rely {x : RefreshToken} {tx : Transaction} (h : Marked env pid tok x tx w)
    (hrely : (refreshOutline env K).Rely pid w w') : Marked env pid tok x tx w' where
  stage := h.stage.rely hrely
  holds := h.holds.rely hrely
  used := by
    obtain ⟨n, hn⟩ := h.used
    exact ⟨n, hrely.1.mem hn⟩
  write := h.write

include hK in
theorem commit_wp {x newToken : RefreshToken} {tx : Transaction} (h : Marked env pid tok x tx w)
    (hhash : x.tokenHash = env.sha256 tok) (hsession : newToken.sessionId = x.sessionId)
    (hunused : Unused env K pid tok w)
    : (refreshOutline env K).Wp pid (RotationOutcome env K pid tok)
      (do
        query .commit
        pure newToken) w := by
  apply Outline.wp_call
  intro w₁ hrely₁ hinv₁ r s hanswer _
  have h₁ := h.rely hrely₁
  obtain ⟨t, n, hwrite⟩ := h₁.write
  have happlied : r = .ok () →
      ∃ y ∈ s.refreshTokens, y.id = x.id ∧ y.usedAt ≠ none := by
    intro heq
    subst heq
    obtain ⟨e, hexec⟩ := answers_ok hanswer
    obtain ⟨s', happly, hs⟩ := IdentityStore.commit_applies h₁.holds.transaction hexec
    have hused := IdentityStore.applyWrites_used happly hwrite ⟨x, h₁.holds.token, rfl⟩
    rw [hs]
    exact hused
  constructor
  . apply keeps_call hK hinv₁ hanswer
    . intro id hwon
      obtain ⟨⟨newId, huse⟩, hcommit⟩ := hwon
      have huse : _ ∈ w₁.trace := List.mem_of_ne_of_mem (by rintro ⟨⟩) huse
      have hid : id = x.id := by
        cases h₁.stage.calls _ _ huse with
        | inl hminor => cases hminor
        | inr huse =>
          obtain ⟨_, huse⟩ := huse
          cases huse
          rfl
      cases hcommit with
      | head => exact .inr ⟨⟨x, h₁.holds.token, hid.symm, h₁.holds.unused⟩, hid ▸ happlied rfl⟩
      | tail _ hcommit =>
        cases h₁.stage.calls _ _ hcommit with
        | inl hminor => cases hminor
        | inr huse =>
          obtain ⟨_, huse⟩ := huse
          cases huse
    . intro _ _ heq
      cases heq
  cases r with
  | error e =>
    cases answers_internal rfl hanswer
    exact wp_rejected rejected_of_failed
  | ok _ =>
    apply Outline.wp_pure
    intro w₂ hrely₂ _
    apply Rotated.later _ (rely_later hrely₂)
    constructor
    . exact List.mem_cons_of_mem _ h₁.stage.spawned
    . exact hunused.later (later_call hrely₁ hanswer)
    . obtain ⟨y, hy, hrevised⟩ := (Lasts.of_answers hanswer).refreshToken x h₁.holds.token
      refine ⟨y, hy, hrevised.tokenHash.trans hhash, hrevised.sessionId.trans hsession.symm, ?_, ?_⟩
      . obtain ⟨n, hn⟩ := h₁.used
        rw [hrevised.id]
        exact ⟨n, List.mem_cons_of_mem _ hn⟩
      . exact List.mem_cons_self

include hK in
/--
A token that has not been used: it is marked in the transaction and wins with the commit.
-/
theorem exchange_wp {x : RefreshToken} {tx : Transaction} {newId : ReactorId}
    {newTokenHash : Digest} {newExpiresAt : Time}
    (hstage : Stage pid tok (fun c => c.isMinor = true) w) (hx : Holds pid x tx w)
    (hhash : x.tokenHash = env.sha256 tok) (hunused : Unused env K pid tok w)
    : (refreshOutline env K).Wp pid (RotationOutcome env K pid tok)
      (do
        query (.useTokenInTransaction x.id newId)
        let newToken ←
          query (.insertTokenInTransaction newId x.sessionId newTokenHash newExpiresAt)
        query .commit
        pure newToken) w := by
  apply Outline.wp_call
  intro w₁ hrely₁ hinv₁ r₁ s₁ hanswer₁ _
  constructor
  . apply keeps_call hK hinv₁ hanswer₁
    . intro id hwon
      have hcommit : _ ∈ w₁.trace := List.mem_of_ne_of_mem (by rintro ⟨⟩) hwon.2
      cases (hstage.rely hrely₁).calls _ _ hcommit
    . intro _ _ heq
      cases heq
  cases r₁ with
  | error e =>
    cases answers_internal rfl hanswer₁
    exact wp_rejected rejected_of_failed
  | ok _ =>
    obtain ⟨e₁, hexec₁⟩ := answers_ok hanswer₁
    have hx₁ := hx.rely hrely₁
    have htx₁ := IdentityStore.useInTransaction_ok hexec₁ hx₁.transaction
    have hmarked : Marked env pid tok x _ (w₁.after s₁ (.call pid _ (.ok ()))) := {
      stage := (hstage.rely hrely₁).after (.inr ⟨newId, rfl⟩) (fun _ h => .inl h)
      holds := hx₁.of_exec hexec₁ (by simp [Call.tables]) htx₁ List.mem_cons_self
      used := ⟨newId, List.mem_cons_self⟩
      write := ⟨tx.beganAt, newId, by simp⟩ }
    apply wp_minor hK rfl rfl
    intro w₂ hrely₂ hinv₂ e₂ newToken s₂ hexec₂
    have hmarked₂ := hmarked.rely hrely₂
    obtain ⟨hsession, htx₂⟩ :=
      IdentityStore.insertInTransaction_ok hexec₂ hmarked₂.holds.transaction
    have hmarked₃ : Marked env pid tok x _ (w₂.after s₂ (.call pid
        (Call.insertTokenInTransaction newId x.sessionId newTokenHash newExpiresAt)
        (.ok newToken))) := {
      stage := hmarked₂.stage.after (.inl rfl) (fun _ h => h)
      holds := hmarked₂.holds.of_exec hexec₂ (by simp [Call.tables]) htx₂ hmarked₂.holds.locked
      used := by
        obtain ⟨n, hn⟩ := hmarked₂.used
        exact ⟨n, List.mem_cons_of_mem _ hn⟩
      write := by
        obtain ⟨t, n, hwrite⟩ := hmarked₂.write
        exact ⟨t, n, List.mem_append_left _ hwrite⟩ }
    refine commit_wp hK hmarked₃ hhash hsession ?_
    exact hunused.later ((later_call hrely₁ hanswer₁).trans (later_exec hrely₂ hexec₂))

include hK in
/--
The body of the transaction.
-/
theorem body_wp {tx : Transaction} {newId : ReactorId} {newTokenHash : Digest}
    {newExpiresAt : Time} (hstage : Stage pid tok (fun c => c.isMinor = true) w)
    (htx : w.state.transaction? pid = some tx)
    : (refreshOutline env K).Wp pid (RotationOutcome env K pid tok)
      (do
        let oldToken ←
          okOr (← query (.selectTokenForUpdate (env.sha256 tok))) .invalidRefreshToken
        if oldToken.usedAt.isSome then
          query (.revokeSessionInTransaction oldToken.sessionId)
          query .commit
          fail .refreshTokenReuse
        else
          let now ← query .utcNow
          require (!decide (oldToken.expiresAt < now)) .invalidRefreshToken
          query (.useTokenInTransaction oldToken.id newId)
          let newToken ←
            query (.insertTokenInTransaction newId oldToken.sessionId newTokenHash newExpiresAt)
          query .commit
          pure newToken) w := by
  apply wp_minor hK rfl rfl
  intro w₁ hrely₁ hinv₁ e₁ found s₁ hexec₁
  have hstage₁ := hstage.rely hrely₁
  cases IdentityStore.select_ok hexec₁ (hrely₁.2.transaction.trans htx) with
  | inl hnone =>
    rw [hnone.1]
    have hunused := unused_now hstage₁ hinv₁ hnone.2 none (by simp) s₁
    exact wp_rejected (rejected_of_unused hunused (by decide))
  | inr hsome =>
    obtain ⟨x, hx, hfound, hhash, htx₁⟩ := hsome
    subst hfound
    have htokens := (IdentityStore.exec_changes hexec₁).refreshTokens (by simp [Call.tables])
    have hstage₂ := hstage₁.minor (c := .selectTokenForUpdate (env.sha256 tok)) (r := .ok (some x)) s₁ rfl
    show (refreshOutline env K).Wp pid _ (ite _ _ _) _
    split
    . exact reuse_wp hK hstage₂ htx₁ ⟨x, htokens ▸ hx, hhash, rfl⟩
    . next hused =>
      have hfresh : x.usedAt = none := by simpa using hused
      have hnotUsed : ¬ w₁.state.TokenUsed (env.sha256 tok) := by
        rintro ⟨y, hy, hhash', hused'⟩
        cases RefreshToken.eq_of_tokenHash hx hy (hhash.trans hhash'.symm)
        exact hused' hfresh
      have hunused := unused_now hstage₁ hinv₁ hnotUsed (some x)
        (by intro y heq; cases heq; exact hfresh) s₁
      have hholds : Holds pid x _ (w₁.after s₁ (.call pid
          (Call.selectTokenForUpdate (env.sha256 tok)) (.ok (some x)))) := {
        transaction := htx₁
        locked := List.mem_cons_self
        token := htokens ▸ hx
        unused := hfresh }
      apply wp_minor hK rfl rfl
      intro w₂ hrely₂ hinv₂ e₂ now s₂ hexec₂
      have hstage₃ := (hstage₂.rely hrely₂).minor (c := .utcNow) (r := .ok now) s₂ rfl
      have hholds₂ := hholds.rely hrely₂
      have hholds₃ := hholds₂.of_exec hexec₂ (by simp [Call.tables])
        (exec_isRead hexec₂ rfl ▸ hholds₂.transaction) hholds₂.locked
      have hunused := hunused.later (later_exec hrely₂ hexec₂)
      apply Outline.wp_require
      . intro _
        exact exchange_wp hK hstage₃ hholds₃ hhash hunused
      . intro _
        exact wp_rejected (rejected_of_unused hunused (by decide))

include hK in
theorem rotate_wp {newId : ReactorId} {newTokenHash : Digest} {newExpiresAt : Time}
    (hstage : Stage pid tok (fun c => c.isMinor = true) w)
    : (refreshOutline env K).Wp pid (RotationOutcome env K pid tok)
      (rotateRefreshToken (env.sha256 tok) newId newTokenHash newExpiresAt) w := by
  unfold rotateRefreshToken transaction
  apply wp_minor hK rfl rfl
  intro w₁ hrely₁ hinv₁ e₁ _ s₁ hexec₁
  have hstage₁ := (hstage.rely hrely₁).minor (c := .beginTransaction) (r := .ok ()) s₁ rfl
  have htx₁ : s₁.transaction? pid = some ⟨w₁.state.now, [], [], []⟩ := by
    cases hexec₁
    apply IdentityStore.setTransaction_self
  apply Outline.wp_bind
  apply Outline.wp_attempt
  refine Outline.wp_mono (body_wp hK hstage₁ htx₁) ?_
  intro r w₂ hinv₂ hr
  cases r with
  | ok newToken =>
    apply Outline.wp_pure
    intro w₃ hrely₃ _
    exact Rotated.later hr (rely_later hrely₃)
  | error e =>
    -- The answer to the rollback does not matter.
    apply Outline.wp_bind
    apply Outline.wp_attempt
    apply Outline.wp_request
    intro w₃ hrely₃ hinv₃ r s₃ hanswer _
    constructor
    . exact keeps_minor hK hinv₃ hanswer rfl
    . intro w₄ hrely₄ _
      apply wp_rejected
      apply Rejected.later hr
      exact (rely_later hrely₃).trans ((Later.after _ (.of_answers hanswer)).trans (rely_later hrely₄))

end Rotation
end Reactor.Auth
