import ReactorCloud.Auth.Roles
import ReactorCloud.Auth.Rotation

/-!
This module contains what holds of refresh tokens in every run: each is exchanged once, its reuse
revokes the session, and a session that is revoked has no more tokens.
-/

namespace Reactor.Auth

open Interleave
open Interleave.Program
open Relational

section Refresh

variable {env : Env} {K : Nat → IdentityStore → Prop}
  (hK : ∀ pid s s', Lasts s s' → K pid s → K pid s')
variable {pid : Nat} {tok : String} {α β : Type} {w : World (system env)}

theorem wp_then {A : β → World (system env) → Prop} {B : α → World (system env) → Prop}
    {x : AuthM β} {f : β → AuthM α}
    (h : (refreshOutline env K).Wp pid (Outcome env K pid tok A) x w)
    (hnext : ∀ b w, RefreshInv env K w → A b w →
      (refreshOutline env K).Wp pid (Outcome env K pid tok B) (f b) w)
    : (refreshOutline env K).Wp pid (Outcome env K pid tok B) (x >>= f) w := by
  apply Outline.wp_bind
  refine Outline.wp_mono h ?_
  intro r w' hinv hr
  cases r with
  | ok b => exact hnext b w' hinv hr
  | error e => exact wp_rejected hr

include hK in
/--
A minor call before the rotation.
-/
theorem wp_staged {A : α → World (system env) → Prop} {c : Call} {f : c.Ret → AuthM α}
    (hstage : Stage pid tok (fun c => c.isMinor = true) w) (hminor : c.isMinor = true)
    (hinternal : c.isInternal = true)
    (h : ∀ a w, Stage pid tok (fun c => c.isMinor = true) w →
      (refreshOutline env K).Wp pid (Outcome env K pid tok A) (f a) w)
    : (refreshOutline env K).Wp pid (Outcome env K pid tok A) (query c >>= f) w := by
  apply wp_minor hK hminor hinternal
  intro w' hrely _ _ a s _
  exact h a _ ((hstage.rely hrely).minor s hminor)

include hK in
theorem newRefreshToken_wp (hstage : Stage pid tok (fun c => c.isMinor = true) w)
    : (refreshOutline env K).Wp pid
      (Outcome env K pid tok (fun _ => Stage pid tok (fun c => c.isMinor = true)))
      (AuthService.newRefreshToken env) w := by
  unfold AuthService.newRefreshToken
  apply wp_staged hK hstage rfl rfl
  intro random w₁ hstage₁
  apply wp_staged hK hstage₁ rfl rfl
  intro id w₂ hstage₂
  apply wp_staged hK hstage₂ rfl rfl
  intro now w₃ hstage₃
  apply Outline.wp_pure
  intro w₄ hrely₄ _
  exact hstage₃.rely hrely₄

include hK in
/--
A minor call after the rotation, with what lasts.
-/
theorem wp_lasting {J : World (system env) → Prop} {A : α → World (system env) → Prop} {c : Call}
    {f : c.Ret → AuthM α} (hlasting : ∀ w w', J w → Later w w' → J w') (hJ : J w)
    (hminor : c.isMinor = true) (hinternal : c.isInternal = true)
    (h : ∀ w', RefreshInv env K w' → J w' → ∀ e a s,
      IdentityStore.exec env pid c e w'.state = some (.ok a, s) →
        J (w'.after s (.call pid c (.ok a))) →
          (refreshOutline env K).Wp pid (Outcome env K pid tok A) (f a)
            (w'.after s (.call pid c (.ok a))))
    : (refreshOutline env K).Wp pid (Outcome env K pid tok A) (query c >>= f) w := by
  apply wp_minor hK hminor hinternal
  intro w' hrely hinv e a s hexec
  have hJ' := hlasting w w' hJ (rely_later hrely)
  exact h w' hinv hJ' e a s hexec (hlasting _ _ hJ' (.after _ (.of_exec hexec)))

/--
The process has rotated the token and may issue an access token for the session.
-/
structure Cleared (env : Env) (K : Nat → IdentityStore → Prop) (pid : Nat) (tok : String)
    (id : SessionId) (w : World (system env)) : Prop where
  rotated : ∃ newToken, Rotated env K pid tok newToken w
  issued : IssuedFor env K pid tok id w

theorem Cleared.later {id : SessionId} {w w' : World (system env)} (h : Cleared env K pid tok id w)
    (hlater : Later w w') : Cleared env K pid tok id w' where
  rotated := by
    obtain ⟨newToken, hrotated⟩ := h.rotated
    exact ⟨newToken, hrotated.later hlater⟩
  issued := h.issued.later hlater

theorem Cleared.rejected {id : SessionId} {e : AuthError} (h : Cleared env K pid tok id w)
    (he : e ≠ .refreshTokenReuse) : Rejected env K pid tok e w := by
  obtain ⟨newToken, hrotated⟩ := h.rotated
  exact rejected_of_unused hrotated.unused he

include hK in
/--
The call that issues the access token.
-/
theorem issueAccessToken_wp {grant : Grant} {f : AccessToken → AuthM α}
    {A : α → World (system env) → Prop} (h : Cleared env K pid tok grant.sessionId w)
    (hnext : ∀ token w, Exchanged env K pid tok w →
      (refreshOutline env K).Wp pid (Outcome env K pid tok A) (f token) w)
    : (refreshOutline env K).Wp pid (Outcome env K pid tok A)
      (query (.issueAccessToken grant) >>= f) w := by
  apply Outline.wp_call
  intro w₁ hrely₁ hinv₁ r s hanswer _
  have h₁ := h.later (rely_later hrely₁)
  have hlater : Later w₁ (w₁.after s (.call pid (Call.issueAccessToken grant) r)) :=
    .after _ (.of_answers hanswer)
  obtain ⟨newToken, hrotated⟩ := h₁.rotated
  constructor
  . apply keeps_call hK hinv₁ hanswer
    . intro id hwon
      obtain ⟨⟨newId, huse⟩, hcommit⟩ := hwon
      have huse : _ ∈ w₁.trace := List.mem_of_ne_of_mem (by rintro ⟨⟩) huse
      have hcommit : _ ∈ w₁.trace := List.mem_of_ne_of_mem (by rintro ⟨⟩) hcommit
      exact .inl ⟨⟨newId, huse⟩, hcommit⟩
    . intro tok' grant' heq hspawned
      cases heq
      cases hinv₁.unique pid _ _ hspawned hrotated.spawned
      exact h₁.issued.later hlater
  . cases r with
    | error e =>
      cases answers_internal rfl hanswer
      exact wp_rejected rejected_of_failed
    | ok token =>
      apply hnext
      constructor
      . exact hrotated.unused.later hlater
      . obtain ⟨x, hx, hhash, _, hwon⟩ := (hrotated.later hlater).token
        exact ⟨x, hx, hhash, hwon⟩
      . exact ⟨grant, token, List.mem_cons_self⟩

include hK in
/--
What comes after the rotation. The session is read without a lock.
-/
theorem issue_wp {newToken : RefreshToken} {newText : String}
    (hrotated : Rotated env K pid tok newToken w)
    : (refreshOutline env K).Wp pid (Outcome env K pid tok (fun _ => Exchanged env K pid tok))
      (do
        let session ← okOr (← query (.findSessionById newToken.sessionId)) .sessionRevoked
        require session.revokedAt.isNone .sessionRevoked
        let user ← okOr (← query (.findUserById session.userId)) .userNotFound
        require (!user.isDisabled) .userDisabled
        let orgs ← query (.listUserOrgs user.id)
        let accessToken ← query (.issueAccessToken (AuthService.grantOf user session orgs))
        let now ← query .utcNow
        pure (⟨user, session, accessToken, newText, now + seconds env.accessTtlSecs⟩ : AuthResponse))
      w := by
  apply wp_lasting hK (fun _ _ h hlater => Rotated.later h hlater) hrotated rfl rfl
  intro w₁ hinv₁ hrotated₁ e₁ found s₁ hexec₁ hrotated₂
  apply Outline.wp_okOr
  . intro session hfound
    apply Outline.wp_require
    . intro hsession
      cases hexec₁
      have hmem := Table.mem_of_find? hfound
      have hid : session.id = newToken.sessionId := by
        simpa using Table.prop_of_find? hfound
      have hcleared : Cleared env K pid tok session.id _ := {
        rotated := ⟨newToken, hrotated₂⟩
        issued := by
          constructor
          . obtain ⟨x, hx, hhash, hsessionId, _⟩ := hrotated₂.token
            exact ⟨x, hx, hhash, hsessionId.trans hid.symm⟩
          . exact ⟨w₁.state, hinv₁.known pid _ hrotated₁.spawned, session, hmem, rfl,
              by simpa using hsession⟩ }
      apply wp_lasting hK (fun _ _ h hlater => Cleared.later h hlater) hcleared rfl rfl
      intro w₂ _ _ e₂ _ s₂ _ hcleared₂
      apply Outline.wp_okOr
      . intro user _
        apply Outline.wp_require
        . intro _
          apply wp_lasting hK (fun _ _ h hlater => Cleared.later h hlater) hcleared₂ rfl rfl
          intro w₃ _ _ e₃ orgs s₃ _ hcleared₃
          apply issueAccessToken_wp hK hcleared₃
          intro token w₄ hexchanged₄
          apply wp_lasting hK (fun _ _ h hlater => Exchanged.later h hlater) hexchanged₄ rfl rfl
          intro w₅ _ _ e₅ now s₅ _ hexchanged₅
          apply Outline.wp_pure
          intro w₆ hrely₆ _
          exact hexchanged₅.later (rely_later hrely₆)
        . intro _
          exact wp_rejected (hcleared₂.rejected (by decide))
      . intro _
        exact wp_rejected (hcleared₂.rejected (by decide))
    . intro _
      exact wp_rejected (rejected_of_unused hrotated₂.unused (by decide))
  . intro _
    exact wp_rejected (rejected_of_unused hrotated₂.unused (by decide))

include hK in
theorem refresh_wp (hstage : Stage pid tok (fun c => c.isMinor = true) w)
    : (refreshOutline env K).Wp pid (RefreshPost env K pid (.refresh tok))
      (AuthService.refresh env tok) w := by
  suffices houtcome : (refreshOutline env K).Wp pid
      (Outcome env K pid tok (fun _ => Exchanged env K pid tok)) (AuthService.refresh env tok) w by
    refine Outline.wp_mono houtcome ?_
    intro r w' _ hr
    cases r with
    | ok response => exact hr
    | error e => exact hr
  apply wp_then (newRefreshToken_wp hK hstage)
  intro new w₁ _ hstage₁
  apply wp_then (rotate_wp hK hstage₁)
  intro newRefresh w₂ _ hrotated
  exact issue_wp hK hrotated

include hK in
/--
The other operations have no part in an exchange.
-/
theorem other_wp {req : Request} (hreq : ∀ tok, req ≠ .refresh tok)
    (hspawned : .spawn pid req ∈ w.trace)
    : (refreshOutline env K).Wp pid (fun _ _ => True) (Routes.handle env req) w := by
  refine Outline.wp_mono (Outline.wp_of_uses (J := fun w => .spawn pid req ∈ w.trace)
    (handle_uses env req) hspawned ?_ ?_) (fun _ _ _ _ => trivial)
  . intro w w' hrely _ hmem
    exact hrely.1.mem hmem
  . intro c hc w r s hmem hinv hanswer _
    refine ⟨?_, List.mem_cons_of_mem _ hmem⟩
    by_cases hminor : Call.isMinor c = true
    . exact keeps_minor hK hinv hanswer hminor
    . apply keeps_call hK hinv hanswer
      . intro id hwon
        have huse : ∀ id newId, c ≠ .useTokenInTransaction id newId := by
          rintro id newId rfl
          cases req <;> simp_all [Call.isRead, Request.writes]
        have hcommit : c ≠ .commit := by
          rintro rfl
          cases req <;> simp_all [Call.isRead, Request.writes]
        obtain ⟨⟨newId, hused⟩, hcommitted⟩ := hwon
        have hused : _ ∈ w.trace := List.mem_of_ne_of_mem (by rintro ⟨⟩; exact huse _ _ rfl) hused
        have hcommitted : _ ∈ w.trace :=
          List.mem_of_ne_of_mem (by rintro ⟨⟩; exact hcommit rfl) hcommitted
        exact .inl ⟨⟨newId, hused⟩, hcommitted⟩
      . intro tok grant _ hspawned'
        exact absurd (hinv.unique pid _ _ hmem hspawned') (hreq tok)

include hK in
theorem refreshOutline_sound : (refreshOutline env K).Sound where
  spawn w pid req hinv hfresh hok := keeps_spawn hK hinv hfresh (hok pid req rfl)
  program w pid req _ hfresh _ := by
    have hspawned : .spawn pid req ∈ (w.after w.state (.spawn pid req)).trace :=
      List.mem_cons_self
    cases req with
    | refresh tok =>
      apply refresh_wp hK
      constructor
      . exact hspawned
      . intro c r hmem
        cases hmem with
        | tail _ hmem => exact absurd rfl (hfresh _ hmem)
    | _ => exact other_wp hK (by intro _ heq; cases heq) hspawned
  finish w pid req r hinv _ hpost _ := keeps_finish hK hinv hpost
  crash w pid req hinv _ _ := keeps_crash hK hinv
  tick w d hinv _ := keeps_tick hK hinv d

end Refresh

section Runs

variable {env : Env} {ms ms' : List (Move (system env))} {c c' : Config (system env)} {tok : String}

/--
The event ends an exchange of the token with a success.
-/
def Exchanges (tok : String) : Event (system env) → Bool
  | .finish _ (.refresh token) (.ok _) => token == tok
  | _ => false

/--
The session of the token has been revoked.
-/
def Dead (env : Env) (tok : String) (s : IdentityStore) : Prop :=
  ∃ x ∈ s.refreshTokens, x.tokenHash = env.sha256 tok ∧ s.SessionRevoked x.sessionId

/--
What holds of the refresh tokens in every run of the service.
-/
structure SingleUse (env : Env) : Prop where
  /-- A token is exchanged at most once. -/
  once : ∀ (ms : List (Move (system env))) c tok, Config.run ms (.start .empty) = some c →
    c.world.trace.countP (Exchanges tok) ≤ 1
  /-- A token that a process finds used has its session revoked, if no statement of the process fails. -/
  found : ∀ (ms : List (Move (system env))) c pid tok r, Config.run ms (.start .empty) = some c →
    .finish pid (.refresh tok) r ∈ c.world.trace →
      ¬ SawUnused env pid tok c.world → ¬ CallFailed env pid c.world →
        r = .error .refreshTokenReuse ∧ Dead env tok c.world.state
  /-- So has one that has been used before the process starts. -/
  reused : ∀ (ms ms' : List (Move (system env))) c c' tok r,
    Config.run ms (.start .empty) = some c → c.world.state.TokenUsed (env.sha256 tok) →
      Config.run (.spawn (Request.refresh tok) :: ms') c = some c' →
        .finish c.next (.refresh tok) r ∈ c'.world.trace → ¬ CallFailed env c.next c'.world →
          r = .error .refreshTokenReuse ∧ Dead env tok c'.world.state
  /-- No token of a revoked session is exchanged for an access token any more. -/
  revoked : ∀ (ms ms' : List (Move (system env))) c c' tok x,
    Config.run ms (.start .empty) = some c → c.world.state.SessionRevoked x.sessionId →
      Config.run (.spawn (Request.refresh tok) :: ms') c = some c' →
        x ∈ c'.world.state.refreshTokens → x.tokenHash = env.sha256 tok →
          (∀ response, .finish c.next (.refresh tok) (.ok response) ∉ c'.world.trace)
            ∧ ∀ grant r, .call c.next (Call.issueAccessToken grant) r ∉ c'.world.trace

theorem refreshInv_start (env : Env) (K : Nat → IdentityStore → Prop)
    : RefreshInv env K ⟨.empty, []⟩ where
  locked := {
    writes _ _ h := by cases h
    exclusive _ _ _ _ h := by cases h }
  owned := {
    token _ h := by cases h
    pending _ _ h := by cases h }
  unique _ _ _ h := by cases h
  known _ _ h := by cases h
  winner _ _ _ h := by cases h.2
  used _ _ h := by cases h.2
  issued _ _ _ _ h := by cases h
  exchanged _ _ _ h := by cases h
  rejected _ _ _ h := by cases h

/--
A condition that lasts and holds when the process `c.next` is spawned.
-/
theorem refreshInv_run {P : IdentityStore → Prop} (hP : ∀ s s', Lasts s s' → P s → P s')
    (hrun : Config.run ms (.start .empty) = some c) (hc : P c.world.state) {req : Request}
    (hrun' : Config.run (.spawn req :: ms') c = some c')
    : RefreshInv env (fun pid s => pid = c.next → P s) c'.world := by
  have hsound : (refreshOutline env (fun pid s => pid = c.next → P s)).Sound :=
    refreshOutline_sound (fun pid s s' hlasts h heq => hP s s' hlasts (h heq))
  have hbefore : Config.Along (refreshOutline env (fun pid s => pid = c.next → P s)).ok ms
      (.start .empty) := by
    refine Config.along_mono (Config.along_spawns hrun) ?_
    intro w e hspawn pid req heq hpid
    have := (hspawn pid req heq).2
    omega
  have hafter : Config.Along (refreshOutline env (fun pid s => pid = c.next → P s)).ok
      (.spawn req :: ms') c := by
    refine ⟨fun _ _ _ _ => hc, Config.along_mono (Config.along_spawns hrun') ?_⟩
    intro w e hspawn pid req heq hpid
    have := (hspawn pid req heq).1
    simp only at this
    omega
  have hwhole := Config.run_append ms (.spawn req :: ms') (.start .empty)
  rw [hrun] at hwhole
  have hvalid : (refreshOutline env (fun pid s => pid = c.next → P s)).Valid (.start .empty) :=
    .start (refreshInv_start _ _)
  exact (hsound.run hvalid (Config.along_join hbefore hrun hafter) (hwhole.trans hrun')).1.inv

/--
Nothing is known of the processes.
-/
theorem valid_run (hrun : Config.run ms (.start .empty) = some c)
    : (refreshOutline env (fun _ _ => True)).Valid c := by
  have hsound : (refreshOutline env (fun _ _ => True)).Sound :=
    refreshOutline_sound (fun _ _ _ _ _ => trivial)
  have hvalid : (refreshOutline env (fun _ _ => True)).Valid (.start .empty) :=
    .start (refreshInv_start _ _)
  have hok : Config.Along (refreshOutline env (fun _ _ => True)).ok ms (.start .empty) :=
    Config.along_mono (Config.along_true _ _) (fun _ _ _ _ _ _ => trivial)
  exact (hsound.run hvalid hok hrun).1

theorem exchanged_once (hrun : Config.run ms (.start .empty) = some c) (tok : String)
    : c.world.trace.countP (Exchanges tok) ≤ 1 := by
  have hvalid := valid_run hrun
  have hexchanged : ∀ e ∈ c.world.trace, Exchanges tok e = true →
      ∃ pid, e.finished? = some pid ∧ Exchanged env (fun _ _ => True) pid tok c.world := by
    intro e he hex
    unfold Exchanges at hex
    split at hex
    . next pid tok' response =>
      cases eq_of_beq hex
      exact ⟨pid, rfl, hvalid.inv.exchanged pid _ response he⟩
    . cases hex
  by_cases hany : ∃ e ∈ c.world.trace, Exchanges tok e = true
  . obtain ⟨e, he, hex⟩ := hany
    obtain ⟨p, _, hp⟩ := hexchanged e he hex
    obtain ⟨x, hx, hhash, hwon⟩ := hp.won
    apply hvalid.tidy.countP_le_one p
    intro e' he' hex'
    obtain ⟨q, hfinished, hq⟩ := hexchanged e' he' hex'
    obtain ⟨x', hx', hhash', hwon'⟩ := hq.won
    cases RefreshToken.eq_of_tokenHash hx hx' (hhash.trans hhash'.symm)
    rw [hfinished, hvalid.inv.winner p q x.id hwon hwon']
  . have hzero : c.world.trace.countP (Exchanges tok) = 0 := by
      rw [List.countP_eq_zero]
      intro e he hex
      exact hany ⟨e, he, hex⟩
    omega

/--
A presentation that did not see the token unused.
-/
theorem RefreshInv.reuse {K : Nat → IdentityStore → Prop} {w : World (system env)} {pid : Nat}
    {r : Except AuthError AuthResponse} (hinv : RefreshInv env K w)
    (hfinish : .finish pid (.refresh tok) r ∈ w.trace) (hunused : ¬ Unused env K pid tok w)
    (hcall : ¬ CallFailed env pid w) : r = .error .refreshTokenReuse ∧ Dead env tok w.state := by
  cases r with
  | ok response => exact absurd (hinv.exchanged pid tok response hfinish).unused hunused
  | error e =>
    have hrejected := hinv.rejected pid tok e hfinish
    have he : e = .refreshTokenReuse := by
      rcases hrejected.reason with hfailed | he | hunused'
      . exact absurd hfailed hcall
      . exact he
      . exact absurd hunused' hunused
    subst he
    exact ⟨rfl, hrejected.reuse rfl⟩

theorem refresh_singleUse (env : Env) : SingleUse env where
  once ms c tok hrun := exchanged_once hrun tok
  found ms c pid tok r hrun hfinish hsaw hcall := by
    apply (valid_run hrun).inv.reuse hfinish _ hcall
    intro hunused
    exact hsaw hunused.1
  reused ms ms' c c' tok r hrun hused hrun' hfinish hcall := by
    have hinv := refreshInv_run (P := fun s => s.TokenUsed (env.sha256 tok))
      (fun _ _ hlasts h => h.lasts hlasts) hrun hused hrun'
    apply hinv.reuse hfinish _ hcall
    intro hunused
    obtain ⟨_, s, hs, hnot⟩ := hunused
    exact hnot (hs rfl)
  revoked ms ms' c c' tok x hrun hrevoked hrun' hx hhash := by
    have hinv := refreshInv_run (P := fun s => s.SessionRevoked x.sessionId)
      (fun _ _ hlasts h => h.lasts hlasts) hrun hrevoked hrun'
    have hspawned : .spawn c.next (.refresh tok) ∈ c'.world.trace := by
      simp only [Config.run, Config.step] at hrun'
      exact Config.run_trace hrun' List.mem_cons_self
    have hissue : ∀ grant r, .call c.next (Call.issueAccessToken grant) r ∉ c'.world.trace := by
      intro grant r hissue
      obtain ⟨⟨x', hx', hhash', hid⟩, s, hs, y, hy, hid', hunrevoked⟩ :=
        hinv.issued c.next tok grant r hspawned hissue
      cases RefreshToken.eq_of_tokenHash hx hx' (hhash.trans hhash'.symm)
      obtain ⟨z, hz, hid'', hrevoked⟩ := hs rfl
      cases Session.eq_of_id hy hz ((hid'.trans hid.symm).trans hid''.symm)
      exact hrevoked hunrevoked
    constructor
    . intro response hfinish
      obtain ⟨grant, token, hcall⟩ := (hinv.exchanged c.next tok response hfinish).issued
      exact hissue grant (.ok token) hcall
    . exact hissue

/--
A client refreshes, an old copy of its token is presented, and the client refreshes again.
-/
def replay : List (Move (system Env.transparent)) :=
  operation 0 (.signup "ada@x" "password" .null) (List.replicate 13 ⟨1, "a"⟩)
    ++ operation 1 (.refresh "rrf_a") (List.replicate 14 ⟨2, "b"⟩)
    ++ operation 2 (.refresh "rrf_a") (List.replicate 8 ⟨3, "c"⟩)
    ++ operation 3 (.refresh "rrf_b") (List.replicate 10 ⟨4, "d"⟩)

def outcomeOf : Event (system Env.transparent) → Option (Option AuthError)
  | .finish _ (.refresh _) (.ok _) => some none
  | .finish _ (.refresh _) (.error e) => some (some e)
  | _ => none

example : (Config.run replay (.start .empty)).map (fun c => c.world.trace.filterMap outcomeOf)
    = some [some .sessionRevoked, some .refreshTokenReuse, none] := by
  decide

end Runs
end Reactor.Auth
