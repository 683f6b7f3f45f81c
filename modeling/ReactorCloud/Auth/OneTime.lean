import ReactorCloud.Auth.Lasts
import ReactorCloud.Interleave.OneTime

/-!
This module contains what holds of authorization codes and of the tokens of mails in every run: each is
used up by one request at most, and that request had what is stored with it.
-/

namespace Reactor.Auth

open Interleave
open Interleave.Program
open Relational

/--
The row is the same, or it was unused and has been used as `use` says.
-/
def Spent {α : Type} (usedAt : α → Option Time) (use : α → α → Prop) (r r' : α) : Prop :=
  r' = r ∨ (usedAt r = none ∧ usedAt r' ≠ none ∧ use r r')

namespace Spent

variable {α : Type} {usedAt : α → Option Time} {use : α → α → Prop} {r r' r'' : α}

theorem refl (r : α) : Spent usedAt use r r := .inl rfl

/--
A used row does not change any more.
-/
theorem used (h : Spent usedAt use r r') (hused : usedAt r ≠ none) : r' = r := by
  cases h with
  | inl heq => exact heq
  | inr h => exact absurd h.1 hused

theorem trans (h : Spent usedAt use r r') (h' : Spent usedAt use r' r'') : Spent usedAt use r r'' := by
  rcases h with rfl | ⟨hnone, hused, huse⟩
  . exact h'
  . rw [h'.used hused]
    exact .inr ⟨hnone, hused, huse⟩

/--
What holds of a row goes on to hold if the use of a row leaves it alone.
-/
theorem holds {P : α → Prop} (h : Spent usedAt use r r') (huse : usedAt r = none → use r r' → P r → P r')
    (hP : P r) : P r' := by
  rcases h with rfl | ⟨hnone, _, hused⟩
  . exact hP
  . exact huse hnone hused hP

end Spent

abbrev AuthorizationCodeRow.Spent : AuthorizationCodeRow → AuthorizationCodeRow → Prop :=
  Auth.Spent (·.usedAt) fun c c' =>
    ∃ t id, t < c.expiresAt ∧ c' = { c with usedAt := some t, sessionId := some id }

abbrev VerificationTokenRow.Spent : VerificationTokenRow → VerificationTokenRow → Prop :=
  Auth.Spent (·.usedAt) (fun t t' => ∃ time, t' = { t with usedAt := some time })

theorem AuthorizationCodeRow.eq_of_codeHash {t : Table AuthorizationCodeRow} {c c' : AuthorizationCodeRow}
    (hc : c ∈ t) (hc' : c' ∈ t) (h : c.codeHash = c'.codeHash) : c = c' := by
  apply Table.eq_of_conflict hc hc'
  simp [Constrained.conflict, h]

theorem VerificationTokenRow.eq_of_tokenHash {t : Table VerificationTokenRow} {x x' : VerificationTokenRow}
    (hx : x ∈ t) (hx' : x' ∈ t) (h : x.tokenHash = x'.tokenHash) : x = x' := by
  apply Table.eq_of_conflict hx hx'
  simp [Constrained.conflict, h]

/--
No code and no token goes away, and what is used stays as it is.
-/
structure TokensLast (s s' : IdentityStore) : Prop where
  code : ∀ c ∈ s.authorizationCodes, ∃ c' ∈ s'.authorizationCodes, c.Spent c'
  token : ∀ t ∈ s.verificationTokens, ∃ t' ∈ s'.verificationTokens, t.Spent t'

namespace IdentityStore

variable {s s' : IdentityStore}

theorem exec_authorizationCodes {env : Env} {pid : Nat} {c : Call} {e : Entropy}
    {r : Except AuthError c.Ret} (h : exec env pid c e s = some (r, s'))
    : Table.Evolves (fun _ => True) AuthorizationCodeRow.Spent s.authorizationCodes
        s'.authorizationCodes := by
  have hsame : .authorizationCodes ∉ c.tables → Table.Evolves (fun _ => True)
      AuthorizationCodeRow.Spent s.authorizationCodes s'.authorizationCodes :=
    fun hc => .of_eq Spent.refl ((exec_changes h).authorizationCodes hc)
  cases c with
  | createAuthorizationCode =>
    have hs := state_of_some h
    unfold createAuthorizationCode at hs
    split at hs
    . split at hs
      . next hinsert =>
        subst hs
        exact .insert Spent.refl trivial hinsert
      . subst hs
        exact .refl Spent.refl _
    . subst hs
      exact .refl Spent.refl _
  | useAuthorizationCode codeHash sessionId =>
    have hs := state_of_some h
    unfold useAuthorizationCode at hs
    split at hs
    . subst hs
      dsimp only
      apply Table.Evolves.modify
      intro c _
      split
      . next husable =>
        simp only [usableCode, Bool.and_eq_true, beq_iff_eq, Option.isNone_iff_eq_none,
          decide_eq_true_eq] at husable
        exact .inr ⟨husable.1.2, nofun, s.now, sessionId, husable.2, rfl⟩
      . exact .refl c
    . subst hs
      exact .refl Spent.refl _
  | _ => exact hsame (by simp [Call.tables])

theorem exec_verificationTokens {env : Env} {pid : Nat} {c : Call} {e : Entropy}
    {r : Except AuthError c.Ret} (h : exec env pid c e s = some (r, s'))
    : Table.Evolves (fun _ => True) VerificationTokenRow.Spent s.verificationTokens
        s'.verificationTokens := by
  have hsame : .verificationTokens ∉ c.tables → Table.Evolves (fun _ => True)
      VerificationTokenRow.Spent s.verificationTokens s'.verificationTokens :=
    fun hc => .of_eq Spent.refl ((exec_changes h).verificationTokens hc)
  cases c with
  | createVerificationToken =>
    have hs := state_of_some h
    unfold createVerificationToken at hs
    dsimp only at hs
    split at hs
    . split at hs
      . next hinsert =>
        subst hs
        exact .insert Spent.refl trivial hinsert
      . subst hs
        exact .refl Spent.refl _
    . subst hs
      exact .refl Spent.refl _
  | useVerificationToken tokenHash =>
    have hs := state_of_some h
    unfold useVerificationToken at hs
    dsimp only at hs
    split at hs
    . subst hs
      dsimp only
      apply Table.Evolves.modify
      intro t _
      split
      . next hunused =>
        simp only [Bool.and_eq_true, beq_iff_eq, Option.isNone_iff_eq_none] at hunused
        exact .inr ⟨hunused.2, nofun, s.now, rfl⟩
      . exact .refl t
    . subst hs
      exact .refl Spent.refl _
  | _ => exact hsame (by simp [Call.tables])

/--
The code exists and has been used.
-/
def CodeUsed (s : IdentityStore) (codeHash : Digest) : Prop :=
  ∃ c ∈ s.authorizationCodes, c.codeHash = codeHash ∧ c.usedAt ≠ none

def MailTokenUsed (s : IdentityStore) (tokenHash : Digest) : Prop :=
  ∃ t ∈ s.verificationTokens, t.tokenHash = tokenHash ∧ t.usedAt ≠ none

/--
What a call of `useAuthorizationCode` that is answered has found.
-/
theorem useAuthorizationCode_ok {codeHash : Digest} {sessionId : SessionId} {a : Unit}
    (h : s.useAuthorizationCode codeHash sessionId = (.ok a, s'))
    : ∃ c ∈ s.authorizationCodes, c.codeHash = codeHash ∧ c.usedAt = none ∧ s.now < c.expiresAt
      ∧ { c with usedAt := some s.now, sessionId := some sessionId } ∈ s'.authorizationCodes := by
  unfold useAuthorizationCode at h
  split at h
  . next hany =>
    obtain ⟨c, hc, husable⟩ := Table.any_eq_true.mp hany
    cases h
    refine ⟨c, hc, ?_⟩
    have hset := husable
    simp only [usableCode, Bool.and_eq_true, beq_iff_eq, Option.isNone_iff_eq_none,
      decide_eq_true_eq] at husable
    refine ⟨husable.1.1, husable.1.2, husable.2, ?_⟩
    rw [Table.mem_modify]
    refine ⟨c, hc, ?_⟩
    rw [if_pos hset]
  . cases h

theorem useVerificationToken_ok {tokenHash : Digest} {a : Unit}
    (h : s.useVerificationToken tokenHash = (.ok a, s'))
    : ∃ t ∈ s.verificationTokens, t.tokenHash = tokenHash ∧ t.usedAt = none
      ∧ { t with usedAt := some s.now } ∈ s'.verificationTokens := by
  unfold useVerificationToken at h
  dsimp only at h
  split at h
  . next hany =>
    obtain ⟨t, ht, hunused⟩ := Table.any_eq_true.mp hany
    cases h
    refine ⟨t, ht, ?_⟩
    have hset := hunused
    simp only [Bool.and_eq_true, beq_iff_eq, Option.isNone_iff_eq_none] at hunused
    refine ⟨hunused.1, hunused.2, ?_⟩
    rw [Table.mem_modify]
    refine ⟨t, ht, ?_⟩
    rw [if_pos hset]
  . cases h

theorem codeUsed_of_use {codeHash : Digest} {sessionId : SessionId} {a : Unit}
    (h : s.useAuthorizationCode codeHash sessionId = (.ok a, s'))
    : ¬ s.CodeUsed codeHash ∧ s'.CodeUsed codeHash := by
  obtain ⟨c, hc, hhash, hnone, _, hmem⟩ := useAuthorizationCode_ok h
  constructor
  . rintro ⟨c', hc', hhash', hused⟩
    obtain rfl := AuthorizationCodeRow.eq_of_codeHash hc hc' (hhash.trans hhash'.symm)
    exact hused hnone
  . exact ⟨_, hmem, hhash, nofun⟩

theorem mailTokenUsed_of_use {tokenHash : Digest} {a : Unit}
    (h : s.useVerificationToken tokenHash = (.ok a, s'))
    : ¬ s.MailTokenUsed tokenHash ∧ s'.MailTokenUsed tokenHash := by
  obtain ⟨t, ht, hhash, hnone, hmem⟩ := useVerificationToken_ok h
  constructor
  . rintro ⟨t', ht', hhash', hused⟩
    obtain rfl := VerificationTokenRow.eq_of_tokenHash ht ht' (hhash.trans hhash'.symm)
    exact hused hnone
  . exact ⟨_, hmem, hhash, nofun⟩

end IdentityStore

namespace TokensLast

variable {s s' s'' : IdentityStore}

theorem of_eq (hcodes : s'.authorizationCodes = s.authorizationCodes)
    (htokens : s'.verificationTokens = s.verificationTokens) : TokensLast s s' where
  code c hc := ⟨c, hcodes.symm ▸ hc, .refl c⟩
  token t ht := ⟨t, htokens.symm ▸ ht, .refl t⟩

theorem refl (s : IdentityStore) : TokensLast s s := .of_eq rfl rfl

theorem trans (h : TokensLast s s') (h' : TokensLast s' s'') : TokensLast s s'' where
  code c hc := by
    obtain ⟨c', hc', hrevised⟩ := h.code c hc
    obtain ⟨c'', hc'', hrevised'⟩ := h'.code c' hc'
    exact ⟨c'', hc'', hrevised.trans hrevised'⟩
  token t ht := by
    obtain ⟨t', ht', hrevised⟩ := h.token t ht
    obtain ⟨t'', ht'', hrevised'⟩ := h'.token t' ht'
    exact ⟨t'', ht'', hrevised.trans hrevised'⟩

theorem of_answers {env : Env} {pid : Nat} {c : Call} {r : Except AuthError c.Ret}
    (h : Answers (system env) pid c s r s') : TokensLast s s' := by
  cases h.effect with
  | inl heq =>
    subst heq
    exact .refl _
  | inr hexec =>
    obtain ⟨e, r', hexec⟩ := hexec
    exact ⟨(IdentityStore.exec_authorizationCodes hexec).forward,
      (IdentityStore.exec_verificationTokens hexec).forward⟩

theorem of_steps {env : Env} {c : Config (system env)} {next : Event (system env) × Config (system env)}
    (h : Config.Steps c next) : TokensLast c.world.state next.2.world.state := by
  cases h with
  | spawn req => exact .refl _
  | answer hp hanswer => exact .of_answers hanswer
  | finish hp => exact .of_eq rfl rfl
  | crash hp => exact .of_eq rfl rfl
  | tick t => exact .of_eq rfl rfl

theorem codeUsed {codeHash : Digest} (h : TokensLast s s') (hused : s.CodeUsed codeHash)
    : s'.CodeUsed codeHash := by
  obtain ⟨c, hc, hhash, hused⟩ := hused
  obtain ⟨c', hc', hrevised⟩ := h.code c hc
  rw [hrevised.used hused] at hc'
  exact ⟨c, hc', hhash, hused⟩

theorem mailTokenUsed {tokenHash : Digest} (h : TokensLast s s') (hused : s.MailTokenUsed tokenHash)
    : s'.MailTokenUsed tokenHash := by
  obtain ⟨t, ht, hhash, hused⟩ := hused
  obtain ⟨t', ht', hrevised⟩ := h.token t ht
  rw [hrevised.used hused] at ht'
  exact ⟨t, ht', hhash, hused⟩

end TokensLast
end Reactor.Auth

/-! ## The runs -/

namespace Reactor.Auth

open Interleave
open Interleave.Program
open Relational

variable {env : Env}

/--
The stored code that a request which got tokens had to know.
-/
structure Redeemed (env : Env) (code codeVerifier clientId redirectUri : String)
    (response : AuthorizationCodeResponse) (row : AuthorizationCodeRow) : Prop where
  codeHash : row.codeHash = env.sha256 code
  clientId : row.clientId = clientId
  redirectUri : row.redirectUri = redirectUri
  verifier : AuthService.verifyPkceChallenge env codeVerifier row.codeChallenge row.codeChallengeMethod = true
  scopes : response.scopes = row.scopes
  user : response.user.id = row.userId
  session : response.session.userId = row.userId ∧ row.sessionId = some response.session.id
  inTime : ∃ t, row.usedAt = some t ∧ t < row.expiresAt

/--
The stored token of a mail that a request had to know.
-/
structure Presented (env : Env) (token tokenType : String) (row : VerificationTokenRow) : Prop where
  tokenHash : row.tokenHash = env.sha256 token
  tokenType : row.tokenType = tokenType
  used : row.usedAt ≠ none

/--
The process has used up the code of the hash.
-/
def UsedCode (pid : Nat) (codeHash : Digest) (w : World (system env)) : Prop :=
  ∃ sessionId, .call pid (Call.useAuthorizationCode codeHash sessionId) (.ok ()) ∈ w.trace

def UsedMailToken (pid : Nat) (tokenHash : Digest) (w : World (system env)) : Prop :=
  .call pid (Call.useVerificationToken tokenHash) (.ok ()) ∈ w.trace

/--
What an answered request has used up, and what it leaves in the store.
-/
def Granted (pid : Nat) : (req : Request) → req.Reply → World (system env) → Prop
  | .exchange code codeVerifier clientId redirectUri, response, w =>
    UsedCode pid (env.sha256 code) w ∧ ∃ row ∈ w.state.authorizationCodes,
      Redeemed env code codeVerifier clientId redirectUri response row
  | .verifyEmail token, user, w =>
    UsedMailToken pid (env.sha256 token) w ∧ ∃ row ∈ w.state.verificationTokens,
      Presented env token "email" row ∧ row.userId = user.id
  | .confirmPasswordReset token _, _, w =>
    UsedMailToken pid (env.sha256 token) w ∧ ∃ row ∈ w.state.verificationTokens,
      Presented env token "password_reset" row
  | _, _, _ => True

/--
Codes and tokens have stayed, and nothing that happened is forgotten.
-/
structure Since (w w' : World (system env)) : Prop where
  last : TokensLast w.state w'.state
  trace : w.trace ⊆ w'.trace

/--
An assertion that lasts.
-/
def Lasting (J : World (system env) → Prop) : Prop :=
  ∀ w w', Since w w' → J w → J w'

theorem Lasting.and {J K : World (system env) → Prop} (hJ : Lasting J) (hK : Lasting K)
    : Lasting (fun w => J w ∧ K w) :=
  fun w w' hsince h => ⟨hJ w w' hsince h.1, hK w w' hsince h.2⟩

theorem lasting_usedCode (pid : Nat) (codeHash : Digest) : @Lasting env (UsedCode pid codeHash) := by
  rintro w w' hsince ⟨sessionId, hmem⟩
  exact ⟨sessionId, hsince.trace hmem⟩

theorem lasting_usedMailToken (pid : Nat) (tokenHash : Digest)
    : @Lasting env (UsedMailToken pid tokenHash) :=
  fun _ _ hsince hmem => hsince.trace hmem

/--
A row with what its use leaves alone, or that is used, is still there.
-/
theorem lasting_code {P : AuthorizationCodeRow → Prop}
    (h : ∀ row t id, row.usedAt = none → P row → P { row with usedAt := some t, sessionId := some id })
    : @Lasting env (fun w => ∃ row ∈ w.state.authorizationCodes, P row) := by
  rintro w w' hsince ⟨row, hrow, hP⟩
  obtain ⟨row', hrow', hspent⟩ := hsince.last.code row hrow
  refine ⟨row', hrow', hspent.holds ?_ hP⟩
  rintro hnone ⟨t, id, _, rfl⟩ hP
  exact h row t id hnone hP

theorem lasting_token {P : VerificationTokenRow → Prop}
    (h : ∀ row t, row.usedAt = none → P row → P { row with usedAt := some t })
    : @Lasting env (fun w => ∃ row ∈ w.state.verificationTokens, P row) := by
  rintro w w' hsince ⟨row, hrow, hP⟩
  obtain ⟨row', hrow', hspent⟩ := hsince.last.token row hrow
  refine ⟨row', hrow', hspent.holds ?_ hP⟩
  rintro hnone ⟨t, rfl⟩ hP
  exact h row t hnone hP

theorem lasting_granted (pid : Nat) (req : Request) (a : req.Reply)
    : @Lasting env (Granted pid req a) := by
  cases req with
  | exchange code codeVerifier clientId redirectUri =>
    apply (lasting_usedCode _ _).and
    apply lasting_code
    intro row t id hnone hredeemed
    obtain ⟨t, ht, _⟩ := hredeemed.inTime
    simp [hnone] at ht
  | verifyEmail token =>
    exact (lasting_usedMailToken _ _).and (lasting_token fun _ _ hnone h => absurd hnone h.1.used)
  | confirmPasswordReset token newPassword =>
    exact (lasting_usedMailToken _ _).and (lasting_token fun _ _ hnone h => absurd hnone h.used)
  | _ => exact fun _ _ _ _ => trivial

/--
The processes can rely on the codes and tokens that were there.
-/
def oneTimeOutline (env : Env) : Outline (system env) where
  inv w := ∀ pid req a, .finish pid req (.ok a) ∈ w.trace → Granted pid req a w
  ok _ _ := True
  safe _ _ := True
  rely _ w w' := TokensLast w.state w'.state
  post pid req r w := ∀ a, r = .ok a → Granted pid req a w
  rely_refl _ w := .refl w.state
  rely_trans _ _ _ _ h h' := h.trans h'

theorem keeps_of_last {w : World (system env)} {s : IdentityStore} {e : Event (system env)}
    (hinv : (oneTimeOutline env).inv w) (hlast : TokensLast w.state s)
    (he : ∀ pid req a, e = .finish pid req (.ok a) → Granted pid req a w)
    : (oneTimeOutline env).Keeps w s e where
  safe := trivial
  inv pid req a hmem := by
    apply lasting_granted pid req a w
    . exact ⟨hlast, List.subset_cons_self e w.trace⟩
    . cases hmem with
      | head => exact he pid req a rfl
      | tail _ hmem => exact hinv pid req a hmem
  rely _ _ := hlast

section Programs

variable {pid : Nat} {α β : Type} {w : World (system env)} {Q : α → World (system env) → Prop}
  {J : World (system env) → Prop} {c : Call} {f : c.Ret → AuthM α}

/--
What holds of the value of a program if it returns one.
-/
abbrev Returns (pid : Nat) (Q : α → World (system env) → Prop) (x : AuthM α) (w : World (system env)) : Prop :=
  (oneTimeOutline env).Wp pid (fun r w => ∀ a, r = .ok a → Q a w) x w

theorem returns_fail (e : AuthError) : Returns pid Q (fail e) w := by
  apply Outline.wp_fail
  intro w' _ _ a heq
  cases heq

theorem returns_pure {a : α} (hlasting : Lasting (Q a)) (h : Q a w) : Returns pid Q (pure a) w := by
  apply Outline.wp_pure
  intro w' hrely _ a' heq
  cases heq
  exact hlasting _ _ ⟨hrely.2, hrely.1.subset⟩ h

/--
The rule for a statement in front of which an assertion holds that lasts.
-/
theorem returns_query (hlasting : Lasting J) (hJ : J w)
    (h : ∀ (w' : World (system env)) e a s, J w' → IdentityStore.exec env pid c e w'.state = some (.ok a, s)
      → J (w'.after s (.call pid c (.ok a))) → Returns pid Q (f a) (w'.after s (.call pid c (.ok a))))
    : Returns pid Q (query c >>= f) w := by
  apply Outline.wp_call
  intro w' hrely hinv r s hanswer _
  constructor
  . exact keeps_of_last hinv (.of_answers hanswer) (fun _ _ _ => nofun)
  . cases r with
    | ok a =>
      obtain ⟨e, hexec⟩ := hanswer.ok
      have hJ' := hlasting _ _ ⟨hrely.2, hrely.1.subset⟩ hJ
      exact h w' e a s hJ' hexec (hlasting _ _ ⟨.of_answers hanswer, List.subset_cons_self _ _⟩ hJ')
    | error e => exact returns_fail e

theorem returns_okOr {o : Option β} {e : AuthError} {g : β → AuthM α}
    (h : ∀ b, o = some b → Returns pid Q (g b) w) : Returns pid Q (okOr o e >>= g) w :=
  Outline.wp_okOr h (fun _ => returns_fail e)

theorem returns_require {b : Bool} {e : AuthError} {g : Unit → AuthM α}
    (h : b = true → Returns pid Q (g ()) w) : Returns pid Q (require b e >>= g) w :=
  Outline.wp_require h (fun _ => returns_fail e)

/--
A statement whose answer does not matter.
-/
theorem returns_skip (hlasting : Lasting J) (hJ : J w)
    (h : ∀ a (w' : World (system env)), J w' → Returns pid Q (f a) w') : Returns pid Q (query c >>= f) w :=
  returns_query hlasting hJ (fun _ _ a _ _ _ hJ => h a _ hJ)

theorem newRefreshToken_bind_returns {g : String × RefreshTokenData → AuthM α} (hlasting : Lasting J)
    (hJ : J w) (h : ∀ a (w' : World (system env)), J w' → Returns pid Q (g a) w')
    : Returns pid Q (AuthService.newRefreshToken env >>= g) w := by
  unfold AuthService.newRefreshToken
  rw [bind_assoc]
  apply returns_skip hlasting hJ
  intro _ _ hJ
  rw [bind_assoc]
  apply returns_skip hlasting hJ
  intro _ _ hJ
  rw [bind_assoc]
  apply returns_skip hlasting hJ
  intro _ _ hJ
  exact h _ _ hJ

/--
The tokens are those of the user and the session they are issued for.
-/
theorem issueTokens_bind_returns {user : User} {session : Session} {g : AuthResponse → AuthM α}
    (hlasting : Lasting J) (hJ : J w)
    (h : ∀ response (w' : World (system env)), response.user = user → response.session = session → J w'
      → Returns pid Q (g response) w')
    : Returns pid Q (AuthService.issueTokens env user session >>= g) w := by
  unfold AuthService.issueTokens
  rw [bind_assoc]
  apply returns_skip hlasting hJ
  intro _ _ hJ
  rw [bind_assoc]
  apply returns_skip hlasting hJ
  intro _ _ hJ
  rw [bind_assoc]
  apply newRefreshToken_bind_returns hlasting hJ
  intro _ _ hJ
  rw [bind_assoc]
  apply returns_skip hlasting hJ
  intro _ _ hJ
  rw [bind_assoc]
  apply returns_skip hlasting hJ
  intro _ _ hJ
  exact h _ _ rfl rfl hJ

theorem lasting_true : @Lasting env (fun _ => True) :=
  fun _ _ _ _ => trivial

/--
The row is what the code that was found is stored as.
-/
def Stores (authCode : AuthorizationCode) (codeHash : Digest) (row : AuthorizationCodeRow) : Prop :=
  row.codeHash = codeHash ∧ row.clientId = authCode.clientId ∧ row.redirectUri = authCode.redirectUri
    ∧ row.codeChallenge = authCode.codeChallenge ∧ row.codeChallengeMethod = authCode.codeChallengeMethod
    ∧ row.scopes = authCode.scopes ∧ row.userId = authCode.userId

theorem lasting_stores (authCode : AuthorizationCode) (codeHash : Digest)
    : @Lasting env (fun w => ∃ row ∈ w.state.authorizationCodes, Stores authCode codeHash row) :=
  lasting_code (fun _ _ _ _ h => h)

theorem exchange_returns (code codeVerifier clientId redirectUri : String)
    : Returns pid (Granted pid (.exchange code codeVerifier clientId redirectUri))
        (AuthService.exchangeAuthorizationCode env code codeVerifier clientId redirectUri) w := by
  unfold AuthService.exchangeAuthorizationCode
  apply returns_query lasting_true trivial
  intro w₁ _ found s₁ _ hexec₁ _
  apply returns_okOr
  intro authCode hfound
  have hstored : ∃ row ∈ s₁.authorizationCodes, Stores authCode (env.sha256 code) row := by
    cases hexec₁
    unfold IdentityStore.findAuthorizationCodeByHash at hfound
    obtain ⟨row, hfind, heq⟩ := Option.map_eq_some_iff.mp hfound
    subst heq
    have husable := Table.prop_of_find? hfind
    simp only [IdentityStore.usableCode, Bool.and_eq_true, beq_iff_eq] at husable
    exact ⟨row, Table.mem_of_find? hfind, husable.1.1, rfl, rfl, rfl, rfl, rfl, rfl⟩
  apply returns_require
  intro hclient
  apply returns_require
  intro huri
  apply returns_require
  intro hverifier
  simp only [beq_iff_eq] at hclient huri
  have hlasting := @lasting_stores env authCode (env.sha256 code)
  apply returns_query hlasting hstored
  intro w₂ _ userFound s₂ _ hexec₂ hstored₂
  apply returns_okOr
  intro user huser
  have huserId : user.id = authCode.userId := by
    cases hexec₂
    unfold IdentityStore.findUserById at huser
    obtain ⟨row, hfind, heq⟩ := Option.map_eq_some_iff.mp huser
    subst heq
    simpa using Table.prop_of_find? hfind
  apply returns_require
  intro _
  apply returns_skip hlasting hstored₂
  intro sessionId w₃ hstored₃
  apply returns_query hlasting hstored₃
  intro w₄ _ session s₄ _ hexec₄ hstored₄
  have hsession : session.userId = user.id := by
    have hcreate := Option.some.inj hexec₄
    unfold IdentityStore.createSession at hcreate
    dsimp only at hcreate
    split at hcreate
    . split at hcreate
      . cases hcreate
        rfl
      . cases hcreate
    . cases hcreate
  apply returns_query hlasting hstored₄
  intro w₅ _ _ s₅ hstored₅ hexec₅ _
  have hredeemed : ∀ response : AuthorizationCodeResponse, response.user = user → response.session = session
      → response.scopes = authCode.scopes → ∃ row ∈ s₅.authorizationCodes,
        Redeemed env code codeVerifier clientId redirectUri response row := by
    intro response huserEq hsessionEq hscopes
    obtain ⟨row, hrow, hhash, hclient', huri', hchallenge, hmethod, hscopes', huserId'⟩ := hstored₅
    obtain ⟨row', hrow', hhash', _, hlt, hmem⟩ :=
      IdentityStore.useAuthorizationCode_ok (Option.some.inj hexec₅)
    obtain rfl := AuthorizationCodeRow.eq_of_codeHash hrow hrow' (hhash.trans hhash'.symm)
    refine ⟨_, hmem, ?_⟩
    constructor
    case codeHash => exact hhash
    case clientId => exact hclient'.trans hclient
    case redirectUri => exact huri'.trans huri
    case verifier =>
      show AuthService.verifyPkceChallenge env codeVerifier row.codeChallenge row.codeChallengeMethod = true
      rw [hchallenge, hmethod]
      exact hverifier
    case scopes => exact hscopes.trans hscopes'.symm
    case user => rw [huserEq, huserId]; exact huserId'.symm
    case session => rw [hsessionEq, hsession, huserId]; exact ⟨huserId'.symm, rfl⟩
    case inTime => exact ⟨_, rfl, hlt⟩
  have hresponse (response : AuthorizationCodeResponse) :=
    @lasting_granted env pid (.exchange code codeVerifier clientId redirectUri) response
  apply issueTokens_bind_returns (J := fun w => ∀ response : AuthorizationCodeResponse,
    response.user = user → response.session = session → response.scopes = authCode.scopes →
      Granted pid (.exchange code codeVerifier clientId redirectUri) response w)
  . intro w w' hsince h response huserEq hsessionEq hscopes
    exact hresponse response w w' hsince (h response huserEq hsessionEq hscopes)
  . intro response huserEq hsessionEq hscopes
    exact ⟨⟨_, List.mem_cons_self⟩, hredeemed response huserEq hsessionEq hscopes⟩
  . intro response w₆ huserEq hsessionEq hJ
    exact returns_pure (hresponse _) (hJ _ huserEq hsessionEq rfl)

/--
The row is one that the token which was found is stored as.
-/
def StoresToken (tokenHash : Digest) (tokenType : String) (userId : UserId) (row : VerificationTokenRow) : Prop :=
  row.tokenHash = tokenHash ∧ row.tokenType = tokenType ∧ row.userId = userId

theorem lasting_storesToken (tokenHash : Digest) (tokenType : String) (userId : UserId)
    : @Lasting env (fun w => ∃ row ∈ w.state.verificationTokens,
        StoresToken tokenHash tokenType userId row) :=
  lasting_token (fun _ _ _ h => h)

theorem findVerificationTokenByHash_stored {s : IdentityStore} {tokenHash : Digest} {tokenType : String}
    {verification : VerificationToken}
    (h : s.findVerificationTokenByHash tokenHash tokenType = some verification)
    : ∃ row ∈ s.verificationTokens, StoresToken tokenHash tokenType verification.userId row := by
  unfold IdentityStore.findVerificationTokenByHash at h
  obtain ⟨row, hfind, heq⟩ := Option.map_eq_some_iff.mp h
  subst heq
  have hp := Table.prop_of_find? hfind
  simp only [Bool.and_eq_true, beq_iff_eq] at hp
  exact ⟨row, Table.mem_of_find? hfind, hp.1.1.1, hp.1.1.2, rfl⟩

theorem useVerificationToken_presented {s s' : IdentityStore} {token tokenType : String} {userId : UserId}
    {a : Unit} (h : s.useVerificationToken (env.sha256 token) = (.ok a, s'))
    (hstored : ∃ row ∈ s.verificationTokens, StoresToken (env.sha256 token) tokenType userId row)
    : ∃ row ∈ s'.verificationTokens, Presented env token tokenType row ∧ row.userId = userId := by
  obtain ⟨row, hrow, hhash, htype, huser⟩ := hstored
  obtain ⟨row', hrow', hhash', _, hmem⟩ := IdentityStore.useVerificationToken_ok h
  obtain rfl := VerificationTokenRow.eq_of_tokenHash hrow hrow' (hhash.trans hhash'.symm)
  exact ⟨_, hmem, ⟨hhash, htype, by simp⟩, huser⟩

theorem verifyEmail_returns (token : String)
    : Returns pid (@Granted env pid (.verifyEmail token)) (AuthService.verifyEmail env token) w := by
  unfold AuthService.verifyEmail
  apply returns_query lasting_true trivial
  intro w₁ _ found s₁ _ hexec₁ _
  apply returns_okOr
  intro verification hfound
  have hstored : ∃ row ∈ s₁.verificationTokens,
      StoresToken (env.sha256 token) "email" verification.userId row := by
    cases hexec₁
    exact findVerificationTokenByHash_stored hfound
  apply returns_query (lasting_storesToken _ _ _) hstored
  intro w₂ _ _ s₂ hstored₂ hexec₂ _
  have hgranted : ∀ user : User, user.id = verification.userId → Granted pid (.verifyEmail token) user
      (w₂.after s₂ (.call pid (Call.useVerificationToken (env.sha256 token)) (.ok ()))) := by
    intro user huser
    rw [Granted, huser]
    exact ⟨List.mem_cons_self, useVerificationToken_presented (Option.some.inj hexec₂) hstored₂⟩
  apply Outline.wp_request
  intro w₃ hrely₃ hinv₃ r s₃ hanswer₃ _
  constructor
  . exact keeps_of_last hinv₃ (.of_answers hanswer₃) (fun _ _ _ => nofun)
  . intro w₄ hrely₄ _ user heq
    subst heq
    obtain ⟨e, hexec₃⟩ := hanswer₃.ok
    have huser : user.id = verification.userId := by
      have hupdate := Option.some.inj hexec₃
      unfold IdentityStore.updateUser at hupdate
      split at hupdate
      . cases hupdate
      . next row hfind =>
        dsimp only at hupdate
        split at hupdate
        . cases hupdate
          have hid := Table.prop_of_find? hfind
          simp only [beq_iff_eq] at hid
          exact hid
        . cases hupdate
    have hlasting := @lasting_granted env pid (.verifyEmail token) user
    apply hlasting _ _ ⟨hrely₄.2, hrely₄.1.subset⟩
    apply hlasting w₃ _ ⟨.of_answers hanswer₃, List.subset_cons_self _ _⟩
    exact hlasting _ _ ⟨hrely₃.2, hrely₃.1.subset⟩ (hgranted user huser)

theorem confirmPasswordReset_returns (token newPassword : String)
    : Returns pid (@Granted env pid (.confirmPasswordReset token newPassword))
        (AuthService.confirmPasswordReset env token newPassword) w := by
  unfold AuthService.confirmPasswordReset
  apply returns_query lasting_true trivial
  intro w₁ _ found s₁ _ hexec₁ _
  apply returns_okOr
  intro verification hfound
  have hstored : ∃ row ∈ s₁.verificationTokens,
      StoresToken (env.sha256 token) "password_reset" verification.userId row := by
    cases hexec₁
    exact findVerificationTokenByHash_stored hfound
  split
  . exact returns_fail _
  . apply returns_skip (lasting_storesToken _ _ _) hstored
    intro salt w₂ hstored₂
    apply returns_query (lasting_storesToken _ _ _) hstored₂
    intro w₃ _ _ s₃ hstored₃ hexec₃ _
    have hlasting := @lasting_granted env pid (.confirmPasswordReset token newPassword) ()
    have hgranted : Granted pid (.confirmPasswordReset token newPassword) ()
        (w₃.after s₃ (.call pid (Call.useVerificationToken (env.sha256 token)) (.ok ()))) := by
      obtain ⟨row, hrow, hpresented, _⟩ := useVerificationToken_presented (Option.some.inj hexec₃) hstored₃
      exact ⟨List.mem_cons_self, row, hrow, hpresented⟩
    apply returns_skip hlasting hgranted
    intro _ w₄ hgranted₄
    apply returns_skip hlasting hgranted₄
    intro _ w₅ hgranted₅
    exact returns_pure hlasting hgranted₅

end Programs

theorem oneTimeOutline_sound : (oneTimeOutline env).Sound where
  spawn w pid req hinv _ _ := keeps_of_last hinv (.refl _) (fun _ _ _ => nofun)
  program w pid req _ _ _ := by
    have hother : (oneTimeOutline env).Wp pid (fun _ _ => True) (Routes.handle env req)
        (w.after w.state (.spawn pid req)) := by
      apply Outline.wp_of_uses (P := fun _ => True) (J := fun _ => True) (uses_all _) trivial
      . intro _ _ _ _ _
        trivial
      . intro c _ w r s _ hinv hanswer _
        exact ⟨keeps_of_last hinv (.of_answers hanswer) (fun _ _ _ => nofun), trivial⟩
    cases req with
    | exchange code codeVerifier clientId redirectUri =>
      exact exchange_returns code codeVerifier clientId redirectUri
    | verifyEmail token => exact verifyEmail_returns token
    | confirmPasswordReset token newPassword => exact confirmPasswordReset_returns token newPassword
    | _ => exact Outline.wp_mono hother (fun _ _ _ _ _ _ => trivial)
  finish w pid req r hinv _ hpost _ := by
    apply keeps_of_last (s := (system env).release pid w.state) hinv (.of_eq rfl rfl)
    intro pid' req' a heq
    cases heq
    exact hpost a rfl
  crash w pid req hinv _ _ := keeps_of_last hinv (.of_eq rfl rfl) (fun _ _ _ => nofun)
  tick w t hinv _ := keeps_of_last hinv (.of_eq rfl rfl) (fun _ _ _ => nofun)

theorem granted_of_finish {s : IdentityStore} {ms : List (Move (system env))} {c : Config (system env)}
    (hrun : Config.run ms (.start s) = some c) {pid : Nat} {req : Request} {a : req.Reply}
    (hfinish : .finish pid req (.ok a) ∈ c.world.trace) : Granted pid req a c.world := by
  have hvalid : (oneTimeOutline env).Valid (Config.start s) := .start (fun _ _ _ => nofun)
  exact (oneTimeOutline_sound.run hvalid (Config.along_true ms _) hrun).1.inv pid req a hfinish

/-! ## Used up once -/

/--
The call uses up the code of the hash.
-/
def usesCode (codeHash : Digest) : Event (system env) → Bool
  | .call _ (.useAuthorizationCode h _) (.ok _) => h == codeHash
  | _ => false

def usesMailToken (tokenHash : Digest) : Event (system env) → Bool
  | .call _ (.useVerificationToken h) (.ok _) => h == tokenHash
  | _ => false

/--
The code was exchanged for tokens.
-/
def redeems (code : String) : Event (system env) → Bool
  | .finish _ (.exchange code' _ _ _) (.ok _) => code' == code
  | _ => false

/--
The token of a mail verified an address or reset a password.
-/
def presents (token : String) : Event (system env) → Bool
  | .finish _ (.verifyEmail token') (.ok _) => token' == token
  | .finish _ (.confirmPasswordReset token' _) (.ok _) => token' == token
  | _ => false

theorem usesCode_eq_true {codeHash : Digest} {e : Event (system env)} (h : usesCode codeHash e = true)
    : ∃ pid sessionId a, e = .call pid (Call.useAuthorizationCode codeHash sessionId) (.ok a) := by
  unfold usesCode at h
  split at h
  . next pid h' sessionId a =>
    simp only [beq_iff_eq] at h
    subst h
    exact ⟨pid, sessionId, a, rfl⟩
  . cases h

theorem usesMailToken_eq_true {tokenHash : Digest} {e : Event (system env)}
    (h : usesMailToken tokenHash e = true)
    : ∃ pid a, e = .call pid (Call.useVerificationToken tokenHash) (.ok a) := by
  unfold usesMailToken at h
  split at h
  . next pid h' a =>
    simp only [beq_iff_eq] at h
    subst h
    exact ⟨pid, a, rfl⟩
  . cases h

/--
The answer of a step that is the call `call`.
-/
theorem exec_of_steps {c : Config (system env)} {next : Event (system env) × Config (system env)}
    (h : Config.Steps c next) {pid : Nat} {call : Call} {a : call.Ret}
    (he : next.1 = .call pid call (.ok a))
    : ∃ e, IdentityStore.exec env pid call e c.world.state = some (.ok a, next.2.world.state) := by
  cases h with
  | answer hp hanswer =>
    cases he
    exact hanswer.ok
  | _ => cases he

theorem countP_usesCode_le_one {s : IdentityStore} {ms : List (Move (system env))} {c : Config (system env)}
    (codeHash : Digest) (hrun : Config.run ms (.start s) = some c)
    : c.world.trace.countP (usesCode codeHash) ≤ 1 := by
  apply Config.countP_le_one (D := fun (s : IdentityStore) => s.CodeUsed codeHash) _ _ rfl hrun
  . intro c next hsteps huses
    obtain ⟨pid, sessionId, a, he⟩ := usesCode_eq_true huses
    obtain ⟨e, hexec⟩ := exec_of_steps hsteps he
    exact IdentityStore.codeUsed_of_use (Option.some.inj hexec)
  . exact fun c next hsteps => (TokensLast.of_steps hsteps).codeUsed

theorem countP_usesMailToken_le_one {s : IdentityStore} {ms : List (Move (system env))}
    {c : Config (system env)} (tokenHash : Digest) (hrun : Config.run ms (.start s) = some c)
    : c.world.trace.countP (usesMailToken tokenHash) ≤ 1 := by
  apply Config.countP_le_one (D := fun (s : IdentityStore) => s.MailTokenUsed tokenHash) _ _ rfl hrun
  . intro c next hsteps huses
    obtain ⟨pid, a, he⟩ := usesMailToken_eq_true huses
    obtain ⟨e, hexec⟩ := exec_of_steps hsteps he
    exact IdentityStore.mailTokenUsed_of_use (Option.some.inj hexec)
  . exact fun c next hsteps => (TokensLast.of_steps hsteps).mailTokenUsed

/--
Each authorization code is exchanged once at most, by a request that has the verifier, the client and the
redirect URI it is stored with, for tokens of its own user and before it expires.
-/
structure CodesBound (env : Env) : Prop where
  once : ∀ s (ms : List (Move (system env))) c code, Config.run ms (.start s) = some c
    → c.world.trace.countP (redeems code) ≤ 1
  bound : ∀ s (ms : List (Move (system env))) c pid code codeVerifier clientId redirectUri response,
    Config.run ms (.start s) = some c
    → .finish pid (Request.exchange code codeVerifier clientId redirectUri) (.ok response) ∈ c.world.trace
    → ∃ row ∈ c.world.state.authorizationCodes,
        Redeemed env code codeVerifier clientId redirectUri response row

/--
Each token of a mail is used once at most, and only for what it was sent for: an address is verified for
the user the token was made for, with a token that verifies addresses, and a password is reset with one
that resets passwords.
-/
structure MailTokensBound (env : Env) : Prop where
  once : ∀ s (ms : List (Move (system env))) c token, Config.run ms (.start s) = some c
    → c.world.trace.countP (presents token) ≤ 1
  verified : ∀ s (ms : List (Move (system env))) c pid token user, Config.run ms (.start s) = some c
    → .finish pid (Request.verifyEmail token) (.ok user) ∈ c.world.trace
    → ∃ row ∈ c.world.state.verificationTokens, Presented env token "email" row ∧ row.userId = user.id
  reset : ∀ s (ms : List (Move (system env))) c pid token newPassword, Config.run ms (.start s) = some c
    → .finish pid (Request.confirmPasswordReset token newPassword) (.ok ()) ∈ c.world.trace
    → ∃ row ∈ c.world.state.verificationTokens, Presented env token "password_reset" row

/--
Nothing is undone: between any two moments of a run no user that is disabled is enabled, a session is only
revoked, once, and a token or code is only used.
-/
def NothingUndone (env : Env) : Prop :=
  ∀ (ms : List (Move (system env))) c c', Config.run ms c = some c' →
    Lasts c.world.state c'.world.state ∧ TokensLast c.world.state c'.world.state

end Reactor.Auth
