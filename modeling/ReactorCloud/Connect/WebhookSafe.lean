import ReactorCloud.Connect.Webhook

/-!
This module contains what the ingress route owes to the receivers: it accepts authentic events only, and
none of them twice within the replay window.
-/

namespace Reactor.Connect.Webhook

open Interleave Interleave.Machine

abbrev World : Type :=
  Machine.World State Event

/--
`webhook::verify_signature` accepts the request under the secret of the instance.
-/
def Authentic (env : Env) (req : Request) : Prop :=
  ∀ target header field, findTarget env req.receiverToken = .ok target →
    target.webhook.verification = .hmacSha256 header field →
    verifySignature env target.webhook.verification req.headers req.body
      (env.secret target.ofInstance field) = .ok ()

structure IngressSafe (env : Env) (ok : World → Move → Prop) : Prop where
  authentic : ∀ w, (machine env).Reached ok w →
    ∀ t req eventId time, .accepted t req eventId time ∈ w.trace → Authentic env req
  /-- Two requests of one receiver with one body are accepted at least the replay window apart. -/
  once : ∀ w, (machine env).Reached ok w → ∀ m w' t req eventId time, ok w m →
    (machine env).next m w = some w' → w'.trace.head? = some (.accepted t req eventId time) →
    ∀ t' req' eventId' time', .accepted t' req' eventId' time' ∈ w.trace →
      req'.receiverToken = req.receiverToken → req'.body = req.body →
      ∀ target, findTarget env req.receiverToken = .ok target →
        time' + target.webhook.replayWindowSeconds * 1000 ≤ time

/--
A request with a signature that is not the one of its body.
-/
theorem not_ingressSafe : ¬ ∀ env, IngressSafe env (fun _ _ => True) := by
  intro h
  let webhook : WebhookDescriptor := ⟨"push", .hmacSha256 "X-Signature" "secret", 300⟩
  let env : Env := {
    receiverByToken := fun _ => some ⟨1, 2, "push", true⟩,
    instanceById := fun _ => some ⟨2, "github"⟩,
    webhooks := fun _ => .ok [webhook],
    secret := fun _ _ => [7],
    hmacSha256 := fun _ _ => List.replicate 32 1,
    base64Decode := fun _ => none,
    parseJson := fun _ => none }
  let req : Request := ⟨"token", [("x-signature", "00")], [1, 2, 3]⟩
  let ms : List Move := [.receive req, .run 0 ⟨false, "a"⟩, .run 0 ⟨false, "a"⟩, .run 0 ⟨false, "a"⟩]
  have hrun : ((machine env).run ms (machine env).first).any
      (fun w => decide (Event.accepted 0 req "a" 0 ∈ w.trace)) = true := by
    decide
  obtain ⟨w, hw, hmem⟩ := reached_of_any hrun
  have htarget : findTarget env "token" = .ok ⟨⟨1, 2, "push", true⟩, ⟨2, "github"⟩, webhook⟩ := rfl
  have := (h env).authentic w hw _ _ _ _ (of_decide_eq_true hmem) _ "X-Signature" "secret" htarget rfl
  have hsignature : getHeader req.headers "X-Signature" = some "00" := by decide
  simp only [verifySignature, verifyHmacSha256, webhook, hsignature] at this
  have hstrip : withoutPrefix "00" = "00" := by decide
  have hhex : hexDecode ['0', '0'] = some [0] := by decide
  simp [hstrip, hhex, env, List.replicate] at this

/--
A signature that is there is the right one.
-/
def Signed (env : Env) (req : Request) : Prop :=
  ∀ target header field, findTarget env req.receiverToken = .ok target →
    target.webhook.verification = .hmacSha256 header field →
    getHeader req.headers header = none ∨ getHeader req.headers header = some ""
      ∨ verifySignature env target.webhook.verification req.headers req.body
          (env.secret target.ofInstance field) = .ok ()

/--
The event id is the one in the body.
-/
def Named (env : Env) (req : Request) : Prop :=
  idHeaders.findSome? (getHeader req.headers) = none ∧ ∃ id, bodyEventId env req.body = some id

/--
The key is written while it is not in the cache, the write does not fail and the window is one that
chrono has a place for.
-/
def Careful (env : Env) (w : World) (m : Move) : Prop :=
  match m with
  | .run t choice =>
    match w.state.tasks t with
    | some (.enter req) => Signed env req ∧ Named env req
    | some (.setKey _ target eventId) =>
      choice.fails = false
        ∧ w.state.cache.present w.state.now (replayKey target.receiver eventId) = false
        ∧ target.webhook.replayWindowSeconds ≤ 9223372036854775
    | _ => True
  | _ => True

/--
A request that was let in, with what its event is called.
-/
structure Entered (env : Env) (req : Request) (target : Target) (eventId : String) : Prop where
  target : findTarget env req.receiverToken = .ok target
  authentic : Authentic env req
  named : bodyEventId env req.body = some eventId

def TaskOk (env : Env) : Task → Prop
  | .enter _ => True
  | .getKey req target eventId | .setKey req target eventId => Entered env req target eventId

/--
The replay window of an accepted event is over, or its key is in the cache until then.
-/
def Guarded (env : Env) (cache : Cache) (now : Nat) (req : Request) (eventId : String)
    (time : Nat) : Prop :=
  ∃ target, Entered env req target eventId
    ∧ (time + target.webhook.replayWindowSeconds * 1000 ≤ now
      ∨ ∃ expires, cache (replayKey target.receiver eventId) = some expires
        ∧ time + target.webhook.replayWindowSeconds * 1000 ≤ expires)

structure Inv (env : Env) (w : World) : Prop where
  tasks : ∀ t task, w.state.tasks t = some task → TaskOk env task
  guarded : ∀ t req eventId time, .accepted t req eventId time ∈ w.trace →
    Guarded env w.state.cache w.state.now req eventId time

variable {env : Env}

theorem routeVerify_ok {target : Target} {req : Request}
    (htarget : findTarget env req.receiverToken = .ok target) (hsigned : Signed env req)
    (h : routeVerify target.webhook.verification req.headers = .ok ()) : Authentic env req := by
  intro target' header field htarget' hkind
  rw [htarget] at htarget'
  cases htarget'
  simp only [routeVerify, hkind, checkHeader] at h
  rcases hsigned target header field htarget hkind with hnone | hempty | hok
  . rw [hnone] at h
    cases h
  . rw [hempty] at h
    cases h
  . exact hok

theorem enter_sound (t : Nat) {req : Request} (choice : Choice) (hsigned : Signed env req)
    (hnamed : Named env req)
    : (∀ task ∈ (enter env t req choice).2, TaskOk env task)
      ∧ ∀ t' req' eventId time, (enter env t req choice).1 ≠ .accepted t' req' eventId time := by
  simp only [enter]
  split
  . exact ⟨nofun, nofun⟩
  . split
    . exact ⟨nofun, nofun⟩
    . next target htarget =>
      split
      . exact ⟨nofun, nofun⟩
      . next hverify =>
        refine ⟨?_, nofun⟩
        rintro task ⟨⟩
        obtain ⟨hheaders, id, hid⟩ := hnamed
        refine ⟨htarget, routeVerify_ok htarget hsigned hverify, ?_⟩
        simp only [extractEventId, hheaders, hid, Option.getD_some]

theorem Guarded.mono {cache : Cache} {now now' time : Nat} {req : Request} {eventId : String}
    (h : Guarded env cache now req eventId time) (hle : now ≤ now')
    : Guarded env cache now' req eventId time := by
  obtain ⟨target, hentered, hover | hkey⟩ := h
  . exact ⟨target, hentered, .inl (by omega)⟩
  . exact ⟨target, hentered, .inr hkey⟩

/--
A key that is not in the cache guards nothing, so it can be written.
-/
theorem Guarded.update {cache : Cache} {now time expires : Nat} {req : Request}
    {eventId key : String} (h : Guarded env cache now req eventId time)
    (habsent : cache.present now key = false)
    : Guarded env (Function.update cache key (some expires)) now req eventId time := by
  obtain ⟨target, hentered, hover | ⟨expires', hkey, hle⟩⟩ := h
  . exact ⟨target, hentered, .inl hover⟩
  . refine ⟨target, hentered, ?_⟩
    by_cases heq : replayKey target.receiver eventId = key
    . subst heq
      simp only [Cache.present, hkey, decide_eq_false_iff_not] at habsent
      exact .inl (by omega)
    . rw [Function.update_of_ne heq]
      exact .inr ⟨expires', hkey, hle⟩

/--
An event that is accepted with its key written.
-/
theorem guarded_setKey {cache : Cache} {now expires : Nat} {req : Request} {target : Target}
    {eventId : String} (hentered : Entered env req target eventId)
    (hwindow : target.webhook.replayWindowSeconds ≤ 9223372036854775)
    (hexpires : expiresAt now target.webhook.replayWindowSeconds = some expires)
    : Guarded env (Function.update cache (replayKey target.receiver eventId) (some expires)) now req
        eventId now := by
  refine ⟨target, hentered, .inr ⟨expires, by rw [Function.update_self], ?_⟩⟩
  simp only [expiresAt, if_pos hwindow] at hexpires
  split at hexpires
  . cases hexpires
    exact Nat.le_refl _
  . cases hexpires

theorem operate_sound {t : Nat} {task : Task} {choice : Choice} {w : World}
    (h : Inv env w) (htask : w.state.tasks t = some task) (hok : Careful env w (.run t choice))
    : let (e, next, cache) := operate env t task choice w.state
      (∀ task' ∈ next, TaskOk env task')
        ∧ ∀ t' req eventId time, .accepted t' req eventId time ∈ e :: w.trace →
          Guarded env cache w.state.now req eventId time := by
  simp only [Careful, htask] at hok
  have hentered := h.tasks t task htask
  cases task with
  | enter req =>
    have hsound := enter_sound t choice hok.1 hok.2
    refine ⟨hsound.1, ?_⟩
    intro t' req' eventId time hmem
    rw [List.mem_cons] at hmem
    cases hmem with
    | inl heq => exact absurd heq.symm (hsound.2 t' req' eventId time)
    | inr hmem => exact h.guarded _ _ _ _ hmem
  | getKey req target eventId =>
    simp only [operate]
    split
    . refine ⟨nofun, ?_⟩
      intro t' req' eventId' time hmem
      cases hmem with
      | tail _ hmem => exact h.guarded _ _ _ _ hmem
    . refine ⟨?_, ?_⟩
      . rintro task' ⟨⟩
        exact hentered
      . intro t' req' eventId' time hmem
        cases hmem with
        | tail _ hmem => exact h.guarded _ _ _ _ hmem
  | setKey req target eventId =>
    obtain ⟨hfails, habsent, hwindow⟩ := hok
    simp only [operate]
    split
    . refine ⟨nofun, ?_⟩
      intro t' req' eventId' time hmem
      cases hmem with
      | tail _ hmem => exact h.guarded _ _ _ _ hmem
    . next expires hexpires =>
      refine ⟨nofun, ?_⟩
      intro t' req' eventId' time hmem
      simp only [hfails, Bool.false_eq_true, if_false]
      cases hmem with
      | head => exact guarded_setKey hentered hwindow hexpires
      | tail _ hmem => exact (h.guarded _ _ _ _ hmem).update habsent

theorem Inv.goTo {w : World} {e : Event} {st : State} {t : Nat} {next : Option Task}
    (h : Inv env w) (htasks : st.tasks = Function.update w.state.tasks t next)
    (hnext : ∀ task ∈ next, TaskOk env task)
    (hguarded : ∀ t req eventId time, .accepted t req eventId time ∈ e :: w.trace →
      Guarded env st.cache st.now req eventId time) : Inv env ⟨st, e :: w.trace⟩ := by
  refine ⟨?_, hguarded⟩
  intro t' task ht
  simp only [htasks, Function.update_apply] at ht
  split at ht
  . exact hnext task ht
  . exact h.tasks t' task ht

theorem Inv.quiet {w : World} (h : Inv env w) {now : Nat} (hle : w.state.now ≤ now)
    : ∀ t req eventId time, .accepted t req eventId time ∈ Event.quiet :: w.trace →
      Guarded env w.state.cache now req eventId time := by
  intro t req eventId time hmem
  cases hmem with
  | tail _ hmem => exact (h.guarded _ _ _ _ hmem).mono hle

theorem Inv.step {m : Move} {w : World} {e : Event} {st : State} (h : Inv env w)
    (hok : Careful env w m) (hstep : step env m w.state = some (e, st))
    : Inv env ⟨st, e :: w.trace⟩ := by
  cases m with
  | receive req =>
    cases hstep
    exact h.goTo rfl (by rintro _ ⟨⟩; trivial) (h.quiet (Nat.le_refl _))
  | run t choice =>
    simp only [Webhook.step, Option.map_eq_some_iff] at hstep
    obtain ⟨task, htask, hrun⟩ := hstep
    have hsound := operate_sound h htask hok
    simp only [runTask] at hrun
    cases hrun
    exact h.goTo rfl hsound.1 hsound.2
  | hangUp t =>
    cases hstep
    exact h.goTo rfl nofun (h.quiet (Nat.le_refl _))
  | wait d =>
    cases hstep
    exact ⟨h.tasks, h.quiet (Nat.le_add_right _ _)⟩

theorem Inv.of_reached {w : World} (h : (machine env).Reached (Careful env) w) : Inv env w := by
  apply h.invariant (P := Inv env)
  . exact ⟨nofun, nofun⟩
  . intro m w e st hinv hok hstep
    exact hinv.step hok hstep

/--
An event is accepted by the task that writes its key.
-/
theorem step_accepted {t time : Nat} {m : Move} {req : Request} {eventId : String} {st st' : State}
    (h : step env m st = some (.accepted t req eventId time, st'))
    : ∃ choice target, m = .run t choice ∧ st.tasks t = some (.setKey req target eventId)
      ∧ time = st.now := by
  cases m with
  | run t' choice =>
    simp only [step, Option.map_eq_some_iff] at h
    obtain ⟨task, htask, hrun⟩ := h
    simp only [runTask, Prod.mk.injEq] at hrun
    have hevent := hrun.1
    cases task with
    | enter req' =>
      simp only [operate, enter] at hevent
      split at hevent
      . cases hevent
      . split at hevent
        . cases hevent
        . split at hevent <;> cases hevent
    | getKey req' target eventId' =>
      simp only [operate] at hevent
      split at hevent <;> cases hevent
    | setKey req' target eventId' =>
      simp only [operate] at hevent
      split at hevent
      . cases hevent
      . cases hevent
        exact ⟨choice, target, rfl, htask, rfl⟩
  | receive | hangUp | wait => cases h

theorem ingressSafe (env : Env) : IngressSafe env (Careful env) := by
  constructor
  . intro w hw t req eventId time hmem
    obtain ⟨target, hentered, _⟩ := (Inv.of_reached hw).guarded t req eventId time hmem
    exact hentered.authentic
  . intro w hw m w' t req eventId time hok hnext haccepted t' req' eventId' time' hmem htoken hbody
      target htarget
    rw [next_eq_some_iff] at hnext
    obtain ⟨e, st, hstep, rfl⟩ := hnext
    simp only [List.head?_cons, Option.some.injEq] at haccepted
    subst haccepted
    obtain ⟨choice, target', rfl, htask, rfl⟩ := step_accepted hstep
    have hinv := Inv.of_reached hw
    have hentered := hinv.tasks t _ htask
    obtain ⟨target'', hentered'', hguarded⟩ := hinv.guarded t' req' eventId' time' hmem
    have heq : target' = target := by
      have := hentered.target
      rw [htarget] at this
      cases this
      rfl
    have heq' : target'' = target := by
      have := hentered''.target
      rw [htoken, htarget] at this
      cases this
      rfl
    have hid : eventId' = eventId := by
      have := hentered''.named
      rw [hbody, hentered.named] at this
      cases this
      rfl
    subst heq heq' hid
    simp only [Careful, htask] at hok
    obtain ⟨_, habsent, _⟩ := hok
    cases hguarded with
    | inl hover => exact hover
    | inr hkey =>
      -- the key was not in the cache, so it has expired
      obtain ⟨expires, hkey, hle⟩ := hkey
      simp only [Cache.present, hkey, decide_eq_false_iff_not] at habsent
      omega

end Reactor.Connect.Webhook
