import ReactorCloud.Cache.Election

/-!
This module contains the proof that the programs keep the invariant of the election, and a run with two
leaders.
-/

namespace Reactor.Leader

open Interleave

variable {env : Env}

/-! ## Calls -/

section Calls

variable {pid inst session n : Nat} {id : Int} {task : String}

theorem tryLock_true {s : State} (h : (s.tryLock session id).1 = true)
    (hother : ∀ n, s.locks id ≠ some (session, n))
    : s.locks id = none ∧ (s.tryLock session id).2 = s.setLock id (some (session, 1)) := by
  unfold State.tryLock at h ⊢
  cases hlock : s.locks id with
  | none => exact ⟨rfl, rfl⟩
  | some lock =>
    obtain ⟨holder, n⟩ := lock
    simp only [hlock] at h
    by_cases hholder : holder = session
    . subst hholder
      exact absurd hlock (hother n)
    . rw [if_neg hholder] at h
      cases h

theorem tryLock_false {s : State} (h : (s.tryLock session id).1 = false) : (s.tryLock session id).2 = s := by
  unfold State.tryLock at h ⊢
  cases hlock : s.locks id with
  | none =>
    rw [hlock] at h
    cases h
  | some lock =>
    obtain ⟨holder, n⟩ := lock
    simp only [hlock] at h
    by_cases hholder : holder = session
    . rw [if_pos hholder] at h
      cases h
    . simp only [if_neg hholder]

theorem unlock_last {s : State} (h : s.locks id = some (session, 1))
    : s.unlock session id = s.setLock id none := by
  simp [State.unlock, h]

variable {s s' : (system env).State}

theorem answers_tryLock {r : Except LeaderInterface.Err (LeaderInterface.Ret (.tryLock inst id))}
    (h : Answers (system env) pid (.tryLock inst id) s r s') (hlost : r ≠ .error .lost)
    : (∃ session, r = .ok ((State.tryLock s session id).1, session) ∧ s' = (State.tryLock s session id).2)
      ∨ (∃ e, r = .error e) ∧ s' = s := by
  cases h with
  | fail => exact absurd rfl hlost
  | lose => exact absurd rfl hlost
  | reply hexec =>
    simp only [system, exec] at hexec
    split at hexec
    . cases hexec
    . split at hexec
      . cases hexec
        exact .inr ⟨⟨_, rfl⟩, rfl⟩
      . cases hexec
        exact .inl ⟨_, rfl, rfl⟩

theorem answers_lock {r : Except LeaderInterface.Err (LeaderInterface.Ret (.lock inst id))}
    (h : Answers (system env) pid (.lock inst id) s r s') (hlost : r ≠ .error .lost)
    : (∃ session, r = .ok session ∧ (State.tryLock s session id).1 = true
        ∧ s' = (State.tryLock s session id).2)
      ∨ (∃ e, r = .error e) ∧ s' = s := by
  cases h with
  | fail => exact absurd rfl hlost
  | lose => exact absurd rfl hlost
  | reply hexec =>
    simp only [system, exec] at hexec
    split at hexec
    . cases hexec
    . split at hexec
      . cases hexec
        exact .inr ⟨⟨_, rfl⟩, rfl⟩
      . split at hexec
        . next hlocked =>
          cases hexec
          exact .inl ⟨_, rfl, hlocked, rfl⟩
        . cases hexec

theorem answers_unlock (h : Answers (system env) pid (.unlock inst id) s (.ok session) s')
    : s' = State.unlock s session id := by
  obtain ⟨choice, hexec⟩ := h.ok
  simp only [system, exec] at hexec
  split at hexec
  . cases hexec
  . split at hexec
    . cases hexec
    . cases hexec
      rfl

theorem answers_insert {r : Except LeaderInterface.Err (LeaderInterface.Ret (.insert inst task id))}
    (h : Answers (system env) pid (.insert inst task id) s r s') (hlost : r ≠ .error .lost)
    : r = .ok () ∧ s' = State.setHeld s inst task (some id) := by
  cases h with
  | fail => exact absurd rfl hlost
  | lose => exact absurd rfl hlost
  | reply hexec =>
    cases hexec
    exact ⟨rfl, rfl⟩

theorem answers_remove {r : Except LeaderInterface.Err (LeaderInterface.Ret (.remove inst task))}
    (h : Answers (system env) pid (.remove inst task) s r s') (hlost : r ≠ .error .lost)
    : r = .ok (State.held s inst task) ∧ s' = State.setHeld s inst task none := by
  cases h with
  | fail => exact absurd rfl hlost
  | lose => exact absurd rfl hlost
  | reply hexec =>
    cases hexec
    exact ⟨rfl, rfl⟩

variable {w : LeaderWorld env} {e : LeaderEvent env}

theorem locksAt_setLock {lock : Option (Nat × Nat)} {id' : Int}
    : locksAt id' (w.after (State.setLock w.state id lock) e) = if id' = id then lock else locksAt id' w :=
  Function.update_apply _ _ _ _

theorem heldAt_setHeld {entry : Option Int} {inst' : Nat} {task' : String}
    : heldAt inst' task' (w.after (State.setHeld w.state inst task entry) e)
      = if inst' = inst ∧ task' = task then entry else heldAt inst' task' w := by
  change Function.update (State.held w.state) inst _ inst' task' = _
  rw [Function.update_apply]
  by_cases hinst : inst' = inst
  . subst hinst
    simp only [↓reduceIte, true_and, Function.update_apply]
    rfl
  . simp only [hinst, ↓reduceIte, false_and]
    rfl

end Calls

/-! ## The outline -/

/--
The process holds the lock of its task and has noted it.
-/
structure Holds (pid inst : Nat) (task : String) (w : LeaderWorld env) : Prop where
  asked : Marked (.asked inst task) pid w
  got : Marked (.got (env.lockId task)) pid w
  inserted : Marked .inserted pid w

def Ends (pid : Nat) : Request → Except LeaderError Unit → LeaderWorld env → Prop
  | .tryAcquire inst task, .ok _, w => Holds pid inst task w
  | .acquire inst task, .ok _, w => Holds pid inst task w
  | .dropGuard guard _ _, _, w =>
    Marked (.dropped guard) pid w ∧ Marked .unlocked pid w ∧ ∀ id, ¬ Marked (.got id) pid w
  | _, _, w => ∀ id, ¬ Marked (.got id) pid w

def leaderOutline (env : Env) : Outline (system env) where
  inv := LeaderInv
  ok w e := DroppedOnce w e ∧ OneSession w e
  safe _ _ := True
  rely _ _ _ := True
  post := Ends
  rely_refl _ _ := trivial
  rely_trans _ _ _ _ _ _ := trivial

section Programs

variable {w : LeaderWorld env} {pid guard inst : Nat} {task : String} {Q : Except LeaderError Unit → LeaderWorld env → Prop}

theorem gone_of_guarded (h : Marked (.guarded inst task) pid w) : Gone pid w := by
  obtain ⟨e, he, hpid, hmark⟩ := h
  refine ⟨e, he, hpid, ?_⟩
  unfold mark? at hmark
  split at hmark <;> first | rfl | (split at hmark <;> cases hmark) | cases hmark

theorem undropped (hinv : LeaderInv w) (halive : ¬ Gone pid w) (d : Nat) : ¬ Marked (.dropped pid) d w := by
  intro hdropped
  obtain ⟨_, _, hguard⟩ := (hinv.dropped d pid hdropped).1
  exact halive (gone_of_guarded hguard)

theorem Marked.persists {w' : LeaderWorld env} {m : Mark} {q : Nat} (h : Marked m q w) (hext : Extends pid w w')
    : Marked m q w' := by
  obtain ⟨e, he, hpid, hmark⟩ := h
  exact ⟨e, hext.mem he, hpid, hmark⟩

theorem keeps_of_inv {s : (system env).State} {e : LeaderEvent env} (h : LeaderInv (w.after s e))
    : (leaderOutline env).Keeps w s e :=
  ⟨trivial, h, fun _ _ => trivial⟩

theorem keeps_quiet {e : LeaderEvent env} (hinv : LeaderInv w) (hmark : mark? e = none) (hends : e.ends = false)
    : (leaderOutline env).Keeps w w.state e := by
  apply keeps_of_inv
  apply hinv.quiet hmark (fun _ => rfl) (fun _ _ => rfl)
  intro p _ hended
  rw [hends] at hended
  cases hended

theorem wp_insert (hasked : Marked (.asked inst task) pid w) (hgot : Marked (.got (env.lockId task)) pid w)
    (hQ : ∀ w, Holds pid inst task w → Q (.ok ()) w)
    : (leaderOutline env).Wp pid Q
        (Program.request (I := LeaderInterface) (.insert inst task (env.lockId task))) w := by
  apply Outline.wp_request
  intro w' hrely hinv r s hanswer hok
  obtain ⟨rfl, rfl⟩ := answers_insert hanswer hok.2
  have hasked' := (marked_extends hrely.1).mpr hasked
  have hgot' := (marked_extends hrely.1).mpr hgot
  constructor
  . apply keeps_of_inv
    exact hinv.after_inserted rfl rfl rfl hasked' (fun _ => rfl) (fun _ _ => heldAt_setHeld)
  . intro w'' hrely' _
    apply hQ
    constructor <;> apply (marked_extends hrely'.1).mpr
    . exact hasked'.after
    . exact hgot'.after
    . exact Did.after_iff.mpr (.inl ⟨rfl, rfl⟩)

/--
The acquisition has done nothing yet.
-/
structure Asks (pid inst : Nat) (task : String) (w : LeaderWorld env) : Prop where
  asked : Marked (.asked inst task) pid w
  only : ∀ m, Marked m pid w → m = .asked inst task
  alive : ¬ Gone pid w

theorem Asks.extends {w' : LeaderWorld env} (h : Asks pid inst task w) (hext : Extends pid w w')
    : Asks pid inst task w' where
  asked := (marked_extends hext).mpr h.asked
  only m hm := h.only m ((marked_extends hext).mp hm)
  alive hgone := h.alive ((Did.extends_iff hext).mp hgone)

theorem Asks.after_quiet {s : (system env).State} {e : LeaderEvent env} (h : Asks pid inst task w)
    (hmark : mark? e = none) (hends : e.ends = false) : Asks pid inst task (w.after s e) where
  asked := h.asked.after
  only m hm := h.only m ((marked_quiet hmark).mp hm)
  alive hgone := h.alive ((gone_after hends).mp hgone)

theorem Asks.not_got (h : Asks pid inst task w) (id : Int) : ¬ Marked (.got id) pid w := by
  intro hgot
  cases h.only _ hgot

theorem wp_failed (h : Asks pid inst task w) (e : LeaderError)
    (hQ : ∀ w, (∀ id, ¬ Marked (.got id) pid w) → Q (.error e) w)
    : (leaderOutline env).Wp pid Q (Program.fail e) w := by
  apply Outline.wp_fail
  intro w' hrely _
  exact hQ w' (h.extends hrely.1).not_got

/--
The lock that a session has taken was free.
-/
theorem keeps_got {session : Nat} {e : LeaderEvent env} (hinv : LeaderInv w) (h : Asks pid inst task w)
    (hpid : e.pid? = some pid) (hends : e.ends = false) (hmark : mark? e = some (.got (env.lockId task)))
    (hlocked : (State.tryLock w.state session (env.lockId task)).1 = true)
    (hother : ∀ n, locksAt (env.lockId task) w ≠ some (session, n))
    : (leaderOutline env).Keeps w (State.tryLock w.state session (env.lockId task)).2 e := by
  obtain ⟨hfree, hstate⟩ := tryLock_true hlocked hother
  rw [hstate]
  apply keeps_of_inv
  exact hinv.after_got hpid hends hmark h.asked h.alive h.only (undropped hinv h.alive) hfree
    (fun _ => locksAt_setLock) (fun _ _ => rfl)

theorem wp_tryAcquire (h : Asks pid inst task w) (hok : ∀ w, Holds pid inst task w → Q (.ok ()) w)
    (herror : ∀ e w, (∀ id, ¬ Marked (.got id) pid w) → Q (.error e) w)
    : (leaderOutline env).Wp pid Q (tryAcquire env inst task) w := by
  apply Outline.wp_call
  intro w' hrely hinv r s hanswer hsession
  have hasks := h.extends hrely.1
  obtain ⟨hlost, hother⟩ := hsession.2
  rcases answers_tryLock hanswer hlost with ⟨session, rfl, rfl⟩ | ⟨⟨e, rfl⟩, rfl⟩
  . cases hlocked : (State.tryLock w'.state session (env.lockId task)).1 with
    | true =>
      rw [hlocked] at hother
      constructor
      . exact keeps_got hinv hasks rfl rfl rfl hlocked (fun n => hother true session n rfl)
      . refine wp_insert hasks.asked.after ?_ hok
        exact Did.after_iff.mpr (.inl ⟨rfl, rfl⟩)
    | false =>
      rw [tryLock_false hlocked]
      constructor
      . exact keeps_quiet hinv rfl rfl
      . exact wp_failed (hasks.after_quiet rfl rfl) _ (herror _)
  . constructor
    . exact keeps_quiet hinv rfl rfl
    . exact wp_failed (hasks.after_quiet rfl rfl) _ (herror _)

theorem wp_acquire (h : Asks pid inst task w) (hok : ∀ w, Holds pid inst task w → Q (.ok ()) w)
    (herror : ∀ e w, (∀ id, ¬ Marked (.got id) pid w) → Q (.error e) w)
    : (leaderOutline env).Wp pid Q (acquire env inst task) w := by
  apply Outline.wp_call
  intro w' hrely hinv r s hanswer hsession
  have hasks := h.extends hrely.1
  obtain ⟨hlost, hother⟩ := hsession.2
  rcases answers_lock hanswer hlost with ⟨session, rfl, hlocked, rfl⟩ | ⟨⟨e, rfl⟩, rfl⟩
  . constructor
    . exact keeps_got hinv hasks rfl rfl rfl hlocked (fun n => hother session n rfl)
    . refine wp_insert hasks.asked.after ?_ hok
      exact Did.after_iff.mpr (.inl ⟨rfl, rfl⟩)
  . constructor
    . exact keeps_quiet hinv rfl rfl
    . exact wp_failed (hasks.after_quiet rfl rfl) _ (herror _)

/-! ## Guards -/

/--
The release task has been spawned for the guard.
-/
structure Drops (pid guard inst : Nat) (task : String) (w : LeaderWorld env) : Prop where
  dropped : Marked (.dropped guard) pid w
  guarded : Marked (.guarded inst task) guard w
  notGot : ∀ id, ¬ Marked (.got id) pid w

theorem Drops.extends {w' : LeaderWorld env} (h : Drops pid guard inst task w) (hext : Extends pid w w')
    : Drops pid guard inst task w' where
  dropped := (marked_extends hext).mpr h.dropped
  guarded := h.guarded.persists hext
  notGot id hgot := h.notGot id ((marked_extends hext).mp hgot)

theorem Drops.after {s : (system env).State} {e : LeaderEvent env} {m : Mark} (h : Drops pid guard inst task w)
    (hpid : e.pid? = some pid) (hmark : mark? e = some m) (hm : ∀ id, m ≠ .got id)
    : Drops pid guard inst task (w.after s e) where
  dropped := h.dropped.after
  guarded := h.guarded.after
  notGot id hgot := by
    rcases (marked_after hpid hmark).mp hgot with ⟨_, heq⟩ | hold
    . exact hm id heq.symm
    . exact h.notGot id hold

/--
The guard is still noted when its release task looks for it.
-/
theorem Drops.heldAt_eq (h : Drops pid guard inst task w) (hinv : LeaderInv w) (hremoved : ¬ Marked .removed pid w)
    : heldAt inst task w = some (env.lockId task) :=
  hinv.entry guard inst task _ (hinv.guarded guard inst task h.guarded).1
    (hinv.entered_of_dropped h.dropped h.guarded hremoved)

theorem wp_unlock (h : Drops pid guard inst task w) (hremoved : Marked .removed pid w)
    (hunlocked : ¬ Marked .unlocked pid w) (hQ : ∀ r w, Drops pid guard inst task w → Marked .unlocked pid w → Q r w)
    : (leaderOutline env).Wp pid Q (do
        let _ ← (Program.request (I := LeaderInterface) (.unlock inst (env.lockId task))).attempt
        pure ()) w := by
  apply Outline.wp_try
  intro w' hrely hinv r s hanswer hsession
  obtain ⟨session, n, rfl, hlock⟩ := hsession.2
  have hdrops := h.extends hrely.1
  -- the session holds the lock once
  obtain ⟨rfl, _⟩ := hinv.locked _ session n hlock
  have hstate := (answers_unlock hanswer).trans (unlock_last hlock)
  subst hstate
  constructor
  . apply keeps_of_inv
    exact hinv.after_unlocked rfl rfl rfl hdrops.dropped hdrops.guarded ((marked_extends hrely.1).mpr hremoved)
      (fun hm => hunlocked ((marked_extends hrely.1).mp hm)) (fun _ => locksAt_setLock) (fun _ _ => rfl)
  . apply Outline.wp_pure
    intro w'' hrely' _
    apply hQ
    . exact (hdrops.after rfl rfl (fun _ => by simp)).extends hrely'.1
    . exact (marked_extends hrely'.1).mpr (Did.after_iff.mpr (.inl ⟨rfl, rfl⟩))

theorem wp_dropGuard (h : Drops pid guard inst task w) (hremoved : ¬ Marked .removed pid w)
    (hunlocked : ¬ Marked .unlocked pid w)
    (hQ : ∀ r w, Drops pid guard inst task w → Marked .unlocked pid w → Q r w)
    : (leaderOutline env).Wp pid Q (dropGuard inst task) w := by
  apply Outline.wp_call
  intro w₁ hrely hinv r s hanswer hsession
  have hdrops := h.extends hrely.1
  replace hremoved := fun hm => hremoved ((marked_extends hrely.1).mp hm)
  replace hunlocked := fun hm => hunlocked ((marked_extends hrely.1).mp hm)
  obtain ⟨rfl, rfl⟩ := answers_remove hanswer hsession.2.1
  constructor
  . apply keeps_of_inv
    exact hinv.after_removed rfl rfl rfl (.inr ⟨hdrops.dropped, hdrops.guarded, hunlocked⟩) (fun _ => rfl)
      (fun _ _ => heldAt_setHeld)
  have hheld : State.held w₁.state inst task = some (env.lockId task) := hdrops.heldAt_eq hinv hremoved
  simp only [hheld]
  apply wp_unlock (hdrops.after rfl rfl (fun _ => by simp)) _ _ hQ
  . exact Did.after_iff.mpr (.inl ⟨rfl, rfl⟩)
  . intro hm
    rcases (marked_after rfl rfl).mp hm with ⟨_, heq⟩ | hold
    . cases heq
    . exact hunlocked hold

theorem wp_release (hearly : Marked (.early inst task) pid w) (hnotGot : ∀ id, ¬ Marked (.got id) pid w)
    (hQ : ∀ r w, (∀ id, ¬ Marked (.got id) pid w) → Q r w)
    : (leaderOutline env).Wp pid Q (release inst task) w := by
  apply Outline.wp_call
  intro w₁ hrely hinv r s hanswer hsession
  obtain ⟨rfl, rfl⟩ := answers_remove hanswer hsession.2.1
  have hnone := hsession.2.2 ((marked_extends hrely.1).mpr hearly)
  constructor
  . apply keeps_of_inv
    exact hinv.after_removed (p := pid) rfl rfl rfl (.inl hnone) (fun _ => rfl) (fun _ _ => heldAt_setHeld)
  have hheld : State.held w₁.state inst task = none := hnone
  simp only [hheld]
  apply Outline.wp_pure
  intro w₂ hrely' _
  apply hQ
  intro id hgot
  rcases (marked_after rfl rfl).mp ((marked_extends hrely'.1).mp hgot) with ⟨_, heq⟩ | hold
  . cases heq
  . exact hnotGot id ((marked_extends hrely.1).mp hold)

end Programs

/-! ## Runs -/

section Runs

variable {w : LeaderWorld env} {pid : Nat}

theorem asks_of_spawn {inst : Nat} {task : String} {s : (system env).State} {e : LeaderEvent env}
    (hfresh : Fresh pid w) (hpid : e.pid? = some pid) (hmark : mark? e = some (.asked inst task))
    (hends : e.ends = false) : Asks pid inst task (w.after s e) where
  asked := Did.after_iff.mpr (.inl ⟨hpid, hmark⟩)
  only m hm := by
    rcases (marked_after hpid hmark).mp hm with ⟨_, heq⟩ | hold
    . exact heq
    . exact absurd hold (not_marked_of_fresh hfresh)
  alive hgone := Did.not_of_fresh hfresh ((gone_after hends).mp hgone)

theorem not_marked_of_spawn {s : (system env).State} {e : LeaderEvent env} {m m' : Mark} (hfresh : Fresh pid w)
    (hpid : e.pid? = some pid) (hmark : mark? e = some m) (hne : m' ≠ m) : ¬ Marked m' pid (w.after s e) := by
  intro hm
  rcases (marked_after hpid hmark).mp hm with ⟨_, heq⟩ | hold
  . exact hne heq
  . exact not_marked_of_fresh hfresh hold

theorem keeps_spawn {req : Request} (hinv : LeaderInv w) (hfresh : Fresh pid w)
    (hdropped : DroppedOnce w (.spawn pid req)) (hsession : OneSession w (.spawn pid req))
    : (leaderOutline env).Keeps w w.state (.spawn pid req) := by
  apply keeps_of_inv
  cases req with
  | tryAcquire inst task => exact hinv.after_asked rfl rfl hfresh rfl (fun _ => rfl) (fun _ _ => rfl) hsession
  | acquire inst task => exact hinv.after_asked rfl rfl hfresh rfl (fun _ => rfl) (fun _ _ => rfl) hsession
  | release inst task => exact hinv.after_early rfl rfl rfl (fun _ => rfl) (fun _ _ => rfl)
  | dropGuard guard inst task =>
    exact hinv.after_dropped rfl rfl hfresh rfl (fun _ => rfl) (fun _ _ => rfl) ⟨inst, task, hdropped.1⟩ hdropped.2

theorem wp_program {req : Request} (hfresh : Fresh pid w) (hdropped : DroppedOnce w (.spawn pid req))
    : (leaderOutline env).Wp pid (Ends pid req) (req.program env) (w.after w.state (.spawn pid req)) := by
  cases req with
  | tryAcquire inst task => exact wp_tryAcquire (asks_of_spawn hfresh rfl rfl rfl) (fun _ h => h) (fun _ _ h => h)
  | acquire inst task => exact wp_acquire (asks_of_spawn hfresh rfl rfl rfl) (fun _ h => h) (fun _ _ h => h)
  | release inst task =>
    apply wp_release
    . exact Did.after_iff.mpr (.inl ⟨rfl, rfl⟩)
    . exact fun id => not_marked_of_spawn hfresh rfl rfl (by simp)
    . exact fun _ _ h => h
  | dropGuard guard inst task =>
    have hdrops : Drops pid guard inst task (w.after w.state (.spawn pid (.dropGuard guard inst task))) := by
      constructor
      . exact Did.after_iff.mpr (.inl ⟨rfl, rfl⟩)
      . exact hdropped.1.after
      . exact fun id => not_marked_of_spawn hfresh rfl rfl (by simp)
    apply wp_dropGuard hdrops
    . exact not_marked_of_spawn hfresh rfl rfl (by simp)
    . exact not_marked_of_spawn hfresh rfl rfl (by simp)
    . exact fun _ _ h hunlocked => ⟨h.dropped, hunlocked, h.notGot⟩

theorem keeps_finish {req : Request} {r : Except LeaderError Unit} (hinv : LeaderInv w) (hends : Ends pid req r w)
    : (leaderOutline env).Keeps w w.state (.finish pid req r) := by
  apply keeps_of_inv
  -- what ends without a guard has not got a lock
  have hquiet : mark? (.finish pid req r : LeaderEvent env) = none → (∀ id, ¬ Marked (.got id) pid w) →
      LeaderInv (w.after w.state (.finish pid req r)) := by
    intro hmark hnotGot
    apply hinv.quiet hmark (fun _ => rfl) (fun _ _ => rfl)
    intro p hp _
    cases hp
    exact hnotGot
  cases req with
  | tryAcquire inst task =>
    cases r with
    | ok _ => exact hinv.after_guarded rfl rfl hends.asked hends.got hends.inserted (fun _ => rfl) (fun _ _ => rfl)
    | error e => exact hquiet rfl hends
  | acquire inst task =>
    cases r with
    | ok _ => exact hinv.after_guarded rfl rfl hends.asked hends.got hends.inserted (fun _ => rfl) (fun _ _ => rfl)
    | error e => exact hquiet rfl hends
  | release inst task => exact hquiet rfl hends
  | dropGuard guard inst task =>
    exact hinv.after_released rfl rfl hends.1 hends.2.1 hends.2.2 (fun _ => rfl) (fun _ _ => rfl)

theorem leaderOutline_sound (env : Env) : (leaderOutline env).Sound where
  spawn w pid req hinv hfresh hok := keeps_spawn hinv hfresh hok.1 hok.2
  program w pid req _ hfresh hok := wp_program hfresh hok.1
  finish w pid req r hinv _ hpost _ := keeps_finish hinv hpost
  crash w pid req hinv _ hok := by
    apply keeps_of_inv
    apply hinv.quiet rfl (fun _ => rfl) (fun _ _ => rfl)
    intro p hp _
    cases hp
    exact hok.2
  tick w t := t.elim

end Runs

/--
One leader at a time, and none for good, where every query finds the session it needs.
-/
theorem electsOne (env : Env) : ElectsOne env OneSession := by
  intro moves c hdropped hsession hrun
  have hvalid : (leaderOutline env).Valid (Config.start .start) := .start .start
  exact ((leaderOutline_sound env).run hvalid (Config.along_and hdropped hsession) hrun).1.inv.elected

/--
One instance whose pool has one connection.
-/
def oneConnection : Env where
  hash _ := 7
  pool _ := 0

/--
The instance acquires a task twice.
-/
def twiceMoves : List (Move (system oneConnection)) :=
  [0, 1].flatMap fun pid => [.spawn (.tryAcquire 0 "t"), .call pid ⟨0, false⟩, .call pid ⟨0, false⟩, .finish pid]

def drops (e : LeaderEvent env) : Bool :=
  match mark? e with
  | some (.dropped _) => true
  | _ => false

theorem droppedOnce_of_not_drops {w : LeaderWorld env} {e : LeaderEvent env} (h : drops e = false) : DroppedOnce w e := by
  unfold DroppedOnce
  split
  . cases h
  . trivial

theorem undropped_of_not_drops {w : LeaderWorld env} {guard inst : Nat} {task : String}
    (hguard : Marked (.guarded inst task) guard w) (h : ∀ e ∈ w.trace, drops e = false) : Undropped guard task w := by
  refine ⟨⟨inst, hguard⟩, ?_⟩
  rintro d ⟨e, he, _, hmark⟩
  have hdrops := h e he
  rw [drops, hmark] at hdrops
  cases hdrops

theorem twiceMoves_two : ∃ c, Config.run twiceMoves (.start .start) = some c
    ∧ Undropped 0 "t" c.world ∧ Undropped 1 "t" c.world := by
  obtain ⟨c, hrun, hc⟩ := @Config.exists_of_any _ _ twiceMoves (.start .start)
    (fun c => decide (Marked (.guarded 0 "t") 0 c.world ∧ Marked (.guarded 0 "t") 1 c.world
      ∧ ∀ e ∈ c.world.trace, drops e = false)) (by decide)
  obtain ⟨hfirst, hsecond, hdrops⟩ := of_decide_eq_true hc
  exact ⟨c, hrun, undropped_of_not_drops hfirst hdrops, undropped_of_not_drops hsecond hdrops⟩

/--
The second acquisition is on the session that already has the lock.
-/
theorem not_electsOne : ¬ ∀ env, ElectsOne env (fun _ _ => True) := by
  intro h
  obtain ⟨c, hrun, hfirst, hsecond⟩ := twiceMoves_two
  have hdropped : Config.Along DroppedOnce twiceMoves (.start .start) :=
    @Config.along_mono _ _ (fun _ e => drops e = false) _ _ _ (by decide)
      (fun _ _ => droppedOnce_of_not_drops)
  have helected := h oneConnection twiceMoves c hdropped (Config.along_true _ _) hrun
  cases helected.exclusive 0 1 "t" hfirst hsecond

end Reactor.Leader
