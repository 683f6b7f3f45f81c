import ReactorCloud.Interleave.Rely

/-!
This module contains the leader election of `PgAdvisoryLeader` over the advisory locks of Postgres. A lock
belongs to a session and can be taken by it more than once.
-/

namespace Reactor.Leader

open Interleave (Interface Program System)
open Interleave.Program

/--
The hash of a task name, and the instance whose pool a session is of.
-/
structure Env where
  hash : String → UInt64
  pool : Nat → Nat

/--
The lower 63 bits of the hash.
-/
def Env.lockId (env : Env) (task : String) : Int :=
  ((env.hash task &&& 0x7FFFFFFFFFFFFFFF).toNat : Int)

/-! ## State -/

/--
The session that holds each lock and how often, and the locks each instance thinks it holds.
-/
structure State where
  locks : Int → Option (Nat × Nat)
  held : Nat → String → Option Int

namespace State

def start : State where
  locks _ := none
  held _ _ := none

def setLock (s : State) (id : Int) (lock : Option (Nat × Nat)) : State :=
  { s with locks := Function.update s.locks id lock }

def setHeld (s : State) (inst : Nat) (task : String) (id : Option Int) : State :=
  let ofInstance := Function.update (s.held inst) task id
  { s with held := Function.update s.held inst ofInstance }

/--
`pg_try_advisory_lock` on a session.
-/
def tryLock (s : State) (session : Nat) (id : Int) : Bool × State :=
  match s.locks id with
  | none => (true, s.setLock id (some (session, 1)))
  | some (holder, n) =>
    if holder = session then (true, s.setLock id (some (session, n + 1))) else (false, s)

/--
`pg_advisory_unlock` on a session: what the session does not hold is left alone.
-/
def unlock (s : State) (session : Nat) (id : Int) : State :=
  match s.locks id with
  | none => s
  | some (holder, n) =>
    if holder = session then
      s.setLock id (if n ≤ 1 then none else some (session, n - 1))
    else
      s

end State

/-! ## Calls -/

inductive LeaderError where
  | connection
  | lost
  | acquisitionFailed (text : String)
  | releaseFailed
  deriving DecidableEq

/--
A query runs on a session of the pool of the instance.
-/
inductive Call where
  | tryLock (inst : Nat) (id : Int)
  | lock (inst : Nat) (id : Int)
  | unlock (inst : Nat) (id : Int)
  | insert (inst : Nat) (task : String) (id : Int)
  | remove (inst : Nat) (task : String)

/--
The session a query ran on is part of its answer. No program looks at it.
-/
def Call.Ret : Call → Type
  | .tryLock _ _ => Bool × Nat
  | .lock _ _ => Nat
  | .unlock _ _ => Nat
  | .insert _ _ _ => Unit
  | .remove _ _ => Option Int

abbrev LeaderInterface : Interface := ⟨Call, Call.Ret, LeaderError⟩

structure Choice where
  session : Nat
  refused : Bool

/--
`SELECT pg_advisory_lock` waits until the lock is free.
-/
def exec (env : Env) (choice : Choice) (s : State) : (c : Call) → Option (Except LeaderError c.Ret × State)
  | .tryLock inst id =>
    if env.pool choice.session ≠ inst then none
    else if choice.refused then some (.error .connection, s)
    else some (.ok ((s.tryLock choice.session id).1, choice.session), (s.tryLock choice.session id).2)
  | .lock inst id =>
    if env.pool choice.session ≠ inst then none
    else if choice.refused then some (.error .connection, s)
    else if (s.tryLock choice.session id).1 then some (.ok choice.session, (s.tryLock choice.session id).2)
    else none
  | .unlock inst id =>
    if env.pool choice.session ≠ inst then none
    else if choice.refused then some (.error .connection, s)
    else some (.ok choice.session, s.unlock choice.session id)
  | .insert inst task id => some (.ok (), s.setHeld inst task (some id))
  | .remove inst task => some (.ok (s.held inst task), s.setHeld inst task none)

/-! ## Operations -/

variable (env : Env)

/--
The guard is for the task it was asked for.
-/
def tryAcquire (inst : Nat) (task : String) : Program LeaderInterface Unit := do
  let got ← request (I := LeaderInterface) (.tryLock inst (env.lockId task))
  if (show Bool × Nat from got).1 then
    request (I := LeaderInterface) (.insert inst task (env.lockId task))
  else
    fail (.acquisitionFailed ("another instance holds the lock for '" ++ task ++ "'"))

def acquire (inst : Nat) (task : String) : Program LeaderInterface Unit := do
  let _ ← request (I := LeaderInterface) (.lock inst (env.lockId task))
  request (I := LeaderInterface) (.insert inst task (env.lockId task))

def release (inst : Nat) (task : String) : Program LeaderInterface Unit := do
  let id ← request (I := LeaderInterface) (.remove inst task)
  match (show Option Int from id) with
  | some id =>
    let unlocked ← (request (I := LeaderInterface) (.unlock inst id)).attempt
    match unlocked with
    | .ok _ => pure ()
    | .error _ => fail .releaseFailed
  | none => pure ()

/--
The task that is spawned when a guard is dropped.
-/
def dropGuard (inst : Nat) (task : String) : Program LeaderInterface Unit := do
  let id ← request (I := LeaderInterface) (.remove inst task)
  match (show Option Int from id) with
  | some id =>
    let _ ← (request (I := LeaderInterface) (.unlock inst id)).attempt
    pure ()
  | none => pure ()

/--
A guard is known by the process that has acquired it.
-/
inductive Request where
  | tryAcquire (inst : Nat) (task : String)
  | acquire (inst : Nat) (task : String)
  | release (inst : Nat) (task : String)
  | dropGuard (guard : Nat) (inst : Nat) (task : String)

def Request.program : Request → Program LeaderInterface Unit
  | .tryAcquire inst task => Leader.tryAcquire env inst task
  | .acquire inst task => Leader.acquire env inst task
  | .release inst task => Leader.release inst task
  | .dropGuard _ inst task => Leader.dropGuard inst task

def system : System LeaderInterface where
  State := State
  Request := Request
  Reply _ := Unit
  program := Request.program env
  Choice := Choice
  exec _ c choice s := exec env choice s c
  failure := .lost
  release _ s := s
  Tick := Empty
  tick t := t.elim

end Reactor.Leader

/-!
This module contains who leads in any run. The lock is taken and given back on whatever session is idle, so
that it can be taken twice by one instance and not given back at all.
-/

namespace Reactor.Leader

open Interleave

variable {env : Env}

abbrev LeaderWorld (env : Env) : Type :=
  World (system env)

abbrev LeaderEvent (env : Env) : Type :=
  Interleave.Event (system env)

/-! ## Marks -/

/--
What an event means for the lock of a task.
-/
inductive Mark where
  | asked (inst : Nat) (task : String)
  | got (id : Int)
  | inserted
  | guarded (inst : Nat) (task : String)
  | dropped (guard : Nat)
  | removed
  | unlocked
  | released (guard : Nat)
  | early (inst : Nat) (task : String)
  deriving DecidableEq

def mark? : LeaderEvent env → Option Mark
  | .spawn _ (.tryAcquire inst task) => some (.asked inst task)
  | .spawn _ (.acquire inst task) => some (.asked inst task)
  | .spawn _ (.dropGuard guard _ _) => some (.dropped guard)
  | .spawn _ (.release inst task) => some (.early inst task)
  | .call _ (.tryLock _ id) (.ok answer) => if (show Bool × Nat from answer).1 then some (.got id) else none
  | .call _ (.lock _ id) (.ok _) => some (.got id)
  | .call _ (.insert _ _ _) (.ok _) => some .inserted
  | .call _ (.remove _ _) (.ok _) => some .removed
  | .call _ (.unlock _ _) (.ok _) => some .unlocked
  | .finish _ (.tryAcquire inst task) (.ok _) => some (.guarded inst task)
  | .finish _ (.acquire inst task) (.ok _) => some (.guarded inst task)
  | .finish _ (.dropGuard guard _ _) _ => some (.released guard)
  | _ => none

def Marked (m : Mark) (pid : Nat) (w : LeaderWorld env) : Prop :=
  Did (fun e => mark? e = some m) pid w

instance {m : Mark} {pid : Nat} {w : LeaderWorld env} : Decidable (Marked m pid w) :=
  inferInstanceAs (Decidable (Did _ pid w))

section Marks

variable {w w' : LeaderWorld env} {s : (system env).State} {e : LeaderEvent env} {pid q : Nat} {m m' : Mark}

theorem marked_after (hpid : e.pid? = some pid) (hmark : mark? e = some m)
    : Marked m' q (w.after s e) ↔ (q = pid ∧ m' = m) ∨ Marked m' q w := by
  unfold Marked
  refine Did.after_iff.trans ?_
  rw [hpid, hmark, Option.some.injEq, Option.some.injEq, eq_comm, @eq_comm _ m m']

theorem marked_quiet (hmark : mark? e = none) : Marked m' q (w.after s e) ↔ Marked m' q w := by
  unfold Marked
  refine Did.after_iff.trans ?_
  simp [hmark]

theorem Marked.after (h : Marked m q w) : Marked m q (w.after s e) :=
  Did.after h s e

theorem marked_extends (h : Extends pid w w') : Marked m pid w' ↔ Marked m pid w :=
  Did.extends_iff h

theorem not_marked_of_fresh (h : Fresh pid w) : ¬ Marked m pid w :=
  Did.not_of_fresh h

end Marks

/-! ## What is to be shown -/

def locksAt (id : Int) (w : LeaderWorld env) : Option (Nat × Nat) :=
  State.locks w.state id

def heldAt (inst : Nat) (task : String) (w : LeaderWorld env) : Option Int :=
  State.held w.state inst task

/--
The guard is there and has not been dropped.
-/
def Undropped (guard : Nat) (task : String) (w : LeaderWorld env) : Prop :=
  (∃ inst, Marked (.guarded inst task) guard w) ∧ ∀ d, ¬ Marked (.dropped guard) d w

/--
The process has the lock of the task and is about to return, or its guard has not been dropped, or the
release task of the guard has not run.
-/
def InUse (pid : Nat) (task : String) (w : LeaderWorld env) : Prop :=
  (¬ Gone pid w ∧ Marked (.got (env.lockId task)) pid w)
    ∨ ((∃ inst, Marked (.guarded inst task) pid w) ∧ ∀ d, ¬ Marked (.released pid) d w)

structure Elected (w : LeaderWorld env) : Prop where
  exclusive : ∀ guard guard' task, Undropped guard task w → Undropped guard' task w → guard = guard'
  releases : ∀ pid inst task, Marked (.asked inst task) pid w → (∀ q, ¬ InUse q task w) →
    locksAt (env.lockId task) w = none

/--
A guard is dropped once.
-/
def DroppedOnce (w : LeaderWorld env) : LeaderEvent env → Prop
  | .spawn _ (.dropGuard guard inst task) =>
    Marked (.guarded inst task) guard w ∧ ∀ d, ¬ Marked (.dropped guard) d w
  | _ => True

/--
One leader at a time in the runs whose steps are all `ok`.
-/
def ElectsOne (env : Env) (ok : LeaderWorld env → LeaderEvent env → Prop) : Prop :=
  ∀ moves (c : Config (system env)), Config.Along DroppedOnce moves (.start .start) →
    Config.Along ok moves (.start .start) → Config.run moves (.start .start) = some c → Elected c.world

/--
Tasks have locks of their own, a lock is taken on a session that does not hold it and given back on the
session that does, nothing is released early, no answer is lost and no acquisition is cancelled when it has
the lock.
-/
def OneSession (w : LeaderWorld env) : LeaderEvent env → Prop
  | .spawn _ (.tryAcquire _ task) =>
    ∀ p inst task', Marked (.asked inst task') p w → env.lockId task' = env.lockId task → task' = task
  | .spawn _ (.acquire _ task) =>
    ∀ p inst task', Marked (.asked inst task') p w → env.lockId task' = env.lockId task → task' = task
  | .call _ (.tryLock _ id) r =>
    r ≠ .error .lost ∧ ∀ got session n, r = .ok (got, session) → locksAt id w ≠ some (session, n)
  | .call _ (.lock _ id) r =>
    r ≠ .error .lost ∧ ∀ session n, r = .ok session → locksAt id w ≠ some (session, n)
  | .call _ (.unlock _ id) r => ∃ session n, r = .ok session ∧ locksAt id w = some (session, n)
  | .call pid (.remove inst task) r =>
    r ≠ .error .lost ∧ (Marked (.early inst task) pid w → heldAt inst task w = none)
  | .call _ (.insert _ _ _) r => r ≠ .error .lost
  | .crash pid => ∀ id, ¬ Marked (.got id) pid w
  | _ => True

/-! ## Invariant -/

/--
The process has got the lock, and no release task has given it back.
-/
def Owns (pid : Nat) (id : Int) (w : LeaderWorld env) : Prop :=
  Marked (.got id) pid w ∧ ∀ d, Marked (.dropped pid) d w → ¬ Marked .unlocked d w

/--
The process has noted its lock, and no release task has taken the note away.
-/
def Entered (pid : Nat) (id : Int) (w : LeaderWorld env) : Prop :=
  Marked (.got id) pid w ∧ Marked .inserted pid w ∧ ∀ d, Marked (.dropped pid) d w → ¬ Marked .removed d w

structure LeaderInv (w : LeaderWorld env) : Prop where
  one : ∀ p q id, Owns p id w → Owns q id w → p = q
  locked : ∀ id session n, locksAt id w = some (session, n) → n = 1 ∧ ∃ p, Owns p id w
  free : ∀ id p, locksAt id w = none → ¬ Owns p id w
  asked : ∀ p id, Marked (.got id) p w → ∃ inst task, Marked (.asked inst task) p w ∧ env.lockId task = id
  once : ∀ p inst task inst' task', Marked (.asked inst task) p w → Marked (.asked inst' task') p w →
    inst = inst' ∧ task = task'
  distinct : ∀ p q inst task inst' task', Marked (.asked inst task) p w → Marked (.asked inst' task') q w →
    env.lockId task = env.lockId task' → task = task'
  entry : ∀ p inst task id, Marked (.asked inst task) p w → Entered p id w → heldAt inst task w = some id
  guarded : ∀ p inst task, Marked (.guarded inst task) p w →
    Marked (.asked inst task) p w ∧ Marked (.got (env.lockId task)) p w ∧ Marked .inserted p w
  dropped : ∀ d p, Marked (.dropped p) d w →
    (∃ inst task, Marked (.guarded inst task) p w) ∧ ∀ d', Marked (.dropped p) d' w → d' = d
  single : ∀ d p p', Marked (.dropped p) d w → Marked (.dropped p') d w → p' = p
  unlocked : ∀ d p, Marked (.dropped p) d w → Marked .unlocked d w → Marked .removed d w
  released : ∀ d p, Marked (.released p) d w → Marked (.dropped p) d w ∧ Marked .unlocked d w
  ended : ∀ p id, Gone p w → Marked (.got id) p w → ∃ inst task, Marked (.guarded inst task) p w

section Invariant

variable {w : LeaderWorld env} {p q d : Nat} {id : Int} {inst : Nat} {task : String}

theorem LeaderInv.elected (h : LeaderInv w) : Elected w where
  exclusive := by
    rintro guard guard' task ⟨⟨inst, hguard⟩, hkept⟩ ⟨⟨inst', hguard'⟩, hkept'⟩
    apply h.one guard guard' (env.lockId task)
    . exact ⟨(h.guarded guard inst task hguard).2.1, fun d hd => absurd hd (hkept d)⟩
    . exact ⟨(h.guarded guard' inst' task hguard').2.1, fun d hd => absurd hd (hkept' d)⟩
  releases := by
    intro pid inst task hasked hidle
    cases hlock : locksAt (env.lockId task) w with
    | none => rfl
    | some lock =>
      obtain ⟨session, n⟩ := lock
      obtain ⟨_, p, hgot, hunlocked⟩ := h.locked _ session n hlock
      obtain ⟨inst', task', hasked', hid⟩ := h.asked p _ hgot
      have htask := h.distinct p pid inst' task' inst task hasked' hasked hid
      subst htask
      exfalso
      apply hidle p
      by_cases hgone : Gone p w
      . obtain ⟨inst'', task'', hguard⟩ := h.ended p _ hgone hgot
        have hsame := h.once p _ _ _ _ (h.guarded p _ _ hguard).1 hasked'
        rw [hsame.2] at hguard
        refine .inr ⟨⟨inst'', hguard⟩, ?_⟩
        intro d hreleased
        obtain ⟨hdropped, hdone⟩ := h.released d p hreleased
        exact hunlocked d hdropped hdone
      . exact .inl ⟨hgone, hgot⟩

/--
The only release task of the process has not given the lock back.
-/
theorem LeaderInv.owns_of_dropped (h : LeaderInv w) (hdropped : Marked (.dropped p) d w)
    (hguard : Marked (.guarded inst task) p w) (hunlocked : ¬ Marked .unlocked d w)
    : Owns p (env.lockId task) w := by
  refine ⟨(h.guarded p inst task hguard).2.1, ?_⟩
  intro d' hd'
  rw [(h.dropped d p hdropped).2 d' hd']
  exact hunlocked

theorem LeaderInv.entered_of_dropped (h : LeaderInv w) (hdropped : Marked (.dropped p) d w)
    (hguard : Marked (.guarded inst task) p w) (hremoved : ¬ Marked .removed d w)
    : Entered p (env.lockId task) w := by
  obtain ⟨_, hgot, hinserted⟩ := h.guarded p inst task hguard
  refine ⟨hgot, hinserted, ?_⟩
  intro d' hd'
  rw [(h.dropped d p hdropped).2 d' hd']
  exact hremoved

/--
What is noted is owned.
-/
theorem LeaderInv.owns_of_entered (h : LeaderInv w) (hentered : Entered p id w) : Owns p id w := by
  refine ⟨hentered.1, ?_⟩
  intro d hdropped hunlocked
  exact hentered.2.2 d hdropped (h.unlocked d p hdropped hunlocked)

theorem LeaderInv.start : LeaderInv (⟨.start, []⟩ : LeaderWorld env) := by
  have hno : ∀ m p, ¬ Marked m p (⟨.start, []⟩ : LeaderWorld env) := by
    rintro m p ⟨e, he, _⟩
    cases he
  have hlocks : ∀ id, locksAt id (⟨.start, []⟩ : LeaderWorld env) = none := fun _ => rfl
  generalize (⟨.start, []⟩ : LeaderWorld env) = w at *
  constructor <;> simp [Owns, Entered, hno, hlocks]

/-! ## Steps -/

variable {s : (system env).State} {e : LeaderEvent env} {m : Mark}

/--
A step that leaves no mark and ends no acquisition that has a lock.
-/
theorem LeaderInv.quiet (h : LeaderInv w) (hmark : mark? e = none)
    (hlocks : ∀ id, locksAt id (w.after s e) = locksAt id w)
    (hheld : ∀ inst task, heldAt inst task (w.after s e) = heldAt inst task w)
    (hends : ∀ p, e.pid? = some p → e.ends = true → ∀ id, ¬ Marked (.got id) p w)
    : LeaderInv (w.after s e) := by
  have hm : ∀ m q, Marked m q (w.after s e) ↔ Marked m q w := fun m q => marked_quiet hmark
  constructor <;> simp only [Owns, Entered, hm, hlocks, hheld]
  . exact h.one
  . exact h.locked
  . exact h.free
  . exact h.asked
  . exact h.once
  . exact h.distinct
  . exact h.entry
  . exact h.guarded
  . exact h.dropped
  . exact h.single
  . exact h.unlocked
  . exact h.released
  . intro p id hgone hgot
    cases Did.after_iff.mp hgone with
    | inl hnew => exact absurd hgot (hends p hnew.1 hnew.2 id)
    | inr hold => exact h.ended p id hold hgot

theorem gone_after (hends : e.ends = false) : Gone q (w.after s e) ↔ Gone q w :=
  Gone.after_iff hends

theorem LeaderInv.after_asked (h : LeaderInv w) (hpid : e.pid? = some p) (hends : e.ends = false)
    (hfresh : Fresh p w) (hmark : mark? e = some (.asked inst task))
    (hlocks : ∀ id, locksAt id (w.after s e) = locksAt id w)
    (hheld : ∀ inst task, heldAt inst task (w.after s e) = heldAt inst task w)
    (hdistinct : ∀ q inst' task', Marked (.asked inst' task') q w →
      env.lockId task' = env.lockId task → task' = task) : LeaderInv (w.after s e) := by
  have hm : ∀ m q, Marked m q (w.after s e) ↔ (q = p ∧ m = .asked inst task) ∨ Marked m q w :=
    fun m q => marked_after hpid hmark
  have hnone : ∀ m, ¬ Marked m p w := fun m => not_marked_of_fresh hfresh
  constructor <;> simp only [Owns, Entered, hm, hlocks, hheld, gone_after hends, reduceCtorEq, and_false,
    false_or, Mark.asked.injEq]
  . exact h.one
  . exact h.locked
  . exact h.free
  . intro q id hgot
    obtain ⟨inst', task', hasked, hid⟩ := h.asked q id hgot
    exact ⟨inst', task', .inr hasked, hid⟩
  . rintro q inst₁ task₁ inst₂ task₂ (⟨rfl, rfl, rfl⟩ | hold) (⟨hq, rfl, rfl⟩ | hold')
    . exact ⟨rfl, rfl⟩
    . exact absurd hold' (hnone _)
    . subst hq
      exact absurd hold (hnone _)
    . exact h.once q _ _ _ _ hold hold'
  . rintro q q' inst₁ task₁ inst₂ task₂ (⟨rfl, rfl, rfl⟩ | hold) (⟨_, rfl, rfl⟩ | hold') hid
    . rfl
    . exact (hdistinct q' _ _ hold' hid.symm).symm
    . exact hdistinct q _ _ hold hid
    . exact h.distinct q q' _ _ _ _ hold hold' hid
  . rintro q inst₁ task₁ id (⟨rfl, rfl, rfl⟩ | hold) hentered
    . exact absurd hentered.1 (hnone _)
    . exact h.entry q _ _ id hold hentered
  . intro q inst' task' hguard
    obtain ⟨hasked, hrest⟩ := h.guarded q inst' task' hguard
    exact ⟨.inr hasked, hrest⟩
  . exact h.dropped
  . exact h.single
  . exact h.unlocked
  . exact h.released
  . exact h.ended

theorem LeaderInv.after_dropped (h : LeaderInv w) (hpid : e.pid? = some d) (hends : e.ends = false)
    (hfresh : Fresh d w) (hmark : mark? e = some (.dropped p))
    (hlocks : ∀ id, locksAt id (w.after s e) = locksAt id w)
    (hheld : ∀ inst task, heldAt inst task (w.after s e) = heldAt inst task w)
    (hguard : ∃ inst task, Marked (.guarded inst task) p w) (honce : ∀ d', ¬ Marked (.dropped p) d' w)
    : LeaderInv (w.after s e) := by
  have hm : ∀ m q, Marked m q (w.after s e) ↔ (q = d ∧ m = .dropped p) ∨ Marked m q w :=
    fun m q => marked_after hpid hmark
  have hnone : ∀ m, ¬ Marked m d w := fun m => not_marked_of_fresh hfresh
  -- the new release task has done nothing yet
  have howns : ∀ q id, Owns q id (w.after s e) ↔ Owns q id w := by
    intro q id
    simp only [Owns, hm, reduceCtorEq, and_false, false_or, Mark.dropped.injEq]
    apply and_congr_right
    intro _
    constructor
    . intro hall d' hd'
      exact hall d' (.inr hd')
    . rintro hall d' (⟨rfl, rfl⟩ | hd')
      . exact hnone _
      . exact hall d' hd'
  have hentered : ∀ q id, Entered q id (w.after s e) ↔ Entered q id w := by
    intro q id
    simp only [Entered, hm, reduceCtorEq, and_false, false_or, Mark.dropped.injEq]
    apply and_congr_right
    intro _
    apply and_congr_right
    intro _
    constructor
    . intro hall d' hd'
      exact hall d' (.inr hd')
    . rintro hall d' (⟨rfl, rfl⟩ | hd')
      . exact hnone _
      . exact hall d' hd'
  constructor <;> simp only [howns, hentered, hm, hlocks, hheld, gone_after hends, reduceCtorEq, and_false,
    false_or, Mark.dropped.injEq]
  . exact h.one
  . exact h.locked
  . exact h.free
  . exact h.asked
  . exact h.once
  . exact h.distinct
  . exact h.entry
  . exact h.guarded
  . rintro d' q (⟨rfl, rfl⟩ | hold)
    . refine ⟨hguard, ?_⟩
      rintro d'' (⟨rfl, _⟩ | hold)
      . rfl
      . exact absurd hold (honce d'')
    . obtain ⟨hguarded, hsole⟩ := h.dropped d' q hold
      refine ⟨hguarded, ?_⟩
      rintro d'' (⟨rfl, rfl⟩ | hold')
      . exact absurd hold (honce d')
      . exact hsole d'' hold'
  . rintro d' q q' (⟨rfl, rfl⟩ | hold) (⟨hd', rfl⟩ | hold')
    . rfl
    . exact absurd hold' (hnone _)
    . subst hd'
      exact absurd hold (hnone _)
    . exact h.single d' q q' hold hold'
  . rintro d' q (⟨rfl, rfl⟩ | hold) hunlocked
    . exact absurd hunlocked (hnone _)
    . exact h.unlocked d' q hold hunlocked
  . intro d' q hreleased
    obtain ⟨hdropped, hunlocked⟩ := h.released d' q hreleased
    exact ⟨.inr hdropped, hunlocked⟩
  . exact h.ended

theorem LeaderInv.after_early (h : LeaderInv w) (hpid : e.pid? = some p) (hends : e.ends = false)
    (hmark : mark? e = some (.early inst task))
    (hlocks : ∀ id, locksAt id (w.after s e) = locksAt id w)
    (hheld : ∀ inst task, heldAt inst task (w.after s e) = heldAt inst task w) : LeaderInv (w.after s e) := by
  have hm : ∀ m q, Marked m q (w.after s e) ↔ (q = p ∧ m = .early inst task) ∨ Marked m q w :=
    fun m q => marked_after hpid hmark
  constructor <;> simp only [Owns, Entered, hm, hlocks, hheld, gone_after hends, reduceCtorEq, and_false,
    false_or]
  . exact h.one
  . exact h.locked
  . exact h.free
  . exact h.asked
  . exact h.once
  . exact h.distinct
  . exact h.entry
  . exact h.guarded
  . exact h.dropped
  . exact h.single
  . exact h.unlocked
  . exact h.released
  . exact h.ended

/--
A lock that was free is taken.
-/
theorem LeaderInv.after_got (h : LeaderInv w) {session : Nat} (hpid : e.pid? = some p) (hends : e.ends = false)
    (hmark : mark? e = some (.got (env.lockId task))) (hasked : Marked (.asked inst task) p w)
    (halive : ¬ Gone p w) (hnone : ∀ m, Marked m p w → m = .asked inst task)
    (hundropped : ∀ d, ¬ Marked (.dropped p) d w)
    (hfree : locksAt (env.lockId task) w = none)
    (hlocks : ∀ id, locksAt id (w.after s e) = if id = env.lockId task then some (session, 1) else locksAt id w)
    (hheld : ∀ inst task, heldAt inst task (w.after s e) = heldAt inst task w) : LeaderInv (w.after s e) := by
  have hm : ∀ m q, Marked m q (w.after s e) ↔ (q = p ∧ m = .got (env.lockId task)) ∨ Marked m q w :=
    fun m q => marked_after hpid hmark
  have howns : ∀ q id, Owns q id (w.after s e) ↔ (q = p ∧ id = env.lockId task) ∨ Owns q id w := by
    intro q id
    simp only [Owns, hm, reduceCtorEq, and_false, false_or, Mark.got.injEq]
    constructor
    . rintro ⟨hnew | hold, hall⟩
      . exact .inl hnew
      . exact .inr ⟨hold, hall⟩
    . rintro (⟨rfl, rfl⟩ | hold)
      . exact ⟨.inl ⟨rfl, rfl⟩, fun d hd => absurd hd (hundropped d)⟩
      . exact ⟨.inr hold.1, hold.2⟩
  have hentered : ∀ q id, Entered q id (w.after s e) → Entered q id w := by
    intro q id
    simp only [Entered, hm, reduceCtorEq, and_false, false_or, Mark.got.injEq]
    rintro ⟨⟨rfl, _⟩ | hold, hinserted, hall⟩
    . cases hnone _ hinserted
    . exact ⟨hold, hinserted, hall⟩
  constructor <;> simp only [howns, hm, hlocks, hheld, gone_after hends, reduceCtorEq, and_false,
    false_or, Mark.got.injEq]
  . rintro q q' id (⟨rfl, rfl⟩ | hold) (⟨hq', hid⟩ | hold')
    . exact hq'.symm
    . exact absurd hold' (h.free _ q' hfree)
    . rw [hid] at hold
      exact absurd hold (h.free _ q hfree)
    . exact h.one q q' id hold hold'
  . intro id session' n hlock
    split at hlock
    . next heq =>
      cases hlock
      exact ⟨rfl, p, .inl ⟨rfl, heq⟩⟩
    . obtain ⟨hn, q, hown⟩ := h.locked id session' n hlock
      exact ⟨hn, q, .inr hown⟩
  . intro id q hlock
    split at hlock
    . cases hlock
    . next hne =>
      rintro (⟨_, heq⟩ | hold)
      . exact hne heq
      . exact h.free id q hlock hold
  . rintro q id (⟨rfl, rfl⟩ | hold)
    . exact ⟨inst, task, hasked, rfl⟩
    . exact h.asked q id hold
  . exact h.once
  . exact h.distinct
  . intro q inst' task' id hasked' hentered'
    exact h.entry q inst' task' id hasked' (hentered q id hentered')
  . intro q inst' task' hguard
    obtain ⟨hasked', hgot, hinserted⟩ := h.guarded q inst' task' hguard
    exact ⟨hasked', .inr hgot, hinserted⟩
  . exact h.dropped
  . exact h.single
  . exact h.unlocked
  . exact h.released
  . rintro q id hgone (⟨rfl, _⟩ | hold)
    . exact absurd hgone halive
    . exact h.ended q id hgone hold

theorem LeaderInv.after_inserted (h : LeaderInv w) (hpid : e.pid? = some p) (hends : e.ends = false)
    (hmark : mark? e = some .inserted) (hasked : Marked (.asked inst task) p w)
    (hlocks : ∀ id, locksAt id (w.after s e) = locksAt id w)
    (hheld : ∀ inst' task', heldAt inst' task' (w.after s e)
      = if inst' = inst ∧ task' = task then some (env.lockId task) else heldAt inst' task' w)
    : LeaderInv (w.after s e) := by
  have hm : ∀ m q, Marked m q (w.after s e) ↔ (q = p ∧ m = .inserted) ∨ Marked m q w :=
    fun m q => marked_after hpid hmark
  constructor <;> simp only [Owns, Entered, hm, hlocks, hheld, gone_after hends, reduceCtorEq, and_false,
    false_or]
  . exact h.one
  . exact h.locked
  . exact h.free
  . exact h.asked
  . exact h.once
  . exact h.distinct
  . rintro q inst' task' id hasked' ⟨hgot, hinserted, hall⟩
    split
    . next hsame =>
      obtain ⟨inst'', task'', hasked'', hid⟩ := h.asked q id hgot
      rw [← hid, ← hsame.2, (h.once q _ _ _ _ hasked' hasked'').2]
    . next hother =>
      rcases hinserted with ⟨rfl, _⟩ | hinserted
      . exact absurd (h.once q _ _ _ _ hasked' hasked) hother
      . exact h.entry q inst' task' id hasked' ⟨hgot, hinserted, hall⟩
  . intro q inst' task' hguard
    obtain ⟨hasked', hgot, hinserted⟩ := h.guarded q inst' task' hguard
    exact ⟨hasked', hgot, .inr hinserted⟩
  . exact h.dropped
  . exact h.single
  . exact h.unlocked
  . exact h.released
  . exact h.ended

/--
A release task takes the note away, or somebody takes away what is not there.
-/
theorem LeaderInv.after_removed (h : LeaderInv w) (hpid : e.pid? = some d) (hends : e.ends = false)
    (hmark : mark? e = some .removed)
    (hwhose : heldAt inst task w = none
      ∨ (Marked (.dropped p) d w ∧ Marked (.guarded inst task) p w ∧ ¬ Marked .unlocked d w))
    (hlocks : ∀ id, locksAt id (w.after s e) = locksAt id w)
    (hheld : ∀ inst' task', heldAt inst' task' (w.after s e)
      = if inst' = inst ∧ task' = task then none else heldAt inst' task' w)
    : LeaderInv (w.after s e) := by
  have hm : ∀ m q, Marked m q (w.after s e) ↔ (q = d ∧ m = .removed) ∨ Marked m q w :=
    fun m q => marked_after hpid hmark
  have howns : ∀ q id, Owns q id (w.after s e) ↔ Owns q id w := by
    intro q id
    simp only [Owns, hm, reduceCtorEq, and_false, false_or]
  have hentered : ∀ q id, Entered q id (w.after s e) → Entered q id w ∧ ¬ Marked (.dropped q) d w := by
    intro q id
    simp only [Entered, hm, reduceCtorEq, and_false, false_or, and_true]
    rintro ⟨hgot, hinserted, hall⟩
    refine ⟨⟨hgot, hinserted, fun d' hd' hremoved => hall d' hd' (.inr hremoved)⟩, ?_⟩
    intro hdropped
    exact hall d hdropped (.inl rfl)
  constructor <;> simp only [howns, hm, hlocks, hheld, gone_after hends, reduceCtorEq, and_false,
    false_or, and_true]
  . exact h.one
  . exact h.locked
  . exact h.free
  . exact h.asked
  . exact h.once
  . exact h.distinct
  . intro q inst' task' id hasked hin
    obtain ⟨hin, hundropped⟩ := hentered q id hin
    have hentry := h.entry q inst' task' id hasked hin
    split
    . next hsame =>
      obtain ⟨rfl, rfl⟩ := hsame
      exfalso
      rcases hwhose with hnone | ⟨hdropped, hguard, hunlocked⟩
      . rw [hnone] at hentry
        cases hentry
      . -- both would own the lock of the task
        have hown := h.owns_of_dropped hdropped hguard hunlocked
        obtain ⟨inst'', task'', hasked', hid⟩ := h.asked q id hin.1
        have htask := (h.once q _ _ _ _ hasked hasked').2
        have hin := h.owns_of_entered hin
        rw [← hid, ← htask] at hin
        rw [h.one q p _ hin hown] at hundropped
        exact hundropped hdropped
    . exact hentry
  . exact h.guarded
  . exact h.dropped
  . exact h.single
  . intro d' q hdropped hunlocked
    exact .inr (h.unlocked d' q hdropped hunlocked)
  . exact h.released
  . exact h.ended

/--
The release task of the owner gives the lock back.
-/
theorem LeaderInv.after_unlocked (h : LeaderInv w) (hpid : e.pid? = some d) (hends : e.ends = false)
    (hmark : mark? e = some .unlocked) (hdropped : Marked (.dropped p) d w)
    (hguard : Marked (.guarded inst task) p w) (hremoved : Marked .removed d w) (hunlocked : ¬ Marked .unlocked d w)
    (hlocks : ∀ id, locksAt id (w.after s e) = if id = env.lockId task then none else locksAt id w)
    (hheld : ∀ inst task, heldAt inst task (w.after s e) = heldAt inst task w) : LeaderInv (w.after s e) := by
  have hm : ∀ m q, Marked m q (w.after s e) ↔ (q = d ∧ m = .unlocked) ∨ Marked m q w :=
    fun m q => marked_after hpid hmark
  have hown := h.owns_of_dropped hdropped hguard hunlocked
  have howns : ∀ q id, Owns q id (w.after s e) → Owns q id w ∧ ¬ Marked (.dropped q) d w := by
    intro q id
    simp only [Owns, hm, reduceCtorEq, and_false, false_or, and_true]
    rintro ⟨hgot, hall⟩
    refine ⟨⟨hgot, fun d' hd' hdone => hall d' hd' (.inr hdone)⟩, ?_⟩
    intro hd
    exact hall d hd (.inl rfl)
  have howns' : ∀ q id, Owns q id w → q ≠ p → Owns q id (w.after s e) := by
    intro q id hq hne
    simp only [Owns, hm, reduceCtorEq, and_false, false_or, and_true]
    refine ⟨hq.1, ?_⟩
    rintro d' hd' (rfl | hdone)
    . exact hne (h.single d' p q hdropped hd')
    . exact hq.2 d' hd' hdone
  constructor
  case one =>
    intro q q' id hq hq'
    exact h.one q q' id (howns q id hq).1 (howns q' id hq').1
  all_goals simp only [hm, hlocks, hheld, gone_after hends, reduceCtorEq, and_false, false_or]
  . intro id session n hlock
    split at hlock
    . cases hlock
    . next hne =>
      obtain ⟨hn, q, hq⟩ := h.locked id session n hlock
      refine ⟨hn, q, howns' q id hq ?_⟩
      rintro rfl
      -- the owner asked for one lock only
      obtain ⟨inst', task', hasked, hid⟩ := h.asked q id hq.1
      have htask := (h.once q _ _ _ _ hasked (h.guarded q inst task hguard).1).2
      rw [htask] at hid
      exact hne hid.symm
  . intro id q hlock hq
    obtain ⟨hq, hundropped⟩ := howns q id hq
    split at hlock
    . next heq =>
      rw [heq] at hq
      rw [h.one q p _ hq hown] at hundropped
      exact hundropped hdropped
    . exact h.free id q hlock hq
  . exact h.asked
  . exact h.once
  . exact h.distinct
  . intro q inst' task' id hasked hentered
    apply h.entry q inst' task' id hasked
    simp only [Entered, hm, reduceCtorEq, and_false, false_or] at hentered
    exact hentered
  . exact h.guarded
  . exact h.dropped
  . exact h.single
  . rintro d' q hd' (⟨rfl, _⟩ | hdone)
    . exact hremoved
    . exact h.unlocked d' q hd' hdone
  . intro d' q hreleased
    obtain ⟨hd', hdone⟩ := h.released d' q hreleased
    exact ⟨hd', .inr hdone⟩
  . exact h.ended

/--
An acquisition ends with a guard.
-/
theorem LeaderInv.after_guarded (h : LeaderInv w) (hpid : e.pid? = some p)
    (hmark : mark? e = some (.guarded inst task)) (hasked : Marked (.asked inst task) p w)
    (hgot : Marked (.got (env.lockId task)) p w) (hinserted : Marked .inserted p w)
    (hlocks : ∀ id, locksAt id (w.after s e) = locksAt id w)
    (hheld : ∀ inst task, heldAt inst task (w.after s e) = heldAt inst task w) : LeaderInv (w.after s e) := by
  have hm : ∀ m q, Marked m q (w.after s e) ↔ (q = p ∧ m = .guarded inst task) ∨ Marked m q w :=
    fun m q => marked_after hpid hmark
  constructor <;> simp only [Owns, Entered, hm, hlocks, hheld, reduceCtorEq, and_false, false_or,
    Mark.guarded.injEq]
  . exact h.one
  . exact h.locked
  . exact h.free
  . exact h.asked
  . exact h.once
  . exact h.distinct
  . exact h.entry
  . rintro q inst' task' (⟨rfl, rfl, rfl⟩ | hold)
    . exact ⟨hasked, hgot, hinserted⟩
    . exact h.guarded q inst' task' hold
  . intro d' q hdropped
    obtain ⟨⟨inst', task', hguard⟩, hsole⟩ := h.dropped d' q hdropped
    exact ⟨⟨inst', task', .inr hguard⟩, hsole⟩
  . exact h.single
  . exact h.unlocked
  . exact h.released
  . intro q id hgone hgot'
    by_cases hq : q = p
    . exact ⟨inst, task, .inl ⟨hq, rfl, rfl⟩⟩
    . cases Did.after_iff.mp hgone with
      | inl hnew =>
        rw [hpid, Option.some.injEq] at hnew
        exact absurd hnew.1.symm hq
      | inr hold =>
        obtain ⟨inst', task', hguard⟩ := h.ended q id hold hgot'
        exact ⟨inst', task', .inr hguard⟩

/--
A release task ends.
-/
theorem LeaderInv.after_released (h : LeaderInv w) (hpid : e.pid? = some d)
    (hmark : mark? e = some (.released p)) (hdropped : Marked (.dropped p) d w)
    (hunlocked : Marked .unlocked d w) (hnone : ∀ id, ¬ Marked (.got id) d w)
    (hlocks : ∀ id, locksAt id (w.after s e) = locksAt id w)
    (hheld : ∀ inst task, heldAt inst task (w.after s e) = heldAt inst task w) : LeaderInv (w.after s e) := by
  have hm : ∀ m q, Marked m q (w.after s e) ↔ (q = d ∧ m = .released p) ∨ Marked m q w :=
    fun m q => marked_after hpid hmark
  constructor <;> simp only [Owns, Entered, hm, hlocks, hheld, reduceCtorEq, and_false, false_or,
    Mark.released.injEq]
  . exact h.one
  . exact h.locked
  . exact h.free
  . exact h.asked
  . exact h.once
  . exact h.distinct
  . exact h.entry
  . exact h.guarded
  . exact h.dropped
  . exact h.single
  . exact h.unlocked
  . rintro d' q (⟨rfl, rfl⟩ | hold)
    . exact ⟨hdropped, hunlocked⟩
    . exact h.released d' q hold
  . intro q id hgone hgot
    cases Did.after_iff.mp hgone with
    | inl hnew =>
      rw [hpid, Option.some.injEq] at hnew
      rw [← hnew.1] at hgot
      exact absurd hgot (hnone id)
    | inr hold => exact h.ended q id hold hgot

end Invariant

end Reactor.Leader
