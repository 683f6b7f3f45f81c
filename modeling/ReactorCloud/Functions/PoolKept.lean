import Mathlib.Data.List.Nodup
import ReactorCloud.Functions.Bun
import ReactorCloud.Interleave.Holding

/-!
This module contains when a pool neither loses an instance nor shares one. The mark of an instance is
set and cleared under the lock, but whoever drops an invocation in between leaves it set.
-/

namespace Reactor.Functions

open Interleave
open Interleave.Program (attempt fail uses_bind uses_pure uses_fail uses_request)
open Rust (Uuid)

namespace BunState

def instances (s : BunState) (id : DeploymentId) : List BunInstance :=
  (s.pools id).elim [] (·.instances)

def paths (s : BunState) (id : DeploymentId) : List SocketPath :=
  (s.instances id).map (·.socketPath)

end BunState

section Pool

variable {config : BunRuntimeConfig} (id : DeploymentId)

def takenSocket : Event (system config) → Option SocketPath
  | .call _ (.acquire id') (.ok (.found p)) => if id' = id then some p else none
  | .call _ (.addBusy id' p) (.ok _) => if id' = id then some p else none
  | _ => none

def givenSocket : Event (system config) → Option SocketPath
  | .call _ (.release id' p) (.ok _) => if id' = id then some p else none
  | _ => none

def spawnedSocket : Event (system config) → Option SocketPath
  | .call _ (.spawnInstance id') (.ok p) => if id' = id then some p else none
  | _ => none

def pooledSocket : Event (system config) → Option SocketPath
  | .call _ (.addBusy id' p) (.ok _) => if id' = id then some p else none
  | .call _ (.addWarm id' p) (.ok _) => if id' = id then some p else none
  | _ => none

/--
The invocation `pid` has selected the instance and is still in progress.
-/
abbrev Using (pid : Nat) (p : SocketPath) (w : World (system config)) : Prop :=
  Holding (takenSocket id) (givenSocket id) pid p w

/--
The process `pid` has spawned the instance and has not yet put it into the pool.
-/
abbrev Flying (pid : Nat) (p : SocketPath) (w : World (system config)) : Prop :=
  Holding (spawnedSocket id) (pooledSocket id) pid p w

/--
The pool has its size, and the marks of its instances are those of the invocations in progress, which
are apart from each other.
-/
structure PoolSound (w : World (system config)) : Prop where
  bound : (w.state.instances id).length ≤ config.maxInstancesPerFn.toNat
  unshared : ∀ pid pid' p, Using id pid p w → Using id pid' p w → pid = pid'
  busy : ∀ i ∈ w.state.instances id, i.busy = true → ∃ pid, Using id pid i.socketPath w

/--
The instance that is selected has not exited.
-/
def SelectsAlive (w : World (system config)) (e : Event (system config)) : Prop :=
  ∀ p ∈ takenSocket id e, p ∉ w.state.exited

/--
What only takes a lock and changes the memory does not fail.
-/
def Possible : Event (system config) → Prop
  | .call _ c (.error _) =>
    match c with
    | .spawnInstance _ => True
    | .invokeOverSocket .. => True
    | _ => False
  | _ => True

instance (e : Event (system config)) : Decidable (Possible e) :=
  match e with
  | .call _ c (.error _) =>
    match c with
    | .spawnInstance _ => isTrue trivial
    | .invokeOverSocket .. => isTrue trivial
    | .deploy _ => isFalse not_false
    | .acquire _ => isFalse not_false
    | .addBusy .. => isFalse not_false
    | .release .. => isFalse not_false
    | .planWarm .. => isFalse not_false
    | .addWarm .. => isFalse not_false
    | .evictIdle => isFalse not_false
    | .removePool _ => isFalse not_false
    | .exit _ => isFalse not_false
  | .call _ _ (.ok _) => isTrue trivial
  | .spawn .. => isTrue trivial
  | .finish .. => isTrue trivial
  | .crash _ => isTrue trivial
  | .tick => isTrue trivial

/--
No invocation is dropped while it has an instance, no more than the limit is asked for where there are
some already, and no process exits whose instance is in the pool or about to be.
-/
def Steady (w : World (system config)) : Event (system config) → Prop
  | .crash pid => AllGiven (takenSocket id) (givenSocket id) pid w
  | .call _ (.planWarm id' count) _ =>
    id' = id → count ≤ config.maxInstancesPerFn ∨ w.state.instances id = []
  | .call _ (.exit p) _ => p ∉ w.state.paths id ∧ ∀ pid ∈ w.pids, ¬ Flying id pid p w
  | _ => True

instance (w : World (system config)) (e : Event (system config)) : Decidable (Steady id w e) :=
  match e with
  | .crash pid => inferInstanceAs (Decidable (AllGiven _ _ pid w))
  | .call _ c r =>
    match c, r with
    | .planWarm id' count, _ =>
      inferInstanceAs (Decidable (id' = id → count ≤ config.maxInstancesPerFn ∨ _ = []))
    | .exit p, _ => inferInstanceAs (Decidable (p ∉ w.state.paths id ∧ ∀ pid ∈ w.pids, ¬ Flying id pid p w))
    | .deploy _, _ => isTrue trivial
    | .acquire _, _ => isTrue trivial
    | .spawnInstance _, _ => isTrue trivial
    | .addBusy .., _ => isTrue trivial
    | .invokeOverSocket .., _ => isTrue trivial
    | .release .., _ => isTrue trivial
    | .addWarm .., _ => isTrue trivial
    | .evictIdle, _ => isTrue trivial
    | .removePool _, _ => isTrue trivial
  | .spawn .. => isTrue trivial
  | .finish .. => isTrue trivial
  | .tick => isTrue trivial

end Pool

/--
In the runs whose steps are `ok`, the pool of every deployment is sound in every state that is reached,
and every instance that is selected is alive.
-/
def PoolKept (config : BunRuntimeConfig)
    (ok : DeploymentId → World (system config) → Event (system config) → Prop) : Prop :=
  ∀ (id : DeploymentId) (now : Nat) (ms : List (Move (system config))),
    Config.Along (fun _ => Possible) ms (Config.start (.start now)) →
    Config.Along (ok id) ms (Config.start (.start now)) →
      (∀ c, Config.run ms (Config.start (.start now)) = some c → PoolSound id c.world)
        ∧ Config.Along (SelectsAlive id) ms (Config.start (.start now))

/-! ## What a call does to a pool -/

namespace BunState

variable {config : BunRuntimeConfig} {s s' : BunState} {id id' : DeploymentId} {pid : Nat}

theorem instances_setPool (pool : Option DeploymentPool)
    : (s.setPool id' pool).instances id
        =
      if id = id' then pool.elim [] (·.instances) else s.instances id := by
  unfold setPool instances
  simp only [Function.update_apply]
  split <;> rfl

theorem instances_setPool_ne {pool : Option DeploymentPool} (h : id' ≠ id)
    : (s.setPool id' pool).instances id = s.instances id := by
  rw [instances_setPool, if_neg (Ne.symm h)]

theorem instances_of_pools {pool : DeploymentPool} (h : s.pools id = some pool)
    : s.instances id = pool.instances := by
  unfold instances
  rw [h]
  rfl

theorem instances_of_none (h : s.pools id = none) : s.instances id = [] := by
  unfold instances
  rw [h]
  rfl

/--
What is known of all pools and sockets does not change.
-/
structure SameSockets (s s' : BunState) : Prop where
  sockets : s'.sockets = s.sockets
  exited : s'.exited = s.exited

/--
The instance with the socket `p` is marked as busy or not, and the others of the pool stay as they are.
-/
def Marks (busy : Bool) (id : DeploymentId) (i : BunInstance) (s s' : BunState) : Prop :=
  ∃ front back, s.instances id = front ++ i :: back
    ∧ s'.instances id = front ++ i.setBusy busy s.now :: back

theorem Marks.paths_eq {busy : Bool} {i : BunInstance} (h : Marks busy id i s s')
    : s'.paths id = s.paths id := by
  obtain ⟨front, back, hold, hnew⟩ := h
  unfold paths
  rw [hold, hnew]
  simp [BunInstance.setBusy]

theorem Marks.mem {busy : Bool} {i : BunInstance} (h : Marks busy id i s s') : i ∈ s.instances id := by
  obtain ⟨front, back, hold, _⟩ := h
  rw [hold]
  simp

/--
The mark of an instance is the new one or, for another socket, the old one.
-/
theorem Marks.mem_iff {busy : Bool} {i j : BunInstance} (h : Marks busy id i s s')
    (hnodup : (s.paths id).Nodup)
    : j ∈ s'.instances id
        ↔
      j = i.setBusy busy s.now ∨ (j ∈ s.instances id ∧ j.socketPath ≠ i.socketPath) := by
  obtain ⟨front, back, hold, hnew⟩ := h
  unfold paths at hnodup
  rw [hold, List.map_append, List.map_cons, List.nodup_middle, List.nodup_cons] at hnodup
  obtain ⟨hnotMem, _⟩ := hnodup
  rw [← List.map_append, List.mem_map] at hnotMem
  rw [hnew, hold]
  simp only [List.mem_append, List.mem_cons]
  constructor
  . intro hj
    by_cases hrest : j ∈ front ∨ j ∈ back
    . apply Or.inr
      constructor
      . exact hrest.elim .inl (fun h => .inr (.inr h))
      . intro heq
        exact hnotMem ⟨j, List.mem_append.mpr hrest, heq⟩
    . apply Or.inl
      rw [not_or] at hrest
      simpa only [hrest.1, hrest.2, false_or, or_false] using hj
  . rintro (rfl | ⟨hj, hne⟩)
    . exact .inr (.inl rfl)
    . rcases hj with hj | rfl | hj
      . exact .inl hj
      . exact absurd rfl hne
      . exact .inr (.inr hj)

theorem acquire_found {p : SocketPath} (h : (s.acquire config pid id).1 = .found p)
    : SameSockets s (s.acquire config pid id).2
      ∧ ∃ i, i.socketPath = p ∧ i.busy = false ∧ Marks true id i s (s.acquire config pid id).2 := by
  unfold acquire at h ⊢
  cases hpool : s.pools id with
  | none => simp [hpool] at h
  | some pool =>
    simp only [hpool] at h ⊢
    cases hfind : modifyFirst BunInstance.isAvailable (.setBusy true s.now) pool.instances with
    | none =>
      simp only [hfind] at h
      split at h <;> cases h
    | some found =>
      obtain ⟨i, instances⟩ := found
      simp only [hfind] at h ⊢
      obtain ⟨front, back, hold, hnew, havailable⟩ := modifyFirst_eq_some hfind
      refine ⟨⟨rfl, rfl⟩, i, Acquired.found.inj h, ?_, front, back, ?_, ?_⟩
      . unfold BunInstance.isAvailable at havailable
        simpa using (Bool.and_eq_true_iff.mp havailable).1
      . rw [instances_of_pools hpool, hold]
      . rw [instances_setPool, if_pos rfl, hnew]
        rfl

/--
There is room for `n` more instances in the pool, which only the process `pid` can change.
-/
def Room (config : BunRuntimeConfig) (pid : Nat) (id : DeploymentId) (n : Nat) (s : BunState) : Prop :=
  s.writer = some pid
    ∧ ∃ pool, s.pools id = some pool ∧ pool.instances.length + n ≤ config.maxInstancesPerFn.toNat

theorem Room.push {n : Nat} {p : SocketPath} (h : Room config pid id (n + 1) s)
    : Room config pid id n (s.push id p false) := by
  obtain ⟨hwriter, pool, hpool, hbound⟩ := h
  refine ⟨hwriter, { pool with instances := pool.instances ++ [⟨p, false, s.now, false⟩] }, ?_, ?_⟩
  . unfold BunState.push setPool
    rw [hpool]
    exact Function.update_self _ _ _
  . rw [List.length_append, List.length_singleton]
    omega

theorem acquire_not_found (h : ∀ p, (s.acquire config pid id).1 ≠ .found p)
    : SameSockets s (s.acquire config pid id).2
      ∧ (∀ id', (s.acquire config pid id).2.instances id' = s.instances id')
      ∧ ((s.acquire config pid id).1 = .spawn → Room config pid id 1 (s.acquire config pid id).2) := by
  unfold acquire at h ⊢
  cases hpool : s.pools id with
  | none => exact ⟨⟨rfl, rfl⟩, fun _ => rfl, nofun⟩
  | some pool =>
    simp only [hpool] at h ⊢
    cases hfind : modifyFirst BunInstance.isAvailable (.setBusy true s.now) pool.instances with
    | some found =>
      simp only [hfind] at h
      exact absurd rfl (h _)
    | none =>
      simp only
      have hinstances : ∀ id', (s.setPool id (some { pool with coldStarts := pool.coldStarts + 1 })).instances
          id' = s.instances id' := by
        intro id'
        rw [instances_setPool]
        split
        . next heq =>
          rw [heq, instances_of_pools hpool]
          rfl
        . rfl
      split
      . exact ⟨⟨rfl, rfl⟩, hinstances, nofun⟩
      . next hroom =>
        refine ⟨⟨rfl, rfl⟩, hinstances, ?_⟩
        intro _
        refine ⟨rfl, { pool with coldStarts := pool.coldStarts + 1 }, by simp [setPool], ?_⟩
        exact Nat.lt_of_not_le hroom

theorem acquire_ne (h : id' ≠ id) : (s.acquire config pid id').2.instances id = s.instances id := by
  unfold acquire
  split
  . rfl
  . split
    . exact instances_setPool_ne h
    . simp only
      split <;> exact instances_setPool_ne h

theorem acquire_sockets : SameSockets s (s.acquire config pid id).2 := by
  by_cases h : ∃ p, (s.acquire config pid id).1 = .found p
  . obtain ⟨p, h⟩ := h
    exact (acquire_found h).1
  . rw [not_exists] at h
    exact (acquire_not_found h).1

theorem release_cases (p : SocketPath)
    : SameSockets s (s.release id p)
      ∧ (((s.release id p).instances id = s.instances id ∧ p ∉ s.paths id)
        ∨ ∃ i, i.socketPath = p ∧ Marks false id i s (s.release id p)) := by
  unfold release
  cases hpool : s.pools id with
  | none =>
    refine ⟨⟨rfl, rfl⟩, .inl ⟨rfl, ?_⟩⟩
    unfold paths
    rw [instances_of_none hpool]
    exact List.not_mem_nil
  | some pool =>
    simp only
    cases hfind : modifyFirst (·.socketPath == p) (.setBusy false s.now) pool.instances with
    | none =>
      refine ⟨⟨rfl, rfl⟩, .inl ⟨rfl, ?_⟩⟩
      unfold paths
      rw [instances_of_pools hpool, List.mem_map]
      rintro ⟨i, hi, heq⟩
      have := modifyFirst_eq_none hfind i hi
      rw [heq, beq_self_eq_true] at this
      cases this
    | some found =>
      obtain ⟨i, instances⟩ := found
      obtain ⟨front, back, hold, hnew, hp⟩ := modifyFirst_eq_some hfind
      refine ⟨⟨rfl, rfl⟩, .inr ⟨i, eq_of_beq hp, front, back, ?_, ?_⟩⟩
      . rw [instances_of_pools hpool, hold]
      . rw [instances_setPool, if_pos rfl, hnew]
        rfl

theorem release_ne {p : SocketPath} (h : id' ≠ id)
    : (s.release id' p).instances id = s.instances id := by
  unfold release
  split
  . rfl
  . split
    . exact instances_setPool_ne h
    . rfl

theorem push_ne {p : SocketPath} {busy : Bool} (h : id' ≠ id)
    : (s.push id' p busy).instances id = s.instances id :=
  instances_setPool_ne h

theorem push_self {p : SocketPath} {busy : Bool} {pool : DeploymentPool} (h : s.pools id = some pool)
    : (s.push id p busy).instances id = s.instances id ++ [⟨p, busy, s.now, false⟩] := by
  unfold push
  rw [instances_setPool, if_pos rfl, h, instances_of_pools h]
  rfl

/--
The process that exits is one of those that were spawned, and nothing else changes.
-/
theorem exit_spec (s : BunState) (id : DeploymentId) (p : SocketPath)
    : (s.exit p).instances id = s.instances id ∧ (s.exit p).sockets = s.sockets
      ∧ (s.exit p).pools = s.pools ∧ (s.exit p).writer = s.writer
      ∧ ∀ b ∈ (s.exit p).exited, b ∈ s.exited ∨ (b = p ∧ p ∈ s.sockets) := by
  unfold exit
  split
  . next hp =>
    refine ⟨rfl, rfl, rfl, rfl, ?_⟩
    rintro b (_ | ⟨_, hb⟩)
    . exact .inr ⟨rfl, hp⟩
    . exact .inl hb
  . exact ⟨rfl, rfl, rfl, rfl, fun b hb => .inl hb⟩

theorem evictIdle_sublist : ((s.evictIdle config).instances id).Sublist (s.instances id) := by
  unfold evictIdle instances
  simp only
  cases s.pools id with
  | none => exact .refl _
  | some pool => exact List.filter_sublist

end BunState

/-! ## The outline -/

section Steps

variable {config : BunRuntimeConfig} {id : DeploymentId} {pid : Nat} {w : World (system config)}

/--
The process has put the instance into the pool.
-/
abbrev Pooled (id : DeploymentId) (pid : Nat) (p : SocketPath) (w : World (system config)) : Prop :=
  Did (fun e => pooledSocket id e = some p) pid w

structure Kept (id : DeploymentId) (w : World (system config)) : Prop where
  bound : (w.state.instances id).length ≤ config.maxInstancesPerFn.toNat
  nodup : (w.state.paths id).Nodup
  known : ∀ p ∈ w.state.paths id, p ∈ w.state.sockets ∧ p ∉ w.state.exited
  exited : ∀ p ∈ w.state.exited, p ∈ w.state.sockets
  pooled : ∀ pid p, Pooled id pid p w → p ∈ w.state.sockets
  used : ∀ pid p, Using id pid p w → p ∈ w.state.sockets
  flying : ∀ pid p, Flying id pid p w → p ∈ w.state.sockets ∧ p ∉ w.state.exited
    ∧ p ∉ w.state.paths id ∧ ∀ q, ¬ Using id q p w
  alone : ∀ pid pid' p, Flying id pid p w → Flying id pid' p w → pid = pid'
  unshared : ∀ pid pid' p, Using id pid p w → Using id pid' p w → pid = pid'
  busy : ∀ i ∈ w.state.instances id, i.busy = true ↔ ∃ pid, Using id pid i.socketPath w

theorem Kept.sound (h : Kept id w) : PoolSound id w :=
  ⟨h.bound, h.unshared, fun i hi => (h.busy i hi).mp⟩

/--
The event is about none of the instances of the pool.
-/
structure Quiet (id : DeploymentId) (e : Event (system config)) : Prop where
  taken : takenSocket id e = none
  given : givenSocket id e = none
  spawned : spawnedSocket id e = none
  pooled : pooledSocket id e = none

section Quiet

variable {e : Event (system config)} {s : (system config).State} {q : Nat} {p : SocketPath}

theorem Quiet.not_pooled (h : Quiet id e) (hp : Pooled id q p (w.after s e)) : Pooled id q p w := by
  cases Did.after_iff.mp hp with
  | inl hnew =>
    rw [h.pooled] at hnew
    cases hnew.2
  | inr hold => exact hold

theorem Quiet.using_iff (h : Quiet id e)
    (hends : ∀ pid, e.pid? = some pid → e.ends = true →
      AllGiven (takenSocket id) (givenSocket id) pid w)
    : Using id q p (w.after s e) ↔ Using id q p w := by
  cases hend : e.ends with
  | false => exact Holding.after_quiet h.taken h.given hend
  | true =>
    cases hpid : e.pid? with
    | none =>
      apply Holding.after_other
      rw [hpid]
      exact nofun
    | some pid => exact Holding.after_allGiven hpid h.taken h.given hend (hends pid hpid hend)

theorem Quiet.flying (h : Quiet id e) (hp : Flying id q p (w.after s e)) : Flying id q p w :=
  Holding.of_after h.spawned hp

/--
A step may always take instances out of the pool and make new sockets.
-/
theorem Kept.quiet (h : Kept id w) (hquiet : Quiet id e)
    (hinstances : (s.instances id).Sublist (w.state.instances id))
    (hsockets : w.state.sockets ⊆ s.sockets) (hexited : s.exited = w.state.exited)
    (hends : ∀ pid, e.pid? = some pid → e.ends = true →
      AllGiven (takenSocket id) (givenSocket id) pid w)
    : Kept id (w.after s e) := by
  have husing : ∀ q p, Using id q p (w.after s e) ↔ Using id q p w :=
    fun _ _ => hquiet.using_iff hends
  have hpaths : (s.paths id).Sublist (w.state.paths id) := hinstances.map _
  have hexited : (w.after s e).state.exited = w.state.exited := hexited
  constructor
  . exact Nat.le_trans hinstances.length_le h.bound
  . exact h.nodup.sublist hpaths
  . intro p hp
    obtain ⟨hsocket, hexit⟩ := h.known p (hpaths.subset hp)
    rw [hexited]
    exact ⟨hsockets hsocket, hexit⟩
  . intro p hp
    rw [hexited] at hp
    exact hsockets (h.exited p hp)
  . intro q p hp
    exact hsockets (h.pooled q p (hquiet.not_pooled hp))
  . intro q p hp
    exact hsockets (h.used q p ((husing q p).mp hp))
  . intro q p hp
    obtain ⟨hsocket, hexit, hpath, hunused⟩ := h.flying q p (hquiet.flying hp)
    rw [hexited]
    refine ⟨hsockets hsocket, hexit, fun h => hpath (hpaths.subset h), ?_⟩
    intro q' hq
    exact hunused q' ((husing q' p).mp hq)
  . intro q q' p hp hp'
    exact h.alone q q' p (hquiet.flying hp) (hquiet.flying hp')
  . intro q q' p hp hp'
    exact h.unshared q q' p ((husing q p).mp hp) ((husing q' p).mp hp')
  . intro i hi
    rw [h.busy i (hinstances.subset hi)]
    simp only [husing]

end Quiet

/--
A step that keeps the sockets of the pool and changes marks together with the invocations.
-/
theorem Kept.marking {e : Event (system config)} {s : (system config).State} (h : Kept id w)
    (hsockets : BunState.SameSockets w.state s) (hpaths : s.paths id = w.state.paths id)
    (hspawned : spawnedSocket id e = none) (hpooled : pooledSocket id e = none)
    (hends : e.ends = false)
    (husing : ∀ q p, Using id q p (w.after s e) →
      Using id q p w ∨ (e.pid? = some q ∧ p ∈ w.state.paths id ∧ ∀ q', ¬ Using id q' p w))
    (hbusy : ∀ i ∈ s.instances id, i.busy = true ↔ ∃ pid, Using id pid i.socketPath (w.after s e))
    : Kept id (w.after s e) := by
  have hflying : ∀ q p, Flying id q p (w.after s e) ↔ Flying id q p w :=
    fun _ _ => Holding.after_quiet hspawned hpooled hends
  have hpaths : (w.after s e).state.paths id = w.state.paths id := hpaths
  have hexited : (w.after s e).state.exited = w.state.exited := hsockets.exited
  have hsockets : (w.after s e).state.sockets = w.state.sockets := hsockets.sockets
  constructor
  . have hlength := congrArg List.length hpaths
    unfold BunState.paths at hlength
    rw [List.length_map, List.length_map] at hlength
    rw [hlength]
    exact h.bound
  . rw [hpaths]
    exact h.nodup
  . rw [hpaths, hsockets, hexited]
    exact h.known
  . rw [hsockets, hexited]
    exact h.exited
  . intro q p hp
    rw [hsockets]
    cases Did.after_iff.mp hp with
    | inl hnew =>
      rw [hpooled] at hnew
      cases hnew.2
    | inr hold => exact h.pooled q p hold
  . intro q p hp
    rw [hsockets]
    cases husing q p hp with
    | inl hold => exact h.used q p hold
    | inr hnew => exact (h.known p hnew.2.1).1
  . intro q p hp
    rw [hpaths, hsockets, hexited]
    obtain ⟨hsocket, hexit, hpath, hunused⟩ := h.flying q p ((hflying q p).mp hp)
    refine ⟨hsocket, hexit, hpath, ?_⟩
    intro q' hq
    cases husing q' p hq with
    | inl hold => exact hunused q' hold
    | inr hnew => exact hpath hnew.2.1
  . intro q q' p hp hp'
    exact h.alone q q' p ((hflying q p).mp hp) ((hflying q' p).mp hp')
  . intro q q' p hp hp'
    cases husing q p hp with
    | inl hold =>
      cases husing q' p hp' with
      | inl hold' => exact h.unshared q q' p hold hold'
      | inr hnew' => exact absurd hold (hnew'.2.2 q)
    | inr hnew =>
      cases husing q' p hp' with
      | inl hold' => exact absurd hold' (hnew.2.2 q')
      | inr hnew' => exact Option.some.inj (hnew.1.symm.trans hnew'.1)
  . exact hbusy

/--
What a process has to know to make a call.
-/
structure Fits (id : DeploymentId) (pid : Nat) (c : Call) (w : World (system config)) : Prop where
  acquire : c = .acquire id → ¬ Gone pid w ∧ ∀ p, ¬ Did (fun e => givenSocket id e = some p) pid w
  spawn : c = .spawnInstance id → ¬ Gone pid w
  add : ∀ p, c = .addBusy id p ∨ c = .addWarm id p →
    Flying id pid p w ∧ BunState.Room config pid id 1 w.state
  addBusy : ∀ p, c = .addBusy id p → ¬ Did (fun e => givenSocket id e = some p) pid w
  release : ∀ p, c = .release id p → Using id pid p w

theorem exec_of_answers {c : Call} {a : c.Ret} {s s' : (system config).State}
    (h : Answers (system config) pid c s (.ok a) s')
    : ∃ x, BunState.exec config pid c x s = some (.ok a, s') :=
  h.ok

/-! ### The calls on the pool -/

theorem Kept.acquiring {p : SocketPath} {s : (system config).State} (h : Kept id w)
    (hfits : Fits id pid (.acquire id) w)
    (hfound : (BunState.acquire config pid id w.state).1 = .found p)
    (hs : s = (BunState.acquire config pid id w.state).2)
    : Kept id (w.after s (.call pid (Call.acquire id) (.ok (.found p)))) := by
  obtain ⟨hsockets, i, rfl, hidle, hmarks⟩ := BunState.acquire_found hfound
  rw [← hs] at hsockets hmarks
  obtain ⟨halive, hungiven⟩ := hfits.acquire rfl
  have husing : ∀ q b, Using id q b (w.after s (.call pid (Call.acquire id) (.ok (.found i.socketPath))))
      ↔ Using id q b w ∨ (q = pid ∧ b = i.socketPath) := by
    intro q b
    apply Holding.after_take rfl
    . simp [takenSocket]
    . rfl
    . rfl
    . exact hungiven i.socketPath
    . exact halive
  have hunused : ∀ q, ¬ Using id q i.socketPath w := by
    intro q hq
    rw [(h.busy i hmarks.mem).mpr ⟨q, hq⟩] at hidle
    cases hidle
  apply h.marking hsockets hmarks.paths_eq rfl rfl rfl
  . intro q b hq
    rcases (husing q b).mp hq with hold | ⟨rfl, rfl⟩
    . exact .inl hold
    . exact .inr ⟨rfl, List.mem_map_of_mem hmarks.mem, hunused⟩
  . intro j hj
    rcases (hmarks.mem_iff h.nodup).mp hj with rfl | ⟨hold, hne⟩
    . constructor
      . intro _
        exact ⟨pid, (husing pid _).mpr (.inr ⟨rfl, rfl⟩)⟩
      . intro _
        rfl
    . rw [h.busy j hold]
      simp only [husing, hne, and_false, or_false]

theorem Kept.releasing {p : SocketPath} {s : (system config).State} (h : Kept id w)
    (hfits : Fits id pid (.release id p) w) (hs : s = BunState.release id p w.state)
    : Kept id (w.after s (.call pid (Call.release id p) (.ok ()))) := by
  have husing : ∀ q b, Using id q b (w.after s (.call pid (Call.release id p) (.ok ())))
      ↔ Using id q b w ∧ ¬ (q = pid ∧ b = p) := by
    intro q b
    apply Holding.after_give rfl rfl
    . simp [givenSocket]
    . rfl
  have hcases := @BunState.release_cases w.state id p
  rw [← hs] at hcases
  obtain ⟨hsockets, hcases⟩ := hcases
  have hpaths : s.paths id = w.state.paths id := by
    rcases hcases with ⟨heq, _⟩ | ⟨i, _, hmarks⟩
    . unfold BunState.paths
      rw [heq]
    . exact hmarks.paths_eq
  apply h.marking hsockets hpaths rfl rfl rfl
  . intro q b hq
    exact .inl ((husing q b).mp hq).1
  . intro j hj
    rcases hcases with ⟨heq, hmissing⟩ | ⟨i, rfl, hmarks⟩
    . rw [heq] at hj
      have hne : j.socketPath ≠ p := by
        rintro rfl
        exact hmissing (List.mem_map_of_mem hj)
      rw [h.busy j hj]
      simp only [husing, hne, and_false, not_false_eq_true, and_true]
    . rcases (hmarks.mem_iff h.nodup).mp hj with rfl | ⟨hold, hne⟩
      . constructor
        . intro hbusy
          cases hbusy
        . rintro ⟨q, hq⟩
          obtain ⟨hold, hne⟩ := (husing q _).mp hq
          -- Another invocation with the same instance would be one too many.
          exact absurd ⟨h.unshared q pid _ hold (hfits.release _ rfl), rfl⟩ hne
      . rw [h.busy j hold]
        simp only [husing, hne, and_false, not_false_eq_true, and_true]

theorem Kept.spawning {p : SocketPath} {s : (system config).State} (h : Kept id w)
    (hfits : Fits id pid (.spawnInstance id) w) (hp : p ∉ w.state.sockets)
    (hs : s = { w.state with sockets := p :: w.state.sockets })
    : Kept id (w.after s (.call pid (Call.spawnInstance id) (.ok p))) := by
  subst hs
  have husing : ∀ q b, Using id q b (w.after { w.state with sockets := p :: w.state.sockets }
      (.call pid (Call.spawnInstance id) (.ok p))) ↔ Using id q b w :=
    fun _ _ => Holding.after_quiet rfl rfl rfl
  have hflying : ∀ q b, Flying id q b (w.after { w.state with sockets := p :: w.state.sockets }
      (.call pid (Call.spawnInstance id) (.ok p))) ↔ Flying id q b w ∨ (q = pid ∧ b = p) := by
    intro q b
    apply Holding.after_take rfl
    . simp [spawnedSocket]
    . rfl
    . rfl
    . intro hpooled
      exact hp (h.pooled pid p hpooled)
    . exact hfits.spawn rfl
  constructor
  . exact h.bound
  . exact h.nodup
  . intro b hb
    obtain ⟨hsocket, hexited⟩ := h.known b hb
    exact ⟨List.mem_cons_of_mem _ hsocket, hexited⟩
  . intro b hb
    exact List.mem_cons_of_mem _ (h.exited b hb)
  . intro q b hb
    cases Did.after_iff.mp hb with
    | inl hnew => cases hnew.2
    | inr hold => exact List.mem_cons_of_mem _ (h.pooled q b hold)
  . intro q b hb
    exact List.mem_cons_of_mem _ (h.used q b ((husing q b).mp hb))
  . intro q b hb
    simp only [husing]
    rcases (hflying q b).mp hb with hold | ⟨rfl, rfl⟩
    . obtain ⟨hsocket, hrest⟩ := h.flying q b hold
      exact ⟨List.mem_cons_of_mem _ hsocket, hrest⟩
    . refine ⟨List.mem_cons_self, fun hb => hp (h.exited b hb), fun hb => hp (h.known b hb).1, ?_⟩
      intro q' hq
      exact hp (h.used q' b hq)
  . intro q q' b hb hb'
    rcases (hflying q b).mp hb with hold | ⟨rfl, rfl⟩
    . rcases (hflying q' b).mp hb' with hold' | ⟨rfl, rfl⟩
      . exact h.alone q q' b hold hold'
      . exact absurd (h.flying q b hold).1 hp
    . rcases (hflying q' b).mp hb' with hold' | ⟨rfl, _⟩
      . exact absurd (h.flying q' b hold').1 hp
      . rfl
  . intro q q' b hb hb'
    exact h.unshared q q' b ((husing q b).mp hb) ((husing q' b).mp hb')
  . intro i hi
    simp only [husing]
    exact h.busy i hi

/--
An instance that was spawned is put into the pool, where its process uses it or not.
-/
theorem Kept.pushing {e : Event (system config)} {p : SocketPath} {s : (system config).State}
    {i : BunInstance} (h : Kept id w) (hflies : Flying id pid p w)
    (hroom : BunState.Room config pid id 1 w.state) (hi : i.socketPath = p)
    (hinstances : s.instances id = w.state.instances id ++ [i])
    (hsockets : BunState.SameSockets w.state s)
    (hpooled : ∀ q b, Pooled id q b (w.after s e) ↔ Pooled id q b w ∨ (q = pid ∧ b = p))
    (hflying : ∀ q b, Flying id q b (w.after s e) ↔ Flying id q b w ∧ ¬ (q = pid ∧ b = p))
    (husing : ∀ q b, Using id q b (w.after s e)
      ↔ Using id q b w ∨ (i.busy = true ∧ q = pid ∧ b = p))
    : Kept id (w.after s e) := by
  obtain ⟨hsocket, hexit, hpath, hunused⟩ := h.flying pid p hflies
  have hpaths : (w.after s e).state.paths id = w.state.paths id ++ [p] := by
    show s.paths id = _
    unfold BunState.paths
    rw [hinstances, List.map_append, List.map_singleton, hi]
  have hinstances : (w.after s e).state.instances id = w.state.instances id ++ [i] := hinstances
  have hexited : (w.after s e).state.exited = w.state.exited := hsockets.exited
  have hsockets : (w.after s e).state.sockets = w.state.sockets := hsockets.sockets
  constructor
  . obtain ⟨_, pool, hpool, hlt⟩ := hroom
    rw [hinstances, List.length_append, BunState.instances_of_pools hpool]
    exact hlt
  . rw [hpaths]
    apply h.nodup.append (List.nodup_singleton p)
    rw [List.disjoint_singleton]
    exact hpath
  . intro b hb
    rw [hpaths, List.mem_append, List.mem_singleton] at hb
    rw [hsockets, hexited]
    rcases hb with hb | rfl
    . exact h.known b hb
    . exact ⟨hsocket, hexit⟩
  . rw [hsockets, hexited]
    exact h.exited
  . intro q b hb
    rw [hsockets]
    rcases (hpooled q b).mp hb with hold | ⟨rfl, rfl⟩
    . exact h.pooled q b hold
    . exact hsocket
  . intro q b hb
    rw [hsockets]
    rcases (husing q b).mp hb with hold | ⟨_, rfl, rfl⟩
    . exact h.used q b hold
    . exact hsocket
  . intro q b hb
    obtain ⟨hold, hother⟩ := (hflying q b).mp hb
    obtain ⟨hsocket', hexit', hpath', hunused'⟩ := h.flying q b hold
    have hne : b ≠ p := by
      rintro rfl
      exact hother ⟨h.alone q pid b hold hflies, rfl⟩
    rw [hpaths, hsockets, hexited]
    refine ⟨hsocket', hexit', ?_, ?_⟩
    . rw [List.mem_append, List.mem_singleton]
      rintro (hb | hb)
      . exact hpath' hb
      . exact hne hb
    . intro q' hq
      rcases (husing q' b).mp hq with hq | ⟨_, _, hb⟩
      . exact hunused' q' hq
      . exact hne hb
  . intro q q' b hb hb'
    exact h.alone q q' b ((hflying q b).mp hb).1 ((hflying q' b).mp hb').1
  . intro q q' b hb hb'
    rcases (husing q b).mp hb with hold | ⟨_, rfl, rfl⟩
    . rcases (husing q' b).mp hb' with hold' | ⟨_, rfl, rfl⟩
      . exact h.unshared q q' b hold hold'
      . exact absurd hold (hunused q)
    . rcases (husing q' b).mp hb' with hold' | ⟨_, rfl, _⟩
      . exact absurd hold' (hunused q')
      . rfl
  . intro j hj
    rw [hinstances, List.mem_append, List.mem_singleton] at hj
    simp only [husing]
    rcases hj with hj | rfl
    . have hne : j.socketPath ≠ p := by
        intro heq
        exact hpath (heq ▸ List.mem_map_of_mem hj)
      rw [h.busy j hj]
      simp only [hne, and_false, or_false]
    . rw [hi]
      constructor
      . intro hbusy
        exact ⟨pid, .inr ⟨hbusy, rfl, rfl⟩⟩
      . rintro ⟨q, hold | hnew⟩
        . exact absurd hold (hunused q)
        . exact hnew.1

theorem Kept.exiting {p : SocketPath} {s : (system config).State} (h : Kept id w)
    (hok : p ∉ w.state.paths id ∧ ∀ pid ∈ w.pids, ¬ Flying id pid p w)
    (hs : s = BunState.exit p w.state) : Kept id (w.after s (.call pid (Call.exit p) (.ok ()))) := by
  have hquiet : Quiet id (.call pid (Call.exit p) (.ok ()) : Event (system config)) :=
    ⟨rfl, rfl, rfl, rfl⟩
  have hkept : Kept id (w.after w.state (.call pid (Call.exit p) (.ok ()))) :=
    h.quiet hquiet (.refl _) (List.Subset.refl _) rfl nofun
  obtain ⟨hinstances, hsockets, _, _, hexited⟩ := BunState.exit_spec w.state id p
  rw [← hs] at hinstances hsockets hexited
  have hpaths : s.paths id = w.state.paths id := by
    unfold BunState.paths
    rw [hinstances]
  constructor
  . exact Nat.le_trans (Nat.le_of_eq (congrArg List.length hinstances)) h.bound
  . exact hpaths ▸ h.nodup
  . intro b hb
    have hpath : b ∈ w.state.paths id := hpaths ▸ hb
    obtain ⟨hsocket, hexit⟩ := h.known b hpath
    refine ⟨hsockets ▸ hsocket, ?_⟩
    intro hb'
    rcases hexited b hb' with hold | ⟨rfl, _⟩
    . exact hexit hold
    . exact hok.1 hpath
  . intro b hb
    show b ∈ s.sockets
    rw [hsockets]
    rcases hexited b hb with hold | ⟨rfl, hp⟩
    . exact h.exited b hold
    . exact hp
  . intro q b hb
    exact hsockets ▸ hkept.pooled q b hb
  . intro q b hb
    exact hsockets ▸ hkept.used q b hb
  . intro q b hb
    obtain ⟨hsocket, hexit, hpath, hunused⟩ := hkept.flying q b hb
    refine ⟨hsockets ▸ hsocket, ?_, hpaths ▸ hpath, hunused⟩
    intro hb'
    rcases hexited b hb' with hold | ⟨rfl, _⟩
    . exact hexit hold
    . have hflies : Flying id q b w := hquiet.flying hb
      exact hok.2 q hflies.mem_pids hflies
  . exact hkept.alone
  . exact hkept.unshared
  . intro i hi
    exact hkept.busy i (hinstances ▸ hi)

/-! ### The calls of the outline -/

/--
The pool a call of an invocation or of a warm-up is about.
-/
def Call.poolOf : Call → Option DeploymentId
  | .acquire id => some id
  | .spawnInstance id => some id
  | .addBusy id _ => some id
  | .release id _ => some id
  | .addWarm id _ => some id
  | _ => none

theorem quiet_of_poolOf {c : Call} {r : Except FunctionsError c.Ret} (h : c.poolOf ≠ some id)
    : Quiet id (.call pid c r : Event (system config)) := by
  unfold Call.poolOf at h
  cases c with
  | acquire id' =>
    have hne : id' ≠ id := fun heq => h (congrArg some heq)
    constructor
    . cases r with
      | ok a => cases a <;> simp [takenSocket, hne]
      | error e => rfl
    . rfl
    . rfl
    . rfl
  | spawnInstance id' =>
    have hne : id' ≠ id := fun heq => h (congrArg some heq)
    cases r <;> constructor <;> simp [takenSocket, givenSocket, spawnedSocket, pooledSocket, hne]
  | addBusy id' p =>
    have hne : id' ≠ id := fun heq => h (congrArg some heq)
    cases r <;> constructor <;> simp [takenSocket, givenSocket, spawnedSocket, pooledSocket, hne]
  | release id' p =>
    have hne : id' ≠ id := fun heq => h (congrArg some heq)
    cases r <;> constructor <;> simp [takenSocket, givenSocket, spawnedSocket, pooledSocket, hne]
  | addWarm id' p =>
    have hne : id' ≠ id := fun heq => h (congrArg some heq)
    cases r <;> constructor <;> simp [takenSocket, givenSocket, spawnedSocket, pooledSocket, hne]
  | _ => exact ⟨rfl, rfl, rfl, rfl⟩

namespace BunState

variable {s s' : BunState} {c : Call} {x : Choice} {r : Except FunctionsError c.Ret}

theorem exec_acquire {r : Except FunctionsError Acquired}
    (h : s.exec config pid (.acquire id) x = some (r, s'))
    : r = .ok (s.acquire config pid id).1 ∧ s' = (s.acquire config pid id).2 := by
  simp only [exec, Option.ite_none_left_eq_some, Option.some.injEq, Prod.mk.injEq] at h
  exact ⟨h.2.1.symm, h.2.2.symm⟩

theorem exec_spawnInstance {r : Except FunctionsError SocketPath}
    (h : s.exec config pid (.spawnInstance id) x = some (r, s'))
    : r = .ok x.id ∧ x.id ∉ s.sockets ∧ s' = { s with sockets := x.id :: s.sockets } := by
  simp only [exec, Option.ite_none_left_eq_some, Option.some.injEq, Prod.mk.injEq] at h
  exact ⟨h.2.1.symm, h.1, h.2.2.symm⟩

theorem exec_addBusy {p : SocketPath} {r : Except FunctionsError Unit}
    (h : s.exec config pid (.addBusy id p) x = some (r, s'))
    : s' = { s.push id p true with writer := none } := by
  simp only [exec, Option.ite_none_right_eq_some, Option.some.injEq, Prod.mk.injEq] at h
  exact h.2.2.symm

theorem exec_addWarm {p : SocketPath} {r : Except FunctionsError Unit}
    (h : s.exec config pid (.addWarm id p) x = some (r, s')) : s' = s.push id p false := by
  simp only [exec, Option.ite_none_right_eq_some, Option.some.injEq, Prod.mk.injEq] at h
  exact h.2.2.symm

theorem exec_planWarm {count : UInt32} {n : Nat}
    (h : s.exec config pid (.planWarm id count) x = some (.ok (some n), s'))
    : ∃ pool, s.pools id = some pool ∧ n = toSpawn config pool count
      ∧ s' = { s with writer := some pid } := by
  simp only [exec, Option.ite_none_left_eq_some] at h
  obtain ⟨_, h⟩ := h
  split at h
  . cases h
  . next pool hpool =>
    cases h
    exact ⟨pool, hpool, rfl, rfl⟩

theorem exec_release {p : SocketPath} {r : Except FunctionsError Unit}
    (h : s.exec config pid (.release id p) x = some (r, s')) : s' = s.release id p := by
  simp only [exec, Option.ite_none_left_eq_some, Option.some.injEq, Prod.mk.injEq] at h
  exact h.2.2.symm

/--
What a call that is not about the pool can do to it.
-/
theorem exec_unrelated (h : s.exec config pid c x = some (r, s')) (hc : c.poolOf ≠ some id)
    (hexit : ∀ p, c ≠ .exit p)
    : (s'.instances id).Sublist (s.instances id) ∧ s.sockets ⊆ s'.sockets
      ∧ s'.exited = s.exited := by
  have hsame : ∀ {s' : BunState}, SameSockets s s' → s.sockets ⊆ s'.sockets ∧ s'.exited = s.exited :=
    fun h => ⟨h.sockets ▸ List.Subset.refl _, h.exited⟩
  have hkeep : ∀ {is : List BunInstance}, is = s.instances id → is.Sublist (s.instances id) :=
    fun h => h ▸ .refl _
  cases c with
  | deploy id' =>
    simp only [exec, Option.ite_none_left_eq_some, Option.some.injEq, Prod.mk.injEq] at h
    obtain ⟨_, _, rfl⟩ := h
    refine ⟨?_, hsame ⟨rfl, rfl⟩⟩
    rw [instances_setPool]
    split
    . exact List.nil_sublist _
    . exact .refl _
  | acquire id' =>
    simp only [exec, Option.ite_none_left_eq_some, Option.some.injEq, Prod.mk.injEq] at h
    obtain ⟨_, _, rfl⟩ := h
    refine ⟨?_, hsame acquire_sockets⟩
    exact hkeep (acquire_ne (fun heq => hc (congrArg some heq)))
  | spawnInstance id' =>
    simp only [exec, Option.ite_none_left_eq_some, Option.some.injEq, Prod.mk.injEq] at h
    obtain ⟨_, _, rfl⟩ := h
    exact ⟨.refl _, List.subset_cons_self _ _, rfl⟩
  | addBusy id' p =>
    simp only [exec, Option.ite_none_right_eq_some, Option.some.injEq, Prod.mk.injEq] at h
    obtain ⟨_, _, rfl⟩ := h
    refine ⟨?_, hsame ⟨rfl, rfl⟩⟩
    exact hkeep (push_ne (fun heq => hc (congrArg some heq)))
  | invokeOverSocket p request =>
    cases h
    exact ⟨.refl _, hsame ⟨rfl, rfl⟩⟩
  | release id' p =>
    simp only [exec, Option.ite_none_left_eq_some, Option.some.injEq, Prod.mk.injEq] at h
    obtain ⟨_, _, rfl⟩ := h
    refine ⟨?_, hsame (release_cases p).1⟩
    exact hkeep (release_ne (fun heq => hc (congrArg some heq)))
  | planWarm id' count =>
    simp only [exec, Option.ite_none_left_eq_some] at h
    obtain ⟨_, h⟩ := h
    split at h
    . cases h
      exact ⟨.refl _, hsame ⟨rfl, rfl⟩⟩
    . cases h
      exact ⟨.refl _, hsame ⟨rfl, rfl⟩⟩
  | addWarm id' p =>
    simp only [exec, Option.ite_none_right_eq_some, Option.some.injEq, Prod.mk.injEq] at h
    obtain ⟨_, _, rfl⟩ := h
    refine ⟨?_, hsame ⟨rfl, rfl⟩⟩
    exact hkeep (push_ne (fun heq => hc (congrArg some heq)))
  | evictIdle =>
    simp only [exec, Option.ite_none_left_eq_some, Option.some.injEq, Prod.mk.injEq] at h
    obtain ⟨_, _, rfl⟩ := h
    exact ⟨evictIdle_sublist, hsame ⟨rfl, rfl⟩⟩
  | removePool id' =>
    simp only [exec, Option.ite_none_left_eq_some, Option.some.injEq, Prod.mk.injEq] at h
    obtain ⟨_, _, rfl⟩ := h
    refine ⟨?_, hsame ⟨rfl, rfl⟩⟩
    rw [instances_setPool]
    split
    . exact List.nil_sublist _
    . exact .refl _
  | exit p => exact absurd rfl (hexit p)

/--
While one process holds the lock, no other changes a pool.
-/
theorem exec_waits {q : Nat} (h : s.exec config pid c x = some (r, s')) (hwriter : s.writer = some q)
    (hne : pid ≠ q) : s'.writer = some q ∧ s'.pools = s.pools := by
  have hlocked : s.writer.isSome = true := by
    rw [hwriter]
    rfl
  have hother : s.writer ≠ some pid := by
    rw [hwriter]
    intro heq
    exact hne (Option.some.inj heq).symm
  cases c with
  | spawnInstance id' =>
    simp only [exec, Option.ite_none_left_eq_some, Option.some.injEq, Prod.mk.injEq] at h
    obtain ⟨_, _, rfl⟩ := h
    exact ⟨hwriter, rfl⟩
  | invokeOverSocket p request =>
    cases h
    exact ⟨hwriter, rfl⟩
  | exit p =>
    cases h
    obtain ⟨_, _, hpools, heq, _⟩ := exit_spec s 0 p
    exact ⟨heq.trans hwriter, hpools⟩
  | addBusy id' p => simp [exec, hother] at h
  | addWarm id' p => simp [exec, hother] at h
  | _ => simp [exec, hlocked] at h

end BunState

theorem effect_of_answers {c : Call} {r : Except FunctionsError c.Ret} {s s' : (system config).State}
    (h : Answers (system config) pid c s r s')
    : s' = s ∨ ∃ x r', BunState.exec config pid c x s = some (r', s') :=
  h.effect

def poolOutline (config : BunRuntimeConfig) (id : DeploymentId) : Outline (system config) where
  inv := Kept id
  ok w e := Possible e ∧ Steady id w e
  safe := SelectsAlive id
  rely pid w w' := w.state.writer = some pid →
    w'.state.writer = some pid ∧ w'.state.pools = w.state.pools
  post pid _ _ w := AllGiven (takenSocket id) (givenSocket id) pid w
  rely_refl _ _ h := ⟨h, rfl⟩
  rely_trans _ _ _ _ h h' hwriter := by
    obtain ⟨hwriter', hpools⟩ := h hwriter
    obtain ⟨hwriter'', hpools'⟩ := h' hwriter'
    exact ⟨hwriter'', hpools'.trans hpools⟩

theorem rely_answers {c : Call} {r : Except FunctionsError c.Ret} {s : (system config).State} {q : Nat}
    (h : Answers (system config) pid c w.state r s) (hne : pid ≠ q)
    : (poolOutline config id).rely q w (w.after s (.call pid c r)) := by
  intro hwriter
  cases effect_of_answers h with
  | inl heq =>
    subst heq
    exact ⟨hwriter, rfl⟩
  | inr heffect =>
    obtain ⟨x, r', hexec⟩ := heffect
    exact BunState.exec_waits hexec hwriter hne

theorem selectsAlive_of_taken {e : Event (system config)} (h : takenSocket id e = none)
    : SelectsAlive id w e := by
  intro p hp
  rw [h] at hp
  cases hp

theorem keeps_unrelated {c : Call} {r : Except FunctionsError c.Ret} {s : (system config).State}
    (hinv : Kept id w) (hanswer : Answers (system config) pid c w.state r s)
    (hok : Possible (.call pid c r : Event (system config)) ∧ Steady id w (.call pid c r))
    (hc : c.poolOf ≠ some id) : (poolOutline config id).Keeps w s (.call pid c r) where
  safe := selectsAlive_of_taken (quiet_of_poolOf hc).taken
  inv := by
    by_cases hexit : ∃ p, c = .exit p
    . obtain ⟨p, rfl⟩ := hexit
      cases r with
      | ok a =>
        obtain ⟨x, hexec⟩ := exec_of_answers hanswer
        cases hexec
        exact hinv.exiting hok.2 rfl
      | error e => exact hok.1.elim
    . rw [not_exists] at hexit
      have hstate : (s.instances id).Sublist (w.state.instances id) ∧ w.state.sockets ⊆ s.sockets
          ∧ s.exited = w.state.exited := by
        cases effect_of_answers hanswer with
        | inl heq =>
          subst heq
          exact ⟨.refl _, List.Subset.refl _, rfl⟩
        | inr heffect =>
          obtain ⟨x, r', hexec⟩ := heffect
          exact BunState.exec_unrelated hexec hc hexit
      exact hinv.quiet (quiet_of_poolOf hc) hstate.1 hstate.2.1 hstate.2.2 nofun
  rely := by
    intro q hq
    exact rely_answers hanswer (fun heq => hq (congrArg some heq))

theorem keeps_acquire {r : Except FunctionsError Acquired} {s : (system config).State}
    (hinv : Kept id w) (hanswer : Answers (system config) pid (.acquire id) w.state r s)
    (hpossible : Possible (.call pid (Call.acquire id) r : Event (system config)))
    (hfits : Fits id pid (.acquire id) w)
    : SelectsAlive id w (.call pid (Call.acquire id) r)
      ∧ Kept id (w.after s (.call pid (Call.acquire id) r)) := by
  cases r with
  | error e => exact hpossible.elim
  | ok a =>
    obtain ⟨x, hexec⟩ := exec_of_answers hanswer
    obtain ⟨ha, hs⟩ := BunState.exec_acquire hexec
    have ha := (Except.ok.inj ha).symm
    by_cases hfound : ∃ p, a = .found p
    . obtain ⟨p, rfl⟩ := hfound
      constructor
      . intro b hb
        obtain rfl : p = b := by simpa [takenSocket] using hb
        obtain ⟨_, i, rfl, _, hmarks⟩ := BunState.acquire_found ha
        exact (hinv.known _ (List.mem_map_of_mem hmarks.mem)).2
      . exact hinv.acquiring hfits ha hs
    . rw [not_exists] at hfound
      obtain ⟨hsockets, hinstances, _⟩ := BunState.acquire_not_found (fun p h => hfound p (ha ▸ h))
      have hquiet : Quiet id (.call pid (Call.acquire id) (.ok a) : Event (system config)) := by
        refine ⟨?_, rfl, rfl, rfl⟩
        cases a with
        | found p => exact absurd rfl (hfound p)
        | _ => rfl
      subst hs
      refine ⟨selectsAlive_of_taken hquiet.taken, ?_⟩
      apply hinv.quiet hquiet _ _ hsockets.exited nofun
      . rw [hinstances]
      . rw [hsockets.sockets]
        exact List.Subset.refl _

theorem keeps_spawn {r : Except FunctionsError SocketPath} {s : (system config).State}
    (hinv : Kept id w) (hanswer : Answers (system config) pid (.spawnInstance id) w.state r s)
    (hfits : Fits id pid (.spawnInstance id) w)
    : Kept id (w.after s (.call pid (Call.spawnInstance id) r)) := by
  cases r with
  | ok p =>
    obtain ⟨x, hexec⟩ := exec_of_answers hanswer
    obtain ⟨hp, hnew, hs⟩ := BunState.exec_spawnInstance hexec
    cases Except.ok.inj hp
    exact hinv.spawning hfits hnew hs
  | error e =>
    -- The process of an instance that is not answered with is killed.
    have hquiet : Quiet id (.call pid (Call.spawnInstance id) (.error e) : Event (system config)) :=
      ⟨rfl, rfl, rfl, rfl⟩
    cases effect_of_answers hanswer with
    | inl heq =>
      subst heq
      exact hinv.quiet hquiet (.refl _) (List.Subset.refl _) rfl nofun
    | inr heffect =>
      obtain ⟨x, r', hexec⟩ := heffect
      obtain ⟨_, _, rfl⟩ := BunState.exec_spawnInstance hexec
      exact hinv.quiet hquiet (.refl _) (List.subset_cons_self _ _) rfl nofun

theorem keeps_add {c : Call} {a : c.Ret} {p : SocketPath} {busy : Bool} {s : (system config).State}
    (hinv : Kept id w) (hfits : Fits id pid c w)
    (hc : c = if busy then .addBusy id p else .addWarm id p)
    (hs : s.instances id = (BunState.push id p busy w.state).instances id)
    (hsockets : BunState.SameSockets w.state s)
    : SelectsAlive id w (.call pid c (.ok a)) ∧ Kept id (w.after s (.call pid c (.ok a))) := by
  have hadds : c = .addBusy id p ∨ c = .addWarm id p := by
    cases busy with
    | true => exact .inl hc
    | false => exact .inr hc
  obtain ⟨hflies, hroom⟩ := hfits.add p hadds
  have hlocked := hroom
  obtain ⟨_, pool, hpool, _⟩ := hlocked
  rw [BunState.push_self hpool] at hs
  have hpooled : pooledSocket id (.call pid c (.ok a) : Event (system config)) = some p := by
    rcases hadds with rfl | rfl <;> simp [pooledSocket]
  have hspawned : spawnedSocket id (.call pid c (.ok a) : Event (system config)) = none := by
    rcases hadds with rfl | rfl <;> rfl
  have htaken : takenSocket id (.call pid c (.ok a) : Event (system config))
      = if busy then some p else none := by
    cases busy with
    | true =>
      subst hc
      simp [takenSocket]
    | false =>
      subst hc
      rfl
  have hgiven : givenSocket id (.call pid c (.ok a) : Event (system config)) = none := by
    rcases hadds with rfl | rfl <;> rfl
  constructor
  . intro b hb
    rw [htaken] at hb
    cases busy with
    | true =>
      cases hb
      exact (hinv.flying pid p hflies).2.1
    | false => cases hb
  . apply hinv.pushing hflies hroom rfl hs hsockets
    . intro q b
      unfold Pooled
      rw [Did.after_iff, hpooled]
      constructor
      . rintro (hnew | hold)
        . exact .inr ⟨(Option.some.inj hnew.1).symm, (Option.some.inj hnew.2).symm⟩
        . exact .inl hold
      . rintro (hold | ⟨rfl, rfl⟩)
        . exact .inr hold
        . exact .inl ⟨rfl, rfl⟩
    . intro q b
      exact Holding.after_give rfl hspawned hpooled rfl
    . intro q b
      cases busy with
      | true =>
        simp only [true_and]
        exact Holding.after_take rfl htaken hgiven rfl (hfits.addBusy p hc) hflies.2.2
      | false =>
        simp only [Bool.false_eq_true, false_and, or_false]
        exact Holding.after_quiet htaken hgiven rfl

theorem keeps_fit {c : Call} {r : Except FunctionsError c.Ret} {s : (system config).State}
    (hinv : Kept id w) (hanswer : Answers (system config) pid c w.state r s)
    (hok : Possible (.call pid c r : Event (system config)) ∧ Steady id w (.call pid c r))
    (hfits : Fits id pid c w) : (poolOutline config id).Keeps w s (.call pid c r) := by
  by_cases hc : c.poolOf = some id
  . suffices h : SelectsAlive id w (.call pid c r) ∧ Kept id (w.after s (.call pid c r)) by
      refine ⟨h.1, h.2, ?_⟩
      intro q hq
      exact rely_answers hanswer (fun heq => hq (congrArg some heq))
    cases c with
    | acquire id' =>
      cases hc
      exact keeps_acquire hinv hanswer hok.1 hfits
    | spawnInstance id' =>
      cases hc
      exact ⟨selectsAlive_of_taken rfl, keeps_spawn hinv hanswer hfits⟩
    | addBusy id' p =>
      cases hc
      cases r with
      | error e => exact hok.1.elim
      | ok a =>
        obtain ⟨x, hexec⟩ := exec_of_answers hanswer
        have hs := BunState.exec_addBusy hexec
        subst hs
        apply @keeps_add config id pid w _ a p true _ hinv hfits rfl
        . rfl
        . exact ⟨rfl, rfl⟩
    | release id' p =>
      cases hc
      cases r with
      | error e => exact hok.1.elim
      | ok a =>
        obtain ⟨x, hexec⟩ := exec_of_answers hanswer
        exact ⟨selectsAlive_of_taken rfl, hinv.releasing hfits (BunState.exec_release hexec)⟩
    | addWarm id' p =>
      cases hc
      cases r with
      | error e => exact hok.1.elim
      | ok a =>
        obtain ⟨x, hexec⟩ := exec_of_answers hanswer
        have hs := BunState.exec_addWarm hexec
        subst hs
        apply @keeps_add config id pid w _ a p false _ hinv hfits rfl
        . rfl
        . exact ⟨rfl, rfl⟩
    | _ => cases hc
  . exact keeps_unrelated hinv hanswer hok hc

end Steps

/-! ## The programs -/

section Programs

variable {config : BunRuntimeConfig} {id : DeploymentId} {pid : Nat} {w w' : World (system config)}
  {α : Type} {Q : Except FunctionsError α → World (system config) → Prop}

abbrev Restored (id : DeploymentId) (pid : Nat) (w : World (system config)) : Prop :=
  AllGiven (takenSocket id) (givenSocket id) pid w

/--
The process has done nothing to the marks of the pool.
-/
structure Idle (id : DeploymentId) (pid : Nat) (w : World (system config)) : Prop where
  alive : ¬ Gone pid w
  untaken : ∀ p, ¬ Did (fun e => takenSocket id e = some p) pid w
  ungiven : ∀ p, ¬ Did (fun e => givenSocket id e = some p) pid w

/--
The process uses one instance.
-/
structure UsingOne (id : DeploymentId) (pid : Nat) (p : SocketPath) (w : World (system config)) : Prop where
  uses : Using id pid p w
  only : ∀ b, Did (fun e => takenSocket id e = some b) pid w → b = p

theorem Idle.restored (h : Idle id pid w) : Restored id pid w := by
  unfold Restored
  rw [allGiven_iff]
  intro p hp
  exact absurd hp (h.untaken p)

theorem Restored.extends (h : Extends pid w w') (hrestored : Restored id pid w) : Restored id pid w' :=
  (AllGiven.extends_iff h).mpr hrestored

theorem Idle.extends (h : Extends pid w w') (hidle : Idle id pid w) : Idle id pid w' := by
  obtain ⟨halive, huntaken, hungiven⟩ := hidle
  constructor
  . unfold Gone at halive ⊢
    rwa [Did.extends_iff h]
  . simpa only [Did.extends_iff h] using huntaken
  . simpa only [Did.extends_iff h] using hungiven

theorem UsingOne.extends {p : SocketPath} (h : Extends pid w w') (huses : UsingOne id pid p w)
    : UsingOne id pid p w' := by
  obtain ⟨huses, honly⟩ := huses
  constructor
  . exact (Holding.extends_iff h).mpr huses
  . simpa only [Did.extends_iff h] using honly

theorem Idle.after {s : (system config).State} {e : Event (system config)} (h : Idle id pid w)
    (htaken : takenSocket id e = none) (hgiven : givenSocket id e = none) (hends : e.ends = false)
    : Idle id pid (w.after s e) where
  alive := by
    rw [Gone.after_iff hends]
    exact h.alive
  untaken := by
    intro p hp
    rw [Did.after_iff, htaken] at hp
    exact h.untaken p (hp.resolve_left nofun)
  ungiven := by
    intro p hp
    rw [Did.after_iff, hgiven] at hp
    exact h.ungiven p (hp.resolve_left nofun)

theorem Idle.spawned (h : Fresh pid w) (req : Request)
    : Idle id pid (w.after w.state (.spawn pid req : Event (system config))) := by
  apply Idle.after _ rfl rfl rfl
  constructor
  . exact Did.not_of_fresh h
  . intro p
    exact Did.not_of_fresh h
  . intro p
    exact Did.not_of_fresh h

theorem Idle.take {p : SocketPath} {s : (system config).State} {e : Event (system config)}
    (h : Idle id pid w) (hpid : e.pid? = some pid) (htaken : takenSocket id e = some p)
    (hgiven : givenSocket id e = none) (hends : e.ends = false) : UsingOne id pid p (w.after s e) where
  uses := by
    rw [Using, Holding.after_take hpid htaken hgiven hends (h.ungiven p) h.alive]
    exact .inr ⟨rfl, rfl⟩
  only := by
    intro b hb
    rw [Did.after_iff, htaken] at hb
    cases hb with
    | inl hnew => exact (Option.some.inj hnew.2).symm
    | inr hold => exact absurd hold (h.untaken b)

theorem UsingOne.after_invoke {p socketPath : SocketPath} {request : IncomingRequest}
    {r : Except FunctionsError OutgoingResponse} {s : (system config).State}
    (h : UsingOne id pid p w)
    : UsingOne id pid p (w.after s (.call pid (Call.invokeOverSocket socketPath request) r)) where
  uses := by
    rw [Using, Holding.after_quiet rfl rfl rfl]
    exact h.uses
  only := by
    intro b hb
    rw [Did.after_iff] at hb
    exact h.only b (hb.resolve_left nofun)

theorem UsingOne.give {p : SocketPath} {s : (system config).State} (h : UsingOne id pid p w)
    : Restored id pid (w.after s (.call pid (Call.release id p) (.ok ()))) := by
  unfold Restored
  rw [allGiven_iff]
  intro b hb
  rw [Did.after_iff] at hb ⊢
  cases h.only b (hb.resolve_left nofun)
  exact .inl ⟨rfl, by simp [givenSocket]⟩

theorem Room.rely {n : Nat} (hrely : (poolOutline config id).Rely pid w w')
    (h : BunState.Room config pid id n w.state) : BunState.Room config pid id n w'.state := by
  obtain ⟨hwriter, hpool⟩ := h
  obtain ⟨hwriter', hpools⟩ := hrely.2 hwriter
  refine ⟨hwriter', ?_⟩
  rw [hpools]
  exact hpool

theorem Room.mono {m n : Nat} {s : BunState} (h : BunState.Room config pid id n s) (hle : m ≤ n)
    : BunState.Room config pid id m s := by
  obtain ⟨hwriter, pool, hpool, hbound⟩ := h
  exact ⟨hwriter, pool, hpool, by omega⟩

/--
The rule for a call of a process that knows what it needs.
-/
theorem wp_fit {c : Call} {f : c.Ret → FnM α} {A : World (system config) → Prop} (hA : A w)
    (hstable : ∀ w w', (poolOutline config id).Rely pid w w' → A w → A w')
    (hfits : ∀ w, A w → Fits id pid c w)
    (herror : ∀ e w, Possible (.call pid c (.error e) : Event (system config)) → A w →
      Restored id pid w)
    (hQ : ∀ e w, Restored id pid w → Q (.error e) w)
    (hnext : ∀ w a s, A w → Kept id w → Answers (system config) pid c w.state (.ok a) s →
      Steady id w (.call pid c (.ok a)) →
        (poolOutline config id).Wp pid Q (f a) (w.after s (.call pid c (.ok a))))
    : (poolOutline config id).Wp pid Q (query c >>= f) w := by
  apply Outline.wp_call
  intro w' hrely hinv r s hanswer hok
  have hA' := hstable w w' hrely hA
  constructor
  . exact keeps_fit hinv hanswer hok (hfits w' hA')
  . cases r with
    | ok a => exact hnext w' a s hA' hinv hanswer hok.2
    | error e =>
      intro w'' hrely' _
      apply hQ
      apply Restored.extends hrely'.1
      apply (herror e w' hok.1 hA').after
      cases c <;> rfl

/--
The rule for a call whose error the process looks at itself.
-/
theorem wp_try {c : Call} {f : Except FunctionsError c.Ret → FnM α} {A : World (system config) → Prop}
    (hA : A w) (hstable : ∀ w w', (poolOutline config id).Rely pid w w' → A w → A w')
    (hfits : ∀ w, A w → Fits id pid c w)
    (hnext : ∀ w r s, A w → Kept id w → Answers (system config) pid c w.state r s →
      (poolOutline config id).Wp pid Q (f r) (w.after s (.call pid c r)))
    : (poolOutline config id).Wp pid Q ((query c).attempt >>= f) w := by
  apply Outline.wp_try
  intro w' hrely hinv r s hanswer hok
  have hA' := hstable w w' hrely hA
  exact ⟨keeps_fit hinv hanswer hok (hfits w' hA'), hnext w' r s hA' hinv hanswer⟩

theorem flying_of_spawn {p : SocketPath} {s : (system config).State} (hinv : Kept id w)
    (hanswer : Answers (system config) pid (.spawnInstance id) w.state (.ok p) s)
    (halive : ¬ Gone pid w)
    : Flying id pid p (w.after s (.call pid (Call.spawnInstance id) (.ok p)))
      ∧ s.pools = w.state.pools ∧ s.writer = w.state.writer := by
  obtain ⟨x, hexec⟩ := exec_of_answers hanswer
  obtain ⟨hp, hnew, hs⟩ := BunState.exec_spawnInstance hexec
  cases Except.ok.inj hp
  refine ⟨?_, by rw [hs], by rw [hs]⟩
  have hspawned : spawnedSocket id (.call pid (Call.spawnInstance id) (.ok x.id) : Event (system config))
      = some x.id := by
    simp [spawnedSocket]
  rw [Flying, Holding.after_take rfl hspawned rfl rfl (fun h => hnew (hinv.pooled pid _ h)) halive]
  exact .inr ⟨rfl, rfl⟩

theorem fits_spawn (h : Idle id pid w) : Fits id pid (.spawnInstance id) w where
  acquire := nofun
  spawn _ := h.alive
  add _ := nofun
  addBusy _ := nofun
  release _ := nofun

theorem fits_add {c : Call} {p : SocketPath} (hc : c = .addBusy id p ∨ c = .addWarm id p)
    (hidle : Idle id pid w) (hflies : Flying id pid p w)
    (hroom : BunState.Room config pid id 1 w.state) : Fits id pid c w where
  acquire := by rcases hc with rfl | rfl <;> exact nofun
  spawn := by rcases hc with rfl | rfl <;> exact nofun
  add := by
    intro b hb
    obtain rfl : p = b := by
      rcases hc with rfl | rfl <;> rcases hb with hb | hb <;> cases hb <;> rfl
    exact ⟨hflies, hroom⟩
  addBusy b _ := hidle.ungiven b
  release := by rcases hc with rfl | rfl <;> exact fun _ => nofun

section Invoke

variable {handle : DeploymentHandle}

/--
What an invocation is left with, with or without an instance.
-/
def Acquires (id : DeploymentId) (pid : Nat) (r : Except FunctionsError (SocketPath × Bool))
    (w : World (system config)) : Prop :=
  match r with
  | .ok (p, _) => UsingOne id pid p w
  | .error _ => Restored id pid w

theorem acquireInstance_wp (h : Idle handle.deploymentId pid w)
    : (poolOutline config handle.deploymentId).Wp pid (Acquires handle.deploymentId pid)
        (acquireInstance handle) w := by
  unfold acquireInstance
  apply wp_fit h
  . intro w w' hrely hidle
    exact hidle.extends hrely.1
  . intro w hidle
    exact ⟨fun _ => ⟨hidle.alive, hidle.ungiven⟩, nofun, fun _ => nofun, fun _ => nofun, fun _ => nofun⟩
  . intro e w _ hidle
    exact hidle.restored
  . intro e w hrestored
    exact hrestored
  intro w a s hidle hinv hanswer _
  obtain ⟨x, hexec⟩ := exec_of_answers hanswer
  obtain ⟨ha, hs⟩ := BunState.exec_acquire hexec
  have ha := Except.ok.inj ha
  cases a with
  | found p =>
    apply Outline.wp_pure
    intro w' hrely _
    apply UsingOne.extends hrely.1
    apply hidle.take rfl
    . simp [takenSocket]
    . rfl
    . rfl
  | full =>
    apply Outline.wp_fail
    intro w' hrely _
    exact Restored.extends hrely.1 (hidle.restored.after rfl)
  | missing =>
    apply Outline.wp_fail
    intro w' hrely _
    exact Restored.extends hrely.1 (hidle.restored.after rfl)
  | spawn =>
    have hroom : BunState.Room config pid handle.deploymentId 1 s := by
      have hnone : ∀ p, (BunState.acquire config pid handle.deploymentId w.state).1 ≠ .found p := by
        rw [← ha]
        exact fun _ => nofun
      rw [hs]
      exact (BunState.acquire_not_found hnone).2.2 ha.symm
    have hidle : Idle handle.deploymentId pid
        (w.after s (.call pid (Call.acquire handle.deploymentId) (.ok .spawn))) :=
      hidle.after rfl rfl rfl
    apply wp_fit (A := fun w => Idle handle.deploymentId pid w
      ∧ BunState.Room config pid handle.deploymentId 1 w.state) ⟨hidle, hroom⟩
    . rintro w w' hrely ⟨hidle, hroom⟩
      exact ⟨hidle.extends hrely.1, Room.rely hrely hroom⟩
    . rintro w ⟨hidle, _⟩
      exact fits_spawn hidle
    . rintro e w _ ⟨hidle, _⟩
      exact hidle.restored
    . intro e w hrestored
      exact hrestored
    rintro w p s ⟨hidle, hroom⟩ hinv hanswer _
    obtain ⟨hflies, hpools, hwriter⟩ := flying_of_spawn hinv hanswer hidle.alive
    have hroom : BunState.Room config pid handle.deploymentId 1 s := by
      unfold BunState.Room
      rwa [hpools, hwriter]
    apply wp_fit (A := fun w => Idle handle.deploymentId pid w
      ∧ Flying handle.deploymentId pid p w ∧ BunState.Room config pid handle.deploymentId 1 w.state)
      ⟨hidle.after rfl rfl rfl, hflies, hroom⟩
    . rintro w w' hrely ⟨hidle, hflies, hroom⟩
      exact ⟨hidle.extends hrely.1, (Holding.extends_iff hrely.1).mpr hflies, Room.rely hrely hroom⟩
    . rintro w ⟨hidle, hflies, hroom⟩
      exact fits_add (.inl rfl) hidle hflies hroom
    . intro e w hpossible _
      exact hpossible.elim
    . intro e w hrestored
      exact hrestored
    rintro w _ s ⟨hidle, _, _⟩ _ _ _
    apply Outline.wp_pure
    intro w' hrely _
    apply UsingOne.extends hrely.1
    apply hidle.take rfl
    . simp [takenSocket]
    . rfl
    . rfl

theorem invoke_wp {request : IncomingRequest} (h : Idle handle.deploymentId pid w)
    : (poolOutline config handle.deploymentId).Wp pid (fun _ => Restored handle.deploymentId pid)
        (invoke handle request) w := by
  unfold invoke
  apply Outline.wp_bind
  apply Outline.wp_mono (acquireInstance_wp h)
  intro r w _ hacquires
  cases r with
  | error e =>
    apply Outline.wp_fail
    intro w' hrely _
    exact Restored.extends hrely.1 hacquires
  | ok a =>
    obtain ⟨p, coldStart⟩ := a
    apply wp_try (A := UsingOne handle.deploymentId pid p) hacquires
    . intro w w' hrely huses
      exact huses.extends hrely.1
    . intro w _
      exact ⟨nofun, nofun, fun _ => nofun, fun _ => nofun, fun _ => nofun⟩
    intro w r s huses _ _
    apply wp_fit (A := UsingOne handle.deploymentId pid p) huses.after_invoke
    . intro w w' hrely huses
      exact huses.extends hrely.1
    . intro w huses
      refine ⟨nofun, nofun, fun _ => nofun, fun _ => nofun, ?_⟩
      intro b hb
      cases hb
      exact huses.uses
    . intro e w hpossible _
      exact hpossible.elim
    . intro e w hrestored
      exact hrestored
    intro w _ s huses _ _ _
    have hrestored := huses.give (s := s)
    cases r with
    | ok response =>
      apply Outline.wp_pure
      intro w' hrely _
      exact Restored.extends hrely.1 hrestored
    | error e =>
      apply Outline.wp_fail
      intro w' hrely _
      exact Restored.extends hrely.1 hrestored

end Invoke

section Warm

variable {handle : DeploymentHandle}

theorem spawnWarm_wp {n : Nat} (hidle : Idle handle.deploymentId pid w)
    (hroom : BunState.Room config pid handle.deploymentId n w.state)
    : (poolOutline config handle.deploymentId).Wp pid (fun _ => Restored handle.deploymentId pid)
        (spawnWarm handle n) w := by
  induction n generalizing w with
  | zero =>
    apply Outline.wp_pure
    intro w' hrely _
    exact Restored.extends hrely.1 hidle.restored
  | succ n ih =>
    apply wp_try (A := fun w => Idle handle.deploymentId pid w
      ∧ BunState.Room config pid handle.deploymentId (n + 1) w.state) ⟨hidle, hroom⟩
    . rintro w w' hrely ⟨hidle, hroom⟩
      exact ⟨hidle.extends hrely.1, Room.rely hrely hroom⟩
    . rintro w ⟨hidle, _⟩
      exact fits_spawn hidle
    rintro w r s ⟨hidle, hroom⟩ hinv hanswer
    cases r with
    | error e =>
      apply ih (hidle.after rfl rfl rfl)
      apply Room.mono _ (Nat.le_succ n)
      rcases effect_of_answers hanswer with heq | ⟨x, r', hexec⟩
      . show BunState.Room _ _ _ _ s
        rw [heq]
        exact hroom
      . obtain ⟨_, _, hs⟩ := BunState.exec_spawnInstance hexec
        show BunState.Room _ _ _ _ s
        rw [hs]
        exact hroom
    | ok p =>
      obtain ⟨hflies, hpools, hwriter⟩ := flying_of_spawn hinv hanswer hidle.alive
      have hroom : BunState.Room config pid handle.deploymentId (n + 1) s := by
        unfold BunState.Room
        rwa [hpools, hwriter]
      apply wp_fit (A := fun w => Idle handle.deploymentId pid w
        ∧ Flying handle.deploymentId pid p w
        ∧ BunState.Room config pid handle.deploymentId (n + 1) w.state)
        ⟨hidle.after rfl rfl rfl, hflies, hroom⟩
      . rintro w w' hrely ⟨hidle, hflies, hroom⟩
        exact ⟨hidle.extends hrely.1, (Holding.extends_iff hrely.1).mpr hflies, Room.rely hrely hroom⟩
      . rintro w ⟨hidle, hflies, hroom⟩
        exact fits_add (.inr rfl) hidle hflies (Room.mono hroom (Nat.le_add_left 1 n))
      . intro e w hpossible _
        exact hpossible.elim
      . intro e w hrestored
        exact hrestored
      rintro w a s ⟨hidle, _, hroom⟩ _ hanswer _
      apply ih (hidle.after rfl rfl rfl)
      obtain ⟨x, hexec⟩ := exec_of_answers hanswer
      show BunState.Room _ _ _ _ s
      rw [BunState.exec_addWarm hexec]
      exact hroom.push

/--
What may be spawned fits into the pool.
-/
theorem room_of_plan {count : UInt32} {pool : DeploymentPool}
    (hbound : pool.instances.length ≤ config.maxInstancesPerFn.toNat)
    (hcount : count ≤ config.maxInstancesPerFn ∨ pool.instances = [])
    : pool.instances.length + BunState.toSpawn config pool count ≤ config.maxInstancesPerFn.toNat := by
  have hlt := config.maxInstancesPerFn.toNat_lt
  unfold BunState.toSpawn
  rw [Nat.mod_eq_of_lt (by omega)]
  cases hcount with
  | inl hle =>
    have hle : count.toNat ≤ config.maxInstancesPerFn.toNat := hle
    omega
  | inr hnil =>
    rw [hnil, List.length_nil]
    omega

theorem warm_wp {count : UInt32} (h : Idle handle.deploymentId pid w)
    : (poolOutline config handle.deploymentId).Wp pid (fun _ => Restored handle.deploymentId pid)
        (warm handle count) w := by
  unfold warm
  apply wp_fit h
  . intro w w' hrely hidle
    exact hidle.extends hrely.1
  . intro w _
    exact ⟨nofun, nofun, fun _ => nofun, fun _ => nofun, fun _ => nofun⟩
  . intro e w hpossible _
    exact hpossible.elim
  . intro e w hrestored
    exact hrestored
  intro w a s hidle hinv hanswer hok
  cases a with
  | none =>
    apply Outline.wp_fail
    intro w' hrely _
    exact Restored.extends hrely.1 (hidle.restored.after rfl)
  | some n =>
    apply spawnWarm_wp (hidle.after rfl rfl rfl)
    obtain ⟨x, hexec⟩ := exec_of_answers hanswer
    obtain ⟨pool, hpool, hn, hs⟩ := BunState.exec_planWarm hexec
    have hinstances := BunState.instances_of_pools hpool
    have hbound := hinv.bound
    have hcount := hok rfl
    rw [hinstances] at hbound hcount
    show BunState.Room _ _ _ _ s
    rw [hs, hn]
    exact ⟨rfl, pool, hpool, room_of_plan hbound hcount⟩

end Warm

/-! ### All requests -/

def Call.IsUnrelated (id : DeploymentId) (c : Call) : Prop :=
  c.poolOf ≠ some id

theorem fits_unrelated {c : Call} (hc : c.IsUnrelated id) : Fits id pid c w where
  acquire := by
    rintro rfl
    exact absurd rfl hc
  spawn := by
    rintro rfl
    exact absurd rfl hc
  add := by
    rintro p (rfl | rfl)
    . exact absurd rfl hc
    . exact absurd rfl hc
  addBusy := by
    rintro p rfl
    exact absurd rfl hc
  release := by
    rintro p rfl
    exact absurd rfl hc

theorem unrelated_wp {x : FnM α} (hx : x.Uses (Call.IsUnrelated id)) (h : Restored id pid w)
    : (poolOutline config id).Wp pid (fun _ => Restored id pid) x w := by
  apply Outline.wp_of_uses hx h
  . intro w w' hrely _ hrestored
    exact Restored.extends hrely.1 hrestored
  . intro c hc w r s hrestored hinv hanswer hok
    exact ⟨keeps_fit hinv hanswer hok (fits_unrelated hc),
      hrestored.after (quiet_of_poolOf hc).taken⟩

section Unrelated

variable {handle : DeploymentHandle} (h : handle.deploymentId ≠ id)

include h

theorem uses_invoke (request : IncomingRequest)
    : (invoke handle request).Uses (Call.IsUnrelated id) := by
  have hrelated : ∀ c : Call, c.poolOf = some handle.deploymentId → c.IsUnrelated id := by
    intro c hc heq
    exact h (Option.some.inj (hc.symm.trans heq))
  apply uses_bind
  . apply uses_bind (uses_request _ (hrelated _ rfl))
    intro a
    cases a with
    | found p => exact uses_pure _
    | full => exact uses_fail _
    | missing => exact uses_fail _
    | spawn =>
      apply uses_bind (uses_request _ (hrelated _ rfl))
      intro p
      apply uses_bind (uses_request _ (hrelated _ rfl))
      intro _
      exact uses_pure _
  . rintro ⟨p, coldStart⟩
    refine ⟨nofun, ?_⟩
    intro r
    apply uses_bind (uses_request _ (hrelated _ rfl))
    intro _
    cases r <;> trivial

theorem uses_warm (count : UInt32) : (warm handle count).Uses (Call.IsUnrelated id) := by
  have hrelated : ∀ c : Call, c.poolOf = some handle.deploymentId → c.IsUnrelated id := by
    intro c hc heq
    exact h (Option.some.inj (hc.symm.trans heq))
  have hspawn : ∀ n, (spawnWarm handle n).Uses (Call.IsUnrelated id) := by
    intro n
    induction n with
    | zero => exact uses_pure _
    | succ n ih =>
      refine ⟨hrelated _ rfl, ?_⟩
      intro r
      cases r with
      | ok p =>
        apply uses_bind (uses_request _ (hrelated _ rfl))
        intro _
        exact ih
      | error e => exact ih
  apply uses_bind (uses_request _ nofun)
  intro a
  cases a with
  | some n => exact hspawn n
  | none => exact uses_fail _

end Unrelated

theorem program_wp (req : Request) (h : Idle id pid w)
    : (poolOutline config id).Wp pid (fun _ => Restored id pid) (program req) w := by
  cases req with
  | invoke handle request =>
    by_cases hid : handle.deploymentId = id
    . subst hid
      exact invoke_wp h
    . exact unrelated_wp (uses_invoke hid request) h.restored
  | warm handle count =>
    by_cases hid : handle.deploymentId = id
    . subst hid
      exact warm_wp h
    . exact unrelated_wp (uses_warm hid count) h.restored
  | deploy id' => exact unrelated_wp (uses_request _ nofun) h.restored
  | evict => exact unrelated_wp (uses_request _ nofun) h.restored
  | destroy handle => exact unrelated_wp (uses_request _ nofun) h.restored
  | exit p => exact unrelated_wp (uses_request _ nofun) h.restored

end Programs

/--
A process that ends lets go of the lock and of nothing else.
-/
theorem keeps_end {config : BunRuntimeConfig} {id : DeploymentId} {pid : Nat}
    {w : World (system config)} {e : Event (system config)} (hinv : Kept id w)
    (hpid : e.pid? = some pid) (hquiet : Quiet id e) (hrestored : Restored id pid w)
    : (poolOutline config id).Keeps w ((system config).release pid w.state) e := by
  have hstate : ((system config).release pid w.state).pools = w.state.pools
      ∧ BunState.SameSockets w.state ((system config).release pid w.state)
      ∧ ∀ q, q ≠ pid → w.state.writer = some q →
        ((system config).release pid w.state).writer = some q := by
    simp only [system]
    split
    . next hwriter =>
      refine ⟨rfl, ⟨rfl, rfl⟩, ?_⟩
      intro q hq hwriter'
      rw [hwriter] at hwriter'
      exact absurd (Option.some.inj hwriter').symm hq
    . exact ⟨rfl, ⟨rfl, rfl⟩, fun q _ hwriter => hwriter⟩
  obtain ⟨hpools, hsockets, hwriter⟩ := hstate
  constructor
  . exact selectsAlive_of_taken hquiet.taken
  . apply hinv.quiet hquiet _ _ hsockets.exited
    . intro pid' hpid' _
      cases hpid.symm.trans hpid'
      exact hrestored
    . unfold BunState.instances
      rw [hpools]
    . rw [hsockets.sockets]
      exact List.Subset.refl _
  . intro q hq hlocked
    exact ⟨hwriter q (fun heq => hq (heq ▸ hpid)) hlocked, hpools⟩

theorem poolOutline_sound (config : BunRuntimeConfig) (id : DeploymentId)
    : (poolOutline config id).Sound where
  spawn w pid req hinv _ _ := by
    constructor
    . exact selectsAlive_of_taken rfl
    . exact hinv.quiet ⟨rfl, rfl, rfl, rfl⟩ (.refl _) (List.Subset.refl _) rfl nofun
    . intro _ _ hwriter
      exact ⟨hwriter, rfl⟩
  program w pid req _ hfresh _ := program_wp req (Idle.spawned hfresh req)
  finish w pid req r hinv _ hpost _ := keeps_end hinv rfl ⟨rfl, rfl, rfl, rfl⟩ hpost
  crash w pid req hinv _ hok := keeps_end hinv rfl ⟨rfl, rfl, rfl, rfl⟩ hok.2
  tick w t hinv _ := by
    constructor
    . exact selectsAlive_of_taken rfl
    . exact hinv.quiet ⟨rfl, rfl, rfl, rfl⟩ (.refl _) (List.Subset.refl _) rfl nofun
    . intro _ _ hwriter
      exact ⟨hwriter, rfl⟩

theorem poolKept (config : BunRuntimeConfig) : PoolKept config Steady := by
  intro id now ms hpossible hsteady
  have hok := Config.along_and hpossible hsteady
  have hsound := poolOutline_sound config id
  have hvalid : (poolOutline config id).Valid (Config.start (.start now)) := by
    apply Outline.Valid.start
    have hnot : ∀ take give pid (p : SocketPath),
        ¬ Holding take give pid p (⟨.start now, []⟩ : World (system config)) := by
      rintro take give pid p ⟨⟨_, he, _⟩, _⟩
      cases he
    constructor
    . exact Nat.zero_le _
    . exact List.nodup_nil
    . exact nofun
    . exact nofun
    . rintro pid p ⟨_, he, _⟩
      cases he
    . intro pid p h
      exact absurd h (hnot _ _ _ _)
    . intro pid p h
      exact absurd h (hnot _ _ _ _)
    . intro pid pid' p h
      exact absurd h (hnot _ _ _ _)
    . intro pid pid' p h
      exact absurd h (hnot _ _ _ _)
    . exact nofun
  constructor
  . intro c hrun
    exact (hsound.run hvalid hok hrun).1.inv.sound
  . exact hsound.along hvalid hok

/--
The configuration, the function and the choices of the runs that are looked at one by one.
-/
def BunRuntimeConfig.plain : BunRuntimeConfig :=
  ⟨300, 2⟩

def DeploymentHandle.plain : DeploymentHandle :=
  ⟨7, "hello"⟩

def IncomingRequest.plain : IncomingRequest :=
  ⟨"GET", "/", [], none⟩

def Choice.plain (id : Uuid) : Choice :=
  ⟨id, ⟨200, [], []⟩⟩

/--
The process `pid` makes its next `n` calls. The `k`-th socket that is made is `id + k`.
-/
def goesOn (pid n : Nat) (id : Uuid) : List (Move (system .plain)) :=
  (List.range n).map (fun k => .call pid (.plain (id + BitVec.ofNat 128 k)))

def deployed : List (Move (system .plain)) :=
  .spawn (Request.deploy 7) :: goesOn 0 1 0 ++ [.finish 0]

def invoked (pid n : Nat) (id : Uuid) : List (Move (system .plain)) :=
  .spawn (Request.invoke .plain .plain) :: goesOn pid n id

/--
Two invocations are in progress at once, and a third one comes when the first is over.
-/
def takingTurns : List (Move (system .plain)) :=
  deployed ++ invoked 1 3 20 ++ invoked 2 3 30 ++ goesOn 1 2 0 ++ .finish 1 :: invoked 3 3 0

example : Config.Along (fun _ => Possible) takingTurns (Config.start (.start 0))
    ∧ Config.Along (Steady 7) takingTurns (Config.start (.start 0)) := by
  decide

example : (Config.run takingTurns (Config.start (.start 0))).any (fun c =>
    ((BunState.instances c.world.state 7).map (·.busy) == [false, true])) = true := by
  decide

/--
The invocation is dropped while it waits for the answer of its instance.
-/
def timedOut : List (Move (system .plain)) :=
  deployed ++ invoked 1 3 20 ++ [.crash 1]

theorem not_poolKept : ¬ PoolKept .plain (fun _ _ _ => True) := by
  intro h
  have hpossible : Config.Along (fun _ => Possible) timedOut (Config.start (.start 0)) := by
    decide
  have hreached : (Config.run timedOut (Config.start (.start 0))).any (fun c =>
      decide ((⟨21, true, 0, false⟩ : BunInstance) ∈ BunState.instances c.world.state 7
        ∧ ∀ pid ∈ c.world.pids, ¬ Using 7 pid 21 c.world)) = true := by
    decide
  obtain ⟨c, hrun, hc⟩ := Config.exists_of_any hreached
  obtain ⟨hmem, hunused⟩ := of_decide_eq_true hc
  have hsound := (h 7 0 timedOut hpossible (Config.along_true _ _)).1 c hrun
  obtain ⟨pid, huses⟩ := hsound.busy _ hmem rfl
  exact hunused pid huses.mem_pids huses

/--
A pool that has two instances already is warmed up to four, and its limit is two.
-/
example :
    let ms := deployed ++ .spawn (Request.warm .plain 2) :: goesOn 1 5 20 ++ .finish 1
      :: .spawn (Request.warm .plain 4) :: goesOn 2 5 30
    (Config.run ms (Config.start (.start 0))).any
      (fun c => (BunState.instances c.world.state 7).length == 4) = true := by
  decide

/--
A process has exited, and its instance is selected.
-/
example :
    let ms := deployed ++ invoked 1 5 20 ++ .finish 1 :: .spawn (Request.exit 21) :: goesOn 2 1 0
      ++ invoked 3 1 0
    Config.Along (fun _ => Possible) ms (Config.start (.start 0))
      ∧ (Config.run ms (Config.start (.start 0))).any (fun c =>
        decide (Using 7 3 21 c.world ∧ 21 ∈ c.world.state.exited)) = true := by
  decide

end Reactor.Functions
