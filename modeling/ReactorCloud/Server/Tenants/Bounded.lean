import Mathlib
import ReactorCloud.Interleave.Machine
import ReactorCloud.Rust.Uuid

/-!
This module contains the cache of the tenants' adapters. A call is a task that comes from one operation
on the map or the semaphore to the next, the clock moves on in between.
-/

namespace Reactor.Server.Tenants

open Interleave (Machine)

abbrev ProjectId := Rust.Uuid

/--
The idle timeout is in nanoseconds.
-/
structure TenantAdapterCacheConfig where
  maxActiveTenants : Nat := 5000
  idleTimeout : Nat := 600000000000
  coldLoadConcurrency : Nat := 16

/--
The operation a `get_or_load` comes to next.
-/
inductive Task where
  | get (p : ProjectId)
  | acquire (p : ProjectId)
  | recheck (p : ProjectId)
  | build (p : ProjectId)
  | len (p : ProjectId) (caps : Nat)
  | evict (p : ProjectId) (caps : Nat)
  | insert (p : ProjectId) (caps : Nat)
deriving DecidableEq

def Task.project : Task → ProjectId
  | .get p | .acquire p | .recheck p | .build p | .len p _ | .evict p _ | .insert p _ => p

/--
A call answers the adapters it has got, or an error, and when.
-/
inductive Event where
  | quiet
  | called (t : Nat) (p : ProjectId)
  | returned (t : Nat) (p : ProjectId) (caps : Option Nat) (time : Nat)
  | evicted
deriving DecidableEq

/--
`TenantCapabilities` are known by the number of their `Arc`. The numbers from `nextCaps` and
`nextTask` on are not in use.
-/
structure State where
  capabilities : AList fun _ : ProjectId => Nat
  lastUsed : Nat → Nat
  nextCaps : Nat
  permits : Nat
  tasks : Nat → Option Task
  nextTask : Nat
  now : Nat

/--
What the environment decides in a step: if the pool connects and how long it takes from a reading of
the clock to the next one.
-/
structure Choice where
  connects : Bool
  lag : ProjectId → Nat

inductive Move where
  | getOrLoad (p : ProjectId)
  | run (t : Nat) (choice : Choice)
  | evictIdle (lag : ProjectId → Nat)
  | invalidate (p : ProjectId)
  | cancel (t : Nat)
  | wait (d : Nat)

/--
`Instant::now().elapsed().as_secs()`, the clock is read a second time after `lag`.
-/
def nowSecs (lag : Nat) : Nat :=
  lag / 1000000000

/--
The entries `f` is true of.
-/
def retain (f : ProjectId → Nat → Bool) (m : AList fun _ : ProjectId => Nat)
    : AList fun _ : ProjectId => Nat :=
  ⟨m.entries.filter (fun e => f e.1 e.2), m.nodupKeys.sublist List.filter_sublist⟩

namespace State

def init (config : TenantAdapterCacheConfig) : State where
  capabilities := ∅
  lastUsed := fun _ => 0
  nextCaps := 0
  permits := config.coldLoadConcurrency
  tasks := fun _ => none
  nextTask := 0
  now := 0

def touch (st : State) (caps lag : Nat) : State :=
  { st with lastUsed := Function.update st.lastUsed caps (nowSecs lag), now := st.now + lag }

def idleSecs (st : State) (caps lag : Nat) : Nat :=
  nowSecs lag - st.lastUsed caps

def release (st : State) : State :=
  { st with permits := st.permits + 1 }

def goTo (st : State) (t : Nat) (task : Option Task) : State :=
  { st with tasks := Function.update st.tasks t task }

def evictIdle (config : TenantAdapterCacheConfig) (lag : ProjectId → Nat) (st : State) : State :=
  let thresholdSecs := config.idleTimeout / 1000000000
  { st with
    capabilities := retain (fun p caps => !decide (st.idleSecs caps (lag p) > thresholdSecs))
      st.capabilities,
    now := st.now + (st.capabilities.keys.map lag).sum }

end State

/--
What the operation of a task answers, where the task goes and what becomes of the state. A task that has
to wait for a permit cannot move.
-/
def operate (config : TenantAdapterCacheConfig) (t : Nat) (task : Task) (choice : Choice)
    (st : State) : Option (Event × Option Task × State) :=
  match task with
  | .get p =>
    match st.capabilities.lookup p with
    | some caps =>
      let st := st.touch caps (choice.lag p)
      some (.returned t p (some caps) st.now, none, st)
    | none => some (.quiet, some (.acquire p), st)
  | .acquire p =>
    if 0 < st.permits then
      some (.quiet, some (.recheck p), { st with permits := st.permits - 1 })
    else
      none
  | .recheck p =>
    match st.capabilities.lookup p with
    | some caps =>
      let st := st.touch caps (choice.lag p)
      some (.returned t p (some caps) st.now, none, st.release)
    | none => some (.quiet, some (.build p), st)
  | .build p =>
    if choice.connects then
      let caps := st.nextCaps
      some (.quiet, some (.len p caps), { st.touch caps (choice.lag p) with nextCaps := caps + 1 })
    else
      some (.returned t p none st.now, none, st.release)
  | .len p caps =>
    if st.capabilities.entries.length ≥ config.maxActiveTenants then
      some (.quiet, some (.evict p caps), st)
    else
      some (.quiet, some (.insert p caps), st)
  | .evict p caps => some (.evicted, some (.insert p caps), st.evictIdle config choice.lag)
  | .insert p caps =>
    let st := { st with capabilities := st.capabilities.insert p caps }
    some (.returned t p (some caps) st.now, none, st.release)

def runTask (config : TenantAdapterCacheConfig) (t : Nat) (task : Task) (choice : Choice)
    (st : State) : Option (Event × State) :=
  (operate config t task choice st).map (fun (e, next, st) => (e, st.goTo t next))

/--
A call that is dropped while it waits or connects gives its permit back.
-/
def cancelTask (t : Nat) (task : Task) (st : State) : Option (Event × State) :=
  match task with
  | .acquire _ => some (.quiet, st.goTo t none)
  | .build _ => some (.quiet, st.release.goTo t none)
  | _ => none

def step (config : TenantAdapterCacheConfig) : Move → State → Option (Event × State)
  | .getOrLoad p, st =>
    some (.called st.nextTask p,
      { st.goTo st.nextTask (some (.get p)) with nextTask := st.nextTask + 1 })
  | .run t choice, st => (st.tasks t).bind (fun task => runTask config t task choice st)
  | .evictIdle lag, st => some (.evicted, st.evictIdle config lag)
  | .invalidate p, st => some (.quiet, { st with capabilities := st.capabilities.erase p })
  | .cancel t, st => (st.tasks t).bind (fun task => cancelTask t task st)
  | .wait d, st => some (.quiet, { st with now := st.now + d })

def machine (config : TenantAdapterCacheConfig) : Machine State Move Event :=
  ⟨.init config, step config⟩

end Reactor.Server.Tenants

/-!
This module contains what the cache of the tenants' adapters owes to its callers: a bound on its size, the
eviction of idle tenants and one set of adapters for the calls of one tenant.
-/

namespace Reactor.Server.Tenants

open Interleave Interleave.Machine

abbrev World : Type :=
  Machine.World State Event

/--
When the latest call that got adapters of the project returned.
-/
def lastLoad (p : ProjectId) : List Event → Option Nat
  | [] => none
  | .returned _ q (some _) time :: trace => if q = p then some time else lastLoad p trace
  | _ :: trace => lastLoad p trace

/--
The tenant is idle for longer than the timeout.
-/
def Idle (config : TenantAdapterCacheConfig) (w : World) (p : ProjectId) : Prop :=
  ∃ time, lastLoad p w.trace = some time ∧ config.idleTimeout < w.state.now - time

/--
The events since the call `t` of the project began.
-/
def since (t : Nat) (p : ProjectId) (trace : List Event) : List Event :=
  trace.takeWhile (· ≠ .called t p)

structure CacheHolds (config : TenantAdapterCacheConfig) (ok : World → Move → Prop) : Prop where
  /-- After every call there are at most as many tenants as the configuration allows. -/
  bounded : ∀ w, (machine config).Reached ok w →
    ∀ t p caps time, w.trace.head? = some (.returned t p caps time) →
    w.state.capabilities.entries.length ≤ config.maxActiveTenants
  /-- An eviction removes the idle tenants and no others. -/
  evicts : ∀ w, (machine config).Reached ok w → ∀ m w', ok w m →
    (machine config).next m w = some w' → w'.trace.head? = some .evicted →
    ∀ p ∈ w.state.capabilities, p ∉ w'.state.capabilities ↔ Idle config w p
  /-- Two calls that overlap get the same adapters. -/
  shared : ∀ w, (machine config).Reached ok w → ∀ m w' t p caps time, ok w m →
    (machine config).next m w = some w' →
    w'.trace.head? = some (.returned t p (some caps) time) →
    ∀ t' caps' time', .returned t' p (some caps') time' ∈ since t p w.trace → caps' = caps

/--
A cache for one tenant, two tenants are loaded one after the other.
-/
theorem not_cacheHolds : ¬ ∀ config, CacheHolds config (fun _ _ => True) := by
  intro h
  let config : TenantAdapterCacheConfig := ⟨1, 600000000000, 16⟩
  let go (t : Nat) : Move := .run t ⟨true, fun _ => 0⟩
  let ms : List Move := [.getOrLoad 7, go 0, go 0, go 0, go 0, go 0, go 0, .wait 700000000000,
    .getOrLoad 8, go 1, go 1, go 1, go 1, go 1, go 1, go 1]
  have hrun : ((machine config).run ms (machine config).first).any
      (fun w => decide (w.state.capabilities.entries.length = 2
        ∧ w.trace.head? = some (.returned 1 8 (some 1) 700000000000))) = true := by
    decide
  obtain ⟨w, hw, hend⟩ := reached_of_any hrun
  rw [decide_eq_true_eq] at hend
  have := (h config).bounded w hw _ _ _ _ hend.2
  simp only [hend.1, config] at this
  omega

/--
No tenant in the cache is idle for longer than the timeout, and the clock is read twice within a second.
-/
def NoneIdle (config : TenantAdapterCacheConfig) (w : World) (lag : ProjectId → Nat) : Prop :=
  (∀ p ∈ w.state.capabilities, ¬ Idle config w p) ∧ ∀ p, lag p < 1000000000

/--
Adapters are put into the cache where it has room and none of the project, an eviction finds nothing to
evict and no adapters are taken away from a project that is being loaded.
-/
def Calm (config : TenantAdapterCacheConfig) (w : World) (m : Move) : Prop :=
  match m with
  | .run t choice =>
    match w.state.tasks t with
    | some (.insert p _) =>
      w.state.capabilities.lookup p = none
        ∧ w.state.capabilities.entries.length < config.maxActiveTenants
    | some (.evict _ _) => NoneIdle config w choice.lag
    | _ => True
  | .evictIdle lag => NoneIdle config w lag
  | .invalidate p => ∀ t task, w.state.tasks t = some task → task.project ≠ p
  | _ => True

/--
All calls that have returned while the task is under way got the adapters that are in the cache.
-/
def Agrees (m : AList fun _ : ProjectId => Nat) (trace : List Event) (t : Nat) (task : Task) : Prop :=
  ∀ t' caps time, .returned t' task.project (some caps) time ∈ since t task.project trace →
    m.lookup task.project = some caps

structure Inv (config : TenantAdapterCacheConfig) (w : World) : Prop where
  bounded : w.state.capabilities.entries.length ≤ config.maxActiveTenants
  agrees : ∀ t task, w.state.tasks t = some task → Agrees w.state.capabilities w.trace t task

variable {config : TenantAdapterCacheConfig}

theorem mem_since_cons {t t' caps time : Nat} {p : ProjectId} {e : Event} {trace : List Event}
    (h : .returned t' p (some caps) time ∈ since t p (e :: trace))
    : e = .returned t' p (some caps) time
        ∨ .returned t' p (some caps) time ∈ since t p trace := by
  simp only [since, List.takeWhile_cons] at h ⊢
  split at h
  . rw [List.mem_cons] at h
    cases h with
    | inl heq => exact .inl heq.symm
    | inr hmem => exact .inr hmem
  . cases h

theorem since_called (t : Nat) (p : ProjectId) (trace : List Event)
    : since t p (.called t p :: trace) = [] := by
  simp [since]

/--
A task stays in agreement when its project keeps its adapters and the calls that return now get them.
-/
theorem Agrees.cons {m m' : AList fun _ : ProjectId => Nat} {e : Event} {trace : List Event} {t : Nat}
    {task : Task} (h : Agrees m trace t task)
    (hkeep : ∀ caps, m.lookup task.project = some caps → m'.lookup task.project = some caps)
    (hevent : ∀ t' p caps time, e = .returned t' p (some caps) time → m'.lookup p = some caps)
    : Agrees m' (e :: trace) t task := by
  intro t' caps time hmem
  cases mem_since_cons hmem with
  | inl heq => exact hevent _ _ _ _ heq
  | inr hmem => exact hkeep caps (h t' caps time hmem)

/--
An eviction with nothing to evict leaves the cache as it is.
-/
theorem evictIdle_capabilities {lag : ProjectId → Nat} {st : State} (h : ∀ p, lag p < 1000000000)
    : (st.evictIdle config lag).capabilities = st.capabilities := by
  apply AList.ext
  simp only [State.evictIdle, retain]
  rw [List.filter_eq_self]
  intro e _
  have hzero : nowSecs (lag e.1) = 0 := Nat.div_eq_of_lt (h e.1)
  simp [State.idleSecs, hzero]

/--
What a step does to the cache when everything is calm.
-/
structure Keeps (config : TenantAdapterCacheConfig) (m : AList fun _ : ProjectId => Nat) (e : Event)
    (m' : AList fun _ : ProjectId => Nat) : Prop where
  bounded : m.entries.length ≤ config.maxActiveTenants → m'.entries.length ≤ config.maxActiveTenants
  kept : ∀ p caps, m.lookup p = some caps → m'.lookup p = some caps
  event : ∀ t p caps time, e = .returned t p (some caps) time → m'.lookup p = some caps

theorem Keeps.refl {m : AList fun _ : ProjectId => Nat} {e : Event}
    (hevent : ∀ t p caps time, e = .returned t p (some caps) time → m.lookup p = some caps)
    : Keeps config m e m :=
  ⟨id, fun _ _ => id, hevent⟩

theorem Keeps.insert {m : AList fun _ : ProjectId => Nat} {p : ProjectId} {t caps time : Nat}
    (hnone : m.lookup p = none) (hlt : m.entries.length < config.maxActiveTenants)
    : Keeps config m (.returned t p (some caps) time) (m.insert p caps) := by
  constructor
  . intro _
    have : p ∉ m := AList.lookup_eq_none.mp hnone
    rw [AList.entries_insert_of_notMem this, List.length_cons]
    omega
  . intro q caps' hq
    have hne : q ≠ p := by
      rintro rfl
      rw [hnone] at hq
      cases hq
    rw [AList.lookup_insert_ne hne]
    exact hq
  . intro t' q caps' time' heq
    cases heq
    exact AList.lookup_insert m

theorem operate_keeps {t : Nat} {task : Task} {choice : Choice} {w : World} {e : Event}
    {next : Option Task} {st : State} (htask : w.state.tasks t = some task)
    (hok : Calm config w (.run t choice))
    (h : operate config t task choice w.state = some (e, next, st))
    : Keeps config w.state.capabilities e st.capabilities ∧ st.tasks = w.state.tasks
      ∧ ∀ task' ∈ next, task'.project = task.project := by
  simp only [Calm, htask] at hok
  cases task with
  | get p =>
    simp only [operate] at h
    split at h
    . next hlookup =>
      cases h
      refine ⟨.refl ?_, rfl, nofun⟩
      intro t p caps time heq
      cases heq
      exact hlookup
    . cases h
      exact ⟨.refl nofun, rfl, by rintro _ ⟨⟩; rfl⟩
  | acquire p =>
    simp only [operate] at h
    split at h
    . cases h
      exact ⟨.refl nofun, rfl, by rintro _ ⟨⟩; rfl⟩
    . cases h
  | recheck p =>
    simp only [operate] at h
    split at h
    . next hlookup =>
      cases h
      refine ⟨.refl ?_, rfl, nofun⟩
      intro t p caps time heq
      cases heq
      exact hlookup
    . cases h
      exact ⟨.refl nofun, rfl, by rintro _ ⟨⟩; rfl⟩
  | build p =>
    simp only [operate] at h
    split at h
    . cases h
      exact ⟨.refl nofun, rfl, by rintro _ ⟨⟩; rfl⟩
    . cases h
      exact ⟨.refl nofun, rfl, nofun⟩
  | len p caps =>
    simp only [operate] at h
    split at h
    . cases h
      exact ⟨.refl nofun, rfl, by rintro _ ⟨⟩; rfl⟩
    . cases h
      exact ⟨.refl nofun, rfl, by rintro _ ⟨⟩; rfl⟩
  | evict p caps =>
    cases h
    rw [evictIdle_capabilities hok.2]
    exact ⟨.refl nofun, rfl, by rintro _ ⟨⟩; rfl⟩
  | insert p caps =>
    cases h
    exact ⟨.insert hok.1 hok.2, rfl, nofun⟩

theorem Agrees.keeps {m m' : AList fun _ : ProjectId => Nat} {e : Event} {trace : List Event} {t : Nat}
    {task : Task} (h : Agrees m trace t task) (hkeeps : Keeps config m e m')
    : Agrees m' (e :: trace) t task :=
  h.cons (hkeeps.kept task.project) hkeeps.event

theorem Agrees.of_project {m : AList fun _ : ProjectId => Nat} {trace : List Event} {t : Nat}
    {task task' : Task} (h : Agrees m trace t task) (heq : task'.project = task.project)
    : Agrees m trace t task' := by
  intro t' caps time hmem
  rw [heq] at hmem ⊢
  exact h t' caps time hmem

theorem step_run {t : Nat} {choice : Choice} {st st' : State} {e : Event}
    (h : step config (.run t choice) st = some (e, st'))
    : ∃ task next st₁, st.tasks t = some task
      ∧ operate config t task choice st = some (e, next, st₁) ∧ st' = st₁.goTo t next := by
  simp only [step, Option.bind_eq_some_iff] at h
  obtain ⟨task, htask, hrun⟩ := h
  simp only [runTask, Option.map_eq_some_iff] at hrun
  obtain ⟨⟨e', next, st₁⟩, hop, heq⟩ := hrun
  cases heq
  exact ⟨task, next, st₁, htask, hop, rfl⟩

theorem step_cancel {t : Nat} {st st' : State} {e : Event}
    (h : step config (.cancel t) st = some (e, st'))
    : e = .quiet ∧ st'.capabilities = st.capabilities
      ∧ st'.tasks = Function.update st.tasks t none := by
  simp only [step, Option.bind_eq_some_iff] at h
  obtain ⟨task, _, hcancel⟩ := h
  cases task with
  | acquire p =>
    cases hcancel
    exact ⟨rfl, rfl, rfl⟩
  | build p =>
    cases hcancel
    exact ⟨rfl, rfl, rfl⟩
  | get | recheck | len | evict | insert => cases hcancel

/--
Tasks that go on in agreement, one of them perhaps at its next operation.
-/
theorem Inv.update {w : World} {e : Event} {st : State} (t : Nat) (next : Option Task)
    (h : Inv config w) (hkeeps : Keeps config w.state.capabilities e st.capabilities)
    (htasks : st.tasks = Function.update w.state.tasks t next)
    (hnext : ∀ task ∈ next, Agrees st.capabilities (e :: w.trace) t task)
    : Inv config ⟨st, e :: w.trace⟩ := by
  refine ⟨hkeeps.bounded h.bounded, ?_⟩
  intro t' task ht
  simp only [htasks, Function.update_apply] at ht
  split at ht
  . next heq =>
    subst heq
    exact hnext task ht
  . exact (h.agrees t' task ht).keeps hkeeps

theorem Inv.keeps {w : World} {e : Event} {st : State} (h : Inv config w)
    (hkeeps : Keeps config w.state.capabilities e st.capabilities)
    (htasks : st.tasks = w.state.tasks) : Inv config ⟨st, e :: w.trace⟩ := by
  refine ⟨hkeeps.bounded h.bounded, ?_⟩
  intro t task ht
  rw [htasks] at ht
  exact (h.agrees t task ht).keeps hkeeps

theorem Inv.step {m : Move} {w : World} {e : Event} {st : State} (h : Inv config w)
    (hok : Calm config w m) (hstep : step config m w.state = some (e, st))
    : Inv config ⟨st, e :: w.trace⟩ := by
  cases m with
  | getOrLoad p =>
    cases hstep
    refine h.update w.state.nextTask _ (.refl nofun) rfl ?_
    rintro task ⟨⟩ t' caps time hmem
    rw [show Task.project (.get p) = p from rfl, since_called] at hmem
    cases hmem
  | run t choice =>
    obtain ⟨task, next, st₁, htask, hop, rfl⟩ := step_run hstep
    obtain ⟨hkeeps, htasks, hproject⟩ := operate_keeps htask hok hop
    refine h.update t next hkeeps (by rw [State.goTo, htasks]) ?_
    intro task' hnext
    exact ((h.agrees t task htask).keeps hkeeps).of_project (hproject task' hnext)
  | evictIdle lag =>
    cases hstep
    refine h.keeps ?_ rfl
    rw [evictIdle_capabilities hok.2]
    exact .refl nofun
  | invalidate p =>
    cases hstep
    constructor
    . refine Nat.le_trans ?_ h.bounded
      exact (List.kerase_sublist p w.state.capabilities.entries).length_le
    . intro t task ht
      apply (h.agrees t task ht).cons
      . intro caps hcaps
        rw [AList.lookup_erase_ne (hok t task ht)]
        exact hcaps
      . intro _ _ _ _ heq
        cases heq
  | cancel t =>
    obtain ⟨rfl, hcaps, htasks⟩ := step_cancel hstep
    refine h.update t none ?_ htasks nofun
    rw [hcaps]
    exact .refl nofun
  | wait d =>
    cases hstep
    exact h.keeps (.refl nofun) rfl

theorem Inv.of_reached {w : World} (h : (machine config).Reached (Calm config) w)
    : Inv config w := by
  apply h.invariant (P := Inv config)
  . exact ⟨Nat.zero_le _, nofun⟩
  . intro m w e st hinv hok hstep
    exact hinv.step hok hstep

/--
A call that returns adapters, and whose.
-/
theorem operate_returned {t t' caps time : Nat} {task : Task} {choice : Choice} {p : ProjectId}
    {st st' : State} {next : Option Task}
    (h : operate config t task choice st = some (.returned t' p (some caps) time, next, st'))
    : t' = t ∧ task.project = p
      ∧ (st.capabilities.lookup p = some caps ∨ task = .insert p caps) := by
  cases task with
  | get q | recheck q =>
    simp only [operate] at h
    split at h
    . next hlookup =>
      cases h
      exact ⟨rfl, rfl, .inl hlookup⟩
    . cases h
  | acquire q | build q | len q caps' =>
    simp only [operate] at h
    split at h <;> cases h
  | evict q caps' => cases h
  | insert q caps' =>
    cases h
    exact ⟨rfl, rfl, .inr rfl⟩

theorem step_returned {t caps time : Nat} {m : Move} {p : ProjectId} {st st' : State}
    (h : step config m st = some (.returned t p (some caps) time, st'))
    : ∃ choice task, m = .run t choice ∧ st.tasks t = some task ∧ task.project = p
      ∧ (st.capabilities.lookup p = some caps ∨ task = .insert p caps) := by
  cases m with
  | run t' choice =>
    obtain ⟨task, next, st₁, htask, hop, rfl⟩ := step_run h
    obtain ⟨rfl, hproject, hcaps⟩ := operate_returned hop
    exact ⟨choice, task, rfl, htask, hproject, hcaps⟩
  | cancel t' =>
    have := (step_cancel h).1
    cases this
  | getOrLoad | evictIdle | invalidate | wait => cases h

theorem operate_evicted {t : Nat} {task : Task} {choice : Choice} {st st' : State}
    {next : Option Task} (h : operate config t task choice st = some (.evicted, next, st'))
    : (∃ p caps, task = .evict p caps) ∧ st' = st.evictIdle config choice.lag := by
  cases task with
  | get q | recheck q | acquire q | build q | len q caps' =>
    simp only [operate] at h
    split at h <;> cases h
  | evict q caps' =>
    cases h
    exact ⟨⟨q, caps', rfl⟩, rfl⟩
  | insert q caps' => cases h

theorem step_evicted {m : Move} {w : World} {st : State} (hok : Calm config w m)
    (h : step config m w.state = some (.evicted, st))
    : ∃ lag, NoneIdle config w lag
      ∧ st.capabilities = (w.state.evictIdle config lag).capabilities := by
  cases m with
  | run t choice =>
    obtain ⟨task, next, st₁, htask, hop, rfl⟩ := step_run h
    obtain ⟨⟨p, caps, rfl⟩, rfl⟩ := operate_evicted hop
    simp only [Calm, htask] at hok
    exact ⟨choice.lag, hok, rfl⟩
  | evictIdle lag =>
    cases h
    exact ⟨lag, hok, rfl⟩
  | cancel t =>
    have := (step_cancel h).1
    cases this
  | getOrLoad | invalidate | wait => cases h

theorem cacheHolds (config : TenantAdapterCacheConfig) : CacheHolds config (Calm config) := by
  constructor
  . intro w hw _ _ _ _ _
    exact (Inv.of_reached hw).bounded
  . intro w hw m w' hok hnext hevicted p hp
    rw [next_eq_some_iff] at hnext
    obtain ⟨e, st, hstep, rfl⟩ := hnext
    simp only [List.head?_cons, Option.some.injEq] at hevicted
    subst hevicted
    obtain ⟨lag, hidle, hcaps⟩ := step_evicted hok hstep
    simp only [hcaps, evictIdle_capabilities hidle.2]
    constructor
    . intro hout
      exact absurd hp hout
    . intro hlong
      exact absurd hlong (hidle.1 p hp)
  . intro w hw m w' t p caps time hok hnext hreturned t' caps' time' hmem
    rw [next_eq_some_iff] at hnext
    obtain ⟨e, st, hstep, rfl⟩ := hnext
    simp only [List.head?_cons, Option.some.injEq] at hreturned
    subst hreturned
    obtain ⟨choice, task, rfl, htask, rfl, hcaps⟩ := step_returned hstep
    have hagrees := (Inv.of_reached hw).agrees t task htask t' caps' time' hmem
    cases hcaps with
    | inl hlookup =>
      rw [hlookup] at hagrees
      cases hagrees
      rfl
    | inr hinsert =>
      -- the cache has none of the project, so no call has returned in between
      simp only [Calm, htask] at hok
      rw [hinsert] at hok
      have hnone := hok.1
      rw [hagrees] at hnone
      cases hnone

end Reactor.Server.Tenants
