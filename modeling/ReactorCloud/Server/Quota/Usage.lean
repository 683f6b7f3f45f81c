import ReactorCloud.Server.Quota.Service

/-!
This module contains the counters of storage and bandwidth in the quota states, and when they are the sums of
the recorded changes: as long as a project has one quota state before a change is recorded, no decrement finds
less than it takes and no sum leaves the range of an `u64`. Every operation on the map and on a counter is one
step of a task.
-/

namespace Reactor.Server.Quota.Usage

open Interleave (Machine)

inductive Resource where
  | storage
  | bandwidth
  deriving DecidableEq

def limit (env : Env) (r : Resource) (p : ProjectId) : UInt64 :=
  match r with
  | .storage => (env.limits p).storageBytes
  | .bandwidth => (env.limits p).bandwidthBytesPerMonth

/--
The operation a task comes to next. A quota state is known by the number of its `Arc`.
-/
inductive Task where
  /-- `tenants.get` in `get_or_create` -/
  | get (r : Resource) (p : ProjectId) (bytes : UInt64)
  /-- `tenants.insert` in `get_or_create` -/
  | insert (r : Resource) (p : ProjectId) (bytes : UInt64)
  /-- the load of a check -/
  | load (r : Resource) (p : ProjectId) (bytes : UInt64) (s : Nat)
  /-- `tenants.get` in `record_storage_change` -/
  | getStorage (p : ProjectId) (delta : Int64)
  /-- `tenants.get` in `record_bandwidth` -/
  | getBandwidth (p : ProjectId) (bytes : UInt64)
  /-- `fetch_add`, for a change of the given size -/
  | add (r : Resource) (p : ProjectId) (s : Nat) (bytes : UInt64) (change : Int)
  /-- the load in the argument of `fetch_sub` -/
  | clamp (p : ProjectId) (s : Nat) (delta : Int64)
  /-- `fetch_sub` -/
  | subtract (p : ProjectId) (s : Nat) (delta : Int64) (loaded : UInt64)

/--
A check that has an answer or a change that is recorded, and whether it went out of the range of its type.
-/
inductive Event where
  | quiet
  | checked (r : Resource) (p : ProjectId) (bytes : UInt64) (refused overflow : Bool)
  | recorded (r : Resource) (p : ProjectId) (change : Int) (overflow : Bool)

/--
The quota states. The numbers from `nextState` on are not in use. A change is recorded under a guard of the map,
and nothing is inserted for a project that has one.
-/
structure Counters where
  tenants : ProjectId → Option Nat
  used : Resource → Nat → UInt64
  nextState : Nat
  guards : ProjectId → Nat

namespace Counters

def init : Counters where
  tenants _ := none
  used _ _ := 0
  nextState := 0
  guards _ := 0

def insertState (c : Counters) (p : ProjectId) : Counters :=
  { c with
    tenants := Function.update c.tenants p (some c.nextState)
    used := fun r => Function.update (c.used r) c.nextState 0
    nextState := c.nextState + 1 }

def setUsed (c : Counters) (r : Resource) (s : Nat) (n : UInt64) : Counters :=
  { c with used := Function.update c.used r (Function.update (c.used r) s n) }

def guard (c : Counters) (p : ProjectId) : Counters :=
  { c with guards := Function.update c.guards p (c.guards p + 1) }

def unguard (c : Counters) (p : ProjectId) : Counters :=
  { c with guards := Function.update c.guards p (c.guards p - 1) }

end Counters

/-- `(-delta_bytes) as u64` -/
def absDelta (delta : Int64) : UInt64 :=
  (-delta).toUInt64

/--
What the operation answers, where the task goes and what the counters become.
-/
def operate (env : Env) (task : Task) (c : Counters) : Option (Event × Option Task × Counters) :=
  match task with
  | .get r p bytes =>
    match c.tenants p with
    | some s => some (.quiet, some (.load r p bytes s), c)
    | none => some (.quiet, some (.insert r p bytes), c)
  | .insert r p bytes =>
    if c.guards p = 0 then some (.quiet, some (.load r p bytes c.nextState), c.insertState p) else none
  | .load r p bytes s =>
    let current := c.used r s
    some (.checked r p bytes (current + bytes > limit env r p) (decide (current.toNat + bytes.toNat ≥ 2 ^ 64)), none, c)
  | .getStorage p delta =>
    match c.tenants p with
    | some s =>
      if delta ≥ 0 then some (.quiet, some (.add .storage p s delta.toUInt64 delta.toInt), c.guard p)
      else some (.quiet, some (.clamp p s delta), c.guard p)
    | none => some (.recorded .storage p delta.toInt false, none, c)
  | .getBandwidth p bytes =>
    match c.tenants p with
    | some s => some (.quiet, some (.add .bandwidth p s bytes bytes.toNat), c.guard p)
    | none => some (.recorded .bandwidth p bytes.toNat false, none, c)
  | .add r p s bytes change =>
    some (.recorded r p change (decide ((c.used r s).toNat + bytes.toNat ≥ 2 ^ 64)), none,
      (c.setUsed r s (c.used r s + bytes)).unguard p)
  | .clamp p s delta => some (.quiet, some (.subtract p s delta (c.used .storage s)), c)
  | .subtract p s delta loaded =>
    let amount := min (absDelta delta) loaded
    some (.recorded .storage p delta.toInt (decide (delta = Int64.minValue) || decide (c.used .storage s < amount)), none,
      (c.setUsed .storage s (c.used .storage s - amount)).unguard p)

/--
The numbers from `nextTask` on are not in use.
-/
structure State where
  counters : Counters
  tasks : Nat → Option Task
  nextTask : Nat

inductive Move where
  | check (r : Resource) (p : ProjectId) (bytes : UInt64)
  | recordStorageChange (p : ProjectId) (delta : Int64)
  | recordBandwidth (p : ProjectId) (bytes : UInt64)
  | run (t : Nat)

namespace State

def init : State :=
  ⟨.init, fun _ => none, 0⟩

def spawn (st : State) (task : Task) : State :=
  { st with tasks := Function.update st.tasks st.nextTask (some task), nextTask := st.nextTask + 1 }

end State

/-- `check_storage` and `check_bandwidth` -/
def startCheck (env : Env) (r : Resource) (p : ProjectId) (bytes : UInt64) (st : State) : Event × State :=
  if limit env r p == QuotaLimits.u64Max then
    (.checked r p bytes false false, st)
  else
    (.quiet, st.spawn (.get r p bytes))

def step (env : Env) : Move → State → Option (Event × State)
  | .check r p bytes, st => some (startCheck env r p bytes st)
  | .recordStorageChange p delta, st => some (.quiet, st.spawn (.getStorage p delta))
  | .recordBandwidth p bytes, st => some (.quiet, st.spawn (.getBandwidth p bytes))
  | .run t, st => do
    let task ← st.tasks t
    let (e, next, counters) ← operate env task st.counters
    return (e, { st with counters := counters, tasks := Function.update st.tasks t next })

def machine (env : Env) : Machine State Move Event :=
  ⟨State.init, step env⟩

abbrev World : Type :=
  Machine.World State Event

/-! ## What is claimed -/

def Event.change (r : Resource) (p : ProjectId) : Event → Int
  | .recorded r' p' change _ => if r' = r ∧ p' = p then change else 0
  | _ => 0

/--
The sum of the changes.
-/
def usage (r : Resource) (p : ProjectId) : List Event → Int
  | [] => 0
  | e :: trace => e.change r p + usage r p trace

def Event.overflow : Event → Bool
  | .quiet => false
  | .checked _ _ _ _ overflow => overflow
  | .recorded _ _ _ overflow => overflow

/--
A check refuses if and only if the usage at its time and what is asked for are above the limit.
-/
def ChecksRight (env : Env) : List Event → Prop
  | [] => True
  | e :: trace =>
    (∀ r p bytes refused overflow, e = .checked r p bytes refused overflow →
      (refused = true ↔ (limit env r p).toNat < usage r p trace + bytes.toNat))
    ∧ ChecksRight env trace

/--
The counters are the sums of the changes in the trace.
-/
structure Exact (env : Env) (c : Counters) (trace : List Event) : Prop where
  stored : ∀ r p s, c.tenants p = some s → (c.used r s).toNat = usage r p trace
  /-- A project without counters has used nothing. -/
  absent : ∀ r p, c.tenants p = none → usage r p trace = 0
  inRange : ∀ e ∈ trace, e.overflow = false
  checks : ChecksRight env trace

/--
The usage of no project falls below zero.
-/
def TrueUsage (env : Env) (w : World) (m : Move) : Prop :=
  ∀ e st, step env m w.state = some (e, st) → ∀ r p, 0 ≤ usage r p (e :: w.trace)

def UsageExact (env : Env) (ok : World → Move → Prop) : Prop :=
  ∀ w, (machine env).Reached ok w → Exact env w.state.counters w.trace

def Event.grows : Event → Bool
  | .recorded _ _ change _ => decide (0 ≤ change)
  | _ => true

theorem usage_nonneg {trace : List Event} (h : ∀ e ∈ trace, e.grows = true) (r : Resource) (p : ProjectId)
    : 0 ≤ usage r p trace := by
  induction trace with
  | nil => exact Int.le_refl 0
  | cons e trace ih =>
    have he : 0 ≤ e.change r p := by
      have := h e List.mem_cons_self
      unfold Event.change
      split
      . simp only [Event.grows, decide_eq_true_eq] at this
        split
        . exact this
        . exact Int.le_refl 0
      . exact Int.le_refl 0
    exact Int.add_nonneg he (ih fun e' he' => h e' (List.mem_cons_of_mem e he'))

theorem reached_of_run {env : Env} {ms : List Move} {w w' : World} (h : (machine env).Reached (TrueUsage env) w)
    (hrun : (machine env).run ms w = some w') (hgrows : ∀ e ∈ w'.trace, e.grows = true)
    : (machine env).Reached (TrueUsage env) w' := by
  induction ms generalizing w with
  | nil =>
    cases hrun
    exact h
  | cons m ms ih =>
    simp only [Machine.run, Option.bind_eq_some_iff] at hrun
    obtain ⟨w₁, hnext, hrun⟩ := hrun
    refine ih (.next h ?_ hnext) hrun
    intro e st hstep r p
    have hw₁ : w₁ = ⟨st, e :: w.trace⟩ := by
      rw [Machine.next, show (machine env).step m w.state = some (e, st) from hstep] at hnext
      cases hnext
      rfl
    apply usage_nonneg
    intro e' he'
    apply hgrows
    have := Machine.trace_suffix_of_run hrun
    rw [hw₁] at this
    exact this.subset he'

/--
A change that is recorded before the first check of a project finds no quota state and is lost.
-/
theorem not_usageExact : ¬ ∀ env, UsageExact env (TrueUsage env) := by
  intro h
  let env : Env := ⟨⟨.freeTier, none⟩, fun _ => false⟩
  let ms : List Move := [.recordStorageChange 7 5, .run 0, .check .storage 7 100, .run 1, .run 1]
  have hrun : ((machine env).run ms (machine env).first).any
      (fun w => w.trace.all Event.grows && decide (w.state.counters.tenants 7 = some 0)
        && decide ((w.state.counters.used .storage 0).toNat = 0) && decide (usage .storage 7 w.trace = 5)) = true := by
    decide
  cases hw : (machine env).run ms (machine env).first with
  | none =>
    rw [hw] at hrun
    cases hrun
  | some w =>
    simp only [hw, Option.any_some, Bool.and_eq_true, decide_eq_true_eq, List.all_eq_true] at hrun
    obtain ⟨⟨⟨hgrows, hs⟩, hzero⟩, husage⟩ := hrun
    have hstored := (h env w (reached_of_run .first hw hgrows)).stored .storage 7 0 hs
    omega

/-! ## When it holds -/

/--
What the project has used by the quota state the map has for it.
-/
def Counters.usedBy (c : Counters) (r : Resource) (p : ProjectId) : Nat :=
  match c.tenants p with
  | some s => (c.used r s).toNat
  | none => 0

/--
A change finds a quota state, no quota state is put in the place of another, a decrement finds as much as it
takes away, and no sum reaches `2 ^ 64`.
-/
def Task.Proper (c : Counters) : Task → Prop
  | .get .. => True
  | .insert _ p _ => c.tenants p = none
  | .load r _ bytes s => (c.used r s).toNat + bytes.toNat < 2 ^ 64
  | .getStorage p _ | .getBandwidth p _ => c.tenants p ≠ none
  | .add r _ s bytes _ => (c.used r s).toNat + bytes.toNat < 2 ^ 64
  | .clamp _ s delta => absDelta delta ≤ c.used .storage s
  | .subtract _ _ delta _ => delta ≠ Int64.minValue

def Proper (env : Env) (w : World) : Move → Prop
  | .check r p bytes => limit env r p = QuotaLimits.u64Max → w.state.counters.usedBy r p + bytes.toNat < 2 ^ 64
  | .recordStorageChange .. | .recordBandwidth .. => True
  | .run t => ∀ task ∈ w.state.tasks t, task.Proper w.state.counters

/-! Numbers -/

theorem toNat_toUInt64 {n : Int64} (hnonneg : 0 ≤ n.toInt) : (n.toUInt64.toNat : Int) = n.toInt := by
  rw [Int64.toNat_toUInt64_of_le (Int64.le_iff_toInt_le.mpr hnonneg), ← Int64.toNat_toInt]
  omega

theorem toNat_absDelta {delta : Int64} (hneg : delta.toInt < 0) (hmin : delta ≠ Int64.minValue)
    : ((absDelta delta).toNat : Int) = -delta.toInt := by
  have hmin' : delta.toInt ≠ -2 ^ 63 := by
    intro heq
    apply hmin
    rw [← Int64.toInt_inj, heq]
    rfl
  have hle := Int64.le_toInt delta
  have hneg' : (-delta).toInt = -delta.toInt := by
    rw [Int64.toInt_neg]
    apply Int.bmod_eq_of_le <;> omega
  rw [absDelta, toNat_toUInt64 (by omega), hneg']

/-! The invariant -/

theorem usage_cons (r : Resource) (p : ProjectId) (e : Event) (trace : List Event)
    : usage r p (e :: trace) = e.change r p + usage r p trace := rfl

@[simp]
theorem usage_quiet (r : Resource) (p : ProjectId) (trace : List Event)
    : usage r p (.quiet :: trace) = usage r p trace := by
  apply Int.zero_add

@[simp]
theorem usage_checked (r r' : Resource) (p p' : ProjectId) (bytes : UInt64) (refused overflow : Bool)
    (trace : List Event)
    : usage r p (.checked r' p' bytes refused overflow :: trace) = usage r p trace := by
  apply Int.zero_add

/--
The counters are exact, and no two projects have one quota state.
-/
structure Sound (env : Env) (c : Counters) (trace : List Event) : Prop extends Exact env c trace where
  known : ∀ p s, c.tenants p = some s → s < c.nextState
  apart : ∀ p q s, c.tenants p = some s → c.tenants q = some s → p = q

/--
A task that has found a quota state still finds it in the map, and a decrement has seen as much as it takes away.
-/
def Task.Ok (c : Counters) : Task → Prop
  | .get .. | .insert .. | .getStorage .. | .getBandwidth .. => True
  | .load _ p _ s => c.tenants p = some s
  | .add _ p s bytes change => c.tenants p = some s ∧ bytes.toNat = change
  | .clamp p s delta => c.tenants p = some s ∧ delta.toInt < 0
  | .subtract p s delta loaded => c.tenants p = some s ∧ delta.toInt < 0 ∧ absDelta delta ≤ loaded

variable {env : Env} {c c' : Counters} {trace : List Event} {r : Resource} {p : ProjectId} {s : Nat}

theorem Task.Ok.mono {task : Task} (h : task.Ok c)
    (hmono : ∀ p s, c.tenants p = some s → c'.tenants p = some s) : task.Ok c' := by
  cases task with
  | get | insert | getStorage | getBandwidth => trivial
  | load _ p _ s => exact hmono p s h
  | add _ p s _ _ => exact ⟨hmono p s h.1, h.2⟩
  | clamp p s _ => exact ⟨hmono p s h.1, h.2⟩
  | subtract p s _ _ => exact ⟨hmono p s h.1, h.2⟩

namespace Sound

theorem init (env : Env) : Sound env .init [] where
  stored _ _ _ h := by cases h
  absent _ _ _ := rfl
  inRange _ h := by cases h
  checks := trivial
  known _ _ h := by cases h
  apart _ _ _ h := by cases h

theorem quiet (h : Sound env c trace) : Sound env c (.quiet :: trace) where
  stored r p s hs := by
    rw [h.stored r p s hs, usage_quiet]
  absent r p hnone := by
    rw [usage_quiet, h.absent r p hnone]
  inRange e he := by
    cases he with
    | head => rfl
    | tail _ he => exact h.inRange e he
  checks := ⟨nofun, h.checks⟩
  known := h.known
  apart := h.apart

theorem guard (h : Sound env c trace) (p : ProjectId) : Sound env (c.guard p) trace :=
  { h with }

theorem unguard (h : Sound env c trace) (p : ProjectId) : Sound env (c.unguard p) trace :=
  { h with }

/--
The numbers of the states a new one does not touch.
-/
theorem tenants_insertState (h : Sound env c trace) {q : ProjectId} (hs : (c.insertState p).tenants q = some s)
    : (q = p ∧ s = c.nextState) ∨ (q ≠ p ∧ c.tenants q = some s ∧ s < c.nextState) := by
  simp only [Counters.insertState, Function.update_apply] at hs
  split at hs
  . next heq =>
    cases hs
    exact .inl ⟨heq, rfl⟩
  . next hne => exact .inr ⟨hne, hs, h.known q s hs⟩

theorem insertState (h : Sound env c trace) (hnone : c.tenants p = none)
    : Sound env (c.insertState p) trace where
  stored r q s hs := by
    rcases h.tenants_insertState hs with ⟨rfl, rfl⟩ | ⟨_, hq, hlt⟩
    . rw [h.absent r q hnone]
      simp [Counters.insertState]
    . have hne : s ≠ c.nextState := by omega
      simp only [Counters.insertState, Function.update_of_ne hne]
      exact h.stored r q s hq
  absent r q hq := by
    apply h.absent r q
    simp only [Counters.insertState, Function.update_apply] at hq
    split at hq
    . cases hq
    . exact hq
  inRange := h.inRange
  checks := h.checks
  known q s hs := by
    simp only [Counters.insertState]
    rcases h.tenants_insertState hs with ⟨_, rfl⟩ | ⟨_, _, hlt⟩ <;> omega
  apart q q' s hs hs' := by
    rcases h.tenants_insertState hs with ⟨rfl, heq⟩ | ⟨_, hq, hlt⟩
      <;> rcases h.tenants_insertState hs' with ⟨rfl, heq'⟩ | ⟨_, hq', hlt'⟩
    . rfl
    . omega
    . omega
    . exact h.apart q q' s hq hq'

theorem checked (h : Sound env c trace) {bytes : UInt64} {refused : Bool}
    (hrefused : refused = true ↔ ((limit env r p).toNat : Int) < usage r p trace + bytes.toNat)
    : Sound env c (.checked r p bytes refused false :: trace) where
  stored q p s hs := by
    rw [h.stored q p s hs, usage_checked]
  absent q p hnone := by
    rw [usage_checked, h.absent q p hnone]
  inRange e he := by
    cases he with
    | head => rfl
    | tail _ he => exact h.inRange e he
  checks := by
    refine ⟨?_, h.checks⟩
    intro r p bytes refused overflow heq
    cases heq
    exact hrefused
  known := h.known
  apart := h.apart

/--
A counter moves together with the sum of the changes.
-/
theorem recorded (h : Sound env c trace) {n : UInt64} {change : Int} (hs : c.tenants p = some s)
    (hn : (n.toNat : Int) = usage r p trace + change)
    : Sound env (c.setUsed r s n) (.recorded r p change false :: trace) where
  stored r' p' s' hs' := by
    have hold := h.stored r' p' s' hs'
    by_cases heq : r = r' ∧ p = p'
    . obtain ⟨rfl, rfl⟩ := heq
      have : s' = s := by
        rw [Counters.setUsed, hs] at hs'
        cases hs'
        rfl
      subst this
      simp only [Counters.setUsed, Function.update_self, usage_cons, Event.change, and_self, if_true]
      omega
    . have : ((c.setUsed r s n).used r' s') = c.used r' s' := by
        by_cases hr : r' = r
        . have hne : s' ≠ s := by
            rintro rfl
            exact heq ⟨hr.symm, h.apart p p' _ hs hs'⟩
          subst hr
          simp only [Counters.setUsed, Function.update_self, Function.update_of_ne hne]
        . simp only [Counters.setUsed, Function.update_of_ne hr]
      rw [this, hold, usage_cons, Event.change, if_neg heq, Int.zero_add]
  absent r' p' hnone := by
    have hne : ¬ (r = r' ∧ p = p') := by
      rintro ⟨_, rfl⟩
      rw [Counters.setUsed, hs] at hnone
      cases hnone
    rw [usage_cons, Event.change, if_neg hne, Int.zero_add]
    exact h.absent r' p' hnone
  inRange e he := by
    cases he with
    | head => rfl
    | tail _ he => exact h.inRange e he
  checks := ⟨nofun, h.checks⟩
  known := h.known
  apart := h.apart

/-! What one operation does -/

theorem load (h : Sound env c trace) {bytes : UInt64} (hs : c.tenants p = some s)
    (hproper : (c.used r s).toNat + bytes.toNat < 2 ^ 64)
    : Sound env c (.checked r p bytes (c.used r s + bytes > limit env r p)
        (decide ((c.used r s).toNat + bytes.toNat ≥ 2 ^ 64)) :: trace) := by
  have hfits : decide ((c.used r s).toNat + bytes.toNat ≥ 2 ^ 64) = false := by
    apply decide_eq_false
    omega
  rw [hfits]
  apply h.checked
  have hstored := h.stored r p s hs
  rw [decide_eq_true_eq, gt_iff_lt, UInt64.lt_iff_toNat_lt, UInt64.toNat_add, Nat.mod_eq_of_lt hproper]
  omega

theorem add (h : Sound env c trace) {bytes : UInt64} (hs : c.tenants p = some s)
    (hproper : (c.used r s).toNat + bytes.toNat < 2 ^ 64)
    : Sound env (c.setUsed r s (c.used r s + bytes)) (.recorded r p bytes.toNat
        (decide ((c.used r s).toNat + bytes.toNat ≥ 2 ^ 64)) :: trace) := by
  have hfits : decide ((c.used r s).toNat + bytes.toNat ≥ 2 ^ 64) = false := by
    apply decide_eq_false
    omega
  rw [hfits]
  apply h.recorded hs
  have hstored := h.stored r p s hs
  rw [UInt64.toNat_add, Nat.mod_eq_of_lt hproper]
  omega

/--
The counter has the bytes a decrement takes away also where other decrements came between its load and itself:
otherwise the usage would fall below zero.
-/
theorem subtract (h : Sound env c trace) {delta : Int64} {loaded : UInt64} (hs : c.tenants p = some s)
    (hneg : delta.toInt < 0) (hloaded : absDelta delta ≤ loaded) (hmin : delta ≠ Int64.minValue)
    (htrue : 0 ≤ delta.toInt + usage .storage p trace)
    : Sound env (c.setUsed .storage s (c.used .storage s - min (absDelta delta) loaded))
        (.recorded .storage p delta.toInt
          (decide (delta = Int64.minValue) || decide (c.used .storage s < min (absDelta delta) loaded)) :: trace) := by
  have hmin' : min (absDelta delta) loaded = absDelta delta := if_pos hloaded
  have habs := toNat_absDelta hneg hmin
  have hstored := h.stored .storage p s hs
  have hle : absDelta delta ≤ c.used .storage s := by
    rw [UInt64.le_iff_toNat_le]
    omega
  rw [hmin', decide_eq_false hmin, decide_eq_false (UInt64.not_lt.mpr hle), Bool.or_false]
  apply h.recorded hs
  rw [UInt64.toNat_sub_of_le _ _ hle]
  omega

end Sound

theorem operate_sound {task : Task} {e : Event} {next : Option Task} (h : Sound env c trace) (hok : task.Ok c)
    (hproper : task.Proper c) (htrue : ∀ r p, 0 ≤ usage r p (e :: trace))
    (hrun : operate env task c = some (e, next, c'))
    : Sound env c' (e :: trace) ∧ (∀ p s, c.tenants p = some s → c'.tenants p = some s) ∧ ∀ task ∈ next, task.Ok c' := by
  cases task with
  | get r p bytes =>
    simp only [operate] at hrun
    split at hrun
    . next s hs =>
      cases hrun
      exact ⟨h.quiet, fun _ _ h => h, by rintro _ ⟨⟩; exact hs⟩
    . cases hrun
      exact ⟨h.quiet, fun _ _ h => h, by rintro _ ⟨⟩; trivial⟩
  | insert r p bytes =>
    simp only [operate] at hrun
    split at hrun
    . cases hrun
      refine ⟨(h.insertState hproper).quiet, ?_, ?_⟩
      . intro q s hs
        have hne : q ≠ p := by
          rintro rfl
          rw [Task.Proper, hs] at hproper
          cases hproper
        simp only [Counters.insertState, Function.update_of_ne hne, hs]
      . rintro _ ⟨⟩
        simp only [Task.Ok, Counters.insertState, Function.update_self]
    . cases hrun
  | load r p bytes s =>
    simp only [operate, Option.some.injEq] at hrun
    cases hrun
    exact ⟨h.load hok hproper, fun _ _ h => h, nofun⟩
  | getStorage p delta =>
    simp only [operate] at hrun
    split at hrun
    . next s hs =>
      split at hrun
      . next hge =>
        cases hrun
        have hnonneg : 0 ≤ delta.toInt := Int64.le_iff_toInt_le.mp hge
        exact ⟨(h.guard p).quiet, fun _ _ h => h, by rintro _ ⟨⟩; exact ⟨hs, toNat_toUInt64 hnonneg⟩⟩
      . next hge =>
        cases hrun
        have hneg : delta.toInt < 0 := by
          rw [ge_iff_le, Int64.not_le, Int64.lt_iff_toInt_lt] at hge
          exact hge
        exact ⟨(h.guard p).quiet, fun _ _ h => h, by rintro _ ⟨⟩; exact ⟨hs, hneg⟩⟩
    . next hnone => exact absurd hnone hproper
  | getBandwidth p bytes =>
    simp only [operate] at hrun
    split at hrun
    . next s hs =>
      cases hrun
      exact ⟨(h.guard p).quiet, fun _ _ h => h, by rintro _ ⟨⟩; exact ⟨hs, rfl⟩⟩
    . next hnone => exact absurd hnone hproper
  | add r p s bytes change =>
    simp only [operate, Option.some.injEq] at hrun
    cases hrun
    rw [← hok.2]
    exact ⟨(h.add hok.1 hproper).unguard p, fun _ _ h => h, nofun⟩
  | clamp p s delta =>
    simp only [operate, Option.some.injEq] at hrun
    cases hrun
    exact ⟨h.quiet, fun _ _ h => h, by rintro _ ⟨⟩; exact ⟨hok.1, hok.2, hproper⟩⟩
  | subtract p s delta loaded =>
    simp only [operate, Option.some.injEq] at hrun
    cases hrun
    have htrue := htrue .storage p
    simp only [usage_cons, Event.change, and_self, if_true] at htrue
    exact ⟨(h.subtract hok.1 hok.2.1 hok.2.2 hproper htrue).unguard p, fun _ _ h => h, nofun⟩

/--
The counters are exact and every task is as its operation needs it.
-/
structure Inv (env : Env) (w : World) : Prop where
  sound : Sound env w.state.counters w.trace
  tasks : ∀ t task, w.state.tasks t = some task → task.Ok w.state.counters

theorem Inv.spawn {st : State} (h : Inv env ⟨st, trace⟩) {task : Task} (hok : task.Ok st.counters)
    : Inv env ⟨st.spawn task, .quiet :: trace⟩ := by
  refine ⟨h.sound.quiet, ?_⟩
  intro t task' ht
  simp only [State.spawn, Function.update_apply] at ht
  split at ht
  . cases ht
    exact hok
  . exact h.tasks t task' ht

theorem Inv.check {st : State} (h : Inv env ⟨st, trace⟩) {bytes : UInt64}
    (hproper : Proper env ⟨st, trace⟩ (.check r p bytes))
    : Inv env ⟨(startCheck env r p bytes st).2, (startCheck env r p bytes st).1 :: trace⟩ := by
  unfold startCheck
  split
  . next hmax =>
    rw [beq_iff_eq] at hmax
    refine ⟨h.sound.checked ?_, h.tasks⟩
    -- without a limit nothing is refused, and the usage of the project leaves room for the bytes
    have hlt : st.counters.usedBy r p + bytes.toNat < 2 ^ 64 := hproper hmax
    have hlimit : (limit env r p).toNat = 2 ^ 64 - 1 := by
      rw [hmax]
      rfl
    have husage : usage r p trace = st.counters.usedBy r p := by
      unfold Counters.usedBy
      cases hs : st.counters.tenants p with
      | none => exact h.sound.absent r p hs
      | some s => exact (h.sound.stored r p s hs).symm
    constructor
    . nofun
    . intro hgt
      simp only [husage] at hgt
      omega
  . exact h.spawn trivial

theorem Inv.step {m : Move} {w : World} {e : Event} {st : State} (h : Inv env w) (htrue : TrueUsage env w m)
    (hproper : Proper env w m) (hstep : step env m w.state = some (e, st)) : Inv env ⟨st, e :: w.trace⟩ := by
  have htrue := htrue e st hstep
  cases m with
  | check r p bytes =>
    simp only [Usage.step, Option.some.injEq] at hstep
    have := h.check hproper
    rw [hstep] at this
    exact this
  | recordStorageChange p delta =>
    cases hstep
    exact h.spawn trivial
  | recordBandwidth p bytes =>
    cases hstep
    exact h.spawn trivial
  | run t =>
    simp only [Usage.step, Option.bind_eq_bind, Option.bind_eq_some_iff] at hstep
    obtain ⟨task, htask, ⟨e', next, counters⟩, hrun, heq⟩ := hstep
    cases heq
    obtain ⟨hsound, hmono, hnext⟩ :=
      operate_sound h.sound (h.tasks t task htask) (hproper task htask) htrue hrun
    refine ⟨hsound, ?_⟩
    intro t' task' ht'
    simp only [Function.update_apply] at ht'
    split at ht'
    . exact hnext task' ht'
    . exact (h.tasks t' task' ht').mono hmono

theorem Inv.of_reached {w : World} (h : (machine env).Reached (fun w m => TrueUsage env w m ∧ Proper env w m) w)
    : Inv env w := by
  apply h.invariant (P := Inv env)
  . exact ⟨.init env, fun _ _ h => by cases h⟩
  . intro m w e st hinv hok hstep
    exact hinv.step hok.1 hok.2 hstep

theorem usageExact_of_proper (env : Env)
    : UsageExact env (fun w m => TrueUsage env w m ∧ Proper env w m) := by
  intro w h
  exact (Inv.of_reached h).sound.toExact

end Reactor.Server.Quota.Usage
