import Mathlib.Algebra.BigOperators.Group.Finset.Piecewise
import ReactorCloud.Interleave.Machine
import ReactorCloud.Rust.Decimal15

/-!
This module contains the token bucket of the quota service, what a limit of requests owes to its callers and
the moves under which the bucket keeps it. Every operation on the clock and on the two atomics is one step of a task.
-/

namespace Reactor.Server.Quota.Bucket

open Interleave (Machine)

/--
The parts of a bucket that do not change.
-/
structure TokenBucket where
  capacity : UInt64
  refillRate : UInt64

/--
`q as u64` for a double that is not negative.
-/
def asU64 (q : Rat) : UInt64 :=
  UInt64.ofNat (min ⌊q⌋.toNat (2 ^ 64 - 1))

def TokenBucket.new (capacity : UInt32) (refillRatePerSec : Rat) : TokenBucket where
  capacity := capacity.toUInt64 * 1000
  refillRate := asU64 (Rust.F64.nearest (refillRatePerSec * 1000))

def forRequestsPerMinute (rpm : UInt32) : TokenBucket :=
  let burst := rpm / 6
  let refillRate := Rust.F64.nearest (Rust.F64.nearest rpm.toNat / 60)
  .new (max burst 1) refillRate

/--
The atomics, and the milliseconds the next reading of the clock gives.
-/
structure Cells where
  tokens : UInt64
  lastRefill : UInt64
  clock : UInt64

/--
A call that refills. A request is known by the time it began at.
-/
inductive Call where
  | tryConsume (begun : UInt64)
  | available

/--
The operation a task comes to next.
-/
inductive Task where
  /-- `now_millis` -/
  | now (call : Call)
  /-- the load of `last_refill` -/
  | last (call : Call) (now : UInt64)
  /-- `compare_exchange` of `last_refill` -/
  | swapLast (call : Call) (now last tokensToAdd : UInt64)
  /-- the load of `tokens` in `refill` -/
  | loadAdd (call : Call) (tokensToAdd : UInt64)
  /-- `compare_exchange_weak` in `refill` -/
  | swapAdd (call : Call) (tokensToAdd current : UInt64)
  /-- the load of `tokens` behind `refill` -/
  | load (call : Call)
  /-- `compare_exchange_weak` in `try_consume` -/
  | swap (begun current : UInt64)
  /-- the load of `tokens` in `retry_after` -/
  | retryAfter

inductive Event where
  | quiet
  /-- a division by zero or an overflow -/
  | fault
  | available (tokens : UInt32)
  | admitted (clock : UInt64)
  | refused (begun : UInt64)
  | retryAfter (secs clock : UInt64)
  deriving DecidableEq

def checked (inRange : Bool) : Event :=
  if inRange then .quiet else .fault

/--
What the operation answers, where the task goes and what the cells become.
-/
def operate (bucket : TokenBucket) (task : Task) (spurious : Bool) (c : Cells) : Event × Option Task × Cells :=
  match task with
  | .now call => (.quiet, some (.last call c.clock), c)
  | .last call now =>
    if now ≤ c.lastRefill then
      (.quiet, some (.load call), c)
    else
      let elapsedMs := now - c.lastRefill
      let tokensToAdd := elapsedMs * bucket.refillRate / 1000
      (checked (decide (elapsedMs.toNat * bucket.refillRate.toNat < 2 ^ 64)),
        some (if tokensToAdd = 0 then .load call else .swapLast call now c.lastRefill tokensToAdd), c)
  | .swapLast call now last tokensToAdd =>
    if c.lastRefill = last then
      (.quiet, some (.loadAdd call tokensToAdd), { c with lastRefill := now })
    else
      (.quiet, some (.load call), c)
  | .loadAdd call tokensToAdd => (.quiet, some (.swapAdd call tokensToAdd c.tokens), c)
  | .swapAdd call tokensToAdd current =>
    let new := min (current + tokensToAdd) bucket.capacity
    let event := checked (decide (current.toNat + tokensToAdd.toNat < 2 ^ 64))
    if c.tokens = current ∧ spurious = false then
      (event, some (.load call), { c with tokens := new })
    else
      (event, some (.loadAdd call tokensToAdd), c)
  | .load .available => (.available (c.tokens / 1000).toUInt32, none, c)
  | .load (.tryConsume begun) =>
    if c.tokens < 1000 then (.refused begun, none, c) else (.quiet, some (.swap begun c.tokens), c)
  | .swap begun current =>
    if c.tokens = current ∧ spurious = false then
      (.admitted c.clock, none, { c with tokens := current - 1000 })
    else
      (.quiet, some (.load (.tryConsume begun)), c)
  | .retryAfter =>
    if c.tokens ≥ 1000 then
      (.retryAfter 0 c.clock, none, c)
    else
      let needed := 1000 - c.tokens
      if bucket.refillRate = 0 ∨ 2 ^ 64 ≤ needed.toNat + bucket.refillRate.toNat then
        (.fault, none, c)
      else
        (.retryAfter (max ((needed + bucket.refillRate - 1) / bucket.refillRate) 1) c.clock, none, c)

/--
The numbers from `nextTask` on are not in use.
-/
structure State where
  cells : Cells
  tasks : Nat → Option Task
  nextTask : Nat

/--
The clock does not go back. A weak exchange can fail without a reason.
-/
inductive Move where
  | tick (clock : UInt64)
  | tryConsume
  | available
  | retryAfter
  | run (t : Nat) (spurious : Bool)

namespace State

def spawn (st : State) (task : Task) : State :=
  { st with tasks := Function.update st.tasks st.nextTask (some task), nextTask := st.nextTask + 1 }

def goTo (st : State) (t : Nat) (next : Option Task) (c : Cells) : State :=
  { st with cells := c, tasks := Function.update st.tasks t next }

end State

def step (bucket : TokenBucket) : Move → State → Option (Event × State)
  | .tick clock, st =>
    if st.cells.clock ≤ clock then some (.quiet, { st with cells := { st.cells with clock := clock } }) else none
  | .tryConsume, st => some (.quiet, st.spawn (.now (.tryConsume st.cells.clock)))
  | .available, st => some (.quiet, st.spawn (.now .available))
  | .retryAfter, st => some (.quiet, st.spawn .retryAfter)
  | .run t spurious, st =>
    (st.tasks t).map fun task =>
      let (e, next, c) := operate bucket task spurious st.cells
      (e, st.goTo t next c)

/--
A bucket that is made at the time `start`.
-/
def machine (bucket : TokenBucket) (start : UInt64) : Machine State Move Event where
  start := ⟨⟨bucket.capacity, start, start⟩, fun _ => none, 0⟩
  step := step bucket

abbrev requests (rpm : UInt32) (start : UInt64) : Machine State Move Event :=
  machine (forRequestsPerMinute rpm) start

abbrev World : Type :=
  Machine.World State Event

/-! ## What is claimed -/

/--
The requests admitted from the time `a` to the time `b`.
-/
def admittedIn (a b : Nat) (trace : List Event) : Nat :=
  trace.countP fun e =>
    match e with
    | .admitted clock => decide (a ≤ clock.toNat ∧ clock.toNat ≤ b)
    | _ => false

/--
At the time `clock` somebody was told to come back, and nothing has been consumed since.
-/
def Waiting (secs clock : UInt64) : List Event → Prop
  | [] => False
  | e :: trace => (e = .retryAfter secs clock ∧ secs ≠ 0) ∨ ((∀ clock, e ≠ .admitted clock) ∧ Waiting secs clock trace)

/--
A request that began at the time `begun` comes back when it was told to, or later.
-/
def Due (trace : List Event) (begun : UInt64) : Prop :=
  ∃ secs clock, Waiting secs clock trace ∧ clock.toNat + 1000 * secs.toNat ≤ begun.toNat

def RetriesSucceed : List Event → Prop
  | [] => True
  | e :: trace => (∀ begun, e = .refused begun → ¬ Due trace begun) ∧ RetriesSucceed trace

structure Limits (rpm : UInt32) (w : World) : Prop where
  noFault : .fault ∉ w.trace
  admitted : ∀ a b, a ≤ b →
    60000 * admittedIn a b w.trace ≤ 60000 * max 1 (rpm.toNat / 6) + (b - a) * rpm.toNat + 60000
  stored : w.state.cells.tokens ≤ (forRequestsPerMinute rpm).capacity
  retries : RetriesSucceed w.trace

def Task.Requests (begun : UInt64) : Task → Prop
  | .now call | .last call _ | .swapLast call _ _ _ | .loadAdd call _ | .swapAdd call _ _ | .load call =>
    call = .tryConsume begun
  | .swap begun' _ => begun' = begun
  | .retryAfter => False

/--
The next move of the task `t` with an exchange that does not fail without a reason.
-/
abbrev solo (t : Nat) : Move :=
  .run t false

/--
The task `t` is admitted within `n` moves of its own when nobody else moves.
-/
def Admits (bucket : TokenBucket) (start : UInt64) (t n : Nat) (w : World) : Prop :=
  ∃ k ≤ n, ∃ w', (machine bucket start).run (List.replicate k (solo t)) w = some w'
    ∧ ∃ clock, w'.trace.head? = some (.admitted clock)

structure KeepsLimits (rpm : UInt32) (start : UInt64) (ok : World → Move → Prop) : Prop where
  limits : ∀ w, (requests rpm start).Reached ok w → Limits rpm w
  /-- Who comes back gets a token. -/
  granted : ∀ w, (requests rpm start).Reached ok w → ∀ t task begun, w.state.tasks t = some task →
    task.Requests begun → Due w.trace begun → (requests rpm start).Along ok (List.replicate 7 (solo t)) w →
    Admits (forRequestsPerMinute rpm) start t 7 w

theorem forRequestsPerMinute_zero : forRequestsPerMinute 0 = ⟨1000, 0⟩ := by
  have hzero : Rust.F64.nearest 0 = 0 := by
    rw [Rust.F64.nearest, if_neg (lt_irrefl 0), Rust.F64.roundPos_zero]
  simp [forRequestsPerMinute, TokenBucket.new, hzero, asU64]
  rfl

/--
The only token of a bucket for no requests is taken, and `retry_after` divides by its rate.
-/
theorem not_keepsLimits : ¬ ∀ rpm start, KeepsLimits rpm start (fun _ _ => True) := by
  intro h
  let ms : List Move := [.tryConsume, .run 0 false, .run 0 false, .run 0 false, .run 0 false, .retryAfter, .run 1 false]
  have hmachine : requests 0 0 = ⟨⟨⟨1000, 0, 0⟩, fun _ => none, 0⟩, step ⟨1000, 0⟩⟩ := by
    rw [requests, machine, forRequestsPerMinute_zero]
  have hrun : ((requests 0 0).run ms (requests 0 0).first).any (fun w => w.trace.contains .fault) = true := by
    rw [hmachine]
    decide
  obtain ⟨w, hw, hfault⟩ := Interleave.Machine.reached_of_any hrun
  exact ((h 0 0).limits w hw).noFault (List.contains_iff_mem.mp hfault)

/-! ## When it holds -/

/--
The tokens a refill that is under way still has to add.
-/
def Task.pending : Task → Nat
  | .loadAdd _ tokensToAdd | .swapAdd _ tokensToAdd _ => tokensToAdd.toNat
  | _ => 0

def pendingAt (tasks : Nat → Option Task) (t : Nat) : Nat :=
  ((tasks t).map Task.pending).getD 0

namespace State

def pending (st : State) : Nat :=
  ∑ t ∈ Finset.range st.nextTask, pendingAt st.tasks t

end State

/--
The tokens in thousandths, also those that are still to be added, and the times in milliseconds.
-/
structure Account where
  funds : Nat
  last : Nat
  clock : Nat

/--
The funds and what has come in since the last refill, in millionths of a token.
-/
def Account.worth (a : Account) (rate : Nat) : Nat :=
  1000 * a.funds + (a.clock - a.last) * rate

def State.account (st : State) : Account :=
  ⟨st.cells.tokens.toNat + st.pending, st.cells.lastRefill.toNat, st.cells.clock.toNat⟩

/--
A product that fits, a refill that is exact or not before anybody comes back, a refill that leaves nothing to another
one that comes back, no refusal of one that comes back with a refill under way, no admission with more than one token
above the capacity, and a rate.
-/
def Task.Proper (bucket : TokenBucket) (w : World) : Task → Prop
  | .last _ time => (time.toNat - w.state.cells.lastRefill.toNat) * bucket.refillRate.toNat < 2 ^ 64
  | .swapLast call time old _ =>
    if w.state.cells.lastRefill = old then
      ∀ secs clock, Waiting secs clock w.trace →
        clock.toNat + 1000 * secs.toNat ≤ time.toNat
          ∨ 1000 ∣ (time.toNat - old.toNat) * bucket.refillRate.toNat
    else
      ∀ begun, call = .tryConsume begun → Due w.trace begun →
        (begun.toNat - w.state.cells.lastRefill.toNat) * bucket.refillRate.toNat < 1000
  | .load (.tryConsume begun) => w.state.cells.tokens < 1000 → Due w.trace begun → w.state.pending = 0
  | .swap _ current =>
    w.state.cells.tokens = current → w.state.account.worth bucket.refillRate.toNat ≤ 1000 * bucket.capacity.toNat + 1000000
  | .retryAfter => w.state.cells.tokens < 1000 → bucket.refillRate ≠ 0
  | .now .. | .loadAdd .. | .swapAdd .. | .load .available => True

def Proper (rpm : UInt32) (w : World) : Move → Prop
  | .run t _ => ∀ task ∈ w.state.tasks t, task.Proper (forRequestsPerMinute rpm) w
  | .tick _ | .tryConsume | .available | .retryAfter => True

/-! Numbers -/

open Rust.F64 in
/--
A double is off by at most one part in `2 ^ 53`.
-/
theorem abs_sub_nearest_le_div {q : Rat} (hq : 1 / 60 ≤ q) : |q - nearest q| ≤ q / 2 ^ 53 := by
  have hpos : 0 < q := by linarith
  have hexp : -1074 < ulpExp q := by
    by_contra hle
    have hlt := lt_pow_ulpExp (q := q)
    have hpow : (2 : Rat) ^ ulpExp q ≤ 2 ^ (-60 : Int) := zpow_le_zpow_right₀ (by norm_num) (by omega)
    have hsmall : (2 : Rat) ^ 53 * 2 ^ (-60 : Int) ≤ 1 / 60 := by norm_num
    have hle := mul_le_mul_of_nonneg_left hpow (by norm_num : (0 : Rat) ≤ 2 ^ 53)
    exact absurd (hlt.trans_le (hle.trans (hsmall.trans hq))) (lt_irrefl q)
  have hunit := pow_ulpExp_le hpos hexp
  have hround := abs_sub_roundEven_mul_le q (two_zpow_pos (ulpExp q))
  rw [nearest, if_neg (not_lt.mpr hpos.le), roundPos]
  have hhalf : (2 : Rat) ^ ulpExp q / 2 ≤ q / 2 ^ 53 := by
    rw [div_le_div_iff₀ (by norm_num) (by norm_num)]
    linarith
  exact hround.trans hhalf

open Rust.F64 in
theorem nearest_natCast {n : Nat} (hn : n < 2 ^ 53) : nearest n = n := by
  rw [nearest, if_neg (not_lt.mpr (Nat.cast_nonneg n))]
  rcases Nat.eq_zero_or_pos n with rfl | hpos
  . rw [Nat.cast_zero, roundPos_zero]
  . have hcast : (0 : Rat) < n := by exact_mod_cast hpos
    have hlt : (n : Rat) < 2 ^ 53 * 2 ^ (0 : Int) := by
      rw [zpow_zero, mul_one]
      exact_mod_cast hn
    obtain ⟨m, hm⟩ := exists_mul_zpow (ulpExp_le_of_lt hcast (by decide) hlt) n
    rw [zpow_zero, mul_one] at hm
    apply roundPos_eq_self (n := m)
    exact_mod_cast hm

theorem toNat_asU64 {q : Rat} (hq : 0 ≤ q) : ((asU64 q).toNat : Rat) ≤ q := by
  have hle : (asU64 q).toNat ≤ ⌊q⌋.toNat := by
    rw [asU64, UInt64.toNat_ofNat', Nat.mod_eq_of_lt (by omega)]
    exact Nat.min_le_left _ _
  have hfloor := Int.floor_le q
  have hcast : ((⌊q⌋.toNat : Int) : Rat) = ⌊q⌋ := by
    rw [Int.toNat_of_nonneg (Int.floor_nonneg.mpr hq)]
  calc ((asU64 q).toNat : Rat)
    _ ≤ (⌊q⌋.toNat : Nat) := by exact_mod_cast hle
    _ = ⌊q⌋ := by exact_mod_cast hcast
    _ ≤ q := hfloor

/--
The rate is cut off, so that the two roundings before do not bring it above `rpm / 60`.
-/
theorem refillRate_le (rpm : UInt32) : 3 * (forRequestsPerMinute rpm).refillRate.toNat ≤ 50 * rpm.toNat := by
  have hlt := rpm.toNat_lt
  by_cases hzero : rpm.toNat = 0
  . have : rpm = 0 := UInt32.toNat_inj.mp hzero
    rw [this, forRequestsPerMinute_zero]
    decide
  . have hone : (1 : Rat) ≤ rpm.toNat := by exact_mod_cast Nat.one_le_iff_ne_zero.mpr hzero
    have hmost : (rpm.toNat : Rat) ≤ 2 ^ 32 := by exact_mod_cast hlt.le
    have hexact : Rust.F64.nearest (rpm.toNat : Rat) = rpm.toNat := nearest_natCast (by omega)
    have hsec := abs_le.mp (abs_sub_nearest_le_div (q := (rpm.toNat : Rat) / 60) (by linarith))
    rw [forRequestsPerMinute, TokenBucket.new]
    simp only [hexact]
    generalize Rust.F64.nearest ((rpm.toNat : Rat) / 60) = perSec at *
    have hmilli := abs_le.mp (abs_sub_nearest_le_div (q := perSec * 1000) (by linarith))
    generalize Rust.F64.nearest (perSec * 1000) = perSecScaled at *
    have hrate := toNat_asU64 (q := perSecScaled) (by linarith)
    have hlt : (3 * (asU64 perSecScaled).toNat : Rat) < 50 * rpm.toNat + 1 := by linarith
    have hlt : 3 * (asU64 perSecScaled).toNat < 50 * rpm.toNat + 1 := by exact_mod_cast hlt
    omega

theorem toNat_capacity (rpm : UInt32) : (forRequestsPerMinute rpm).capacity.toNat = 1000 * max 1 (rpm.toNat / 6) := by
  have hlt := rpm.toNat_lt
  have hdiv : (rpm / 6).toNat = rpm.toNat / 6 := UInt32.toNat_div rpm 6
  have hmax : (max (rpm / 6) 1).toNat = max 1 (rpm.toNat / 6) := by
    show (if rpm / 6 ≤ 1 then 1 else rpm / 6).toNat = _
    split
    . next hle =>
      rw [UInt32.le_iff_toNat_le, hdiv] at hle
      exact (Nat.max_eq_left hle).symm
    . next hle =>
      rw [UInt32.le_iff_toNat_le, hdiv, Nat.not_le] at hle
      rw [hdiv]
      exact (Nat.max_eq_right hle.le).symm
  simp only [forRequestsPerMinute, TokenBucket.new, UInt64.toNat_mul, UInt32.toNat_toUInt64, hmax]
  rw [Nat.mod_eq_of_lt (by simp; omega)]
  simp [Nat.mul_comm]

/-! ## The account -/

namespace Account

/--
A refill at the time `now` has to be `onTime`.
-/
inductive Moves (rate : Nat) (onTime : Nat → Prop) (a : Account) : Account → Prop where
  | rest : Moves rate onTime a a
  | tick (clock : Nat) (hle : a.clock ≤ clock) : Moves rate onTime a { a with clock := clock }
  | refill (now : Nat) (hlast : a.last < now) (hnow : now ≤ a.clock) (hok : onTime now)
    : Moves rate onTime a { a with funds := a.funds + (now - a.last) * rate / 1000, last := now }
  | cut (funds : Nat) (hle : funds ≤ a.funds) (hleft : 1000 ≤ funds) : Moves rate onTime a { a with funds := funds }

def spend (a : Account) : Account :=
  { a with funds := a.funds - 1000 }

/--
At the time `due` there is a token.
-/
def Promise (rate due : Nat) (a : Account) : Prop :=
  1000 ≤ a.funds ∨ 1000000 ≤ 1000 * a.funds + (due - a.last) * rate

variable {rate : Nat} {onTime : Nat → Prop} {a a' : Account}

theorem Moves.clock_le (h : Moves rate onTime a a') : a.clock ≤ a'.clock := by
  cases h with
  | tick _ hle => exact hle
  | rest | refill | cut => exact Nat.le_refl _

theorem Moves.last_le (h : Moves rate onTime a a') (hle : a.last ≤ a.clock) : a'.last ≤ a'.clock := by
  cases h with
  | rest => exact hle
  | tick clock htick => exact Nat.le_trans hle htick
  | refill now _ hnow => exact hnow
  | cut => exact hle

theorem sub_mul_split {x y z : Nat} (rate : Nat) (hxy : x ≤ y) (hyz : y ≤ z)
    : (z - x) * rate = (y - x) * rate + (z - y) * rate := by
  rw [← Nat.add_mul]
  congr 1
  omega

theorem Moves.worth_le (h : Moves rate onTime a a') (hle : a.last ≤ a.clock)
    : a'.worth rate ≤ a.worth rate + (a'.clock - a.clock) * rate := by
  cases h with
  | rest => exact Nat.le_add_right _ _
  | tick clock htick =>
    have := sub_mul_split rate hle htick
    simp only [worth]
    omega
  | refill now hlast hnow =>
    have hsplit := sub_mul_split rate hlast.le hnow
    have hdiv := Nat.mul_div_le ((now - a.last) * rate) 1000
    simp only [worth]
    omega
  | cut funds hless =>
    simp only [worth]
    omega

@[simp]
theorem spend_clock (a : Account) : a.spend.clock = a.clock := by
  unfold spend
  dsimp only

theorem worth_spend (rate : Nat) (h : 1000 ≤ a.funds) : a.spend.worth rate + 1000000 ≤ a.worth rate := by
  unfold worth spend
  dsimp only
  omega

/--
A promise is kept until somebody spends, when a refill before its time loses nothing.
-/
theorem Promise.moves {due : Nat} (h : Promise rate due a) (hmoves : Moves rate onTime a a')
    (hok : ∀ now, onTime now → due ≤ now ∨ 1000 ∣ (now - a.last) * rate) : Promise rate due a' := by
  cases hmoves with
  | rest => exact h
  | tick => exact h
  | cut _ _ hleft => exact .inl hleft
  | refill now hlast _ honTime =>
    rcases h with h | h
    . exact .inl (Nat.le_trans h (Nat.le_add_right _ _))
    . have hdiv := Nat.div_add_mod ((now - a.last) * rate) 1000
      have hmod := Nat.mod_lt ((now - a.last) * rate) (by decide : 0 < 1000)
      by_cases hdue : due ≤ now
      . -- the refill brings all that was to come in by then
        have hle : (due - a.last) * rate ≤ (now - a.last) * rate := Nat.mul_le_mul_right _ (by omega)
        left
        simp only
        omega
      . have hexact := Nat.mod_eq_zero_of_dvd ((hok now honTime).resolve_left hdue)
        have hsplit := sub_mul_split rate hlast.le (Nat.le_of_not_le hdue)
        right
        simp only
        omega

/--
`n` requests were admitted from the time `start` to the time `stop`.
-/
structure Window (capacity rate start stop n : Nat) (a : Account) : Prop where
  within : a.clock ≤ stop → n = 0
    ∨ (start ≤ a.clock ∧ 1000000 * n + a.worth rate ≤ 1000 * capacity + 1000000 + (a.clock - start) * rate)
  total : 1000000 * n ≤ 1000 * capacity + 1000000 + (stop - start) * rate

variable {capacity start stop n : Nat}

theorem Window.moves (h : Window capacity rate start stop n a) (hmoves : Moves rate onTime a a')
    (hle : a.last ≤ a.clock) : Window capacity rate start stop n a' := by
  refine ⟨?_, h.total⟩
  intro hstop
  have hclock := hmoves.clock_le
  have hworth := hmoves.worth_le hle
  rcases h.within (Nat.le_trans hclock hstop) with hzero | ⟨hstart, hbound⟩
  . exact .inl hzero
  . have hsplit := sub_mul_split rate hstart hclock
    right
    omega

theorem Window.spend (h : Window capacity rate start stop n a) (hfunds : 1000 ≤ a.funds)
    (hworth : a.worth rate ≤ 1000 * capacity + 1000000)
    : Window capacity rate start stop (if start ≤ a.clock ∧ a.clock ≤ stop then n + 1 else n) a.spend := by
  have hspend := worth_spend rate hfunds
  by_cases hin : start ≤ a.clock ∧ a.clock ≤ stop
  . rw [if_pos hin]
    have hbound : 1000000 * (n + 1) + a.spend.worth rate ≤ 1000 * capacity + 1000000 + (a.clock - start) * rate := by
      rcases h.within hin.2 with rfl | ⟨_, hbound⟩
      . rw [Nat.zero_add, Nat.mul_one]
        omega
      . rw [Nat.mul_add, Nat.mul_one]
        omega
    constructor
    . intro _
      rw [spend_clock]
      exact .inr ⟨hin.1, hbound⟩
    . have hsplit := sub_mul_split rate hin.1 hin.2
      omega
  . rw [if_neg hin]
    constructor
    . intro hstop
      rw [spend_clock] at hstop
      rcases h.within hstop with hzero | ⟨hstart, _⟩
      . exact .inl hzero
      . exact absurd ⟨hstart, hstop⟩ hin
    . exact h.total

end Account

/-! What one operation does -/

def Call.Begun (call : Call) (time : UInt64) : Prop :=
  ∀ begun, call = .tryConsume begun → begun.toNat ≤ time.toNat

/--
A call that comes back has nothing to refill up to the time it began at.
-/
def Call.Quenched (bucket : TokenBucket) (trace : List Event) (c : Cells) (call : Call) : Prop :=
  ∀ begun, call = .tryConsume begun → begun.toNat ≤ c.clock.toNat
    ∧ (Due trace begun → (begun.toNat - c.lastRefill.toNat) * bucket.refillRate.toNat < 1000)

def Task.Ok (bucket : TokenBucket) (trace : List Event) (c : Cells) : Task → Prop
  | .now call => call.Begun c.clock
  | .last call time => time.toNat ≤ c.clock.toNat ∧ call.Begun time
  | .swapLast call time old tokensToAdd =>
    time.toNat ≤ c.clock.toNat ∧ call.Begun time ∧ old.toNat < time.toNat
      ∧ tokensToAdd.toNat = (time.toNat - old.toNat) * bucket.refillRate.toNat / 1000
      ∧ tokensToAdd.toNat ≤ 2 ^ 64 / 1000
  | .loadAdd call tokensToAdd => call.Quenched bucket trace c ∧ tokensToAdd.toNat ≤ 2 ^ 64 / 1000
  | .swapAdd call tokensToAdd current =>
    call.Quenched bucket trace c ∧ tokensToAdd.toNat ≤ 2 ^ 64 / 1000 ∧ current.toNat ≤ bucket.capacity.toNat
  | .load call => call.Quenched bucket trace c
  | .swap begun current => (Call.tryConsume begun).Quenched bucket trace c ∧ 1000 ≤ current.toNat
  | .retryAfter => True

variable {bucket : TokenBucket} {st : State} {c c' : Cells} {trace : List Event} {e : Event} {t : Nat}

/--
Who began before the clock reads what it reads now is not told to come back by an answer of now.
-/
theorem Due.of_cons {begun : UInt64} (h : Due (e :: trace) begun)
    (he : ∀ secs clock, e = .retryAfter secs clock → begun.toNat ≤ clock.toNat) : Due trace begun := by
  obtain ⟨secs, clock, hwaiting, hdue⟩ := h
  rcases hwaiting with ⟨rfl, hsecs⟩ | ⟨_, hwaiting⟩
  . have hle := he secs clock rfl
    have hpos : secs.toNat ≠ 0 := fun hzero => hsecs (UInt64.toNat_inj.mp hzero)
    omega
  . exact ⟨secs, clock, hwaiting, hdue⟩

theorem Call.Quenched.mono {call : Call} (h : call.Quenched bucket trace c)
    (he : ∀ secs clock, e = .retryAfter secs clock → clock = c.clock)
    (hclock : c.clock.toNat ≤ c'.clock.toNat) (hlast : c.lastRefill.toNat ≤ c'.lastRefill.toNat)
    : call.Quenched bucket (e :: trace) c' := by
  intro begun heq
  obtain ⟨hbegun, hdue⟩ := h begun heq
  refine ⟨Nat.le_trans hbegun hclock, ?_⟩
  intro hcons
  have hlt := hdue (hcons.of_cons fun secs clock hevent => by rw [he secs clock hevent]; exact hbegun)
  exact Nat.lt_of_le_of_lt (Nat.mul_le_mul_right _ (by omega)) hlt

theorem Task.Ok.mono {task : Task} (h : task.Ok bucket trace c)
    (he : ∀ secs clock, e = .retryAfter secs clock → clock = c.clock)
    (hclock : c.clock.toNat ≤ c'.clock.toNat) (hlast : c.lastRefill.toNat ≤ c'.lastRefill.toNat)
    : task.Ok bucket (e :: trace) c' := by
  cases task with
  | now call => exact fun begun heq => Nat.le_trans (h begun heq) hclock
  | last call now => exact ⟨Nat.le_trans h.1 hclock, h.2⟩
  | swapLast call now last tokensToAdd => exact ⟨Nat.le_trans h.1 hclock, h.2⟩
  | loadAdd call tokensToAdd => exact ⟨h.1.mono he hclock hlast, h.2⟩
  | swapAdd call tokensToAdd current => exact ⟨h.1.mono he hclock hlast, h.2⟩
  | load call => exact Call.Quenched.mono h he hclock hlast
  | swap begun current => exact ⟨h.1.mono he hclock hlast, h.2⟩
  | retryAfter => trivial

/-! Pending tokens -/

theorem pending_goTo {task : Task} (ht : st.tasks t = some task) (hlt : t < st.nextTask) (next : Option Task) (c : Cells)
    : (st.goTo t next c).pending + task.pending = st.pending + (next.map Task.pending).getD 0 := by
  have hmem := Finset.mem_range.mpr hlt
  have hupdate : pendingAt (Function.update st.tasks t next)
      = Function.update (pendingAt st.tasks) t ((next.map Task.pending).getD 0) := by
    funext x
    by_cases hx : x = t
    . subst hx
      simp [pendingAt]
    . simp [pendingAt, Function.update_of_ne hx]
  have htask : pendingAt st.tasks t = task.pending := by
    rw [pendingAt, ht]
    rfl
  simp only [State.pending, State.goTo, hupdate, Finset.sum_update_of_mem hmem]
  rw [Finset.sum_eq_add_sum_sdiff_singleton_of_mem hmem (pendingAt st.tasks), htask]
  omega

theorem pending_spawn {task : Task} (h : task.pending = 0) : (st.spawn task).pending = st.pending := by
  have hlast : pendingAt (Function.update st.tasks st.nextTask (some task)) st.nextTask = 0 := by
    simp [pendingAt, h]
  simp only [State.pending, State.spawn, Finset.sum_range_succ, hlast, Nat.add_zero]
  apply Finset.sum_congr rfl
  intro x hx
  rw [pendingAt, Function.update_of_ne (Finset.mem_range.mp hx).ne, pendingAt]

/-! The operations -/

/--
A refill at the time `now` is exact or not before anybody comes back.
-/
def OnTime (bucket : TokenBucket) (trace : List Event) (c : Cells) (now : Nat) : Prop :=
  ∀ secs clock, Waiting secs clock trace →
    clock.toNat + 1000 * secs.toNat ≤ now ∨ 1000 ∣ (now - c.lastRefill.toNat) * bucket.refillRate.toNat

/--
What the cells and the promises made to those who wait have in every run.
-/
structure Sound (bucket : TokenBucket) (st : State) (trace : List Event) : Prop where
  last_le : st.cells.lastRefill.toNat ≤ st.cells.clock.toNat
  stored : st.cells.tokens.toNat ≤ bucket.capacity.toNat
  promised : ∀ secs clock, Waiting secs clock trace →
    st.account.Promise bucket.refillRate.toNat (clock.toNat + 1000 * secs.toNat)

/--
What an operation of the task `t` that comes to the given end keeps.
-/
structure Operated (bucket : TokenBucket) (st : State) (trace : List Event) (t : Nat) (e : Event) (next : Option Task)
    (c : Cells) : Prop where
  account : ((∀ clock, e ≠ .admitted clock)
      ∧ st.account.Moves bucket.refillRate.toNat (OnTime bucket trace st.cells) (st.goTo t next c).account)
    ∨ (e = .admitted st.cells.clock ∧ 1000 ≤ st.account.funds
      ∧ st.account.worth bucket.refillRate.toNat ≤ 1000 * bucket.capacity.toNat + 1000000
      ∧ (st.goTo t next c).account = st.account.spend)
  clock : c.clock = st.cells.clock
  last_le : st.cells.lastRefill.toNat ≤ c.lastRefill.toNat
  stored : c.tokens.toNat ≤ bucket.capacity.toNat
  noFault : e ≠ .fault
  refused : ∀ begun, e = .refused begun → ¬ Due trace begun
  answered : ∀ secs clock, e = .retryAfter secs clock → clock = st.cells.clock
    ∧ (st.goTo t next c).account.Promise bucket.refillRate.toNat (clock.toNat + 1000 * secs.toNat)
  next : ∀ task ∈ next, task.Ok bucket (e :: trace) c

section

variable {task : Task} {next : Option Task} {call : Call} {now old tokensToAdd current begun : UInt64}

theorem account_goTo (ht : st.tasks t = some task) (hlt : t < st.nextTask)
    (hpending : (next.map Task.pending).getD 0 = task.pending) : (st.goTo t next st.cells).account = st.account := by
  have := pending_goTo ht hlt next st.cells
  have hsame : (st.goTo t next st.cells).pending = st.pending := by omega
  simp only [State.account, hsame]
  rfl

/--
An operation that leaves the cells as they are.
-/
theorem Sound.stay (h : Sound bucket st trace) (ht : st.tasks t = some task) (hlt : t < st.nextTask)
    (hpending : (next.map Task.pending).getD 0 = task.pending) (hadmitted : ∀ clock, e ≠ .admitted clock)
    (hfault : e ≠ .fault) (hrefused : ∀ begun, e = .refused begun → ¬ Due trace begun)
    (hanswered : ∀ secs clock, e = .retryAfter secs clock → clock = st.cells.clock
      ∧ st.account.Promise bucket.refillRate.toNat (clock.toNat + 1000 * secs.toNat))
    (hnext : ∀ task ∈ next, task.Ok bucket (e :: trace) st.cells)
    : Operated bucket st trace t e next st.cells where
  account := by
    left
    rw [account_goTo ht hlt hpending]
    exact ⟨hadmitted, .rest⟩
  clock := rfl
  last_le := Nat.le_refl _
  stored := h.stored
  noFault := hfault
  refused := hrefused
  answered := by
    rw [account_goTo ht hlt hpending]
    exact hanswered
  next := hnext

theorem Sound.quiet (h : Sound bucket st trace) (ht : st.tasks t = some task) (hlt : t < st.nextTask)
    (hpending : (next.map Task.pending).getD 0 = task.pending)
    (hnext : ∀ task ∈ next, task.Ok bucket trace st.cells) : Operated bucket st trace t .quiet next st.cells := by
  apply h.stay (e := .quiet) ht hlt hpending nofun nofun nofun nofun
  intro task' htask'
  exact (hnext task' htask').mono nofun (Nat.le_refl _) (Nat.le_refl _)

theorem Sound.readClock (h : Sound bucket st trace) (ht : st.tasks t = some (.now call)) (hlt : t < st.nextTask)
    (hok : (Task.now call).Ok bucket trace st.cells)
    : Operated bucket st trace t .quiet (some (.last call st.cells.clock)) st.cells := by
  apply h.quiet ht hlt rfl
  rintro _ ⟨⟩
  exact ⟨Nat.le_refl _, hok⟩

/--
With a product that fits the tokens to add are as they should be.
-/
theorem toNat_tokensToAdd (hlt : st.cells.lastRefill < now)
    (hfits : (now.toNat - st.cells.lastRefill.toNat) * bucket.refillRate.toNat < 2 ^ 64)
    : (now - st.cells.lastRefill).toNat = now.toNat - st.cells.lastRefill.toNat
      ∧ ((now - st.cells.lastRefill) * bucket.refillRate / 1000).toNat
        = (now.toNat - st.cells.lastRefill.toNat) * bucket.refillRate.toNat / 1000 := by
  have hsub : (now - st.cells.lastRefill).toNat = now.toNat - st.cells.lastRefill.toNat :=
    UInt64.toNat_sub_of_le _ _ (UInt64.le_of_lt hlt)
  refine ⟨hsub, ?_⟩
  rw [UInt64.toNat_div, UInt64.toNat_mul, hsub, Nat.mod_eq_of_lt hfits]
  rfl

theorem Sound.loadLast (h : Sound bucket st trace) (ht : st.tasks t = some (.last call now)) (hlt : t < st.nextTask)
    (hok : (Task.last call now).Ok bucket trace st.cells)
    (hfits : (now.toNat - st.cells.lastRefill.toNat) * bucket.refillRate.toNat < 2 ^ 64) (spurious : Bool)
    : let (e, next, c) := operate bucket (.last call now) spurious st.cells
      Operated bucket st trace t e next c := by
  obtain ⟨hclock, hbegun⟩ := hok
  simp only [operate]
  by_cases hle : now ≤ st.cells.lastRefill
  . rw [if_pos hle]
    apply h.quiet ht hlt rfl
    rintro _ ⟨⟩ begun heq
    have hbegun := hbegun begun heq
    rw [UInt64.le_iff_toNat_le] at hle
    refine ⟨Nat.le_trans hbegun hclock, fun _ => ?_⟩
    rw [Nat.sub_eq_zero_of_le (Nat.le_trans hbegun hle), Nat.zero_mul]
    decide
  . rw [if_neg hle]
    rw [UInt64.not_le] at hle
    obtain ⟨hsub, hadd⟩ := toNat_tokensToAdd hle hfits
    rw [hsub, decide_eq_true hfits]
    simp only [checked, if_true]
    by_cases hzero : (now - st.cells.lastRefill) * bucket.refillRate / 1000 = 0
    . rw [if_pos hzero]
      apply h.quiet ht hlt rfl
      rintro _ ⟨⟩ begun heq
      have hbegun := hbegun begun heq
      rw [hzero] at hadd
      have hless : (now.toNat - st.cells.lastRefill.toNat) * bucket.refillRate.toNat < 1000 :=
        (Nat.div_eq_zero_iff_lt (by decide)).mp hadd.symm
      exact ⟨Nat.le_trans hbegun hclock,
        fun _ => Nat.lt_of_le_of_lt (Nat.mul_le_mul_right _ (by omega)) hless⟩
    . rw [if_neg hzero]
      apply h.quiet ht hlt rfl
      rintro _ ⟨⟩
      refine ⟨hclock, hbegun, UInt64.lt_iff_toNat_lt.mp hle, hadd, ?_⟩
      rw [hadd]
      exact Nat.div_le_div_right hfits.le

theorem Sound.swapLast (h : Sound bucket st trace) (ht : st.tasks t = some (.swapLast call now old tokensToAdd))
    (hlt : t < st.nextTask) (hok : (Task.swapLast call now old tokensToAdd).Ok bucket trace st.cells)
    (hproper : (Task.swapLast call now old tokensToAdd).Proper bucket ⟨st, trace⟩) (spurious : Bool)
    : let (e, next, c) := operate bucket (.swapLast call now old tokensToAdd) spurious st.cells
      Operated bucket st trace t e next c := by
  obtain ⟨hclock, hbegun, hless, hadd, hmost⟩ := hok
  simp only [operate]
  simp only [Task.Proper] at hproper
  by_cases heq : st.cells.lastRefill = old
  . rw [if_pos heq] at hproper ⊢
    subst heq
    have hquenched : call.Quenched bucket (.quiet :: trace) { st.cells with lastRefill := now } := by
      intro begun hcall
      have hbegun := hbegun begun hcall
      refine ⟨Nat.le_trans hbegun hclock, fun _ => ?_⟩
      rw [Nat.sub_eq_zero_of_le hbegun, Nat.zero_mul]
      decide
    have haccount : (st.goTo t (some (.loadAdd call tokensToAdd)) { st.cells with lastRefill := now }).account
        = { st.account with
          funds := st.account.funds + (now.toNat - st.cells.lastRefill.toNat) * bucket.refillRate.toNat / 1000
          last := now.toNat } := by
      have hpending := pending_goTo ht hlt (some (.loadAdd call tokensToAdd)) { st.cells with lastRefill := now }
      simp only [Option.map_some, Option.getD_some, Task.pending, Nat.add_zero] at hpending
      simp only [State.account, hpending, hadd, Nat.add_assoc]
      rfl
    exact {
      account := by
        left
        refine ⟨nofun, ?_⟩
        rw [haccount]
        exact .refill now.toNat hless hclock hproper
      clock := rfl
      last_le := hless.le
      stored := h.stored
      noFault := nofun
      refused := nofun
      answered := nofun
      next := by
        rintro _ ⟨⟩
        exact ⟨hquenched, hmost⟩ }
  . rw [if_neg heq] at hproper ⊢
    apply h.quiet ht hlt rfl
    rintro _ ⟨⟩ begun hcall
    exact ⟨Nat.le_trans (hbegun begun hcall) hclock, hproper begun hcall⟩

theorem Sound.loadAdd (h : Sound bucket st trace) (ht : st.tasks t = some (.loadAdd call tokensToAdd))
    (hlt : t < st.nextTask) (hok : (Task.loadAdd call tokensToAdd).Ok bucket trace st.cells)
    : Operated bucket st trace t .quiet (some (.swapAdd call tokensToAdd st.cells.tokens)) st.cells := by
  apply h.quiet ht hlt rfl
  rintro _ ⟨⟩
  exact ⟨hok.1, hok.2, h.stored⟩

theorem toNat_min (x y : UInt64) : (min x y).toNat = min x.toNat y.toNat := by
  show (if x ≤ y then x else y).toNat = _
  rw [Nat.min_def]
  simp only [UInt64.le_iff_toNat_le]
  split <;> rfl

theorem Sound.swapAdd (h : Sound bucket st trace) (ht : st.tasks t = some (.swapAdd call tokensToAdd current))
    (hlt : t < st.nextTask) (hok : (Task.swapAdd call tokensToAdd current).Ok bucket trace st.cells)
    (hlow : 1000 ≤ bucket.capacity.toNat) (hhigh : bucket.capacity.toNat < 2 ^ 43) (spurious : Bool)
    : let (e, next, c) := operate bucket (.swapAdd call tokensToAdd current) spurious st.cells
      Operated bucket st trace t e next c := by
  obtain ⟨hquenched, hadd, hcurrent⟩ := hok
  have hfits : current.toNat + tokensToAdd.toNat < 2 ^ 64 := by omega
  simp only [operate, decide_eq_true hfits, checked, if_true]
  split
  . next hswap =>
    obtain ⟨rfl, _⟩ := hswap
    have htokens : (min (st.cells.tokens + tokensToAdd) bucket.capacity).toNat
        = min (st.cells.tokens.toNat + tokensToAdd.toNat) bucket.capacity.toNat := by
      rw [toNat_min, UInt64.toNat_add, Nat.mod_eq_of_lt hfits]
    have hpending := pending_goTo ht hlt (some (.load call))
      { st.cells with tokens := min (st.cells.tokens + tokensToAdd) bucket.capacity }
    simp only [Option.map_some, Option.getD_some, Task.pending, Nat.add_zero] at hpending
    generalize hnew : st.goTo t (some (.load call))
      { st.cells with tokens := min (st.cells.tokens + tokensToAdd) bucket.capacity } = new at *
    have haccount : new.account = { st.account with
        funds := min (st.cells.tokens.toNat + tokensToAdd.toNat) bucket.capacity.toNat + new.pending } := by
      rw [← htokens, ← hnew]
      rfl
    exact {
      account := by
        left
        refine ⟨nofun, ?_⟩
        rw [hnew, haccount]
        by_cases hfull : st.cells.tokens.toNat + tokensToAdd.toNat ≤ bucket.capacity.toNat
        . have hsame : min (st.cells.tokens.toNat + tokensToAdd.toNat) bucket.capacity.toNat + new.pending
              = st.account.funds := by
            rw [Nat.min_eq_left hfull, Nat.add_assoc, Nat.add_comm _ new.pending, hpending]
            rfl
          rw [hsame]
          exact .rest
        . have hcut := Nat.min_le_left (st.cells.tokens.toNat + tokensToAdd.toNat) bucket.capacity.toNat
          rw [Nat.min_eq_right (Nat.le_of_not_le hfull)] at hcut ⊢
          apply Account.Moves.cut
          . simp only [State.account]
            omega
          . omega
      clock := rfl
      last_le := Nat.le_refl _
      stored := by
        rw [htokens]
        exact Nat.min_le_right _ _
      noFault := nofun
      refused := nofun
      answered := nofun
      next := by
        rintro _ ⟨⟩
        exact hquenched.mono nofun (Nat.le_refl _) (Nat.le_refl _) }
  . apply h.quiet ht hlt rfl
    rintro _ ⟨⟩
    exact ⟨hquenched, hadd⟩

theorem Sound.loadAvailable (h : Sound bucket st trace) (ht : st.tasks t = some (.load .available)) (hlt : t < st.nextTask)
    : Operated bucket st trace t (.available (st.cells.tokens / 1000).toUInt32) none st.cells :=
  h.stay ht hlt rfl nofun nofun nofun nofun nofun

theorem Sound.load (h : Sound bucket st trace) (ht : st.tasks t = some (.load (.tryConsume begun))) (hlt : t < st.nextTask)
    (hok : (Task.load (.tryConsume begun)).Ok bucket trace st.cells)
    (hproper : (Task.load (.tryConsume begun)).Proper bucket ⟨st, trace⟩) (spurious : Bool)
    : let (e, next, c) := operate bucket (.load (.tryConsume begun)) spurious st.cells
      Operated bucket st trace t e next c := by
  simp only [operate]
  by_cases hless : st.cells.tokens < 1000
  . rw [if_pos hless]
    refine h.stay ht hlt rfl nofun nofun ?_ nofun nofun
    rintro _ ⟨⟩ hdue
    -- who comes back finds what was promised, as there is nothing left to refill
    have hpending : st.pending = 0 := hproper hless hdue
    have hquenched := (hok begun rfl).2 hdue
    obtain ⟨secs, clock, hwaiting, hle⟩ := hdue
    have htokens : st.cells.tokens.toNat < 1000 := UInt64.lt_iff_toNat_lt.mp hless
    have hmul : (clock.toNat + 1000 * secs.toNat - st.cells.lastRefill.toNat) * bucket.refillRate.toNat
        ≤ (begun.toNat - st.cells.lastRefill.toNat) * bucket.refillRate.toNat :=
      Nat.mul_le_mul_right _ (by omega)
    rcases h.promised secs clock hwaiting with hpromise | hpromise
      <;> simp only [State.account, hpending] at hpromise
      <;> omega
  . rw [if_neg hless]
    apply h.quiet ht hlt rfl
    rintro _ ⟨⟩
    rw [UInt64.not_lt, UInt64.le_iff_toNat_le] at hless
    exact ⟨hok, hless⟩

theorem Sound.swap (h : Sound bucket st trace) (ht : st.tasks t = some (.swap begun current)) (hlt : t < st.nextTask)
    (hok : (Task.swap begun current).Ok bucket trace st.cells)
    (hproper : (Task.swap begun current).Proper bucket ⟨st, trace⟩) (spurious : Bool)
    : let (e, next, c) := operate bucket (.swap begun current) spurious st.cells
      Operated bucket st trace t e next c := by
  simp only [operate]
  split
  . next hswap =>
    obtain ⟨rfl, _⟩ := hswap
    have hsub : (st.cells.tokens - 1000).toNat = st.cells.tokens.toNat - 1000 :=
      UInt64.toNat_sub_of_le _ _ (UInt64.le_iff_toNat_le.mpr hok.2)
    have hpending := pending_goTo ht hlt none { st.cells with tokens := st.cells.tokens - 1000 }
    simp only [Option.map_none, Option.getD_none, Task.pending, Nat.add_zero] at hpending
    exact {
      account := by
        right
        have htokens := hok.2
        refine ⟨rfl, ?_, hproper rfl, ?_⟩
        . simp only [State.account]
          omega
        . have hfunds : st.cells.tokens.toNat - 1000 + st.pending = st.cells.tokens.toNat + st.pending - 1000 := by omega
          unfold State.account Account.spend
          rw [hpending]
          simp only [State.goTo, hsub, hfunds]
      clock := rfl
      last_le := Nat.le_refl _
      stored := by
        have := h.stored
        rw [hsub]
        omega
      noFault := nofun
      refused := nofun
      answered := nofun
      next := nofun }
  . apply h.quiet ht hlt rfl
    rintro _ ⟨⟩
    exact hok.1

/--
The seconds are enough to bring what is needed.
-/
theorem le_secs_mul {needed rate : UInt64} (hneeded : 0 < needed.toNat) (hrate : rate.toNat ≠ 0)
    (hfits : needed.toNat + rate.toNat < 2 ^ 64)
    : needed.toNat ≤ (max ((needed + rate - 1) / rate) 1).toNat * rate.toNat := by
  have hsum : (needed + rate).toNat = needed.toNat + rate.toNat := by
    rw [UInt64.toNat_add, Nat.mod_eq_of_lt hfits]
  have hone : (1 : UInt64).toNat = 1 := rfl
  have hpred : (needed + rate - 1).toNat = needed.toNat + rate.toNat - 1 := by
    rw [UInt64.toNat_sub_of_le _ _ (UInt64.le_iff_toNat_le.mpr (by omega)), hsum, hone]
  have hmax : (max ((needed + rate - 1) / rate) 1).toNat = max ((needed.toNat + rate.toNat - 1) / rate.toNat) 1 := by
    show (if (needed + rate - 1) / rate ≤ 1 then 1 else (needed + rate - 1) / rate).toNat = _
    rw [Nat.max_def]
    simp only [UInt64.le_iff_toNat_le, UInt64.toNat_div, hpred, hone]
    split
    . rfl
    . rw [UInt64.toNat_div, hpred]
  have hdiv := Nat.div_add_mod (needed.toNat + rate.toNat - 1) rate.toNat
  have hmod := Nat.mod_lt (needed.toNat + rate.toNat - 1) (Nat.pos_of_ne_zero hrate)
  have hle := Nat.mul_le_mul_right rate.toNat (Nat.le_max_left ((needed.toNat + rate.toNat - 1) / rate.toNat) 1)
  rw [hmax]
  rw [Nat.mul_comm] at hdiv
  omega

theorem Sound.retry (h : Sound bucket st trace) (ht : st.tasks t = some .retryAfter) (hlt : t < st.nextTask)
    (hrate : bucket.refillRate.toNat < 2 ^ 40) (hproper : Task.retryAfter.Proper bucket ⟨st, trace⟩) (spurious : Bool)
    : let (e, next, c) := operate bucket .retryAfter spurious st.cells
      Operated bucket st trace t e next c := by
  simp only [operate]
  by_cases henough : st.cells.tokens ≥ 1000
  . rw [if_pos henough]
    refine h.stay ht hlt rfl nofun nofun nofun ?_ nofun
    rintro _ _ ⟨⟩
    rw [ge_iff_le, UInt64.le_iff_toNat_le] at henough
    refine ⟨rfl, .inl ?_⟩
    simp only [State.account]
    exact Nat.le_trans henough (Nat.le_add_right _ _)
  . rw [if_neg henough]
    rw [ge_iff_le, UInt64.not_le] at henough
    have hpos : bucket.refillRate ≠ 0 := hproper henough
    have hpos' : bucket.refillRate.toNat ≠ 0 := fun hzero => hpos (UInt64.toNat_inj.mp hzero)
    have htokens : st.cells.tokens.toNat < 1000 := UInt64.lt_iff_toNat_lt.mp henough
    have hneeded : (1000 - st.cells.tokens).toNat = 1000 - st.cells.tokens.toNat :=
      UInt64.toNat_sub_of_le _ _ (UInt64.le_of_lt henough)
    have hfits : ¬ (bucket.refillRate = 0 ∨ 2 ^ 64 ≤ (1000 - st.cells.tokens).toNat + bucket.refillRate.toNat) := by
      rintro (hzero | hover)
      . exact hpos hzero
      . omega
    rw [if_neg hfits]
    refine h.stay ht hlt rfl nofun nofun nofun ?_ nofun
    rintro _ _ ⟨⟩
    refine ⟨rfl, .inr ?_⟩
    have hsecs := le_secs_mul (by omega) hpos' (Nat.lt_of_not_le fun hover => hfits (.inr hover))
    have hlast := h.last_le
    generalize max ((1000 - st.cells.tokens + bucket.refillRate - 1) / bucket.refillRate) 1 = secs at *
    have hmul : 1000 * (secs.toNat * bucket.refillRate.toNat)
        ≤ (st.cells.clock.toNat + 1000 * secs.toNat - st.cells.lastRefill.toNat) * bucket.refillRate.toNat := by
      rw [← Nat.mul_assoc]
      exact Nat.mul_le_mul_right _ (by omega)
    simp only [State.account]
    omega

end

/-! Runs -/

theorem admittedIn_quiet (a b : Nat) (h : ∀ clock, e ≠ .admitted clock) : admittedIn a b (e :: trace) = admittedIn a b trace := by
  unfold admittedIn
  apply List.countP_cons_of_neg
  cases e with
  | admitted clock => exact absurd rfl (h clock)
  | quiet | fault | available | refused | retryAfter => nofun

theorem admittedIn_admitted (a b : Nat) (clock : UInt64) (trace : List Event)
    : admittedIn a b (.admitted clock :: trace)
      = if a ≤ clock.toNat ∧ clock.toNat ≤ b then admittedIn a b trace + 1 else admittedIn a b trace := by
  unfold admittedIn
  rw [List.countP_cons]
  simp only [decide_eq_true_eq]
  split <;> rfl

structure Inv (bucket : TokenBucket) (w : World) : Prop where
  sound : Sound bucket w.state w.trace
  tasks : ∀ t task, w.state.tasks t = some task → t < w.state.nextTask ∧ task.Ok bucket w.trace w.state.cells
  windows : ∀ a b, a ≤ b →
    w.state.account.Window bucket.capacity.toNat bucket.refillRate.toNat a b (admittedIn a b w.trace)
  noFault : .fault ∉ w.trace
  retries : RetriesSucceed w.trace

namespace Inv

variable {st' : State}

theorem first (rpm : UInt32) (start : UInt64) : Inv (forRequestsPerMinute rpm) (requests rpm start).first := by
  refine ⟨⟨Nat.le_refl _, Nat.le_refl _, ?_⟩, ?_, ?_, ?_, trivial⟩
  . intro secs clock hwaiting
    cases hwaiting
  . intro t task ht
    cases ht
  . intro a b _
    exact ⟨fun _ => .inl rfl, Nat.zero_le _⟩
  . intro hmem
    cases hmem

/--
What a step of the cells keeps.
-/
theorem cells (h : Inv bucket ⟨st, trace⟩)
    (haccount : ((∀ clock, e ≠ .admitted clock)
        ∧ st.account.Moves bucket.refillRate.toNat (OnTime bucket trace st.cells) st'.account)
      ∨ (e = .admitted st.cells.clock ∧ 1000 ≤ st.account.funds
        ∧ st.account.worth bucket.refillRate.toNat ≤ 1000 * bucket.capacity.toNat + 1000000
        ∧ st'.account = st.account.spend))
    (hstored : st'.cells.tokens.toNat ≤ bucket.capacity.toNat) (hfault : e ≠ .fault)
    (hrefused : ∀ begun, e = .refused begun → ¬ Due trace begun)
    (hanswered : ∀ secs clock, e = .retryAfter secs clock →
      st'.account.Promise bucket.refillRate.toNat (clock.toNat + 1000 * secs.toNat))
    (htasks : ∀ t task, st'.tasks t = some task → t < st'.nextTask ∧ task.Ok bucket (e :: trace) st'.cells)
    : Inv bucket ⟨st', e :: trace⟩ := by
  have hlast : st.account.last ≤ st.account.clock := h.sound.last_le
  have hfault' : .fault ∉ e :: trace := by
    intro hmem
    rcases List.mem_cons.mp hmem with heq | hmem
    . exact hfault heq.symm
    . exact h.noFault hmem
  rcases haccount with ⟨hquiet, hmoves⟩ | ⟨rfl, hfunds, hworth, hspend⟩
  . refine ⟨⟨hmoves.last_le hlast, hstored, ?_⟩, htasks, ?_, hfault', hrefused, h.retries⟩
    . intro secs clock hwaiting
      rcases hwaiting with ⟨heq, _⟩ | ⟨_, hwaiting⟩
      . exact hanswered secs clock heq
      . exact (h.sound.promised secs clock hwaiting).moves hmoves fun now honTime => honTime secs clock hwaiting
    . intro a b hab
      rw [admittedIn_quiet a b hquiet]
      exact (h.windows a b hab).moves hmoves hlast
  . refine ⟨⟨?_, hstored, ?_⟩, htasks, ?_, hfault', hrefused, h.retries⟩
    . have hclock : st'.account.clock = st.account.clock := by rw [hspend, Account.spend_clock]
      have hlast' : st'.account.last = st.account.last := by
        rw [hspend]
        unfold Account.spend
        dsimp only
      show st'.account.last ≤ st'.account.clock
      omega
    . intro secs clock hwaiting
      rcases hwaiting with ⟨heq, _⟩ | ⟨hne, _⟩
      . cases heq
      . exact absurd rfl (hne st.cells.clock)
    . intro a b hab
      rw [admittedIn_admitted, hspend]
      exact (h.windows a b hab).spend hfunds hworth

theorem tick (h : Inv bucket ⟨st, trace⟩) {clock : UInt64} (hle : st.cells.clock ≤ clock)
    : Inv bucket ⟨{ st with cells := { st.cells with clock := clock } }, .quiet :: trace⟩ := by
  rw [UInt64.le_iff_toNat_le] at hle
  refine h.cells (.inl ⟨nofun, .tick clock.toNat hle⟩) h.sound.stored nofun nofun nofun ?_
  intro t task ht
  obtain ⟨hlt, hok⟩ := h.tasks t task ht
  exact ⟨hlt, hok.mono nofun hle (Nat.le_refl _)⟩

theorem spawn (h : Inv bucket ⟨st, trace⟩) {task : Task} (hpending : task.pending = 0)
    (hok : task.Ok bucket (.quiet :: trace) st.cells) : Inv bucket ⟨st.spawn task, .quiet :: trace⟩ := by
  have haccount : (st.spawn task).account = st.account := by
    simp only [State.account, pending_spawn hpending]
    rfl
  refine h.cells (.inl ⟨nofun, ?_⟩) h.sound.stored nofun nofun nofun ?_
  . rw [haccount]
    exact .rest
  . intro t task' ht
    simp only [State.spawn, Function.update_apply] at ht ⊢
    split at ht
    . next heq =>
      cases ht
      exact ⟨by omega, hok⟩
    . obtain ⟨hlt, hok'⟩ := h.tasks t task' ht
      exact ⟨Nat.lt_succ_of_lt hlt, hok'.mono nofun (Nat.le_refl _) (Nat.le_refl _)⟩

theorem operated (h : Inv bucket ⟨st, trace⟩) {next : Option Task} (hop : Operated bucket st trace t e next c)
    (hlt : t < st.nextTask) : Inv bucket ⟨st.goTo t next c, e :: trace⟩ := by
  apply h.cells hop.account hop.stored hop.noFault hop.refused
  . intro secs clock heq
    exact (hop.answered secs clock heq).2
  . intro t' task' ht'
    simp only [State.goTo, Function.update_apply] at ht'
    split at ht'
    . next heq =>
      subst heq
      exact ⟨hlt, hop.next task' ht'⟩
    . obtain ⟨hlt', hok⟩ := h.tasks t' task' ht'
      refine ⟨hlt', hok.mono ?_ ?_ hop.last_le⟩
      . intro secs clock heq
        exact (hop.answered secs clock heq).1
      . exact (congrArg UInt64.toNat hop.clock).ge

end Inv

theorem operate_operated {task : Task} {spurious : Bool} (h : Sound bucket st trace) (ht : st.tasks t = some task)
    (hlt : t < st.nextTask) (hok : task.Ok bucket trace st.cells) (hproper : task.Proper bucket ⟨st, trace⟩)
    (hlow : 1000 ≤ bucket.capacity.toNat) (hhigh : bucket.capacity.toNat < 2 ^ 43) (hrate : bucket.refillRate.toNat < 2 ^ 40)
    : let (e, next, c) := operate bucket task spurious st.cells
      Operated bucket st trace t e next c := by
  cases task with
  | now call => exact h.readClock ht hlt hok
  | last call now => exact h.loadLast ht hlt hok hproper spurious
  | swapLast call now old tokensToAdd => exact h.swapLast ht hlt hok hproper spurious
  | loadAdd call tokensToAdd => exact h.loadAdd ht hlt hok
  | swapAdd call tokensToAdd current => exact h.swapAdd ht hlt hok hlow hhigh spurious
  | load call =>
    cases call with
    | tryConsume begun => exact h.load ht hlt hok hproper spurious
    | available => exact h.loadAvailable ht hlt
  | swap begun current => exact h.swap ht hlt hok hproper spurious
  | retryAfter => exact h.retry ht hlt hrate hproper spurious

theorem Inv.of_reached {rpm : UInt32} {start : UInt64} {w : World} (h : (requests rpm start).Reached (Proper rpm) w)
    : Inv (forRequestsPerMinute rpm) w := by
  have hcapacity := toNat_capacity rpm
  have hrate := refillRate_le rpm
  have hlt := rpm.toNat_lt
  apply h.invariant (P := Inv (forRequestsPerMinute rpm))
  . exact .first rpm start
  . intro m w e st hinv hproper hstep
    cases m with
    | tick clock =>
      simp only [machine, step] at hstep
      split at hstep
      . next hle =>
        cases hstep
        exact hinv.tick hle
      . cases hstep
    | tryConsume =>
      cases hstep
      exact hinv.spawn rfl fun begun heq => by cases heq; exact Nat.le_refl _
    | available =>
      cases hstep
      exact hinv.spawn rfl nofun
    | retryAfter =>
      cases hstep
      exact hinv.spawn rfl trivial
    | run t spurious =>
      simp only [machine, step, Option.map_eq_some_iff] at hstep
      obtain ⟨task, ht, heq⟩ := hstep
      cases heq
      obtain ⟨hlt, hok⟩ := hinv.tasks t task ht
      exact hinv.operated (operate_operated hinv.sound ht hlt hok (hproper task ht) (by omega) (by omega) (by omega)) hlt

theorem Inv.limits {rpm : UInt32} {w : World} (h : Inv (forRequestsPerMinute rpm) w) : Limits rpm w := by
  refine ⟨h.noFault, ?_, UInt64.le_iff_toNat_le.mpr h.sound.stored, h.retries⟩
  intro a b hab
  have htotal := (h.windows a b hab).total
  have hrate := Nat.mul_le_mul_left (b - a) (refillRate_le rpm)
  rw [toNat_capacity] at htotal
  rw [Nat.mul_left_comm, Nat.mul_left_comm (b - a) 50] at hrate
  omega

/-! A request that comes back -/

theorem Due.cons {begun : UInt64} (h : Due trace begun) (he : ∀ clock, e ≠ .admitted clock) : Due (e :: trace) begun := by
  obtain ⟨secs, clock, hwaiting, hle⟩ := h
  exact ⟨secs, clock, .inr ⟨he, hwaiting⟩, hle⟩

/--
The operations of its own up to the one that takes a token.
-/
def Task.rank (c : Cells) : Task → Nat
  | .now .. => 7
  | .last .. => 6
  | .swapLast .. => 5
  | .loadAdd .. => 4
  | .swapAdd _ _ current => if c.tokens = current then 3 else 5
  | .load .. => 2
  | .swap _ current => if c.tokens = current then 1 else 3
  | .retryAfter => 0

theorem checked_of_ne_fault {b : Bool} (h : checked b ≠ .fault) : checked b = .quiet := by
  cases b with
  | true => rfl
  | false => exact absurd rfl h

/--
An operation of a request takes a token or brings the request closer to it, when it is not refused.
-/
theorem operate_progress {task : Task} {begun : UInt64} (hrequests : task.Requests begun)
    (hfault : (operate bucket task false c).1 ≠ .fault)
    (hrefused : (operate bucket task false c).1 ≠ .refused begun)
    : (∃ clock, (operate bucket task false c).1 = .admitted clock)
      ∨ (operate bucket task false c).1 = .quiet
        ∧ ∃ task', (operate bucket task false c).2.1 = some task' ∧ task'.Requests begun
          ∧ task'.rank (operate bucket task false c).2.2 < task.rank c := by
  cases task with
  | now call => exact .inr ⟨rfl, _, rfl, hrequests, by simp [Task.rank]⟩
  | last call now =>
    right
    simp only [operate] at hfault ⊢
    split
    . exact ⟨rfl, _, rfl, hrequests, by simp [Task.rank]⟩
    . next hle =>
      rw [if_neg hle] at hfault
      refine ⟨checked_of_ne_fault hfault, _, rfl, ?_⟩
      split
      . exact ⟨hrequests, by simp [Task.rank]⟩
      . exact ⟨hrequests, by simp [Task.rank]⟩
  | swapLast call now old tokensToAdd =>
    right
    simp only [operate]
    split <;> exact ⟨rfl, _, rfl, hrequests, by simp [Task.rank]⟩
  | loadAdd call tokensToAdd =>
    right
    refine ⟨rfl, _, rfl, hrequests, ?_⟩
    simp only [operate, Task.rank, if_true]
    decide
  | swapAdd call tokensToAdd current =>
    right
    simp only [operate] at hfault ⊢
    by_cases hfresh : c.tokens = current
    . rw [if_pos ⟨hfresh, trivial⟩] at hfault ⊢
      refine ⟨checked_of_ne_fault hfault, _, rfl, hrequests, ?_⟩
      simp only [Task.rank, if_pos hfresh]
      decide
    . rw [if_neg (fun h => hfresh h.1)] at hfault ⊢
      refine ⟨checked_of_ne_fault hfault, _, rfl, hrequests, ?_⟩
      simp only [Task.rank, if_neg hfresh]
      decide
  | load call =>
    cases hrequests
    right
    simp only [operate] at hrefused ⊢
    by_cases hless : c.tokens < 1000
    . rw [if_pos hless] at hrefused
      exact absurd rfl hrefused
    . rw [if_neg hless]
      refine ⟨rfl, _, rfl, rfl, ?_⟩
      simp only [Task.rank, if_true]
      decide
  | swap begun' current =>
    simp only [operate]
    by_cases hfresh : c.tokens = current
    . rw [if_pos ⟨hfresh, trivial⟩]
      exact .inl ⟨_, rfl⟩
    . rw [if_neg (fun h => hfresh h.1)]
      refine .inr ⟨rfl, _, rfl, by rw [hrequests]; rfl, ?_⟩
      simp only [Task.rank, if_neg hfresh]
      decide
  | retryAfter => cases hrequests

theorem granted {rpm : UInt32} {start : UInt64} {begun : UInt64} (n : Nat) {task : Task} {w : World}
    (hreached : (requests rpm start).Reached (Proper rpm) w) (htask : w.state.tasks t = some task)
    (hrequests : task.Requests begun) (hdue : Due w.trace begun)
    (halong : (requests rpm start).Along (Proper rpm) (List.replicate n (solo t)) w) (hrank : task.rank w.state.cells ≤ n)
    : Admits (forRequestsPerMinute rpm) start t n w := by
  induction n generalizing task w with
  | zero =>
    -- every operation of a request has a rank above zero
    cases task with
    | swapAdd | swap =>
      simp only [Task.rank] at hrank
      split at hrank <;> omega
    | now | last | swapLast | loadAdd | load =>
      simp only [Task.rank] at hrank
      omega
    | retryAfter => cases hrequests
  | succ n ih =>
    have hinv := Inv.of_reached hreached
    obtain ⟨hlt, hok⟩ := hinv.tasks t task htask
    have hcapacity := toNat_capacity rpm
    have hrate := refillRate_le rpm
    have hrpm := rpm.toNat_lt
    have hop : Operated (forRequestsPerMinute rpm) w.state w.trace t
        (operate (forRequestsPerMinute rpm) task false w.state.cells).1
        (operate (forRequestsPerMinute rpm) task false w.state.cells).2.1
        (operate (forRequestsPerMinute rpm) task false w.state.cells).2.2 :=
      operate_operated hinv.sound htask hlt hok (halong.1 task htask) (by omega) (by omega) (by omega)
    have hnext : (requests rpm start).next (solo t) w
        = some ⟨w.state.goTo t (operate (forRequestsPerMinute rpm) task false w.state.cells).2.1
            (operate (forRequestsPerMinute rpm) task false w.state.cells).2.2,
          (operate (forRequestsPerMinute rpm) task false w.state.cells).1 :: w.trace⟩ := by
      simp only [Machine.next, machine, step, htask, Option.map_some]
    have hrefused := fun heq => hop.refused begun heq hdue
    rcases operate_progress hrequests hop.noFault hrefused with ⟨clock, hadmitted⟩ | ⟨hquiet, task', htask', hrequests', hless⟩
    . rw [hadmitted] at hnext
      have hrun : (requests rpm start).run (List.replicate 1 (solo t)) w = (requests rpm start).next (solo t) w := by
        simp only [List.replicate, Machine.run, hnext, Option.bind_some]
      exact ⟨1, by omega, _, hrun.trans hnext, clock, rfl⟩
    . obtain ⟨k, hk, w', hrun, hhead⟩ := ih (.next hreached halong.1 hnext) (by simp [State.goTo, htask']) hrequests'
        (by rw [hquiet]; exact hdue.cons (by simp)) (halong.2 _ hnext) (by simp only [State.goTo]; omega)
      refine ⟨k + 1, by omega, w', ?_, hhead⟩
      simp only [List.replicate_succ, Machine.run, hnext, Option.bind_some, hrun]


theorem keepsLimits_of_proper (rpm : UInt32) (start : UInt64) : KeepsLimits rpm start (Proper rpm) := by
  refine ⟨fun w hw => (Inv.of_reached hw).limits, ?_⟩
  intro w hw t task begun htask hrequests hdue halong
  apply granted 7 hw htask hrequests hdue halong
  cases task <;> simp only [Task.rank] <;> (try split) <;> decide

end Reactor.Server.Quota.Bucket
