import ReactorCloud.Gateway.Caddy
import ReactorCloud.Interleave.Program

/-!
This module contains the loop that applies changes of the routes to Caddy, and the snapshot it goes back
to when that fails.
-/

namespace Reactor.Gateway

open Interleave
open Interleave.Program (ofExcept attempt fail)
open Rust (Json)

/-! ## The snapshots -/

inductive SyncCall where
  | load
  | loadConfig (config : Json)
  | lastGood
  | setLastGood (config : Json)
  | sleep (nanos : Nat)

def SyncCall.Ret : SyncCall → Type
  | .load => RoutingTable
  | .loadConfig _ => Unit
  | .lastGood => Option Json
  | .setLastGood _ => Unit
  | .sleep _ => Unit

abbrev syncCalls : Interface :=
  ⟨SyncCall, SyncCall.Ret, GatewayError⟩

abbrev SyncProgram (α : Type) :=
  Program syncCalls α

abbrev await (c : SyncCall) : SyncProgram c.Ret :=
  @Program.request syncCalls c

namespace SnapshotManager

def maxRollbackAttempts : Nat := 3

/--
The attempts that are left of a rollback.
-/
def rollbackAttempts (config : Json) : Nat → SyncProgram Unit
  | 0 => fail (.rollbackFailed "Exhausted rollback attempts")
  | n + 1 => do
    match ← attempt (await (.loadConfig config)) with
    | .ok _ => pure ()
    | .error _ =>
      if n = 0 then
        fail (.rollbackFailed "All 3 rollback attempts failed")
      else do
        await (.sleep 500000000)
        rollbackAttempts config n

def rollback : SyncProgram Unit := do
  match ← await .lastGood with
  | some config => rollbackAttempts config maxRollbackAttempts
  | none => fail (.rollbackFailed "No previous configuration available")

def apply (caddyConfig : CaddyAdminConfig) (table : RoutingTable) : SyncProgram Unit := do
  let newConfig ← ofExcept (caddyConfig.build table)
  match ← attempt (await (.loadConfig newConfig)) with
  | .ok _ => await (.setLastGood newConfig)
  | .error e => do
    rollback
    fail e

end SnapshotManager

def doSync (caddyConfig : CaddyAdminConfig) : SyncProgram Unit := do
  let table ← await .load
  SnapshotManager.apply caddyConfig table

/-! ## The world around the loop -/

/--
A load can fail before Caddy has taken the configuration, or after.
-/
inductive Outcome where
  | served
  | refused
  | lost
deriving DecidableEq

structure Turn where
  outcome : Outcome
  table : RoutingTable
  elapsed : Nat

/--
What Caddy runs, what the manager takes for the last good configuration, and the loads of the sync under
way with whether they were acknowledged, the latest first.
-/
structure World where
  caddy : Option Json
  lastGood : Option Json
  now : Nat
  loads : List (Json × Bool)
  turns : Nat → Turn

def World.next (w : World) : World :=
  { w with now := w.now + (w.turns 0).elapsed, turns := fun n => w.turns (n + 1) }

def answer : (c : SyncCall) → World → Except GatewayError c.Ret × World
  | .load, w =>
    match (w.turns 0).outcome with
    | .served => (.ok (w.turns 0).table, w.next)
    | _ => (.error (.database "failed to load the routes"), w.next)
  | .loadConfig config, w =>
    match (w.turns 0).outcome with
    | .served => (.ok (), { w.next with caddy := some config, loads := (config, true) :: w.loads })
    | .refused =>
      (.error (.caddyAdmin "Failed to load config"), { w.next with loads := (config, false) :: w.loads })
    | .lost =>
      (.error (.http "timed out"),
        { w.next with caddy := some config, loads := (config, false) :: w.loads })
  | .lastGood, w => (.ok w.lastGood, w)
  | .setLastGood config, w => (.ok (), { w with lastGood := some config })
  | .sleep nanos, w => (.ok (), { w with now := w.now + nanos })

/-! ## The loop -/

inductive SyncMessage where
  | reload
  | routeChanged (host : String)
  | shutdown
deriving DecidableEq

structure SyncConfig where
  debounceInterval : Nat
  maxDebounceWait : Nat
  healthCheckInterval : Nat

/--
The steps the loop has taken, at which time. A sync is told from a sleep that ends without one.
-/
inductive Event where
  | received (time : Nat) (msg : SyncMessage)
  | woke (time : Nat)
  | synced (time : Nat) (result : GatewayResult Unit) (loads : List (Json × Bool))

def Event.time : Event → Nat
  | .received time _ => time
  | .woke time => time
  | .synced time _ _ => time

/--
The variables of the loop, the time at which the sleep of its turn has started, and its steps, the latest
first.
-/
structure SyncLoop where
  pendingChanges : Bool
  lastChange : Nat
  lastSync : Nat
  asleepSince : Nat
  world : World
  events : List Event

namespace SyncLoop

/--
The loop is entered after a sync that succeeds.
-/
def start (caddyConfig : CaddyAdminConfig) (world : World) : Option SyncLoop :=
  match (doSync caddyConfig).eval answer { world with loads := [] } with
  | (.ok (), w) =>
    some ⟨false, w.now, w.now, w.now, w, [.synced world.now (.ok ()) w.loads]⟩
  | (.error _, _) => none

def timeout (config : SyncConfig) (l : SyncLoop) : Nat :=
  if l.pendingChanges then config.debounceInterval else config.healthCheckInterval

/--
A message comes before the sleep ends. Every message starts another sleep.
-/
def receive (config : SyncConfig) (msg : SyncMessage) (time : Nat) (l : SyncLoop) : Option SyncLoop :=
  if l.asleepSince ≤ time ∧ time < l.asleepSince + l.timeout config then
    match msg with
    | .shutdown => none
    | msg =>
      some { l with
        pendingChanges := true
        lastChange := time
        asleepSince := time
        events := .received time msg :: l.events }
  else
    none

def shouldSync (config : SyncConfig) (time : Nat) (l : SyncLoop) : Bool :=
  l.pendingChanges
    && (decide (time - l.lastChange ≥ config.debounceInterval)
      || decide (time - l.lastSync ≥ config.maxDebounceWait))

def wake (caddyConfig : CaddyAdminConfig) (config : SyncConfig) (l : SyncLoop) : SyncLoop :=
  let time := l.asleepSince + l.timeout config
  if l.shouldSync config time then
    match (doSync caddyConfig).eval answer { l.world with now := time, loads := [] } with
    | (.ok (), w) =>
      { l with
        pendingChanges := false
        lastSync := w.now
        asleepSince := w.now
        world := w
        events := .synced time (.ok ()) w.loads :: l.events }
    | (.error e, w) =>
      { l with asleepSince := w.now, world := w, events := .synced time (.error e) w.loads :: l.events }
  else
    { l with asleepSince := time, events := .woke time :: l.events }

inductive Move where
  | receive (msg : SyncMessage) (time : Nat)
  | wake
deriving DecidableEq

def step (caddyConfig : CaddyAdminConfig) (config : SyncConfig) (l : SyncLoop) : Move → Option SyncLoop
  | .receive msg time => l.receive config msg time
  | .wake => some (l.wake caddyConfig config)

/--
The loop after the moves, if they can happen in this order.
-/
def run (caddyConfig : CaddyAdminConfig) (config : SyncConfig) (world : World) (moves : List Move)
    : Option SyncLoop :=
  (start caddyConfig world).bind (fun l => moves.foldlM (step caddyConfig config) l)

end SyncLoop
end Reactor.Gateway

/-!
This module contains how long a change of the routes waits for the loop, and what Caddy runs after a sync
has failed.
-/

namespace Reactor.Gateway

open Interleave
open Rust (Json)

/-! ## A sync -/

section Sync

variable {caddyConfig : CaddyAdminConfig} {w : World}

/--
What an attempt to go back leaves behind: the last load says whether it went through.
-/
def WentBack (config : Json) (w : World) (r : GatewayResult Unit) (w' : World) : Prop :=
  w.now ≤ w'.now ∧ w'.lastGood = w.lastGood
    ∧ match r with
      | .ok _ => w'.caddy = some config
      | .error _ => w'.loads.head?.any (·.2) = false

theorem loadConfig_cases (config : Json) (w : World)
    : (answer (.loadConfig config) w).2.lastGood = w.lastGood
      ∧ w.now ≤ (answer (.loadConfig config) w).2.now
      ∧ (((answer (.loadConfig config) w).1 = .ok ()
            ∧ (answer (.loadConfig config) w).2.caddy = some config
            ∧ (answer (.loadConfig config) w).2.loads = (config, true) :: w.loads)
          ∨ ((∃ e, (answer (.loadConfig config) w).1 = .error e)
            ∧ (answer (.loadConfig config) w).2.loads = (config, false) :: w.loads)) := by
  simp only [answer]
  cases (w.turns 0).outcome with
  | served => exact ⟨rfl, Nat.le_add_right _ _, .inl ⟨rfl, rfl, rfl⟩⟩
  | refused => exact ⟨rfl, Nat.le_add_right _ _, .inr ⟨⟨_, rfl⟩, rfl⟩⟩
  | lost => exact ⟨rfl, Nat.le_add_right _ _, .inr ⟨⟨_, rfl⟩, rfl⟩⟩

theorem attempt_ensures {α : Type} {c : SyncCall} {f : Except GatewayError c.Ret → SyncProgram α}
    {Q : GatewayResult α → World → Prop}
    (h : (f (answer c w).1).Ensures answer Q (answer c w).2)
    : (Program.attempt (await c) >>= f).Ensures answer Q w := by
  apply Program.ensures_bind
  apply Program.ensures_call
  exact h

theorem await_ensures {α : Type} {c : SyncCall} {f : c.Ret → SyncProgram α}
    {Q : GatewayResult α → World → Prop}
    (hok : ∀ r, (answer c w).1 = .ok r → (f r).Ensures answer Q (answer c w).2)
    (herr : ∀ e, (answer c w).1 = .error e → Q (.error e) (answer c w).2)
    : (await c >>= f).Ensures answer Q w := by
  apply Program.ensures_bind
  apply Program.ensures_call
  apply Program.ensures_done
  cases hr : (answer c w).1 with
  | ok r => exact hok r hr
  | error e => exact herr e hr

theorem rollbackAttempts_wentBack (config : Json) (n : Nat) (w : World)
    : (SnapshotManager.rollbackAttempts config (n + 1)).Ensures answer (WentBack config w) w := by
  induction n generalizing w with
  | zero =>
    apply attempt_ensures
    obtain ⟨hgood, hnow, h | h⟩ := loadConfig_cases config w
    . obtain ⟨hr, hcaddy, _⟩ := h
      rw [hr]
      exact ⟨hnow, hgood, hcaddy⟩
    . obtain ⟨⟨e, hr⟩, hloads⟩ := h
      rw [hr]
      refine ⟨hnow, hgood, ?_⟩
      show ((answer (.loadConfig config) w).2.loads.head?.any (·.2)) = false
      rw [hloads]
      rfl
  | succ n ih =>
    apply attempt_ensures
    obtain ⟨hgood, hnow, h | h⟩ := loadConfig_cases config w
    . obtain ⟨hr, hcaddy, _⟩ := h
      rw [hr]
      exact ⟨hnow, hgood, hcaddy⟩
    . obtain ⟨⟨e, hr⟩, _⟩ := h
      rw [hr]
      apply await_ensures
      . intro r _
        apply (ih _).mono
        intro r' w' ⟨hnow', hgood', hw'⟩
        exact ⟨Nat.le_trans hnow (Nat.le_trans (Nat.le_add_right _ _) hnow'), hgood'.trans hgood, hw'⟩
      . intro e he
        cases he

/--
What a sync leaves behind. A failed one has either gone back to the last good configuration, or its last
load was not acknowledged.
-/
def Synced (w : World) (r : GatewayResult Unit) (w' : World) : Prop :=
  w.now ≤ w'.now
    ∧ match r with
      | .ok _ =>
        ∃ config, w'.caddy = some config ∧ w'.lastGood = some config
          ∧ w'.loads.head? = some (config, true)
      | .error _ =>
        w'.lastGood = w.lastGood ∧ (w'.loads.head?.any (·.2) = true → w'.caddy = w.lastGood)

theorem rollback_synced {e : GatewayError} (w : World)
    (hloads : w.loads.head?.any (·.2) = false)
    : (SnapshotManager.rollback >>= fun _ => (Program.fail e : SyncProgram Unit)).Ensures answer
        (Synced w) w := by
  apply Program.ensures_bind
  unfold SnapshotManager.rollback
  apply await_ensures
  . intro config hconfig
    cases hconfig
    cases hgood : w.lastGood with
    | none =>
      refine ⟨Nat.le_refl _, rfl, ?_⟩
      intro h
      have h : w.loads.head?.any (·.2) = true := h
      rw [hloads] at h
      cases h
    | some config =>
      apply (rollbackAttempts_wentBack config 2 w).mono
      intro r w' ⟨hnow, hgood', hw'⟩
      cases r with
      | ok _ =>
        refine ⟨hnow, hgood', ?_⟩
        intro _
        rw [hgood]
        exact hw'
      | error e =>
        refine ⟨hnow, hgood', ?_⟩
        intro h
        rw [hw'] at h
        cases h
  . intro e he
    cases he

theorem apply_synced (caddyConfig : CaddyAdminConfig) (table : RoutingTable) (w : World)
    (hloads : w.loads = [])
    : (SnapshotManager.apply caddyConfig table).Ensures answer (Synced w) w := by
  unfold SnapshotManager.apply
  apply Program.ensures_bind
  apply Program.ensures_done
  cases caddyConfig.build table with
  | error e =>
    refine ⟨Nat.le_refl _, rfl, ?_⟩
    intro h
    rw [hloads] at h
    cases h
  | ok newConfig =>
    apply attempt_ensures
    obtain ⟨hgood, hnow, h | h⟩ := loadConfig_cases newConfig w
    . obtain ⟨hr, hcaddy, hloads'⟩ := h
      rw [hr]
      refine ⟨hnow, newConfig, hcaddy, rfl, ?_⟩
      show (answer (.loadConfig newConfig) w).2.loads.head? = _
      rw [hloads']
      rfl
    . obtain ⟨⟨e, hr⟩, hloads'⟩ := h
      rw [hr]
      apply (rollback_synced _ (by rw [hloads']; rfl)).mono
      intro r w' ⟨hnow', hw'⟩
      refine ⟨Nat.le_trans hnow hnow', ?_⟩
      rw [hgood] at hw'
      exact hw'

theorem doSync_synced (caddyConfig : CaddyAdminConfig) (w : World) (hloads : w.loads = [])
    : (doSync caddyConfig).Ensures answer (Synced w) w := by
  unfold doSync
  have hload : (answer .load w).2 = w.next := by
    simp only [answer]
    split <;> rfl
  apply await_ensures
  . intro table _
    rw [hload]
    apply (apply_synced caddyConfig table w.next hloads).mono
    intro r w' ⟨hnow, hw'⟩
    exact ⟨Nat.le_trans (Nat.le_add_right _ _) hnow, hw'⟩
  . intro e _
    rw [hload]
    refine ⟨Nat.le_add_right _ _, rfl, ?_⟩
    intro h
    have h : w.loads.head?.any (·.2) = true := h
    rw [hloads] at h
    cases h

end Sync

/-! ## What the steps say -/

/--
The messages no sync has been started after, with their times, the latest first.
-/
def unpicked : List Event → List Nat
  | .received time _ :: es => time :: unpicked es
  | .woke _ :: es => unpicked es
  | .synced .. :: _ => []
  | [] => []

/--
The messages no sync that succeeded has followed.
-/
def unsynced : List Event → List Nat
  | .received time _ :: es => time :: unsynced es
  | .woke _ :: es => unsynced es
  | .synced _ (.ok _) _ :: _ => []
  | .synced _ (.error _) _ :: es => unsynced es
  | [] => []

/--
The configuration of the last sync that succeeded.
-/
def lastSynced : List Event → Option Json
  | .synced _ (.ok _) loads :: _ => loads.head?.map (·.1)
  | _ :: es => lastSynced es
  | [] => none

/--
The last sync has failed, but its last load, which goes back, was acknowledged.
-/
def wentBack : List Event → Bool
  | .synced _ (.ok _) _ :: _ => false
  | .synced _ (.error _) loads :: _ => loads.head?.any (·.2)
  | _ :: es => wentBack es
  | [] => false

/--
At the time of the last step no message waits as long as a full debounce after the cap.
-/
def InTime (config : SyncConfig) (es : List Event) : Prop :=
  ∀ e ∈ es.head?, ∀ t ∈ unpicked es,
    e.time < t + (config.maxDebounceWait + config.debounceInterval)

/--
No message has waited too long, none is forgotten, and after a sync that went back Caddy runs the
configuration of the last one that succeeded.
-/
structure Prompt (config : SyncConfig) (l : SyncLoop) : Prop where
  inTime : ∀ es, es <:+ l.events → InTime config es
  pending : unsynced l.events ≠ [] → l.pendingChanges = true
  restored : wentBack l.events = true → l.world.caddy = lastSynced l.events

/-! ## Bursts -/

/--
The first message of the burst that the message at `t` belongs to. The earlier ones are in `ts`, the
latest first: those of a burst come less than an interval after each other.
-/
def burstStart (interval : Nat) : Nat → List Nat → Nat
  | t, [] => t
  | t, s :: ts => if t < s + interval then burstStart interval s ts else t

/--
Every message comes less than the cap after the first one of its burst.
-/
def ShortBursts (interval cap : Nat) : List Nat → Prop
  | [] => True
  | t :: ts => t < burstStart interval t ts + cap ∧ ShortBursts interval cap ts

instance decidableShortBursts (interval cap : Nat) : (ts : List Nat) →
    Decidable (ShortBursts interval cap ts)
  | [] => isTrue trivial
  | t :: ts =>
    have := decidableShortBursts interval cap ts
    inferInstanceAs (Decidable (t < burstStart interval t ts + cap ∧ ShortBursts interval cap ts))

def SyncLoop.Move.arrival : SyncLoop.Move → Option Nat
  | .receive _ time => some time
  | .wake => none

/--
The times of the messages, the latest first.
-/
def arrivals (moves : List SyncLoop.Move) : List Nat :=
  (moves.filterMap SyncLoop.Move.arrival).reverse

/-! ## The invariant of the loop -/

/--
How the steps and the times of the messages account for the variables of the loop.
-/
structure Consistent (config : SyncConfig) (ts : List Nat) (l : SyncLoop) : Prop where
  pending : unsynced l.events ≠ [] → l.pendingChanges = true
  lastGood : l.world.lastGood = lastSynced l.events
  restored : wentBack l.events = true → l.world.caddy = lastSynced l.events
  unsynced_of_unpicked : unpicked l.events ≠ [] → unsynced l.events ≠ []
  idle : unpicked l.events = [] → ∀ t ∈ ts.head?, t + config.debounceInterval ≤ l.asleepSince
  burst : ∀ t us, unpicked l.events = t :: us → l.asleepSince = t ∧ l.lastChange = t
    ∧ ∃ rest, ts = t :: rest ∧ (t :: us).getLast? = some (burstStart config.debounceInterval t rest)
  ordered : ∀ s ∈ (unpicked l.events).getLast?, ∀ t ∈ unpicked l.events, s ≤ t
  inTime : (∀ es, es <:+ l.events → InTime config es)
    ↔ ShortBursts config.debounceInterval (config.maxDebounceWait + config.debounceInterval) ts

section Steps

variable {caddyConfig : CaddyAdminConfig} {config : SyncConfig} {ts : List Nat} {l l' : SyncLoop}
  {world : World}

theorem inTime_of_nil {es : List Event} (h : unpicked es = []) : InTime config es := by
  intro e _ t ht
  rw [h] at ht
  cases ht

theorem forall_suffix_cons {P : List Event → Prop} {e : Event} {es : List Event}
    : (∀ fs, fs <:+ e :: es → P fs) ↔ P (e :: es) ∧ ∀ fs, fs <:+ es → P fs := by
  constructor
  . intro h
    exact ⟨h _ (List.suffix_refl _), fun fs hfs => h fs (hfs.trans (List.suffix_cons e es))⟩
  . intro h fs hfs
    cases List.suffix_cons_iff.mp hfs with
    | inl heq =>
      rw [heq]
      exact h.1
    | inr hfs => exact h.2 fs hfs

theorem consistent_start (h : SyncLoop.start caddyConfig world = some l) : Consistent config [] l := by
  have hsync := doSync_synced caddyConfig { world with loads := [] } rfl
  unfold Program.Ensures at hsync
  unfold SyncLoop.start at h
  split at h
  . next w heq =>
    rw [heq] at hsync
    cases h
    obtain ⟨_, c, hcaddy, hgood, hloads⟩ := hsync
    have hlast : lastSynced [.synced world.now (.ok ()) w.loads] = some c := by
      rw [lastSynced, hloads]
      rfl
    exact {
      pending := fun h => absurd rfl h
      lastGood := hgood.trans hlast.symm
      restored := fun h => by cases h
      unsynced_of_unpicked := fun h => absurd rfl h
      idle := fun _ t ht => by cases ht
      burst := fun t us h => by cases h
      ordered := fun s hs => by cases hs
      inTime := by
        rw [forall_suffix_cons]
        simp only [ShortBursts, iff_true]
        refine ⟨inTime_of_nil rfl, ?_⟩
        intro fs hfs
        rw [List.suffix_nil.mp hfs]
        exact inTime_of_nil rfl }
  . cases h

/--
The first message that waits when another one comes is the first of its burst.
-/
theorem Consistent.getLast? (h : Consistent config ts l) {time : Nat} (hfrom : l.asleepSince ≤ time)
    (hto : time < l.asleepSince + l.timeout config)
    : (time :: unpicked l.events).getLast? = some (burstStart config.debounceInterval time ts) := by
  cases hunpicked : unpicked l.events with
  | nil =>
    have hidle := h.idle hunpicked
    cases ts with
    | nil => rfl
    | cons s ts =>
      have := hidle s rfl
      rw [burstStart, if_neg (by omega)]
      rfl
  | cons s us =>
    obtain ⟨hsince, _, rest, hts, hlast⟩ := h.burst s us hunpicked
    have hpending := h.pending (h.unsynced_of_unpicked (by rw [hunpicked]; exact List.cons_ne_nil _ _))
    rw [SyncLoop.timeout, if_pos hpending, hsince] at hto
    rw [hts, burstStart, if_pos hto, ← hlast]
    exact List.getLast?_cons_cons

theorem Consistent.received (h : Consistent config ts l) {msg : SyncMessage} {time : Nat}
    (hstep : l.receive config msg time = some l') : Consistent config (time :: ts) l' := by
  unfold SyncLoop.receive at hstep
  split at hstep
  . next htime =>
    obtain ⟨hfrom, hto⟩ := htime
    have hlast := h.getLast? hfrom hto
    split at hstep
    . cases hstep
    . cases hstep
      have hle : ∀ s ∈ (time :: unpicked l.events).getLast?, ∀ t ∈ time :: unpicked l.events,
          s ≤ t := by
        intro s hs t ht
        cases hunpicked : unpicked l.events with
        | nil =>
          rw [hunpicked] at hs ht
          have hs : some time = some s := hs
          cases hs
          rw [List.mem_singleton.mp ht]
        | cons u us =>
          rw [hunpicked] at hs
          have hs : s ∈ (unpicked l.events).getLast? := by
            rw [hunpicked]
            exact hs
          cases ht with
          | head =>
            have := h.ordered s hs u (by rw [hunpicked]; exact List.mem_cons_self)
            have := (h.burst u us hunpicked).1
            omega
          | tail _ ht => exact h.ordered s hs t ht
      exact {
        pending := fun _ => rfl
        lastGood := h.lastGood
        restored := h.restored
        unsynced_of_unpicked := fun _ => List.cons_ne_nil _ _
        idle := fun h => by cases h
        burst := by
          intro t us heq
          cases heq
          exact ⟨rfl, rfl, ts, rfl, hlast⟩
        ordered := hle
        inTime := by
          rw [forall_suffix_cons, h.inTime, ShortBursts]
          apply and_congr_left
          intro _
          constructor
          . intro hin
            exact hin _ rfl _ (List.mem_of_getLast? hlast)
          . intro hin e he t ht
            cases he
            have := hle _ hlast t ht
            show time < _
            omega }
  . cases hstep

/--
The time at which a sleep ends leaves the last message an interval behind.
-/
theorem Consistent.idle_timeout (h : Consistent config ts l)
    : ∀ t ∈ ts.head?, t + config.debounceInterval ≤ l.asleepSince + l.timeout config := by
  intro t ht
  cases hunpicked : unpicked l.events with
  | nil =>
    have := h.idle hunpicked t ht
    omega
  | cons s us =>
    obtain ⟨hsince, _, rest, hts, _⟩ := h.burst s us hunpicked
    have hpending := h.pending (h.unsynced_of_unpicked (by rw [hunpicked]; exact List.cons_ne_nil _ _))
    rw [hts] at ht
    cases ht
    rw [SyncLoop.timeout, if_pos hpending, hsince]

/--
While a message waits, the end of a sleep starts a sync: the sleep was as long as the interval.
-/
theorem Consistent.shouldSync (h : Consistent config ts l) (hunpicked : unpicked l.events ≠ [])
    : l.shouldSync config (l.asleepSince + l.timeout config) = true := by
  have hpending := h.pending (h.unsynced_of_unpicked hunpicked)
  cases heq : unpicked l.events with
  | nil => exact absurd heq hunpicked
  | cons s us =>
    obtain ⟨hsince, hchange, _⟩ := h.burst s us heq
    simp only [SyncLoop.shouldSync, SyncLoop.timeout, hpending, hsince, hchange, if_true,
      Nat.add_sub_cancel_left, ge_iff_le, Nat.le_refl, decide_true, Bool.true_or, Bool.and_self]

theorem Consistent.woken (h : Consistent config ts l) (caddyConfig : CaddyAdminConfig)
    : Consistent config ts (l.wake caddyConfig config) := by
  have hidle := h.idle_timeout
  have hinTime : ∀ e : Event, unpicked (e :: l.events) = [] →
      ((∀ es, es <:+ e :: l.events → InTime config es) ↔ ShortBursts config.debounceInterval
        (config.maxDebounceWait + config.debounceInterval) ts) := by
    intro e he
    rw [forall_suffix_cons, h.inTime]
    exact and_iff_right (inTime_of_nil he)
  unfold SyncLoop.wake
  dsimp only
  split
  . have hsync := doSync_synced caddyConfig
      { l.world with now := l.asleepSince + l.timeout config, loads := [] } rfl
    unfold Program.Ensures at hsync
    split
    . next w heq =>
      rw [heq] at hsync
      obtain ⟨hnow, c, hcaddy, hgood, hloads⟩ := hsync
      exact {
        pending := fun h => absurd rfl h
        lastGood := by
          rw [hgood, lastSynced, hloads]
          rfl
        restored := fun h => by cases h
        unsynced_of_unpicked := fun h => absurd rfl h
        idle := fun _ t ht => Nat.le_trans (hidle t ht) hnow
        burst := fun t us h => by cases h
        ordered := fun s hs => by cases hs
        inTime := hinTime _ rfl }
    . next e w heq =>
      rw [heq] at hsync
      obtain ⟨hnow, hgood, hcaddy⟩ := hsync
      exact {
        pending := h.pending
        lastGood := hgood.trans h.lastGood
        restored := fun hback => (hcaddy hback).trans h.lastGood
        unsynced_of_unpicked := fun h => absurd rfl h
        idle := fun _ t ht => Nat.le_trans (hidle t ht) hnow
        burst := fun t us h => by cases h
        ordered := fun s hs => by cases hs
        inTime := hinTime _ rfl }
  . next hshould =>
    have hunpicked : unpicked l.events = [] := by
      apply Classical.byContradiction
      intro hne
      exact hshould (h.shouldSync hne)
    exact {
      pending := h.pending
      lastGood := h.lastGood
      restored := h.restored
      unsynced_of_unpicked := h.unsynced_of_unpicked
      idle := fun _ t ht => hidle t ht
      burst := fun t us heq => by
        have heq : unpicked l.events = t :: us := heq
        rw [hunpicked] at heq
        cases heq
      ordered := h.ordered
      inTime := hinTime _ hunpicked }

theorem Consistent.run {moves : List SyncLoop.Move} (h : Consistent config ts l)
    (hrun : moves.foldlM (SyncLoop.step caddyConfig config) l = some l')
    : Consistent config (arrivals moves ++ ts) l' := by
  induction moves generalizing l ts with
  | nil =>
    cases hrun
    exact h
  | cons m moves ih =>
    rw [List.foldlM_cons, Option.bind_eq_bind, Option.bind_eq_some_iff] at hrun
    obtain ⟨l₁, hstep, hrun⟩ := hrun
    cases m with
    | receive msg time =>
      have := ih (h.received hstep) hrun
      simpa [arrivals, SyncLoop.Move.arrival] using this
    | wake =>
      cases hstep
      have heq : arrivals (.wake :: moves) = arrivals moves := rfl
      rw [heq]
      exact ih (h.woken caddyConfig) hrun

end Steps

/--
After every run of the loop no message has waited too long if and only if its bursts are short.
-/
theorem prompt_iff {caddyConfig : CaddyAdminConfig} {config : SyncConfig} {world : World}
    {moves : List SyncLoop.Move} {l : SyncLoop}
    (hrun : SyncLoop.run caddyConfig config world moves = some l)
    : Prompt config l ↔ ShortBursts config.debounceInterval
        (config.maxDebounceWait + config.debounceInterval) (arrivals moves) := by
  unfold SyncLoop.run at hrun
  rw [Option.bind_eq_some_iff] at hrun
  obtain ⟨l₀, hstart, hrun⟩ := hrun
  have h := (@consistent_start _ config _ _ hstart).run hrun
  rw [List.append_nil] at h
  constructor
  . intro hprompt
    exact h.inTime.mp hprompt.inTime
  . intro hshort
    exact ⟨h.inTime.mpr hshort, h.pending, h.restored⟩

section Examples

/--
A debounce of 100, a cap of 1000 and a world in which Caddy takes every configuration.
-/
def defaults : SyncConfig :=
  ⟨100, 1000, 30000⟩

def caddyDefaults : CaddyAdminConfig :=
  ⟨none, none, "*.reactor.cloud", "admin@reactor.cloud", false, none⟩

def steady : World :=
  ⟨none, none, 0, [], fun _ => ⟨.served, .new, 0⟩⟩

def calm : List SyncLoop.Move :=
  [.receive .reload 10, .receive (.routeChanged "a.reactor.cloud") 50, .wake, .receive .reload 200]

theorem prompt_calm
    : ∃ l, SyncLoop.run caddyDefaults defaults steady calm = some l ∧ Prompt defaults l := by
  have hrun : (SyncLoop.run caddyDefaults defaults steady calm).isSome = true := by
    decide
  obtain ⟨l, hl⟩ := Option.isSome_iff_exists.mp hrun
  exact ⟨l, hl, (prompt_iff hl).mpr (by decide)⟩

/--
Messages 90 apart keep the loop from its first sync.
-/
def burst : List SyncLoop.Move :=
  (List.range 14).map (fun n => .receive .reload (90 * n))

theorem not_prompt : ¬ ∀ caddyConfig config world moves l,
    config.debounceInterval ≤ config.maxDebounceWait →
      SyncLoop.run caddyConfig config world moves = some l → Prompt config l := by
  intro h
  have hrun : (SyncLoop.run caddyDefaults defaults steady burst).isSome = true := by
    decide
  obtain ⟨l, hl⟩ := Option.isSome_iff_exists.mp hrun
  have hin := (h _ _ _ _ l (by decide) hl).inTime l.events (List.suffix_refl _)
  have hevents : (SyncLoop.run caddyDefaults defaults steady burst).map (fun l =>
      (l.events.head?.map Event.time, unpicked l.events))
        = some (some 1170, (List.range 14).reverse.map (90 * ·)) := by
    decide
  rw [hl, Option.map_some, Option.some.injEq, Prod.mk.injEq] at hevents
  obtain ⟨e, he, htime⟩ := Option.map_eq_some_iff.mp hevents.1
  have hlate := hin e he 0 (by rw [hevents.2]; decide)
  rw [htime] at hlate
  exact absurd hlate (by decide)

end Examples

end Reactor.Gateway
