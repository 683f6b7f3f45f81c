import ReactorCloud.Cache.Queue

/-!
This module contains the keys and values of `PostgresBackend`, where every operation is one statement, and
proves when it is a map whose entries expire.
-/

/-! Maps whose entries expire -/

/--
The values and the times at which they expire.
-/
abbrev ExpiringMap (κ α τ : Type) :=
  κ → Option (α × Option τ)

namespace ExpiringMap

section

variable {κ α τ : Type} [LinearOrder τ] [DecidableEq κ]

def empty : ExpiringMap κ α τ :=
  fun _ => none

/--
An entry is there until it expires.
-/
def Live (now : τ) (entry : α × Option τ) : Prop :=
  ∀ deadline ∈ entry.2, now < deadline

instance (now : τ) (entry : α × Option τ) : Decidable (Live now entry) :=
  match h : entry.2 with
  | none => .isTrue (by simp [Live, h])
  | some deadline => decidable_of_iff (now < deadline) (by simp [Live, h])

/--
What has expired at the time is gone for good.
-/
def upTo (now : τ) (m : ExpiringMap κ α τ) : ExpiringMap κ α τ :=
  fun key => (m key).filter (fun entry => decide (Live now entry))

def insert (key : κ) (value : α) (deadline : Option τ) (m : ExpiringMap κ α τ) : ExpiringMap κ α τ :=
  Function.update m key (some (value, deadline))

def erase (key : κ) (m : ExpiringMap κ α τ) : ExpiringMap κ α τ :=
  Function.update m key none

def expireAt (key : κ) (deadline : τ) (m : ExpiringMap κ α τ) : ExpiringMap κ α τ :=
  Function.update m key ((m key).map (fun entry => (entry.1, some deadline)))

theorem Live.mono {now now' : τ} {entry : α × Option τ} (h : Live now' entry) (hle : now ≤ now') : Live now entry :=
  fun deadline hdeadline => lt_of_le_of_lt hle (h deadline hdeadline)

omit [DecidableEq κ] in
theorem upTo_upTo {now now' : τ} (hle : now ≤ now') (m : ExpiringMap κ α τ) : (m.upTo now).upTo now' = m.upTo now' := by
  funext key
  unfold upTo
  rw [Option.filter_filter]
  congr 1
  funext entry
  by_cases hlive : Live now' entry
  . rw [decide_eq_true hlive, decide_eq_true (hlive.mono hle), Bool.and_self]
  . rw [decide_eq_false hlive, Bool.and_false]

theorem upTo_update (now : τ) (key : κ) (entry : Option (α × Option τ)) (m : ExpiringMap κ α τ)
    : upTo now (Function.update m key entry)
        = Function.update (m.upTo now) key (entry.filter (fun entry => decide (Live now entry))) := by
  funext key'
  unfold upTo
  by_cases hkey : key' = key
  . subst hkey
    rw [Function.update_self, Function.update_self]
  . rw [Function.update_of_ne hkey, Function.update_of_ne hkey]

/--
An entry that is written at a time does not need to know what has expired then.
-/
theorem upTo_update_congr {now : τ} {m m' : ExpiringMap κ α τ} (h : m.upTo now = m'.upTo now) (key : κ)
    (entry : Option (α × Option τ)) : upTo now (Function.update m key entry) = upTo now (Function.update m' key entry) := by
  rw [upTo_update, upTo_update, h]

end

end ExpiringMap

/-! The store -/

namespace Reactor.Cache

/--
The rows of the table `kv` by their keys: the value and `expires_at`.
-/
abbrev Kv :=
  String → Option (Bytes × Option Time)

namespace Kv

def empty : Kv :=
  fun _ => none

/-- `expires_at IS NULL OR expires_at > now()` -/
def isLive (now : Time) (row : Bytes × Option Time) : Bool :=
  row.2.all (now < ·)

def get (kv : Kv) (now : Time) (key : String) : Option Bytes :=
  ((kv key).filter (isLive now)).map (·.1)

def set (kv : Kv) (now : Time) (key : String) (value : Bytes) (ttl : Option Duration) : Except CacheError Kv :=
  match ttl with
  | none => .ok (Function.update kv key (some (value, none)))
  | some ttl => do
    let expiresAt ← visibleAfter now ttl
    return Function.update kv key (some (value, some expiresAt))

/-- Whether there was a row, and what is left. -/
def del (kv : Kv) (key : String) : Bool × Kv :=
  ((kv key).isSome, Function.update kv key none)

def expire (kv : Kv) (now : Time) (key : String) (ttl : Duration) : Except CacheError (Bool × Kv) := do
  let expiresAt ← visibleAfter now ttl
  return ((kv key).isSome, Function.update kv key ((kv key).map (fun row => (row.1, some expiresAt))))

def existsKey (kv : Kv) (now : Time) (key : String) : Bool :=
  (kv key).any (isLive now)

end Kv

inductive KvCall where
  | get (key : String)
  | set (key : String) (value : Bytes) (ttl : Option Duration)
  | del (key : String)
  | expire (key : String) (ttl : Duration)
  | existsKey (key : String)

inductive KvReply where
  | value (value : Option Bytes)
  | done
  | flag (b : Bool)
  deriving DecidableEq, Repr

/--
A call at the time, what it answers and what it leaves.
-/
def Kv.call (kv : Kv) (now : Time) : KvCall → Except CacheError KvReply × Kv
  | .get key => (.ok (.value (kv.get now key)), kv)
  | .set key value ttl =>
    match kv.set now key value ttl with
    | .ok kv => (.ok .done, kv)
    | .error e => (.error e, kv)
  | .del key => (.ok (.flag (kv.del key).1), (kv.del key).2)
  | .expire key ttl =>
    match kv.expire now key ttl with
    | .ok (found, kv) => (.ok (.flag found), kv)
    | .error e => (.error e, kv)
  | .existsKey key => (.ok (.flag (kv.existsKey now key)), kv)

def Kv.run (kv : Kv) : List (Time × KvCall) → List (Except CacheError KvReply)
  | [] => []
  | (now, c) :: calls => (kv.call now c).1 :: (kv.call now c).2.run calls

/-! The map it stands for -/

/--
Nanoseconds since 1970, the resolution of a `Duration`.
-/
abbrev Nanos := Int

def nanosOf (now : Time) : Nanos :=
  1000 * now

def Duration.after (ttl : Duration) (now : Time) : Nanos :=
  nanosOf now + (ttl.secs * 10 ^ 9 + ttl.nanos : Nat)

abbrev KvMap := ExpiringMap String Bytes Nanos

/--
What a call answers by the contract: a key that has expired is one that was never set.
-/
def KvMap.call (m : KvMap) (now : Time) (c : KvCall) : KvReply × KvMap :=
  let m := m.upTo (nanosOf now)
  match c with
  | .get key => (.value ((m key).map (·.1)), m)
  | .set key value ttl => (.done, m.insert key value (ttl.map (·.after now)))
  | .del key => (.flag (m key).isSome, m.erase key)
  | .expire key ttl => (.flag (m key).isSome, m.expireAt key (ttl.after now))
  | .existsKey key => (.flag (m key).isSome, m)

def KvMap.run (m : KvMap) : List (Time × KvCall) → List KvReply
  | [] => []
  | (now, c) :: calls => (m.call now c).1 :: (m.call now c).2.run calls

def Ordered (calls : List (Time × KvCall)) : Prop :=
  calls.Pairwise (fun c c' => c.1 ≤ c'.1)

/--
Every call answers what the map says.
-/
def BehavesAsMap (calls : List (Time × KvCall)) : Prop :=
  Kv.empty.run calls = (KvMap.run ExpiringMap.empty calls).map Except.ok

/-! Where they agree -/

/--
The time to live fits into the types of the dates and is a whole number of microseconds.
-/
structure Duration.Fits (ttl : Duration) (now : Time) : Prop where
  delta : ttl.secs * 10 ^ 9 + ttl.nanos ≤ (2 ^ 63 - 1) * 10 ^ 6
  date : now + ttl.toChrono ≤ chronoMax
  micros : ttl.nanos % 1000 = 0

/--
There is no row of the key that has expired.
-/
def Kv.NotStale (kv : Kv) (now : Time) (key : String) : Prop :=
  ∀ row ∈ kv key, Kv.isLive now row = true

/--
The call gives a time to live that fits, and does not delete or prolong what has expired.
-/
def Kv.Proper (kv : Kv) (now : Time) : KvCall → Prop
  | .get _ | .existsKey _ => True
  | .set _ _ ttl => ∀ d ∈ ttl, d.Fits now
  | .del key => kv.NotStale now key
  | .expire key ttl => ttl.Fits now ∧ kv.NotStale now key

def Kv.AllProper (kv : Kv) : List (Time × KvCall) → Prop
  | [] => True
  | (now, c) :: calls => kv.Proper now c ∧ (kv.call now c).2.AllProper calls

/--
The rows with their deadlines in nanoseconds.
-/
def Kv.toMap (kv : Kv) : KvMap :=
  fun key => (kv key).map (fun row => (row.1, row.2.map nanosOf))

/-! ## Step by step -/

/--
The rows and the map say the same of every key at the time.
-/
def Kv.Means (kv : Kv) (now : Time) (m : KvMap) : Prop :=
  m.upTo (nanosOf now) = kv.toMap.upTo (nanosOf now)

section

variable {kv : Kv} {now : Time} {m : KvMap}

theorem isLive_eq (now : Time) (row : Bytes × Option Time)
    : Kv.isLive now row = decide (ExpiringMap.Live (nanosOf now) (row.1, row.2.map nanosOf)) := by
  rw [Bool.eq_iff_iff, decide_eq_true_eq]
  unfold Kv.isLive ExpiringMap.Live nanosOf
  cases row.2 with
  | none => simp
  | some deadline => simp

theorem toMap_upTo (kv : Kv) (now : Time) (key : String)
    : kv.toMap.upTo (nanosOf now) key
        = ((kv key).filter (Kv.isLive now)).map (fun row => (row.1, row.2.map nanosOf)) := by
  unfold ExpiringMap.upTo Kv.toMap
  cases kv key with
  | none => rfl
  | some row =>
    rw [Option.map_some, Option.filter_some, Option.filter_some, isLive_eq]
    split <;> rfl

theorem Kv.Means.get (h : kv.Means now m) (key : String)
    : m.upTo (nanosOf now) key = ((kv key).filter (isLive now)).map (fun row => (row.1, row.2.map nanosOf)) := by
  rw [show m.upTo (nanosOf now) = _ from h, toMap_upTo]

theorem Kv.Means.isSome (h : kv.Means now m) (key : String)
    : (m.upTo (nanosOf now) key).isSome = (kv key).any (isLive now) := by
  rw [h.get, Option.isSome_map, Option.isSome_filter]

theorem Kv.Means.later {now' : Time} (h : kv.Means now m) (hle : now ≤ now') : kv.Means now' m := by
  have hnanos : nanosOf now ≤ nanosOf now' := Int.mul_le_mul_of_nonneg_left hle (by decide)
  unfold Kv.Means at h ⊢
  rw [← ExpiringMap.upTo_upTo hnanos, h, ExpiringMap.upTo_upTo hnanos]

/--
A row that is written and the entry that is written are the same.
-/
theorem toMap_update (h : kv.Means now m) (key : String) (row : Option (Bytes × Option Time))
    : Kv.Means (Function.update kv key row) now
        (Function.update m key (row.map (fun row => (row.1, row.2.map nanosOf)))) := by
  have hrows : Kv.toMap (Function.update kv key row)
      = Function.update kv.toMap key (row.map (fun row => (row.1, row.2.map nanosOf))) := by
    funext key'
    unfold Kv.toMap
    by_cases hkey : key' = key
    . subst hkey
      rw [Function.update_self, Function.update_self]
    . rw [Function.update_of_ne hkey, Function.update_of_ne hkey]
  unfold Kv.Means
  rw [hrows]
  exact ExpiringMap.upTo_update_congr h key _

theorem Kv.NotStale.any (h : kv.NotStale now key) : (kv key).any (isLive now) = (kv key).isSome := by
  unfold Kv.NotStale at h
  cases hrow : kv key with
  | none => rfl
  | some row => exact h row hrow

theorem Kv.NotStale.filter (h : kv.NotStale now key) : (kv key).filter (isLive now) = kv key := by
  unfold Kv.NotStale at h
  cases hrow : kv key with
  | none => rfl
  | some row => rw [Option.filter_some, if_pos (h row hrow)]

theorem Duration.Fits.visibleAfter {ttl : Duration} (h : ttl.Fits now)
    : ∃ expiresAt, Cache.visibleAfter now ttl = .ok expiresAt ∧ nanosOf expiresAt = ttl.after now := by
  refine ⟨now + ttl.toChrono, if_pos h.date, ?_⟩
  have hmicros := h.micros
  have hnanos : ∀ now : Int,
      1000 * (now + (ttl.secs * 10 ^ 6 + ttl.nanos / 1000)) = 1000 * now + (ttl.secs * 10 ^ 9 + ttl.nanos : Nat) := by
    omega
  unfold nanosOf Duration.after Duration.toChrono
  rw [if_pos h.delta]
  exact hnanos now

/--
A proper call answers what the map says, and the rows still say the same as the map.
-/
theorem Kv.Means.call (h : kv.Means now m) {c : KvCall} (hproper : kv.Proper now c)
    : (kv.call now c).1 = .ok (m.call now c).1 ∧ (kv.call now c).2.Means now (m.call now c).2 := by
  have hsame : kv.Means now (m.upTo (nanosOf now)) := by
    unfold Kv.Means
    rw [ExpiringMap.upTo_upTo (le_refl _)]
    exact h
  cases c with
  | get key =>
    refine ⟨?_, hsame⟩
    show Except.ok (KvReply.value _) = Except.ok (KvReply.value _)
    rw [h.get, Option.map_map]
    rfl
  | existsKey key =>
    refine ⟨?_, hsame⟩
    show Except.ok (KvReply.flag _) = Except.ok (KvReply.flag _)
    rw [h.isSome]
    rfl
  | set key value ttl =>
    cases ttl with
    | none => exact ⟨rfl, toMap_update hsame key _⟩
    | some ttl =>
      have ⟨expiresAt, hvisible, hnanos⟩ := (hproper ttl rfl).visibleAfter
      have hcall : kv.call now (.set key value (some ttl))
          = (.ok .done, Function.update kv key (some (value, some expiresAt))) := by
        simp only [Kv.call, Kv.set, hvisible]
        rfl
      rw [hcall]
      refine ⟨rfl, ?_⟩
      have hupdate := toMap_update hsame key (some (value, some expiresAt))
      rw [Option.map_some, Option.map_some, hnanos] at hupdate
      exact hupdate
  | del key =>
    refine ⟨?_, toMap_update hsame key none⟩
    show Except.ok (KvReply.flag _) = Except.ok (KvReply.flag _)
    rw [h.isSome, Kv.NotStale.any hproper]
    rfl
  | expire key ttl =>
    have ⟨expiresAt, hvisible, hnanos⟩ := hproper.1.visibleAfter
    have hcall : kv.call now (.expire key ttl)
        = (.ok (.flag (kv key).isSome),
          Function.update kv key ((kv key).map (fun row => (row.1, some expiresAt)))) := by
      simp only [Kv.call, Kv.expire, hvisible]
      rfl
    rw [hcall]
    constructor
    . show Except.ok (KvReply.flag _) = Except.ok (KvReply.flag _)
      rw [h.isSome, hproper.2.any]
    . have hupdate := toMap_update hsame key ((kv key).map (fun row => (row.1, some expiresAt)))
      have hrow : m.upTo (nanosOf now) key = (kv key).map (fun row => (row.1, row.2.map nanosOf)) := by
        rw [h.get, hproper.2.filter]
      have hentry : ((kv key).map (fun row => (row.1, some expiresAt))).map (fun row => (row.1, row.2.map nanosOf))
          = (m.upTo (nanosOf now) key).map (fun entry => (entry.1, some (ttl.after now))) := by
        rw [hrow, Option.map_map, Option.map_map, ← hnanos]
        rfl
      rw [hentry] at hupdate
      exact hupdate

end

/--
Calls at times that do not go back, each of them proper where it is made, answer what the map says.
-/
theorem behavesAsMap_of_allProper (calls : List (Time × KvCall)) (hordered : Ordered calls)
    (hproper : Kv.empty.AllProper calls) : BehavesAsMap calls := by
  have hrun : ∀ (kv : Kv) (m : KvMap), (∀ c ∈ calls, kv.Means c.1 m) → kv.AllProper calls →
      kv.run calls = (m.run calls).map Except.ok := by
    clear hproper
    induction calls with
    | nil => exact fun _ _ _ _ => rfl
    | cons c calls ih =>
      intro kv m hmeans hproper
      have hcons := List.pairwise_cons.mp hordered
      have ⟨hanswer, hstep⟩ := (hmeans c List.mem_cons_self).call hproper.1
      rw [Kv.run, KvMap.run, List.map_cons, hanswer]
      congr 1
      apply ih hcons.2 _ _ _ hproper.2
      intro c' hc'
      exact hstep.later (hcons.1 c' hc')
  exact hrun Kv.empty ExpiringMap.empty (fun _ _ => rfl) hproper

theorem behavesAsMap_of_allProper_session : BehavesAsMap [(0, .set "session" [1] (some second)), (1, .get "session"),
    (2, .expire "session" second), (1500000, .existsKey "session"), (1500001, .set "session" [2] none),
    (1500002, .del "session")] := by
  have hset : second.Fits 0 := ⟨by decide, by decide, by decide⟩
  have hexpire : second.Fits 2 := ⟨by decide, by decide, by decide⟩
  apply behavesAsMap_of_allProper
  . unfold Ordered
    decide
  . refine ⟨?_, trivial, ⟨hexpire, ?_⟩, trivial, nofun, ?_, trivial⟩
    . intro ttl httl
      cases httl
      exact hset
    . unfold Kv.NotStale
      decide
    . show Kv.NotStale _ _ _
      unfold Kv.NotStale
      decide

/--
A key that has expired is still there to be deleted.
-/
theorem not_behavesAsMap : ¬ ∀ calls, Ordered calls → BehavesAsMap calls := by
  intro h
  have hbehaves := h [(0, .set "session" [1] (some second)), (1000000, .del "session")] (by unfold Ordered; decide)
  have hrows : Kv.empty.run [(0, .set "session" [1] (some second)), (1000000, .del "session")]
      = [.ok .done, .ok (.flag true)] := rfl
  have hmap : KvMap.run ExpiringMap.empty [(0, .set "session" [1] (some second)), (1000000, .del "session")]
      = [.done, .flag false] := rfl
  unfold BehavesAsMap at hbehaves
  rw [hrows, hmap] at hbehaves
  cases hbehaves

end Reactor.Cache
