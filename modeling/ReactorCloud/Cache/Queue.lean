import Mathlib
import ReactorCloud.Relational.Table
import ReactorCloud.Rust.Uuid

/-!
This module contains the queue of `PostgresBackend`. Every operation is one statement.
-/

namespace Reactor.Cache

open Relational (Table Constrained)
open Rust (Uuid)

abbrev Bytes := List UInt8

/-! ## Time -/

/--
Microseconds since 1970.
-/
abbrev Time := Int

/--
`std::time::Duration`
-/
structure Duration where
  secs : Nat
  nanos : Nat
  secs_lt : secs < 2 ^ 64
  nanos_lt : nanos < 10 ^ 9

def second : Duration :=
  ⟨1, 0, by decide, by decide⟩

/--
`chrono::Duration::from_std(d).unwrap_or_default()`: what does not fit is no time at all.
-/
def Duration.toChrono (d : Duration) : Time :=
  if d.secs * 10 ^ 9 + d.nanos ≤ (2 ^ 63 - 1) * 10 ^ 6 then d.secs * 10 ^ 6 + d.nanos / 1000 else 0

/--
The last microsecond of a `DateTime<Utc>`.
-/
def chronoMax : Time := 8210266876799999999

def i64Min : Int := -9223372036854775808

def i64Max : Int := 9223372036854775807

def i32Max : Int := 2147483647

/--
`n as i32`
-/
def asI32 (n : Nat) : Int :=
  Int.bmod n 4294967296

/--
`n as i64`
-/
def asI64 (n : Nat) : Int :=
  Int.bmod n 18446744073709551616

def minTimestamp : Time := -210866803200000000

def endTimestamp : Time := 9224318016000000000

/--
`now() + ($4 || ' seconds')::interval`
-/
def addSeconds (now : Time) (secs : Int) : Option Time :=
  let micros := secs * 1000000
  if i64Min ≤ micros ∧ micros ≤ i64Max ∧ minTimestamp ≤ now + micros ∧ now + micros < endTimestamp then
    some (now + micros)
  else
    none

/-! ## Rows -/

structure QueueRow where
  id : Uuid
  queueName : String
  data : Bytes
  visibleAt : Time
  attempt : Int
  createdAt : Time
  receipt : Option String
  deriving DecidableEq

instance : Constrained QueueRow where
  conflict r s := r.id == s.id || (r.receipt.isSome && r.receipt == s.receipt)
  conflict_comm r s := by
    rw [BEq.comm]
    congr 1
    cases r.receipt <;> cases s.receipt <;> simp [BEq.comm]

structure QueueItem where
  id : String
  receipt : String
  data : Bytes
  enqueuedAt : Time
  attempt : Int
  deriving DecidableEq

/--
A date that `chrono` cannot add to is a panic.
-/
inductive CacheError where
  | database
  | invalidReceipt (receipt : String)
  | overflow
  deriving DecidableEq, Repr

structure Queue where
  rows : Table QueueRow
  now : Time

/-! ## Operations -/

def visibleAfter (clock : Time) (delay : Duration) : Except CacheError Time :=
  if clock + delay.toChrono ≤ chronoMax then .ok (clock + delay.toChrono) else .error .overflow

def Queue.enqueue (q : Queue) (id : Uuid) (clock : Time) (queue : String) (item : Bytes)
    (delay : Option Duration) : Except CacheError String × Queue :=
  match delay.elim (.ok clock) (visibleAfter clock) with
  | .error e => (.error e, q)
  | .ok visibleAt =>
    match q.rows.insert ⟨id, queue, item, visibleAt, 0, q.now, none⟩ with
    | some rows => (.ok id.hyphenated, { q with rows })
    | none => (.error .database, q)

/--
The condition of the statement that dequeues.
-/
def QueueRow.visible (now : Time) (r : QueueRow) : Bool :=
  r.visibleAt ≤ now && r.receipt.isNone

def receiptOf (receiptPrefix id : Uuid) : String :=
  receiptPrefix.hyphenated ++ "-" ++ id.hyphenated

def QueueRow.lease (receiptPrefix : Uuid) (visibleAt : Time) (r : QueueRow) : QueueRow :=
  { r with receipt := some (receiptOf receiptPrefix r.id), visibleAt := visibleAt, attempt := r.attempt + 1 }

/--
The column is a 32 bit one.
-/
def QueueRow.exhausted (r : QueueRow) : Bool :=
  r.attempt ≥ i32Max

def QueueRow.item (r : QueueRow) : QueueItem where
  id := r.id.hyphenated
  receipt := r.receipt.getD ""
  data := r.data
  enqueuedAt := r.createdAt
  attempt := r.attempt

/--
The rows that others have locked are skipped.
-/
def Queue.candidates (q : Queue) (locked : Uuid → Bool) (queue : String) : List QueueRow :=
  (q.rows.select fun r => r.queueName == queue && r.visible q.now && !locked r.id).mergeSort
    (fun r s => r.visibleAt ≤ s.visibleAt)

/--
The update of the statement that dequeues.
-/
def Queue.leaseRows (q : Queue) (receiptPrefix : Uuid) (visibleAt : Time) (dequeued : List QueueRow)
    : Except CacheError (List QueueRow) × Queue :=
  if dequeued.any QueueRow.exhausted then
    (.error .database, q)
  else
    match q.rows.update (· ∈ dequeued) (·.lease receiptPrefix visibleAt) with
    | some rows => (.ok (dequeued.map (·.lease receiptPrefix visibleAt)), { q with rows })
    | none => (.error .database, q)

/--
A negative limit and a time that is out of range are errors of the statement.
-/
def Queue.dequeue (q : Queue) (receiptPrefix : Uuid) (locked : Uuid → Bool) (queue : String) (count : Nat)
    (visibilityTimeout : Duration) : Except CacheError (List QueueRow) × Queue :=
  if asI32 count < 0 then
    (.error .database, q)
  else
    match addSeconds q.now (asI64 visibilityTimeout.secs) with
    | none => (.error .database, q)
    | some visibleAt =>
      q.leaseRows receiptPrefix visibleAt ((q.candidates locked queue).take (asI32 count).toNat)

def Queue.ack (q : Queue) (_queue receipt : String) : Except CacheError Unit × Queue :=
  if q.rows.any (·.receipt == some receipt) then
    (.ok (), { q with rows := q.rows.delete (·.receipt == some receipt) })
  else
    (.error (.invalidReceipt receipt), q)

def QueueRow.release (visibleAt : Time) (r : QueueRow) : QueueRow :=
  { r with receipt := none, visibleAt := visibleAt }

def Queue.nack (q : Queue) (clock : Time) (_queue receipt : String) (delay : Option Duration)
    : Except CacheError Unit × Queue :=
  match delay.elim (.ok q.now) (visibleAfter clock) with
  | .error e => (.error e, q)
  | .ok visibleAt =>
    if q.rows.any (·.receipt == some receipt) then
      match q.rows.update (·.receipt == some receipt) (·.release visibleAt) with
      | some rows => (.ok (), { q with rows })
      | none => (.error .database, q)
    else
      (.error (.invalidReceipt receipt), q)

/-! ## Runs -/

inductive Op where
  | enqueue (queue : String) (item : Bytes) (delay : Option Duration)
  | dequeue (queue : String) (count : Nat) (visibilityTimeout : Duration)
  | ack (queue receipt : String)
  | nack (queue receipt : String) (delay : Option Duration)

/--
The id that is made in a call, the clock of the caller and the rows that other statements have locked.
-/
structure Surroundings where
  fresh : Uuid
  clock : Time
  locked : Uuid → Bool

/--
An item in the hands of a worker, and when its visibility timeout runs out.
-/
structure Delivery where
  worker : Nat
  id : Uuid
  visibleAt : Time
  item : QueueItem
  deriving DecidableEq

abbrev Delivery.receipt (d : Delivery) : String :=
  d.item.receipt

inductive Event where
  | enqueued (id : Uuid)
  | delivered (d : Delivery)
  | acked (receipt : String)
  | nacked (receipt : String)
  deriving DecidableEq

/--
The queue, the ids made so far and what has happened, the latest first.
-/
structure World where
  queue : Queue
  used : List Uuid
  trace : List Event

def World.start (now : Time) : World :=
  ⟨⟨.empty, now⟩, [], []⟩

def QueueRow.delivery (worker : Nat) (r : QueueRow) : Delivery :=
  ⟨worker, r.id, r.visibleAt, r.item⟩

/--
A worker that stops makes no further calls.
-/
inductive Move where
  | call (worker : Nat) (op : Op) (s : Surroundings)
  | tick (elapsed : Nat)

/--
What a call did to the queue, with the events of its answer.
-/
def World.after {α : Type} (w : World) (used : List Uuid) (result : Except CacheError α × Queue)
    (events : α → List Event) : World :=
  ⟨result.2, used, result.1.toOption.elim [] events ++ w.trace⟩

def World.call (w : World) (worker : Nat) (s : Surroundings) : Op → World
  | .enqueue queue item delay =>
    w.after (s.fresh :: w.used) (w.queue.enqueue s.fresh s.clock queue item delay)
      (fun _ => [.enqueued s.fresh])
  | .dequeue queue count visibilityTimeout =>
    w.after (s.fresh :: w.used) (w.queue.dequeue s.fresh s.locked queue count visibilityTimeout)
      (fun rows => rows.map (fun r => .delivered (r.delivery worker)))
  | .ack queue receipt => w.after w.used (w.queue.ack queue receipt) (fun _ => [.acked receipt])
  | .nack queue receipt delay =>
    w.after w.used (w.queue.nack s.clock queue receipt delay) (fun _ => [.nacked receipt])

/--
No id is made twice.
-/
def World.step (w : World) : Move → Option World
  | .call worker op s => if s.fresh ∈ w.used then none else some (w.call worker s op)
  | .tick elapsed => some { w with queue := { w.queue with now := w.queue.now + elapsed } }

/--
`P` holds in every world of the run.
-/
def Throughout (P : World → Prop) : List Move → World → Prop
  | [], w => P w
  | m :: ms, w => P w ∧ ∀ w', w.step m = some w' → Throughout P ms w'

theorem throughout_iff {P Q Inv : World → Prop} (hstep : ∀ w m w', Inv w → w.step m = some w' → Inv w')
    (hiff : ∀ w, Inv w → (P w ↔ Q w)) {ms : List Move} {w : World} (hw : Inv w)
    : Throughout P ms w ↔ Throughout Q ms w := by
  induction ms generalizing w with
  | nil => exact hiff w hw
  | cons m ms ih =>
    apply and_congr (hiff w hw)
    apply forall_congr'
    intro w'
    apply imp_congr_right
    intro hnext
    exact ih (hstep w m w' hw hnext)

end Reactor.Cache
