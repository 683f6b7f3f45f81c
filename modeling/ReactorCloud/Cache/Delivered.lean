import ReactorCloud.Cache.Queue

/-!
This module contains what is known of the items of a queue at any time. A row that has a receipt is never
visible, whatever its `visible_at` says, so that only a worker can bring its item back.
-/

namespace Reactor.Cache

open Relational (Table Constrained)
open Rust (Uuid)

/-! ## What is to be shown -/

/--
The delivery has been neither acknowledged nor given back.
-/
def Outstanding (w : World) (d : Delivery) : Prop :=
  .delivered d ∈ w.trace ∧ .acked d.receipt ∉ w.trace ∧ .nacked d.receipt ∉ w.trace

def Acked (w : World) (id : Uuid) : Prop :=
  ∃ d, .delivered d ∈ w.trace ∧ d.id = id ∧ .acked d.receipt ∈ w.trace

/--
Every item that is enqueued and not acknowledged is visible, or will be when its time has come.
-/
def AtLeastOnce (w : World) : Prop :=
  ∀ id, .enqueued id ∈ w.trace → ¬ Acked w id →
    ∃ r ∈ w.queue.rows, r.id = id ∧ (r.visible w.queue.now = true ∨ w.queue.now < r.visibleAt)

/--
An item is in the hands of one worker at most.
-/
def Exclusive (w : World) : Prop :=
  ∀ d d', Outstanding w d → Outstanding w d' → d.id = d'.id → d = d'

/--
An acknowledgement removes the item of its delivery and nothing else.
-/
def AckExact (w : World) : Prop :=
  ∀ queue receipt,
    (∀ d, Outstanding w d → d.receipt = receipt → (w.queue.ack queue receipt).1 = .ok ()
      ∧ ∀ r, r ∈ (w.queue.ack queue receipt).2.rows ↔ r ∈ w.queue.rows ∧ r.id ≠ d.id)
    ∧ ((∀ d, Outstanding w d → d.receipt ≠ receipt) →
      w.queue.ack queue receipt = (.error (.invalidReceipt receipt), w.queue))

structure NeverLoses (w : World) : Prop where
  atLeastOnce : AtLeastOnce w
  exclusive : Exclusive w
  ackExact : AckExact w

/--
Every delivery that has run out of time was acknowledged or given back before.
-/
def OnTime (w : World) : Prop :=
  ∀ d, Outstanding w d → w.queue.now < d.visibleAt

/-! ## Steps -/

inductive Steps (w : World) : World → Prop where
  | quiet {q : Queue} {used : List Uuid} (hrows : q.rows = w.queue.rows) (hused : w.used ⊆ used)
    : Steps w ⟨q, used, w.trace⟩
  | enqueued {rows : Table QueueRow} {r : QueueRow} (hfresh : r.id ∉ w.used) (hreceipt : r.receipt = none)
    (hrows : ∀ s, s ∈ rows ↔ s = r ∨ s ∈ w.queue.rows)
    : Steps w ⟨⟨rows, w.queue.now⟩, r.id :: w.used, .enqueued r.id :: w.trace⟩
  | delivered {rows : Table QueueRow} {worker : Nat} {p : Uuid} {visibleAt : Time} {taken : List QueueRow}
    (hfresh : p ∉ w.used) (htaken : ∀ r ∈ taken, r ∈ w.queue.rows ∧ r.receipt = none)
    (hrows : ∀ s, s ∈ rows ↔ ∃ r ∈ w.queue.rows, (if r ∈ taken then r.lease p visibleAt else r) = s)
    : Steps w ⟨⟨rows, w.queue.now⟩, p :: w.used,
      taken.map (fun r => .delivered ((r.lease p visibleAt).delivery worker)) ++ w.trace⟩
  | acked {rows : Table QueueRow} {receipt : String} (hheld : ∃ r ∈ w.queue.rows, r.receipt = some receipt)
    (hrows : ∀ s, s ∈ rows ↔ s ∈ w.queue.rows ∧ s.receipt ≠ some receipt)
    : Steps w ⟨⟨rows, w.queue.now⟩, w.used, .acked receipt :: w.trace⟩
  | nacked {rows : Table QueueRow} {receipt : String} {visibleAt : Time}
    (hheld : ∃ r ∈ w.queue.rows, r.receipt = some receipt)
    (hrows : ∀ s, s ∈ rows ↔ ∃ r ∈ w.queue.rows,
      (if r.receipt = some receipt then r.release visibleAt else r) = s)
    : Steps w ⟨⟨rows, w.queue.now⟩, w.used, .nacked receipt :: w.trace⟩

theorem Steps.error {α : Type} (w : World) {used : List Uuid} (hused : w.used ⊆ used) (e : CacheError)
    (events : α → List Event) : Steps w (w.after used (.error e, w.queue) events) :=
  .quiet rfl hused

theorem mem_candidates {q : Queue} {locked : Uuid → Bool} {queue : String} {r : QueueRow}
    (h : r ∈ q.candidates locked queue) : r ∈ q.rows ∧ r.receipt = none := by
  rw [Queue.candidates, List.mem_mergeSort, Table.mem_select] at h
  obtain ⟨hr, hp⟩ := h
  simp only [QueueRow.visible, Bool.and_eq_true, Option.isNone_iff_eq_none] at hp
  exact ⟨hr, hp.1.2.2⟩

theorem steps_enqueue (w : World) {id : Uuid} (hfresh : id ∉ w.used) (clock : Time) (queue : String)
    (item : Bytes) (delay : Option Duration)
    : Steps w (w.after (id :: w.used) (w.queue.enqueue id clock queue item delay)
      (fun _ => [.enqueued id])) := by
  have herror := fun e => Steps.error w (List.subset_cons_self id _) e (fun _ : String => [.enqueued id])
  unfold Queue.enqueue
  cases delay.elim (.ok clock) (visibleAfter clock) with
  | error e => exact herror e
  | ok visibleAt =>
    dsimp only
    cases hinsert : w.queue.rows.insert ⟨id, queue, item, visibleAt, 0, w.queue.now, none⟩ with
    | none => exact herror _
    | some rows =>
      exact .enqueued (r := ⟨id, queue, item, visibleAt, 0, w.queue.now, none⟩) hfresh rfl
        (fun _ => Table.mem_insert hinsert)

theorem steps_leaseRows (w : World) (worker : Nat) {id : Uuid} (hfresh : id ∉ w.used) (visibleAt : Time)
    {taken : List QueueRow} (htaken : ∀ r ∈ taken, r ∈ w.queue.rows ∧ r.receipt = none)
    : Steps w (w.after (id :: w.used) (w.queue.leaseRows id visibleAt taken)
      (fun rows => rows.map (fun r => .delivered (r.delivery worker)))) := by
  have herror := fun e => Steps.error w (List.subset_cons_self id _) e
    (fun rows : List QueueRow => rows.map (fun r => .delivered (r.delivery worker)))
  unfold Queue.leaseRows
  by_cases hattempt : taken.any QueueRow.exhausted = true
  . rw [if_pos hattempt]
    exact herror _
  rw [if_neg hattempt]
  cases hupdate : w.queue.rows.update (· ∈ taken) (·.lease id visibleAt) with
  | none => exact herror _
  | some rows =>
    rw [World.after]
    simp only [Except.toOption, Option.elim_some, List.map_map]
    refine .delivered hfresh htaken ?_
    intro r
    rw [Table.mem_update hupdate]
    simp

theorem steps_dequeue (w : World) (worker : Nat) {id : Uuid} (hfresh : id ∉ w.used)
    (locked : Uuid → Bool) (queue : String) (count : Nat) (timeout : Duration)
    : Steps w (w.after (id :: w.used) (w.queue.dequeue id locked queue count timeout)
      (fun rows => rows.map (fun r => .delivered (r.delivery worker)))) := by
  have herror := fun e => Steps.error w (List.subset_cons_self id _) e
    (fun rows : List QueueRow => rows.map (fun r => .delivered (r.delivery worker)))
  unfold Queue.dequeue
  split
  . exact herror _
  . cases addSeconds w.queue.now (asI64 timeout.secs) with
    | none => exact herror _
    | some visibleAt =>
      apply steps_leaseRows w worker hfresh visibleAt
      intro r hr
      exact mem_candidates (List.mem_of_mem_take hr)

theorem steps_ack (w : World) (queue receipt : String)
    : Steps w (w.after w.used (w.queue.ack queue receipt) (fun _ => [.acked receipt])) := by
  unfold Queue.ack
  by_cases hany : w.queue.rows.any (·.receipt == some receipt) = true
  . rw [if_pos hany]
    refine .acked (by simpa [Table.any_eq_true] using hany) ?_
    intro r
    rw [Table.mem_delete]
    simp
  . rw [if_neg hany]
    exact .error w (List.Subset.refl _) _ _

theorem steps_nack (w : World) (clock : Time) (queue receipt : String) (delay : Option Duration)
    : Steps w (w.after w.used (w.queue.nack clock queue receipt delay) (fun _ => [.nacked receipt])) := by
  have herror := fun e => Steps.error w (List.Subset.refl _) e (fun _ : Unit => [.nacked receipt])
  unfold Queue.nack
  cases delay.elim (.ok w.queue.now) (visibleAfter clock) with
  | error e => exact herror e
  | ok visibleAt =>
    dsimp only
    by_cases hany : w.queue.rows.any (·.receipt == some receipt) = true
    . rw [if_pos hany]
      cases hupdate : w.queue.rows.update (·.receipt == some receipt) (·.release visibleAt) with
      | none => exact herror _
      | some rows =>
        refine @Steps.nacked w rows receipt visibleAt (by simpa [Table.any_eq_true] using hany) ?_
        intro r
        rw [Table.mem_update hupdate]
        simp
    . rw [if_neg hany]
      exact herror _

theorem steps_of_step {w w' : World} {m : Move} (h : w.step m = some w') : Steps w w' := by
  cases m with
  | tick elapsed =>
    cases h
    exact .quiet rfl (List.Subset.refl _)
  | call worker op s =>
    rw [World.step] at h
    split at h
    . cases h
    . next hfresh =>
      cases h
      cases op with
      | enqueue queue item delay => exact steps_enqueue w hfresh s.clock queue item delay
      | dequeue queue count timeout => exact steps_dequeue w worker hfresh s.locked queue count timeout
      | ack queue receipt => exact steps_ack w queue receipt
      | nack queue receipt delay => exact steps_nack w s.clock queue receipt delay

/-! ## Invariant -/

/--
The rows and the deliveries of the trace belong together.
-/
structure Consistent (w : World) : Prop where
  enqueued : ∀ id, .enqueued id ∈ w.trace → (∃ r ∈ w.queue.rows, r.id = id) ∨ Acked w id
  known : ∀ r ∈ w.queue.rows, r.id ∈ w.used ∧ .enqueued r.id ∈ w.trace
  held : ∀ r ∈ w.queue.rows, ∀ receipt, r.receipt = some receipt → ∃ d, Outstanding w d ∧ d.receipt = receipt
  row : ∀ d, Outstanding w d →
    ∃ r ∈ w.queue.rows, r.id = d.id ∧ r.receipt = some d.receipt ∧ r.visibleAt = d.visibleAt
  issued : ∀ d, .delivered d ∈ w.trace → d.id ∈ w.used ∧ ∃ p ∈ w.used, d.receipt = receiptOf p d.id
  unique : ∀ d d', .delivered d ∈ w.trace → .delivered d' ∈ w.trace → d.receipt = d'.receipt → d = d'
  ended : ∀ receipt, .acked receipt ∈ w.trace ∨ .nacked receipt ∈ w.trace →
    ∃ d, .delivered d ∈ w.trace ∧ d.receipt = receipt
  gone : ∀ id, Acked w id → ∀ r ∈ w.queue.rows, r.id ≠ id

section Invariant

variable {w : World}

theorem eq_of_id {rows : Table QueueRow} {r s : QueueRow} (hr : r ∈ rows) (hs : s ∈ rows)
    (h : r.id = s.id) : r = s := by
  apply Table.eq_of_conflict hr hs
  simp [Constrained.conflict, h]

theorem receiptOf_inj {p p' id id' : Uuid} (h : receiptOf p id = receiptOf p' id') : p = p' ∧ id = id' := by
  have hlists := congrArg String.toList h
  simp only [receiptOf, String.toList_append, List.append_assoc] at hlists
  obtain ⟨hp, hrest⟩ := List.append_inj hlists (by simp [Uuid.length_hyphenated])
  constructor
  . exact Uuid.hyphenated_inj (String.toList_inj.mp hp)
  . exact Uuid.hyphenated_inj (String.toList_inj.mp (List.append_cancel_left hrest))

theorem eq_of_receipt {rows : Table QueueRow} {r s : QueueRow} (hr : r ∈ rows) (hs : s ∈ rows)
    {receipt : String} (hreceipt : r.receipt = some receipt) (heq : s.receipt = some receipt) : r = s := by
  apply Table.eq_of_conflict hr hs
  simp [Constrained.conflict, hreceipt, heq]

theorem Consistent.start (now : Time) : Consistent (.start now) := by
  constructor <;> simp [World.start, Table.not_mem_empty, Acked, Outstanding]

theorem Consistent.quiet (h : Consistent w) {q : Queue} {used : List Uuid}
    (hrows : q.rows = w.queue.rows) (hused : w.used ⊆ used) : Consistent ⟨q, used, w.trace⟩ := by
  constructor
  . intro id hid
    rw [hrows]
    exact h.enqueued id hid
  . intro r hr
    rw [hrows] at hr
    exact ⟨hused (h.known r hr).1, (h.known r hr).2⟩
  . intro r hr
    rw [hrows] at hr
    exact h.held r hr
  . intro d hd
    rw [hrows]
    exact h.row d hd
  . intro d hd
    obtain ⟨hid, p, hp, hreceipt⟩ := h.issued d hd
    exact ⟨hused hid, p, hused hp, hreceipt⟩
  . exact h.unique
  . exact h.ended
  . intro id hid
    rw [hrows]
    exact h.gone id hid

theorem Consistent.afterEnqueue (h : Consistent w) {rows : Table QueueRow} {r : QueueRow}
    (hfresh : r.id ∉ w.used) (hreceipt : r.receipt = none)
    (hrows : ∀ s, s ∈ rows ↔ s = r ∨ s ∈ w.queue.rows)
    : Consistent ⟨⟨rows, w.queue.now⟩, r.id :: w.used, .enqueued r.id :: w.trace⟩ := by
  have houtstanding : ∀ d, Outstanding ⟨⟨rows, w.queue.now⟩, r.id :: w.used, .enqueued r.id :: w.trace⟩ d
      ↔ Outstanding w d := by
    simp [Outstanding]
  have hacked : ∀ id, Acked ⟨⟨rows, w.queue.now⟩, r.id :: w.used, .enqueued r.id :: w.trace⟩ id
      ↔ Acked w id := by
    simp [Acked]
  constructor
  . intro id hid
    rw [hacked]
    cases hid with
    | head => exact .inl ⟨r, (hrows r).mpr (.inl rfl), rfl⟩
    | tail _ hid =>
      apply (h.enqueued id hid).imp_left
      rintro ⟨s, hs, heq⟩
      exact ⟨s, (hrows s).mpr (.inr hs), heq⟩
  . intro s hs
    cases (hrows s).mp hs with
    | inl heq =>
      subst heq
      exact ⟨List.mem_cons_self, List.mem_cons_self⟩
    | inr hs =>
      exact ⟨List.mem_cons_of_mem _ (h.known s hs).1, List.mem_cons_of_mem _ (h.known s hs).2⟩
  . intro s hs receipt hsome
    simp only [houtstanding]
    cases (hrows s).mp hs with
    | inl heq =>
      rw [heq, hreceipt] at hsome
      cases hsome
    | inr hs => exact h.held s hs receipt hsome
  . intro d hd
    obtain ⟨s, hs, hrow⟩ := h.row d ((houtstanding d).mp hd)
    exact ⟨s, (hrows s).mpr (.inr hs), hrow⟩
  . intro d hd
    obtain ⟨hid, p, hp, heq⟩ := h.issued d (by simpa using hd)
    exact ⟨List.mem_cons_of_mem _ hid, p, List.mem_cons_of_mem _ hp, heq⟩
  . intro d d' hd hd'
    exact h.unique d d' (by simpa using hd) (by simpa using hd')
  . intro receipt hend
    obtain ⟨d, hd, heq⟩ := h.ended receipt (by simpa using hend)
    exact ⟨d, List.mem_cons_of_mem _ hd, heq⟩
  . intro id hid s hs
    rw [hacked] at hid
    cases (hrows s).mp hs with
    | inl heq =>
      subst heq
      obtain ⟨d, hd, rfl, _⟩ := hid
      intro heq
      rw [heq] at hfresh
      exact hfresh (h.issued d hd).1
    | inr hs => exact h.gone id hid s hs

theorem lease_ite_id {taken : List QueueRow} {p : Uuid} {visibleAt : Time} (r : QueueRow)
    : (if r ∈ taken then r.lease p visibleAt else r).id = r.id := by
  split <;> rfl

theorem release_ite_id {receipt : String} {visibleAt : Time} (r : QueueRow)
    : (if r.receipt = some receipt then r.release visibleAt else r).id = r.id := by
  split <;> rfl

/--
The receipts of a new delivery begin with an id that no receipt before them begins with.
-/
theorem Consistent.not_issued (h : Consistent w) {p id : Uuid} (hfresh : p ∉ w.used) {d : Delivery}
    (hd : .delivered d ∈ w.trace) : d.receipt ≠ receiptOf p id := by
  intro heq
  obtain ⟨_, p', hp', hreceipt⟩ := h.issued d hd
  rw [hreceipt] at heq
  rw [(receiptOf_inj heq).1] at hp'
  exact hfresh hp'

theorem Consistent.not_ended (h : Consistent w) {p id : Uuid} (hfresh : p ∉ w.used)
    : .acked (receiptOf p id) ∉ w.trace ∧ .nacked (receiptOf p id) ∉ w.trace := by
  rw [← not_or]
  intro hend
  obtain ⟨d, hd, heq⟩ := h.ended _ hend
  exact h.not_issued hfresh hd heq

theorem Consistent.afterDeliver (h : Consistent w) {rows : Table QueueRow} {worker : Nat} {p : Uuid}
    {visibleAt : Time} {taken : List QueueRow} (hfresh : p ∉ w.used)
    (htaken : ∀ r ∈ taken, r ∈ w.queue.rows ∧ r.receipt = none)
    (hrows : ∀ s, s ∈ rows ↔ ∃ r ∈ w.queue.rows, (if r ∈ taken then r.lease p visibleAt else r) = s)
    : Consistent ⟨⟨rows, w.queue.now⟩, p :: w.used,
      taken.map (fun r => .delivered ((r.lease p visibleAt).delivery worker)) ++ w.trace⟩ := by
  set w' : World := ⟨⟨rows, w.queue.now⟩, p :: w.used,
    taken.map (fun r => .delivered ((r.lease p visibleAt).delivery worker)) ++ w.trace⟩ with hw'
  have hdelivered : ∀ d, .delivered d ∈ w'.trace
      ↔ (∃ r ∈ taken, (r.lease p visibleAt).delivery worker = d) ∨ .delivered d ∈ w.trace := by
    simp [hw']
  have hended : ∀ receipt, (.acked receipt ∈ w'.trace ↔ .acked receipt ∈ w.trace)
      ∧ (.nacked receipt ∈ w'.trace ↔ .nacked receipt ∈ w.trace) := by
    simp [hw']
  have hold : ∀ d, Outstanding w d → Outstanding w' d := by
    rintro d ⟨hd, hacked, hnacked⟩
    rw [Outstanding, hdelivered, (hended _).1, (hended _).2]
    exact ⟨.inr hd, hacked, hnacked⟩
  have hnew : ∀ r ∈ taken, Outstanding w' ((r.lease p visibleAt).delivery worker) := by
    intro r hr
    rw [Outstanding, hdelivered, (hended _).1, (hended _).2]
    exact ⟨.inl ⟨r, hr, rfl⟩, h.not_ended hfresh⟩
  have hacked : ∀ id, Acked w' id → Acked w id := by
    rintro id ⟨d, hd, hid, hacked⟩
    rw [(hended _).1] at hacked
    cases (hdelivered d).mp hd with
    | inl hd =>
      obtain ⟨r, hr, rfl⟩ := hd
      exact absurd hacked (h.not_ended hfresh).1
    | inr hd => exact ⟨d, hd, hid, hacked⟩
  have hmem : ∀ r ∈ w.queue.rows, (if r ∈ taken then r.lease p visibleAt else r) ∈ rows := by
    intro r hr
    rw [hrows]
    exact ⟨r, hr, rfl⟩
  constructor
  . intro id hid
    have hid : .enqueued id ∈ w.trace := by simpa [hw'] using hid
    apply (h.enqueued id hid).imp
    . rintro ⟨r, hr, heq⟩
      exact ⟨_, hmem r hr, (lease_ite_id r).trans heq⟩
    . rintro ⟨d, hd, heq, hacked⟩
      exact ⟨d, (hdelivered d).mpr (.inr hd), heq, ((hended _).1).mpr hacked⟩
  . intro s hs
    obtain ⟨r, hr, rfl⟩ := (hrows s).mp hs
    rw [lease_ite_id]
    exact ⟨List.mem_cons_of_mem _ (h.known r hr).1, List.mem_append_right _ (h.known r hr).2⟩
  . intro s hs receipt hsome
    obtain ⟨r, hr, rfl⟩ := (hrows s).mp hs
    split at hsome
    . next hin => exact ⟨_, hnew r hin, Option.some.inj hsome⟩
    . obtain ⟨d, hd, heq⟩ := h.held r hr receipt hsome
      exact ⟨d, hold d hd, heq⟩
  . rintro d ⟨hd, hnotacked, hnotnacked⟩
    cases (hdelivered d).mp hd with
    | inl hd =>
      obtain ⟨r, hin, rfl⟩ := hd
      refine ⟨_, hmem r (htaken r hin).1, ?_⟩
      rw [if_pos hin]
      exact ⟨rfl, rfl, rfl⟩
    | inr hd =>
      rw [(hended _).1] at hnotacked
      rw [(hended _).2] at hnotnacked
      obtain ⟨r, hr, hrow⟩ := h.row d ⟨hd, hnotacked, hnotnacked⟩
      refine ⟨_, hmem r hr, ?_⟩
      -- what has a receipt is not taken
      rw [if_neg]
      . exact hrow
      . intro hin
        rw [(htaken r hin).2] at hrow
        cases hrow.2.1
  . intro d hd
    cases (hdelivered d).mp hd with
    | inl hd =>
      obtain ⟨r, hin, rfl⟩ := hd
      exact ⟨List.mem_cons_of_mem _ (h.known r (htaken r hin).1).1, p, List.mem_cons_self, rfl⟩
    | inr hd =>
      obtain ⟨hid, p', hp', heq⟩ := h.issued d hd
      exact ⟨List.mem_cons_of_mem _ hid, p', List.mem_cons_of_mem _ hp', heq⟩
  . intro d d' hd hd' heq
    cases (hdelivered d).mp hd with
    | inl hd =>
      obtain ⟨r, hin, rfl⟩ := hd
      cases (hdelivered d').mp hd' with
      | inl hd' =>
        obtain ⟨r', hin', rfl⟩ := hd'
        have hid : r.id = r'.id := (receiptOf_inj heq).2
        rw [eq_of_id (htaken r hin).1 (htaken r' hin').1 hid]
      | inr hd' => exact absurd heq.symm (h.not_issued hfresh hd')
    | inr hd =>
      cases (hdelivered d').mp hd' with
      | inl hd' =>
        obtain ⟨r', hin', rfl⟩ := hd'
        exact absurd heq (h.not_issued hfresh hd)
      | inr hd' => exact h.unique d d' hd hd' heq
  . intro receipt hend
    rw [(hended _).1, (hended _).2] at hend
    obtain ⟨d, hd, heq⟩ := h.ended receipt hend
    exact ⟨d, (hdelivered d).mpr (.inr hd), heq⟩
  . intro id hid s hs
    obtain ⟨r, hr, rfl⟩ := (hrows s).mp hs
    rw [lease_ite_id]
    exact h.gone id (hacked id hid) r hr

/--
The row of a receipt is the row of the delivery that the receipt was issued for.
-/
theorem Consistent.holder (h : Consistent w) {r : QueueRow} (hr : r ∈ w.queue.rows) {receipt : String}
    (hreceipt : r.receipt = some receipt) : ∃ d, Outstanding w d ∧ d.receipt = receipt ∧ d.id = r.id := by
  obtain ⟨d, hd, heq⟩ := h.held r hr receipt hreceipt
  obtain ⟨s, hs, hid, hsome, _⟩ := h.row d hd
  rw [heq] at hsome
  rw [eq_of_receipt hr hs hreceipt hsome]
  exact ⟨d, hd, heq, hid.symm⟩

theorem Consistent.afterAck (h : Consistent w) {rows : Table QueueRow} {receipt : String}
    (hheld : ∃ r ∈ w.queue.rows, r.receipt = some receipt)
    (hrows : ∀ s, s ∈ rows ↔ s ∈ w.queue.rows ∧ s.receipt ≠ some receipt)
    : Consistent ⟨⟨rows, w.queue.now⟩, w.used, .acked receipt :: w.trace⟩ := by
  obtain ⟨r, hr, hreceipt⟩ := hheld
  obtain ⟨d, hd, heq, hid⟩ := h.holder hr hreceipt
  have houtstanding : ∀ d', Outstanding ⟨⟨rows, w.queue.now⟩, w.used, .acked receipt :: w.trace⟩ d'
      ↔ Outstanding w d' ∧ d'.receipt ≠ receipt := by
    intro d'
    simp only [Outstanding, List.mem_cons, reduceCtorEq, false_or, Event.acked.injEq]
    tauto
  have hacked : ∀ id, Acked ⟨⟨rows, w.queue.now⟩, w.used, .acked receipt :: w.trace⟩ id
      ↔ id = r.id ∨ Acked w id := by
    intro id
    constructor
    . rintro ⟨d', hin, rfl, hmem⟩
      have hd' : .delivered d' ∈ w.trace := by simpa using hin
      rw [List.mem_cons, Event.acked.injEq] at hmem
      cases hmem with
      | inl hsame =>
        left
        rw [← hid, h.unique d' d hd' hd.1 (hsame.trans heq.symm)]
      | inr hmem =>
        right
        exact ⟨d', hd', rfl, hmem⟩
    . intro hor
      cases hor with
      | inl heq' =>
        refine ⟨d, List.mem_cons_of_mem _ hd.1, hid.trans heq'.symm, ?_⟩
        rw [heq]
        exact List.mem_cons_self
      | inr hacked =>
        obtain ⟨d', hd', hid', hmem⟩ := hacked
        exact ⟨d', List.mem_cons_of_mem _ hd', hid', List.mem_cons_of_mem _ hmem⟩
  constructor
  . intro id hin
    rw [hacked]
    cases h.enqueued id (by simpa using hin) with
    | inl hrow =>
      obtain ⟨s, hs, rfl⟩ := hrow
      by_cases hsome : s.receipt = some receipt
      . rw [eq_of_receipt hs hr hsome hreceipt]
        exact .inr (.inl rfl)
      . exact .inl ⟨s, (hrows s).mpr ⟨hs, hsome⟩, rfl⟩
    | inr hack => exact .inr (.inr hack)
  . intro s hs
    have hknown := h.known s ((hrows s).mp hs).1
    exact ⟨hknown.1, List.mem_cons_of_mem _ hknown.2⟩
  . intro s hs receipt' hsome
    obtain ⟨hs, hother⟩ := (hrows s).mp hs
    obtain ⟨d', hd', heq'⟩ := h.held s hs receipt' hsome
    refine ⟨d', (houtstanding d').mpr ⟨hd', ?_⟩, heq'⟩
    rw [hsome, ← heq'] at hother
    intro hsame
    rw [hsame] at hother
    exact hother rfl
  . intro d' hd'
    obtain ⟨hd', hother⟩ := (houtstanding d').mp hd'
    obtain ⟨s, hs, hid', hsome, hvisible⟩ := h.row d' hd'
    refine ⟨s, (hrows s).mpr ⟨hs, ?_⟩, hid', hsome, hvisible⟩
    rw [hsome]
    simpa using hother
  . intro d' hd'
    exact h.issued d' (by simpa using hd')
  . intro d' d'' hd' hd''
    exact h.unique d' d'' (by simpa using hd') (by simpa using hd'')
  . intro receipt' hend
    by_cases hsame : receipt' = receipt
    . rw [hsame]
      exact ⟨d, List.mem_cons_of_mem _ hd.1, heq⟩
    . obtain ⟨d', hd', heq'⟩ := h.ended receipt' (by simpa [hsame] using hend)
      exact ⟨d', List.mem_cons_of_mem _ hd', heq'⟩
  . intro id hin s hs heq'
    obtain ⟨hs, hother⟩ := (hrows s).mp hs
    cases (hacked id).mp hin with
    | inl hsame =>
      rw [eq_of_id hs hr (heq'.trans hsame)] at hother
      exact hother hreceipt
    | inr hack => exact h.gone id hack s hs heq'

theorem Consistent.afterNack (h : Consistent w) {rows : Table QueueRow} {receipt : String}
    {visibleAt : Time} (hheld : ∃ r ∈ w.queue.rows, r.receipt = some receipt)
    (hrows : ∀ s, s ∈ rows ↔ ∃ r ∈ w.queue.rows,
      (if r.receipt = some receipt then r.release visibleAt else r) = s)
    : Consistent ⟨⟨rows, w.queue.now⟩, w.used, .nacked receipt :: w.trace⟩ := by
  obtain ⟨r, hr, hreceipt⟩ := hheld
  obtain ⟨d, hd, heq, _⟩ := h.holder hr hreceipt
  have houtstanding : ∀ d', Outstanding ⟨⟨rows, w.queue.now⟩, w.used, .nacked receipt :: w.trace⟩ d'
      ↔ Outstanding w d' ∧ d'.receipt ≠ receipt := by
    intro d'
    simp only [Outstanding, List.mem_cons, reduceCtorEq, false_or, Event.nacked.injEq]
    tauto
  have hacked : ∀ id, Acked ⟨⟨rows, w.queue.now⟩, w.used, .nacked receipt :: w.trace⟩ id ↔ Acked w id := by
    simp [Acked]
  have hmem : ∀ r ∈ w.queue.rows, (if r.receipt = some receipt then r.release visibleAt else r) ∈ rows := by
    intro r hr
    rw [hrows]
    exact ⟨r, hr, rfl⟩
  constructor
  . intro id hin
    rw [hacked]
    apply (h.enqueued id (by simpa using hin)).imp_left
    rintro ⟨s, hs, heq'⟩
    exact ⟨_, hmem s hs, (release_ite_id s).trans heq'⟩
  . intro s hs
    obtain ⟨t, ht, rfl⟩ := (hrows s).mp hs
    rw [release_ite_id]
    exact ⟨(h.known t ht).1, List.mem_cons_of_mem _ (h.known t ht).2⟩
  . intro s hs receipt' hsome
    obtain ⟨t, ht, rfl⟩ := (hrows s).mp hs
    split at hsome
    . cases hsome
    . next hother =>
      obtain ⟨d', hd', heq'⟩ := h.held t ht receipt' hsome
      refine ⟨d', (houtstanding d').mpr ⟨hd', ?_⟩, heq'⟩
      rw [hsome] at hother
      rw [heq']
      simpa using hother
  . intro d' hd'
    obtain ⟨hd', hother⟩ := (houtstanding d').mp hd'
    obtain ⟨s, hs, hrow⟩ := h.row d' hd'
    refine ⟨_, hmem s hs, ?_⟩
    rw [if_neg]
    . exact hrow
    . rw [hrow.2.1]
      simpa using hother
  . intro d' hd'
    exact h.issued d' (by simpa using hd')
  . intro d' d'' hd' hd''
    exact h.unique d' d'' (by simpa using hd') (by simpa using hd'')
  . intro receipt' hend
    by_cases hsame : receipt' = receipt
    . rw [hsame]
      exact ⟨d, List.mem_cons_of_mem _ hd.1, heq⟩
    . obtain ⟨d', hd', heq'⟩ := h.ended receipt' (by simpa [hsame] using hend)
      exact ⟨d', List.mem_cons_of_mem _ hd', heq'⟩
  . intro id hin s hs
    obtain ⟨t, ht, rfl⟩ := (hrows s).mp hs
    rw [release_ite_id]
    exact h.gone id ((hacked id).mp hin) t ht

theorem Consistent.steps (h : Consistent w) {w' : World} (hsteps : Steps w w') : Consistent w' := by
  cases hsteps with
  | quiet hrows hused => exact h.quiet hrows hused
  | enqueued hfresh hreceipt hrows => exact h.afterEnqueue hfresh hreceipt hrows
  | delivered hfresh htaken hrows => exact h.afterDeliver hfresh htaken hrows
  | acked hheld hrows => exact h.afterAck hheld hrows
  | nacked hheld hrows => exact h.afterNack hheld hrows

/-! ## Deliveries -/

theorem Consistent.exclusive (h : Consistent w) : Exclusive w := by
  intro d d' hd hd' hid
  obtain ⟨r, hr, hr_id, hreceipt, _⟩ := h.row d hd
  obtain ⟨r', hr', hr'_id, hreceipt', _⟩ := h.row d' hd'
  have hrow : r = r' := eq_of_id hr hr' (by rw [hr_id, hr'_id, hid])
  rw [hrow, hreceipt'] at hreceipt
  exact h.unique d d' hd.1 hd'.1 (Option.some.inj hreceipt).symm

theorem Consistent.ackExact (h : Consistent w) : AckExact w := by
  intro queue receipt
  constructor
  . intro d hd heq
    obtain ⟨r, hr, hid, hreceipt, _⟩ := h.row d hd
    rw [heq] at hreceipt
    have hany : w.queue.rows.any (·.receipt == some receipt) = true := by
      rw [Table.any_eq_true]
      exact ⟨r, hr, by simpa using hreceipt⟩
    rw [Queue.ack, if_pos hany]
    refine ⟨rfl, ?_⟩
    intro s
    rw [Table.mem_delete]
    apply and_congr_right
    intro hs
    simp only [beq_eq_false_iff_ne]
    apply not_congr
    constructor
    . intro hsome
      rw [eq_of_receipt hs hr hsome hreceipt, hid]
    . intro hsame
      rw [eq_of_id hs hr (hsame.trans hid.symm), hreceipt]
  . intro hnone
    rw [Queue.ack, if_neg]
    rw [Table.any_eq_true]
    rintro ⟨r, hr, hsome⟩
    obtain ⟨d, hd, heq⟩ := h.held r hr receipt (by simpa using hsome)
    exact hnone d hd heq

/--
An item whose worker has let the time run out stays where it is.
-/
theorem Consistent.neverLoses_iff (h : Consistent w) : NeverLoses w ↔ OnTime w := by
  constructor
  . intro hnever d hd
    obtain ⟨r, hr, hid, hreceipt, hvisibleAt⟩ := h.row d hd
    have hnotacked : ¬ Acked w r.id := fun hacked => h.gone r.id hacked r hr rfl
    obtain ⟨s, hs, hsame, hvisible⟩ := hnever.atLeastOnce r.id (h.known r hr).2 hnotacked
    rw [eq_of_id hs hr hsame] at hvisible
    cases hvisible with
    | inl hvisible => simp [QueueRow.visible, hreceipt] at hvisible
    | inr hlater =>
      rw [hvisibleAt] at hlater
      exact hlater
  . intro htime
    refine ⟨?_, h.exclusive, h.ackExact⟩
    intro id hin hnotacked
    cases h.enqueued id hin with
    | inr hacked => exact absurd hacked hnotacked
    | inl hrow =>
      obtain ⟨r, hr, hid⟩ := hrow
      refine ⟨r, hr, hid, ?_⟩
      cases hreceipt : r.receipt with
      | none =>
        rw [QueueRow.visible, hreceipt]
        simp only [Option.isNone_none, Bool.and_true, decide_eq_true_eq]
        by_cases hlater : w.queue.now < r.visibleAt
        . exact .inr hlater
        . exact .inl (Int.not_lt.mp hlater)
      | some receipt =>
        right
        obtain ⟨d, hd, heq⟩ := h.held r hr receipt hreceipt
        obtain ⟨s, hs, _, hsome, hvisibleAt⟩ := h.row d hd
        rw [heq] at hsome
        rw [eq_of_receipt hr hs hreceipt hsome, hvisibleAt]
        exact htime d hd

/--
Of the deliveries of an item all but one have been given back, and none that was acknowledged has. A worker
that lets its time run out so keeps the item from all the others.
-/
structure DeliveredOnce (w : World) : Prop where
  once : ∀ d d', .delivered d ∈ w.trace → .delivered d' ∈ w.trace → d.id = d'.id
    → .nacked d.receipt ∉ w.trace → .nacked d'.receipt ∉ w.trace → d = d'
  kept : ∀ receipt, .acked receipt ∈ w.trace → .nacked receipt ∉ w.trace

/--
What is delivered has been given back by all that had it.
-/
theorem Consistent.nacked_of_free (h : Consistent w) {r : QueueRow} (hr : r ∈ w.queue.rows)
    (hfree : r.receipt = none) {d : Delivery} (hd : .delivered d ∈ w.trace) (hid : r.id = d.id)
    : .nacked d.receipt ∈ w.trace := by
  by_contra hnotnacked
  by_cases hacked : .acked d.receipt ∈ w.trace
  . exact h.gone d.id ⟨d, hd, rfl, hacked⟩ r hr hid
  . obtain ⟨s, hs, hsid, hsome, _⟩ := h.row d ⟨hd, hacked, hnotnacked⟩
    rw [eq_of_id hs hr (hsid.trans hid.symm), hfree] at hsome
    cases hsome

theorem DeliveredOnce.steps (h : DeliveredOnce w) (hw : Consistent w) {w' : World} (hsteps : Steps w w')
    : DeliveredOnce w' := by
  cases hsteps with
  | quiet hrows hused => exact ⟨h.once, h.kept⟩
  | enqueued hfresh hreceipt hrows =>
    constructor
    . intro d d' hd hd' hid hn hn'
      simp only [List.mem_cons, reduceCtorEq, false_or] at hd hd' hn hn'
      exact h.once d d' hd hd' hid hn hn'
    . intro receipt hacked
      simp only [List.mem_cons, reduceCtorEq, false_or] at hacked ⊢
      exact h.kept receipt hacked
  | @delivered rows worker p visibleAt taken hfresh htaken hrows =>
    constructor
    . intro d d' hd hd' hid hn hn'
      simp only [List.mem_append, List.mem_map, reduceCtorEq, and_false, exists_false, false_or] at hn hn'
      simp only [List.mem_append, List.mem_map, Event.delivered.injEq] at hd hd'
      rcases hd with ⟨r, hr, rfl⟩ | hd
      . rcases hd' with ⟨r', hr', rfl⟩ | hd'
        . rw [eq_of_id (htaken r hr).1 (htaken r' hr').1 hid]
        . exact absurd (hw.nacked_of_free (htaken r hr).1 (htaken r hr).2 hd' hid) hn'
      . rcases hd' with ⟨r', hr', rfl⟩ | hd'
        . exact absurd (hw.nacked_of_free (htaken r' hr').1 (htaken r' hr').2 hd hid.symm) hn
        . exact h.once d d' hd hd' hid hn hn'
    . intro receipt hacked
      simp only [List.mem_append, List.mem_map, reduceCtorEq, and_false, exists_false, false_or] at hacked ⊢
      exact h.kept receipt hacked
  | @acked rows receipt hheld hrows =>
    constructor
    . intro d d' hd hd' hid hn hn'
      simp only [List.mem_cons, reduceCtorEq, false_or] at hd hd' hn hn'
      exact h.once d d' hd hd' hid hn hn'
    . intro receipt' hacked
      simp only [List.mem_cons, Event.acked.injEq, reduceCtorEq, false_or] at hacked ⊢
      rcases hacked with rfl | hacked
      . obtain ⟨r, hr, hsome⟩ := hheld
        obtain ⟨d, hd, heq⟩ := hw.held r hr _ hsome
        exact heq ▸ hd.2.2
      . exact h.kept receipt' hacked
  | @nacked rows receipt visibleAt hheld hrows =>
    constructor
    . intro d d' hd hd' hid hn hn'
      simp only [List.mem_cons, reduceCtorEq, false_or, not_or] at hd hd' hn hn'
      exact h.once d d' hd hd' hid hn.2 hn'.2
    . intro receipt' hacked
      simp only [List.mem_cons, Event.nacked.injEq, reduceCtorEq, false_or, not_or] at hacked ⊢
      refine ⟨?_, h.kept receipt' hacked⟩
      rintro rfl
      obtain ⟨r, hr, hsome⟩ := hheld
      obtain ⟨d, hd, heq⟩ := hw.held r hr _ hsome
      exact hd.2.1 (heq ▸ hacked)

end Invariant

/--
Nothing is lost in the runs in which no worker lets the time of a delivery run out.
-/
theorem neverLoses_iff_onTime (ms : List Move) (now : Time)
    : Throughout NeverLoses ms (.start now) ↔ Throughout OnTime ms (.start now) := by
  apply @throughout_iff NeverLoses OnTime Consistent
  . intro w m w' h hstep
    exact h.steps (steps_of_step hstep)
  . intro w h
    exact h.neverLoses_iff
  . exact .start now

theorem throughout_deliveredOnce (ms : List Move) (now : Time) : Throughout DeliveredOnce ms (.start now) := by
  have hrun : ∀ (ms : List Move) w, Consistent w → DeliveredOnce w → Throughout DeliveredOnce ms w := by
    intro ms
    induction ms with
    | nil =>
      intro w _ h
      exact h
    | cons m ms ih =>
      intro w hw h
      refine ⟨h, fun w' hstep => ?_⟩
      have hsteps := steps_of_step hstep
      exact ih w' (hw.steps hsteps) (h.steps hw hsteps)
  exact hrun ms _ (.start now) ⟨fun _ _ => nofun, fun _ => nofun⟩

/--
A worker takes an item for a second and stops.
-/
def stoppedWorker : List Move :=
  [.call 0 (.enqueue "mail" [] none) ⟨1, 0, fun _ => false⟩,
    .call 1 (.dequeue "mail" 1 second) ⟨2, 0, fun _ => false⟩, .tick 1000001]

def mailRow : QueueRow :=
  ⟨1, "mail", [], 0, 0, 0, none⟩

def abandoned : QueueRow :=
  mailRow.lease 2 1000000

theorem stoppedWorker_dequeue : (⟨⟨[mailRow], by simp⟩, 0⟩ : Queue).dequeue 2 (fun _ => false) "mail" 1 second
    = (.ok [abandoned], ⟨⟨[abandoned], by simp⟩, 0⟩) := by
  have hcandidates : (⟨⟨[mailRow], by simp⟩, 0⟩ : Queue).candidates (fun _ => false) "mail" = [mailRow] := by
    simp [Queue.candidates, Table.select, mailRow, QueueRow.visible]
  have hcount : asI32 1 = 1 := by decide
  have htimeout : addSeconds 0 (asI64 second.secs) = some 1000000 := by decide
  have htake : [mailRow].take (1 : Int).toNat = [mailRow] := by decide
  rw [Queue.dequeue, hcandidates, hcount, if_neg (by decide), htimeout]
  dsimp only
  rw [htake, Queue.leaseRows, if_neg (by decide)]
  rfl

theorem stoppedWorker_loses : ¬ Throughout NeverLoses stoppedWorker (.start 0) := by
  intro h
  obtain ⟨_, h⟩ := h
  obtain ⟨_, h⟩ := h ⟨⟨⟨[mailRow], by simp⟩, 0⟩, [1], [.enqueued 1]⟩ rfl
  obtain ⟨_, h⟩ := h ⟨⟨⟨[abandoned], by simp⟩, 0⟩, [2, 1], [.delivered (abandoned.delivery 1), .enqueued 1]⟩
    (by rw [World.step, if_neg (by decide), World.call, stoppedWorker_dequeue]; rfl)
  have hend := h _ rfl
  have hnotacked : ¬ Acked ⟨⟨⟨[abandoned], by simp⟩, 1000001⟩, [2, 1],
      [.delivered (abandoned.delivery 1), .enqueued 1]⟩ 1 := by
    simp [Acked]
  obtain ⟨r, hr, _, hvisible⟩ := hend.atLeastOnce 1 (by simp) hnotacked
  have hr : r = abandoned := by simpa [Table.mem_def] using hr
  rw [hr] at hvisible
  revert hvisible
  decide

end Reactor.Cache
