import ReactorCloud.Jobs.Calls
import ReactorCloud.Jobs.Frame
import ReactorCloud.Jobs.Pass

/-!
This module contains when each event starts each of its triggers once. An event is marked as consumed
with the first run it starts, so a pass must do all triggers of an event or none.
-/

namespace Reactor.Jobs

open Interleave
open Interleave.Program
open Relational (Table)
open Rust (Json Uuid)

section History

variable {env : Env} {pid : Nat} {w w' : World (system env)} {s : (system env).State}
  {e : Interleave.Event (system env)}

theorem pass_after_self (h : e.pid? = some pid) : pass pid (w.after s e) = (pass pid w).step e :=
  if_pos h

theorem pass_after_other (h : e.pid? ≠ some pid) : pass pid (w.after s e) = pass pid w :=
  if_neg h

theorem pass_extends (h : Extends pid w w') : pass pid w' = pass pid w := by
  obtain ⟨es, htrace, hes⟩ := h
  unfold pass
  rw [htrace]
  clear htrace
  induction es with
  | nil => rfl
  | cons e es ih =>
    refine (if_neg (hes e List.mem_cons_self)).trans ?_
    apply ih
    intro e' he'
    exact hes e' (List.mem_cons_of_mem _ he')

theorem pass_fresh (h : Fresh pid w) : pass pid w = .start := by
  unfold Fresh at h
  unfold pass
  generalize w.trace = es at h
  induction es with
  | nil => rfl
  | cons e es ih =>
    refine (if_neg (h e List.mem_cons_self)).trans ?_
    apply ih
    intro e' he'
    exact h e' (List.mem_cons_of_mem _ he')

end History

/-! ## What a call does to the events -/

namespace JobsDb

theorem isConsumed_consumeEvent (s : JobsDb) (id : Uuid) (runId : RunId) (id' : Uuid)
    : (s.consumeEvent id runId).isConsumed id'
        =
      if id' = id then (s.isConsumed id').map (fun _ => true) else s.isConsumed id' := by
  have hfind : (s.consumeEvent id runId).events.find? (·.id == id')
      = (s.events.find? (·.id == id')).map (fun e =>
        if e.id == id then { e with consumedByRunId := some runId, consumedAt := some s.now } else e) :=
    @Table.find?_modify Event _ s.events (·.id == id) (·.id == id')
      (fun e => { e with consumedByRunId := some runId, consumedAt := some s.now })
      (fun _ _ => rfl) (fun _ => rfl)
  unfold isConsumed
  rw [hfind]
  cases hrow : s.events.find? (·.id == id') with
  | none => simp
  | some e =>
    have hid : e.id = id' := by
      simpa using Table.prop_of_find? hrow
    simp only [hid, Option.map_some, beq_iff_eq]
    split <;> rfl

theorem isConsumed_emitEvent {s : JobsDb} {id id' : Uuid} {new : NewEvent} {b : Bool}
    (h : s.isConsumed id' = some b) : (s.emitEvent id new).2.isConsumed id' = some b := by
  simp only [emitEvent]
  split
  . next events hinsert =>
    unfold isConsumed at h ⊢
    simp only [Table.find?_insert hinsert]
    split
    . next heq =>
      rw [Option.map_eq_some_iff] at h
      obtain ⟨e, hfind, _⟩ := h
      have hfree := Table.insert_isSome.mp (by rw [hinsert]; rfl)
      have hne := hfree e (Table.mem_of_find? hfind)
      simp only [Relational.Constrained.conflict, beq_eq_false_iff_ne] at hne
      have hid : e.id = id' := by
        simpa using Table.prop_of_find? hfind
      exact absurd ((eq_of_beq heq).trans hid.symm) hne
    . exact h
  . exact h

/--
Only `consume_event` marks an event.
-/
theorem isConsumed_exec {s : JobsDb} {c : Call} {x : Choice} {id : Uuid} {b : Bool}
    (hc : ∀ id runId, c ≠ .consumeEvent id runId) (h : s.isConsumed id = some b)
    : (s.exec c x).2.isConsumed id = some b := by
  cases c with
  | consumeEvent id runId => exact absurd rfl (hc id runId)
  | emitEvent new => exact isConsumed_emitEvent h
  | _ =>
    unfold isConsumed
    rw [s.exec_events x (by simp [Call.table])]
    exact h

end JobsDb

section Answers

variable {env : Env} {pid : Nat} {c : Call} {r : Except JobsError c.Ret} {s s' : JobsDb}

theorem answers_isConsumed {id : Uuid} {b : Bool} (h : Answers (system env) pid c s r s')
    (hc : ∀ id runId, c ≠ .consumeEvent id runId) (hid : s.isConsumed id = some b)
    : s'.isConsumed id = some b :=
  answers_keep (P := fun s' => s'.isConsumed id = some b) h hid
    (fun _ => JobsDb.isConsumed_exec hc hid)

theorem consumeEvent_answers {id : Uuid} {runId : RunId}
    (h : Answers (system env) pid (.consumeEvent id runId) s (.ok ()) s') (id' : Uuid)
    : s'.isConsumed id'
        =
      if id' = id then (s.isConsumed id').map (fun _ => true) else s.isConsumed id' := by
  obtain ⟨x, hexec⟩ := exec_of_answers h
  rw [← s.isConsumed_consumeEvent id runId id']
  have hs : s' = s.consumeEvent id runId := (congrArg Prod.snd hexec).symm
  rw [hs]

/--
The events of a listing are pending.
-/
theorem listPending_answers {orgId : ReactorId} {limit : Nat} {events : List Event}
    (h : Answers (system env) pid (.listPendingEventsForOrg orgId limit) s (.ok events) s')
    : s' = s ∧ (events.map (·.id)).Nodup ∧ ∀ event ∈ events, s.isConsumed event.id = some false := by
  obtain ⟨x, hexec⟩ := exec_of_answers h
  have hs : s' = s := (congrArg Prod.snd hexec).symm
  have hevents : events = s.listPendingEventsForOrg orgId limit :=
    (Except.ok.inj (congrArg Prod.fst hexec)).symm
  refine ⟨hs, ?_, ?_⟩
  . rw [hevents]
    unfold JobsDb.listPendingEventsForOrg
    rw [List.map_take]
    apply List.Nodup.sublist (List.take_sublist _ _)
    rw [List.Perm.nodup_iff ((List.mergeSort_perm _ _).map _)]
    have hunique := s.events.unique.filter (JobsDb.isPendingFor orgId)
    unfold Table.select List.Nodup
    rw [List.pairwise_map]
    apply hunique.imp
    intro e e' hconflict heq
    simp [Relational.Constrained.conflict, heq] at hconflict
  . intro event hevent
    rw [hevents] at hevent
    have hmem := List.mem_mergeSort.mp (List.mem_of_mem_take hevent)
    rw [Table.mem_select] at hmem
    obtain ⟨hmem, hpending⟩ := hmem
    simp only [JobsDb.isPendingFor, Bool.and_eq_true, Option.isNone_iff_eq_none] at hpending
    have hfind : s.events.find? (·.id == event.id) = some event := by
      apply Table.find?_eq_some hmem
      . simp
      . intro e he
        simpa [Relational.Constrained.conflict] using (eq_of_beq he).symm
    unfold JobsDb.isConsumed
    rw [hfind]
    simp [hpending.2]

theorem matchingTriggers_answers {orgId : ReactorId} {topic : String} {triggers : List Trigger}
    (h : Answers (system env) pid (.matchingTriggers orgId topic) s (.ok triggers) s')
    : s' = s ∧ (triggers.map (·.id)).Nodup := by
  obtain ⟨x, hexec⟩ := exec_of_answers h
  have hs : s' = s := (congrArg Prod.snd hexec).symm
  have htriggers : triggers = s.triggers.select (JobsDb.isMatching x.jobs orgId topic) :=
    (Except.ok.inj (congrArg Prod.fst hexec)).symm
  refine ⟨hs, ?_⟩
  rw [htriggers]
  have hunique := s.triggers.unique.filter (JobsDb.isMatching x.jobs orgId topic)
  unfold Table.select List.Nodup
  rw [List.pairwise_map]
  apply hunique.imp
  intro t t' hconflict heq
  simp [Relational.Constrained.conflict, heq] at hconflict

end Answers

/-! ## The invariant -/

/--
The process has created a run for its present event.
-/
def Working {env : Env} (pid : Nat) (id : Uuid) (w : World (system env)) : Prop :=
  (pass pid w).currentId = some id ∧ (pass pid w).created ≠ [] ∧ ¬ Gone pid w

/--
What is known of the runs that are created for events.
-/
structure Delivering {env : Env} (w : World (system env)) : Prop where
  unique : ∀ pid pid' id, Ahead pid id w → Ahead pid' id w → pid = pid'
  once : (deliveries w.trace).Nodup
  nodup : ∀ pid, ¬ Gone pid w → (pass pid w).ahead.Nodup
    ∧ ((pass pid w).left.map (·.id) ++ (pass pid w).created).Nodup
  even : ∀ pid, ¬ Gone pid w → (pass pid w).Even
  known : ∀ pid id, Ahead pid id w → ∃ b, JobsDb.isConsumed w.state id = some b
  waiting : ∀ pid id, Ahead pid id w → ¬ Working pid id w →
    JobsDb.isConsumed w.state id = some false
  marked : ∀ pid id, Working pid id w → (pass pid w).unmarked = false →
    JobsDb.isConsumed w.state id = some true
  delivered : ∀ pid id, Working pid id w →
    ∀ t, (id, t) ∈ deliveries w.trace ↔ t ∈ (pass pid w).created
  covers : ∀ pid id, ¬ Gone pid w → (pass pid w).currentId = some id → (pass pid w).skipped = false →
    ∀ ids, firstMatch id w.trace = some ids →
      ∀ t ∈ ids, t ∈ (pass pid w).created ∨ t ∈ (pass pid w).left.map (·.id)
  complete : ∀ id t, (id, t) ∈ deliveries w.trace → (∃ pid, Working pid id w)
    ∨ (JobsDb.isConsumed w.state id = some true
      ∧ ∀ ids, firstMatch id w.trace = some ids → ∀ t ∈ ids, (id, t) ∈ deliveries w.trace)
  processed : ∀ id ids, firstMatch id w.trace = some ids →
    JobsDb.isConsumed w.state id = some false ∨ ∃ t, (id, t) ∈ deliveries w.trace

section Facts

variable {env : Env} {pid : Nat} {w : World (system env)} {id : Uuid}

theorem Pass.mem_ahead_of_current {p : Pass} (h : p.currentId = some id) : id ∈ p.ahead := by
  unfold currentId at h
  rw [Option.map_eq_some_iff] at h
  obtain ⟨event, hcurrent, hid⟩ := h
  unfold ahead
  rw [hcurrent, ← hid]
  exact List.mem_cons_self

theorem Pass.mem_ahead_of_todo {p : Pass} {event : Event} (h : event ∈ p.todo)
    : event.id ∈ p.ahead :=
  List.mem_map_of_mem (List.mem_append_right _ h)

/--
The present event is none of those to come.
-/
theorem Pass.current_ne_todo {p : Pass} (h : p.ahead.Nodup) {event : Event} (hevent : event ∈ p.todo)
    : p.currentId ≠ some event.id := by
  intro heq
  unfold currentId at heq
  rw [Option.map_eq_some_iff] at heq
  obtain ⟨current, hcurrent, hid⟩ := heq
  unfold ahead at h
  rw [hcurrent, Option.toList_some, List.singleton_append, List.map_cons, List.nodup_cons] at h
  apply h.1
  rw [hid]
  exact List.mem_map_of_mem hevent

theorem Working.ahead (h : Working pid id w) : Ahead pid id w :=
  ⟨Pass.mem_ahead_of_current h.1, h.2.2⟩

theorem Delivering.unskipped (h : Delivering w) (hworking : Working pid id w)
    : (pass pid w).skipped = false := by
  cases h.even pid hworking.2.2 with
  | inl heven => exact heven
  | inr hnil => exact absurd hnil hworking.2.1

/--
An event that a process waits to work on has no runs yet.
-/
theorem Delivering.undelivered (h : Delivering w) (hahead : Ahead pid id w)
    (hidle : ¬ Working pid id w) (t : Uuid) : (id, t) ∉ deliveries w.trace := by
  intro hmem
  cases h.complete id t hmem with
  | inl hworking =>
    obtain ⟨pid', hworking⟩ := hworking
    cases h.unique pid pid' id hahead hworking.ahead
    exact hidle hworking
  | inr hcomplete =>
    have := h.waiting pid id hahead hidle
    rw [hcomplete.1] at this
    cases this

end Facts

/--
A change of a pass that leaves its events and runs alone.
-/
structure Pass.Quiet (p p' : Pass) : Prop where
  todo : p'.todo = p.todo
  current : p'.current = p.current
  created : p'.created = p.created
  unmarked : p'.unmarked = p.unmarked
  left : (p'.left = p.left ∧ p'.skipped = p.skipped)
    ∨ (p'.left = p.left.tail ∧ p'.skipped = true ∧ p.created = [])

namespace Pass.Quiet

variable {p p' : Pass}

theorem refl (p : Pass) : p.Quiet p :=
  ⟨rfl, rfl, rfl, rfl, .inl ⟨rfl, rfl⟩⟩

theorem skip (h : p.created = []) : p.Quiet p.skip :=
  ⟨rfl, rfl, rfl, rfl, .inr ⟨rfl, rfl, h⟩⟩

theorem ahead_eq (h : p.Quiet p') : p'.ahead = p.ahead := by
  unfold ahead
  rw [h.current, h.todo]

theorem currentId_eq (h : p.Quiet p') : p'.currentId = p.currentId := by
  unfold currentId
  rw [h.current]

theorem left_sublist (h : p.Quiet p') : List.Sublist p'.left p.left := by
  cases h.left with
  | inl hleft => exact hleft.1 ▸ List.Sublist.refl _
  | inr hleft => exact hleft.1 ▸ List.tail_sublist _

theorem even (h : p.Quiet p') (heven : p.Even) : p'.Even := by
  cases h.left with
  | inl hleft =>
    unfold Even
    rw [hleft.2, h.created]
    exact heven
  | inr hleft => exact .inr (h.created.trans hleft.2.2)

end Pass.Quiet

section Steps

variable {env : Env} {pid : Nat} {w : World (system env)} {s : (system env).State}
  {e : Interleave.Event (system env)}

theorem deliveries_after : deliveries (w.after s e).trace = (delivery e w.trace).toList
    ++ deliveries w.trace := rfl

theorem firstMatch_after (id : Uuid) : firstMatch id (w.after s e).trace
    = (firstMatch id w.trace <|> matchedFor id e w.trace) := rfl

theorem Delivering.quiet (h : Delivering w) (hends : e.ends = false)
    (hmatched : matchedTriggers e = none) (hdelivery : delivery e w.trace = none)
    (hconsumed : ∀ id b, JobsDb.isConsumed w.state id = some b → JobsDb.isConsumed s id = some b)
    (hpass : ∀ pid, e.pid? = some pid → (pass pid w).Quiet ((pass pid w).step e))
    : Delivering (w.after s e) := by
  have hquiet : ∀ pid, (pass pid w).Quiet (pass pid (w.after s e)) := by
    intro pid
    by_cases hpid : e.pid? = some pid
    . rw [pass_after_self hpid]
      exact hpass pid hpid
    . rw [pass_after_other hpid]
      exact .refl _
  have hgone : ∀ pid, Gone pid (w.after s e) ↔ Gone pid w :=
    fun pid => Gone.after_iff hends
  have hahead : ∀ pid id, Ahead pid id (w.after s e) ↔ Ahead pid id w := by
    intro pid id
    unfold Ahead
    rw [(hquiet pid).ahead_eq, hgone pid]
  have hworking : ∀ pid id, Working pid id (w.after s e) ↔ Working pid id w := by
    intro pid id
    unfold Working
    rw [(hquiet pid).currentId_eq, (hquiet pid).created, hgone pid]
  have hdeliveries : deliveries (w.after s e).trace = deliveries w.trace := by
    rw [deliveries_after, hdelivery]
    rfl
  have hfirst : ∀ id, firstMatch id (w.after s e).trace = firstMatch id w.trace := by
    intro id
    have hnone : matchedFor id e w.trace = none := by
      unfold matchedFor
      rw [hmatched]
      simp
    rw [firstMatch_after, hnone]
    simp
  constructor
  . intro pid pid' id ha ha'
    exact h.unique pid pid' id ((hahead _ _).mp ha) ((hahead _ _).mp ha')
  . rw [hdeliveries]
    exact h.once
  . intro pid halive
    obtain ⟨hnodup, hleft⟩ := h.nodup pid (fun hg => halive ((hgone pid).mpr hg))
    rw [(hquiet pid).ahead_eq, (hquiet pid).created]
    exact ⟨hnodup, hleft.sublist (((hquiet pid).left_sublist.map _).append_right _)⟩
  . intro pid halive
    exact (hquiet pid).even (h.even pid (fun hg => halive ((hgone pid).mpr hg)))
  . intro pid id ha
    obtain ⟨b, hb⟩ := h.known pid id ((hahead _ _).mp ha)
    exact ⟨b, hconsumed id b hb⟩
  . intro pid id ha hw
    exact hconsumed id _ (h.waiting pid id ((hahead _ _).mp ha) (fun h => hw ((hworking _ _).mpr h)))
  . intro pid id hw hunmarked
    rw [(hquiet pid).unmarked] at hunmarked
    exact hconsumed id _ (h.marked pid id ((hworking _ _).mp hw) hunmarked)
  . intro pid id hw t
    rw [hdeliveries, (hquiet pid).created]
    exact h.delivered pid id ((hworking _ _).mp hw) t
  . intro pid id halive hcurrent hskipped ids hids t ht
    rw [hfirst] at hids
    rw [(hquiet pid).currentId_eq] at hcurrent
    cases (hquiet pid).left with
    | inl hleft =>
      rw [hleft.2] at hskipped
      rw [hleft.1, (hquiet pid).created]
      exact h.covers pid id (fun hg => halive ((hgone pid).mpr hg)) hcurrent hskipped ids hids t ht
    | inr hleft =>
      rw [hleft.2.1] at hskipped
      cases hskipped
  . intro id t ht
    simp only [hdeliveries, hfirst, hworking] at ht ⊢
    cases h.complete id t ht with
    | inl hw => exact .inl hw
    | inr hcomplete => exact .inr ⟨hconsumed id _ hcomplete.1, hcomplete.2⟩
  . intro id ids hids
    simp only [hdeliveries, hfirst] at hids ⊢
    cases h.processed id ids hids with
    | inl hpending => exact .inl (hconsumed id _ hpending)
    | inr hdelivered => exact .inr hdelivered

/--
The process is gone with its present event untouched or done.
-/
theorem Delivering.ending (h : Delivering w) (hpid : e.pid? = some pid)
    (hstep : (pass pid w).step e = pass pid w) (hmatched : matchedTriggers e = none)
    (hdelivery : delivery e w.trace = none) (hsettled : (pass pid w).Settled)
    (hconsumed : ∀ id, JobsDb.isConsumed s id = JobsDb.isConsumed w.state id)
    : Delivering (w.after s e) := by
  have hpass : ∀ pid', pass pid' (w.after s e) = pass pid' w := by
    intro pid'
    by_cases hpid' : e.pid? = some pid'
    . cases Option.some.inj (hpid.symm.trans hpid')
      rw [pass_after_self hpid, hstep]
    . exact pass_after_other hpid'
  have halive : ∀ pid', ¬ Gone pid' (w.after s e) → ¬ Gone pid' w :=
    fun pid' halive hgone => halive (hgone.after s e)
  have hkept : ∀ pid', pid' ≠ pid → ¬ Gone pid' w → ¬ Gone pid' (w.after s e) := by
    intro pid' hne halive hgone
    cases Did.after_iff.mp hgone with
    | inl hnew => exact hne (Option.some.inj (hnew.1.symm.trans hpid))
    | inr hold => exact halive hold
  have hahead : ∀ pid' id, Ahead pid' id (w.after s e) → Ahead pid' id w := by
    intro pid' id ha
    exact ⟨hpass pid' ▸ ha.1, halive pid' ha.2⟩
  have hworking : ∀ pid' id, Working pid' id (w.after s e) → Working pid' id w := by
    intro pid' id hw
    exact ⟨hpass pid' ▸ hw.1, hpass pid' ▸ hw.2.1, halive pid' hw.2.2⟩
  have hdeliveries : deliveries (w.after s e).trace = deliveries w.trace := by
    rw [deliveries_after, hdelivery]
    rfl
  have hfirst : ∀ id, firstMatch id (w.after s e).trace = firstMatch id w.trace := by
    intro id
    have hnone : matchedFor id e w.trace = none := by
      unfold matchedFor
      rw [hmatched]
      simp
    rw [firstMatch_after, hnone]
    simp
  have hstate : ∀ id, JobsDb.isConsumed (w.after s e).state id = JobsDb.isConsumed w.state id :=
    hconsumed
  constructor
  . intro pid₁ pid₂ id ha ha'
    exact h.unique pid₁ pid₂ id (hahead _ _ ha) (hahead _ _ ha')
  . rw [hdeliveries]
    exact h.once
  . intro pid' ha
    rw [hpass]
    exact h.nodup pid' (halive pid' ha)
  . intro pid' ha
    rw [hpass]
    exact h.even pid' (halive pid' ha)
  . intro pid' id ha
    rw [hstate]
    exact h.known pid' id (hahead _ _ ha)
  . intro pid' id ha hw
    rw [hstate]
    apply h.waiting pid' id (hahead _ _ ha)
    intro hold
    exact hw ⟨(hpass pid').symm ▸ hold.1, (hpass pid').symm ▸ hold.2.1, ha.2⟩
  . intro pid' id hw
    rw [hpass, hstate]
    exact h.marked pid' id (hworking _ _ hw)
  . intro pid' id hw
    rw [hpass, hdeliveries]
    exact h.delivered pid' id (hworking _ _ hw)
  . intro pid' id ha
    rw [hpass, hfirst]
    exact h.covers pid' id (halive pid' ha)
  . intro id t ht
    rw [hdeliveries] at ht ⊢
    rw [hstate]
    simp only [hfirst]
    cases h.complete id t ht with
    | inr hcomplete => exact .inr hcomplete
    | inl hw =>
      obtain ⟨pid', hw⟩ := hw
      by_cases hne : pid' = pid
      . subst hne
        apply Or.inr
        cases hsettled with
        | inl hnil => exact absurd hnil hw.2.1
        | inr hdone =>
          refine ⟨h.marked pid' id hw hdone.2, ?_⟩
          intro ids hids t ht
          rw [h.delivered pid' id hw]
          cases h.covers pid' id hw.2.2 hw.1 (h.unskipped hw) ids hids t ht with
          | inl hcreated => exact hcreated
          | inr hleft =>
            rw [hdone.1] at hleft
            cases hleft
      . apply Or.inl
        exact ⟨pid', (hpass pid').symm ▸ hw.1, (hpass pid').symm ▸ hw.2.1, hkept pid' hne hw.2.2⟩
  . intro id ids hids
    rw [hfirst] at hids
    rw [hstate, hdeliveries]
    exact h.processed id ids hids

theorem Delivering.listing {orgId : ReactorId} {limit : Nat} {events : List Event} (h : Delivering w)
    (hanswer : Answers (system env) pid (.listPendingEventsForOrg orgId limit) w.state (.ok events) s)
    (hok : Undivided w (.call pid (Call.listPendingEventsForOrg orgId limit) (.ok events)))
    (hcurrent : (pass pid w).current = none) (htodo : (pass pid w).todo = [])
    : Delivering
      (w.after s (.call pid (Call.listPendingEventsForOrg orgId limit) (.ok events))) := by
  obtain ⟨hs, hnodup, hpending⟩ := listPending_answers hanswer
  subst hs
  generalize he : (.call pid (Call.listPendingEventsForOrg orgId limit) (.ok events)
    : Interleave.Event (system env)) = e at hok ⊢
  have hpid : e.pid? = some pid := by rw [← he]; rfl
  have hends : e.ends = false := by rw [← he]; rfl
  have hself : pass pid (w.after w.state e) = { pass pid w with todo := events } := by
    rw [pass_after_self hpid, ← he]
    rfl
  have hother : ∀ pid', pid' ≠ pid → pass pid' (w.after w.state e) = pass pid' w := by
    intro pid' hne
    apply pass_after_other
    rw [hpid]
    intro heq
    exact hne (Option.some.inj heq).symm
  have hgone : ∀ pid', Gone pid' (w.after w.state e) ↔ Gone pid' w :=
    fun pid' => Gone.after_iff hends
  have hahead : ∀ pid' id, Ahead pid' id (w.after w.state e) → Ahead pid' id w
      ∨ (pid' = pid ∧ id ∈ events.map (·.id)) := by
    intro pid' id ha
    by_cases hne : pid' = pid
    . subst hne
      apply Or.inr
      refine ⟨rfl, ?_⟩
      have hmem := ha.1
      rw [hself] at hmem
      simpa [Pass.ahead, hcurrent] using hmem
    . exact .inl ⟨hother pid' hne ▸ ha.1, fun hg => ha.2 ((hgone pid').mpr hg)⟩
  have hworking : ∀ pid' id, Working pid' id (w.after w.state e) ↔ Working pid' id w := by
    intro pid' id
    unfold Working
    rw [hgone pid']
    by_cases hne : pid' = pid
    . subst hne
      rw [hself]
      rfl
    . rw [hother pid' hne]
  have hdeliveries : deliveries (w.after w.state e).trace = deliveries w.trace := by
    rw [← he]
    rfl
  have hfirst : ∀ id, firstMatch id (w.after w.state e).trace = firstMatch id w.trace := by
    intro id
    have hnone : matchedFor id e w.trace = none := by
      rw [← he]
      simp [matchedFor, matchedTriggers]
    rw [firstMatch_after, hnone]
    simp
  have hlisted : ∀ pid', pid' ≠ pid → ∀ id ∈ events.map (·.id), ¬ Ahead pid' id w := by
    intro pid' hne id hid ha
    rw [List.mem_map] at hid
    obtain ⟨event, hevent, rfl⟩ := hid
    have hmem : pid' ∈ w.pids := by
      by_contra hnone
      have hfresh : Fresh pid' w := by
        intro e' he' hpid'
        exact hnone (List.mem_filterMap.mpr ⟨e', he', hpid'⟩)
      have hstart := ha.1
      rw [pass_fresh hfresh] at hstart
      cases hstart
    apply hok.alone event (by rw [← he]; exact hevent) pid' hmem _ ha
    rw [hpid]
    intro heq
    exact hne (Option.some.inj heq).symm
  have hidle : ∀ id, ¬ Working pid id w := by
    intro id hw
    have hsome := hw.1
    simp [Pass.currentId, hcurrent] at hsome
  constructor
  . intro pid₁ pid₂ id ha₁ ha₂
    cases hahead _ _ ha₁ with
    | inl hold₁ =>
      cases hahead _ _ ha₂ with
      | inl hold₂ => exact h.unique _ _ _ hold₁ hold₂
      | inr hnew₂ =>
        by_contra hne
        exact hlisted pid₁ (hnew₂.1 ▸ hne) id hnew₂.2 hold₁
    | inr hnew₁ =>
      cases hahead _ _ ha₂ with
      | inl hold₂ =>
        by_contra hne
        exact hlisted pid₂ (fun heq => hne (hnew₁.1.trans heq.symm)) id hnew₁.2 hold₂
      | inr hnew₂ => exact hnew₁.1.trans hnew₂.1.symm
  . rw [hdeliveries]
    exact h.once
  . intro pid' ha
    have halive : ¬ Gone pid' w := fun hg => ha ((hgone pid').mpr hg)
    by_cases hne : pid' = pid
    . subst hne
      rw [hself]
      refine ⟨?_, (h.nodup pid' halive).2⟩
      simpa [Pass.ahead, hcurrent] using hnodup
    . rw [hother pid' hne]
      exact h.nodup pid' halive
  . intro pid' ha
    have heven := h.even pid' (fun hg => ha ((hgone pid').mpr hg))
    by_cases hne : pid' = pid
    . subst hne
      rw [hself]
      exact heven
    . rw [hother pid' hne]
      exact heven
  . intro pid' id ha
    cases hahead _ _ ha with
    | inl hold => exact h.known pid' id hold
    | inr hnew =>
      obtain ⟨event, hevent, hid⟩ := List.mem_map.mp hnew.2
      exact ⟨false, hid ▸ hpending event hevent⟩
  . intro pid' id ha hw
    cases hahead _ _ ha with
    | inl hold => exact h.waiting pid' id hold (fun h => hw ((hworking _ _).mpr h))
    | inr hnew =>
      obtain ⟨event, hevent, hid⟩ := List.mem_map.mp hnew.2
      exact hid ▸ hpending event hevent
  . intro pid' id hw hunmarked
    have hold := (hworking _ _).mp hw
    have hne : pid' ≠ pid := by
      rintro rfl
      exact hidle id hold
    rw [hother pid' hne] at hunmarked
    exact h.marked pid' id hold hunmarked
  . intro pid' id hw t
    have hold := (hworking _ _).mp hw
    have hne : pid' ≠ pid := by
      rintro rfl
      exact hidle id hold
    rw [hother pid' hne, hdeliveries]
    exact h.delivered pid' id hold t
  . intro pid' id ha hid
    rw [hfirst]
    by_cases hne : pid' = pid
    . subst hne
      rw [hself] at hid
      simp [Pass.currentId, hcurrent] at hid
    . rw [hother pid' hne] at hid ⊢
      exact h.covers pid' id (fun hg => ha ((hgone pid').mpr hg)) hid
  . intro id t ht
    rw [hdeliveries] at ht ⊢
    simp only [hworking, hfirst]
    exact h.complete id t ht
  . intro id ids hids
    rw [hfirst] at hids
    rw [hdeliveries]
    exact h.processed id ids hids

section Calls

variable {c : Call} {r : Except JobsError c.Ret}

theorem pass_call_self
    : pass pid (w.after s (.call pid c r))
        =
      (pass pid w).step (.call pid c r : Interleave.Event (system env)) :=
  pass_after_self rfl

theorem pass_call_other {pid' : Nat} (h : pid' ≠ pid)
    : pass pid' (w.after s (.call pid c r)) = pass pid' w := by
  apply pass_after_other
  intro heq
  exact h (Option.some.inj heq).symm

theorem gone_call {pid' : Nat} : Gone pid' (w.after s (.call pid c r)) ↔ Gone pid' w :=
  Gone.after_iff rfl

theorem ahead_call_other {pid' : Nat} {id : Uuid} (h : pid' ≠ pid)
    : Ahead pid' id (w.after s (.call pid c r)) ↔ Ahead pid' id w := by
  unfold Ahead
  rw [pass_call_other h, gone_call]

theorem working_call_other {pid' : Nat} {id : Uuid} (h : pid' ≠ pid)
    : Working pid' id (w.after s (.call pid c r)) ↔ Working pid' id w := by
  unfold Working
  rw [pass_call_other h, gone_call]

end Calls

/--
The poll goes on with the next event, after the present one is untouched or done.
-/
theorem Delivering.beginning {orgId : ReactorId} {topic : String} {triggers : List Trigger}
    (h : Delivering w)
    (hanswer : Answers (system env) pid (.matchingTriggers orgId topic) w.state (.ok triggers) s)
    (hok : Undivided w (.call pid (Call.matchingTriggers orgId topic) (.ok triggers)))
    (halive : ¬ Gone pid w) (hsettled : (pass pid w).Settled)
    : Delivering (w.after s (.call pid (Call.matchingTriggers orgId topic) (.ok triggers))) := by
  obtain ⟨hs, hnodup⟩ := matchingTriggers_answers hanswer
  subst hs
  obtain ⟨haheads, _⟩ := h.nodup pid halive
  have hself : pass pid (w.after w.state (.call pid (Call.matchingTriggers orgId topic)
      (.ok triggers))) = { pass pid w with
        todo := (pass pid w).todo.tail
        current := (pass pid w).todo.head?
        left := triggers
        created := []
        unmarked := false
        skipped := false } :=
    pass_call_self
  have hids : ∀ p : Pass, (p.todo.head?.toList ++ p.todo.tail).map (·.id) = p.todo.map (·.id) := by
    intro p
    cases p.todo <;> rfl
  have hcoming : ∀ id, Ahead pid id (w.after w.state (.call pid (Call.matchingTriggers orgId topic)
      (.ok triggers))) → ∃ event ∈ (pass pid w).todo, event.id = id := by
    intro id ha
    have hmem := ha.1
    rw [hself] at hmem
    unfold Pass.ahead at hmem
    rw [hids] at hmem
    exact List.mem_map.mp hmem
  have hwaits : ∀ event ∈ (pass pid w).todo, Ahead pid event.id w ∧ ¬ Working pid event.id w := by
    intro event hevent
    refine ⟨⟨Pass.mem_ahead_of_todo hevent, halive⟩, ?_⟩
    intro hw
    exact Pass.current_ne_todo haheads hevent hw.1
  have hidle : ∀ id, ¬ Working pid id (w.after w.state (.call pid (Call.matchingTriggers orgId topic)
      (.ok triggers))) := by
    intro id hw
    apply hw.2.1
    rw [hself]
  have hahead : ∀ pid' id, Ahead pid' id (w.after w.state (.call pid
      (Call.matchingTriggers orgId topic) (.ok triggers))) → Ahead pid' id w := by
    intro pid' id ha
    by_cases hne : pid' = pid
    . subst hne
      obtain ⟨event, hevent, rfl⟩ := hcoming id ha
      exact (hwaits event hevent).1
    . exact (ahead_call_other hne).mp ha
  have hfirst : ∀ id, firstMatch id (w.after w.state (.call pid (Call.matchingTriggers orgId topic)
      (.ok triggers))).trace = firstMatch id w.trace
        ∨ ∃ event, (pass pid w).todo.head? = some event ∧ event.id = id
          ∧ firstMatch id (w.after w.state (.call pid (Call.matchingTriggers orgId topic)
            (.ok triggers))).trace = (firstMatch id w.trace <|> some (triggers.map (·.id))) := by
    intro id
    rw [firstMatch_after]
    unfold matchedFor
    simp only [Event.pid?, Option.bind_eq_bind, Option.bind_some, matchedTriggers]
    cases hhead : (passOf pid w.trace).todo.head? with
    | none => simp
    | some event =>
      by_cases hid : event.id = id
      . apply Or.inr
        exact ⟨event, hhead, hid, by simp [hid]⟩
      . simp [hid]
  have hhead : ∀ event, (pass pid w).todo.head? = some event → event ∈ (pass pid w).todo :=
    fun event => List.mem_of_mem_head?
  constructor
  . intro pid₁ pid₂ id ha₁ ha₂
    exact h.unique _ _ _ (hahead _ _ ha₁) (hahead _ _ ha₂)
  . exact h.once
  . intro pid' ha
    by_cases hne : pid' = pid
    . subst hne
      rw [hself]
      constructor
      . unfold Pass.ahead
        rw [hids]
        exact haheads.sublist ((List.sublist_append_right _ _).map _)
      . simpa using hnodup
    . rw [pass_call_other hne]
      exact h.nodup pid' (fun hg => ha (gone_call.mpr hg))
  . intro pid' ha
    by_cases hne : pid' = pid
    . subst hne
      rw [hself]
      exact .inl rfl
    . rw [pass_call_other hne]
      exact h.even pid' (fun hg => ha (gone_call.mpr hg))
  . intro pid' id ha
    exact h.known pid' id (hahead _ _ ha)
  . intro pid' id ha hw
    by_cases hne : pid' = pid
    . subst hne
      obtain ⟨event, hevent, rfl⟩ := hcoming id ha
      obtain ⟨hold, hnot⟩ := hwaits event hevent
      exact h.waiting pid' event.id hold hnot
    . rw [ahead_call_other hne] at ha
      rw [working_call_other hne] at hw
      exact h.waiting pid' id ha hw
  . intro pid' id hw
    have hne : pid' ≠ pid := by
      rintro rfl
      exact hidle id hw
    rw [pass_call_other hne]
    exact h.marked pid' id ((working_call_other hne).mp hw)
  . intro pid' id hw
    have hne : pid' ≠ pid := by
      rintro rfl
      exact hidle id hw
    rw [pass_call_other hne]
    exact h.delivered pid' id ((working_call_other hne).mp hw)
  . intro pid' id ha hcurrent hskipped ids hfirst' t ht
    by_cases hne : pid' = pid
    . subst hne
      rw [hself] at hcurrent ⊢
      apply Or.inr
      cases hfirst id with
      | inl hsame =>
        rw [hsame] at hfirst'
        unfold Pass.currentId at hcurrent
        rw [Option.map_eq_some_iff] at hcurrent
        obtain ⟨event, hevent, hid⟩ := hcurrent
        exact hok.again pid' rfl event hevent ids (hid ▸ hfirst') _ rfl t ht
      | inr hnew =>
        obtain ⟨event, hevent, hid, hnew⟩ := hnew
        rw [hnew] at hfirst'
        cases hbefore : firstMatch id w.trace with
        | none =>
          rw [hbefore] at hfirst'
          cases hfirst'
          exact ht
        | some ids' =>
          rw [hbefore] at hfirst'
          cases hfirst'
          exact hok.again pid' rfl event hevent ids (hid ▸ hbefore) _ rfl t ht
    . rw [pass_call_other hne] at hcurrent hskipped ⊢
      have hlive : ¬ Gone pid' w := fun hg => ha (gone_call.mpr hg)
      apply h.covers pid' id hlive hcurrent hskipped ids _ t ht
      cases hfirst id with
      | inl hsame => rw [← hsame, hfirst']
      | inr hnew =>
        -- The event is the next one of this poll, so no other poll is at it.
        obtain ⟨event, hevent, rfl, _⟩ := hnew
        apply absurd (h.unique pid' pid event.id _ (hwaits event (hhead event hevent)).1) hne
        exact ⟨Pass.mem_ahead_of_current hcurrent, hlive⟩
  . intro id t ht
    have ht : (id, t) ∈ deliveries w.trace := ht
    have hdone : ∀ event, (pass pid w).todo.head? = some event → event.id ≠ id := by
      rintro event hevent rfl
      obtain ⟨hold, hnot⟩ := hwaits event (hhead event hevent)
      exact h.undelivered hold hnot t ht
    have hsame : firstMatch id (w.after w.state (.call pid (Call.matchingTriggers orgId topic)
        (.ok triggers))).trace = firstMatch id w.trace := by
      cases hfirst id with
      | inl hsame => exact hsame
      | inr hnew =>
        obtain ⟨event, hevent, hid, _⟩ := hnew
        exact absurd hid (hdone event hevent)
    rw [hsame]
    cases h.complete id t ht with
    | inr hcomplete => exact .inr hcomplete
    | inl hw =>
      obtain ⟨pid', hw⟩ := hw
      by_cases hne : pid' = pid
      . subst hne
        apply Or.inr
        cases hsettled with
        | inl hnil => exact absurd hnil hw.2.1
        | inr hfinished =>
          refine ⟨h.marked pid' id hw hfinished.2, ?_⟩
          intro ids hids t' ht'
          apply (h.delivered pid' id hw t').mpr
          cases h.covers pid' id hw.2.2 hw.1 (h.unskipped hw) ids hids t' ht' with
          | inl hcreated => exact hcreated
          | inr hleft =>
            rw [hfinished.1] at hleft
            cases hleft
      . exact .inl ⟨pid', (working_call_other hne).mpr hw⟩
  . intro id ids hids
    cases hfirst id with
    | inl hsame =>
      rw [hsame] at hids
      exact h.processed id ids hids
    | inr hnew =>
      obtain ⟨event, hevent, rfl, _⟩ := hnew
      obtain ⟨hold, hnot⟩ := hwaits event (hhead event hevent)
      exact .inl (h.waiting pid event.id hold hnot)

/--
A run is created for the present event and the next of its triggers.
-/
theorem Delivering.creating {new : NewRun} {run : Run} {trigger : Trigger} {rest : List Trigger}
    {id : Uuid} (h : Delivering w)
    (hanswer : Answers (system env) pid (.createRun new) w.state (.ok run) s)
    (hok : Undivided w (.call pid (Call.createRun new) (.ok run))) (halive : ¬ Gone pid w)
    (hnew : new.eventTrigger = some trigger.id) (hcurrent : (pass pid w).currentId = some id)
    (hleft : (pass pid w).left = trigger :: rest)
    : Delivering (w.after s (.call pid (Call.createRun new) (.ok run))) := by
  have hself : pass pid (w.after s (.call pid (Call.createRun new) (.ok run))) = { pass pid w with
      left := rest
      created := trigger.id :: (pass pid w).created
      unmarked := true } := by
    rw [pass_call_self]
    simp only [Pass.step, hnew, hleft, List.tail_cons]
  have hdeliveries : deliveries (w.after s (.call pid (Call.createRun new) (.ok run))).trace
      = (id, trigger.id) :: deliveries w.trace := by
    rw [deliveries_after]
    have hcurrent : (passOf pid w.trace).currentId = some id := hcurrent
    simp [delivery, hnew, hcurrent]
  have hfirst : ∀ id, firstMatch id (w.after s (.call pid (Call.createRun new) (.ok run))).trace
      = firstMatch id w.trace := by
    intro id
    rw [firstMatch_after]
    simp [matchedFor, matchedTriggers]
  have hstate : ∀ id b, JobsDb.isConsumed w.state id = some b → JobsDb.isConsumed s id = some b :=
    fun id b hb => answers_isConsumed hanswer (by simp) hb
  have hunskipped : (pass pid w).skipped = false := by
    cases hok.even pid rfl with
    | inl heven => simpa [Pass.step, hnew] using heven
    | inr hnil => simp [Pass.step, hnew] at hnil
  obtain ⟨haheads, hlefts⟩ := h.nodup pid halive
  have hmine : Ahead pid id w := ⟨Pass.mem_ahead_of_current hcurrent, halive⟩
  have hworks : Working pid id (w.after s (.call pid (Call.createRun new) (.ok run))) := by
    unfold Working
    rw [hself, gone_call]
    exact ⟨hcurrent, List.cons_ne_nil _ _, halive⟩
  have honly : ∀ id', Working pid id' (w.after s (.call pid (Call.createRun new) (.ok run))) →
      id' = id := by
    intro id' hw
    have heq := hw.1
    rw [hself] at heq
    exact Option.some.inj (heq.symm.trans hcurrent)
  have hfound : ∀ t, (id, t) ∈ deliveries w.trace ↔ t ∈ (pass pid w).created := by
    intro t
    by_cases hw : Working pid id w
    . exact h.delivered pid id hw t
    . have hnil : (pass pid w).created = [] := by
        by_contra hne
        exact hw ⟨hcurrent, hne, halive⟩
      rw [hnil]
      constructor
      . intro ht
        exact absurd ht (h.undelivered hmine hw t)
      . intro ht
        cases ht
  have hothers : ∀ pid' id', pid' ≠ pid → Working pid' id' w → id' ≠ id := by
    rintro pid' _ hne hw rfl
    exact hne (h.unique pid' pid _ hw.ahead hmine)
  have hahead : ∀ pid' id', Ahead pid' id' (w.after s (.call pid (Call.createRun new) (.ok run))) ↔
      Ahead pid' id' w := by
    intro pid' id'
    by_cases hne : pid' = pid
    . subst hne
      unfold Ahead
      rw [hself, gone_call]
      rfl
    . exact ahead_call_other hne
  constructor
  . intro pid₁ pid₂ id' ha₁ ha₂
    exact h.unique _ _ _ ((hahead _ _).mp ha₁) ((hahead _ _).mp ha₂)
  . rw [hdeliveries, List.nodup_cons]
    refine ⟨?_, h.once⟩
    rw [hfound]
    intro hmem
    rw [hleft, List.map_cons, List.cons_append, List.nodup_cons] at hlefts
    exact hlefts.1 (List.mem_append_right _ hmem)
  . intro pid' ha
    by_cases hne : pid' = pid
    . subst hne
      rw [hself]
      refine ⟨haheads, ?_⟩
      rw [hleft] at hlefts
      apply (List.Perm.nodup_iff _).mp hlefts
      exact List.perm_middle.symm
    . rw [pass_call_other hne]
      exact h.nodup pid' (fun hg => ha (gone_call.mpr hg))
  . intro pid' ha
    by_cases hne : pid' = pid
    . subst hne
      rw [hself]
      exact .inl hunskipped
    . rw [pass_call_other hne]
      exact h.even pid' (fun hg => ha (gone_call.mpr hg))
  . intro pid' id' ha
    obtain ⟨b, hb⟩ := h.known pid' id' ((hahead _ _).mp ha)
    exact ⟨b, hstate id' b hb⟩
  . intro pid' id' ha hw
    apply hstate
    apply h.waiting pid' id' ((hahead _ _).mp ha)
    intro hold
    by_cases hne : pid' = pid
    . subst hne
      cases Option.some.inj (hold.1.symm.trans hcurrent)
      exact hw hworks
    . exact hw ((working_call_other hne).mpr hold)
  . intro pid' id' hw hunmarked
    by_cases hne : pid' = pid
    . subst hne
      rw [hself] at hunmarked
      cases hunmarked
    . rw [pass_call_other hne] at hunmarked
      exact hstate id' _ (h.marked pid' id' ((working_call_other hne).mp hw) hunmarked)
  . intro pid' id' hw t
    rw [hdeliveries, List.mem_cons, Prod.mk.injEq]
    by_cases hne : pid' = pid
    . subst hne
      cases honly id' hw
      rw [hself, hfound]
      simp
    . have hold := (working_call_other hne).mp hw
      rw [pass_call_other hne]
      simp only [hothers pid' id' hne hold, false_and, false_or]
      exact h.delivered pid' id' hold t
  . intro pid' id' ha hcurrent' hskipped ids hids t ht
    rw [hfirst] at hids
    have hlive : ¬ Gone pid' w := fun hg => ha (gone_call.mpr hg)
    by_cases hne : pid' = pid
    . subst hne
      rw [hself] at hcurrent' hskipped ⊢
      cases h.covers pid' id' halive hcurrent' hskipped ids hids t ht with
      | inl hcreated => exact .inl (List.mem_cons_of_mem _ hcreated)
      | inr hmem =>
        rw [hleft, List.map_cons, List.mem_cons] at hmem
        cases hmem with
        | inl heq => exact .inl (heq ▸ List.mem_cons_self)
        | inr hmem => exact .inr hmem
    . rw [pass_call_other hne] at hcurrent' hskipped ⊢
      exact h.covers pid' id' hlive hcurrent' hskipped ids hids t ht
  . intro id' t ht
    rw [hdeliveries] at ht ⊢
    by_cases hid : id' = id
    . rw [hid]
      exact .inl ⟨pid, hworks⟩
    . have hold : (id', t) ∈ deliveries w.trace := by
        cases List.mem_cons.mp ht with
        | inl heq => exact absurd (Prod.mk.inj heq).1 hid
        | inr hold => exact hold
      cases h.complete id' t hold with
      | inl hw =>
        obtain ⟨pid', hw⟩ := hw
        have hne : pid' ≠ pid := by
          rintro rfl
          exact hid (Option.some.inj (hw.1.symm.trans hcurrent))
        exact .inl ⟨pid', (working_call_other hne).mpr hw⟩
      | inr hcomplete =>
        apply Or.inr
        refine ⟨hstate id' _ hcomplete.1, ?_⟩
        intro ids hids t' ht'
        rw [hfirst] at hids
        exact List.mem_cons_of_mem _ (hcomplete.2 ids hids t' ht')
  . intro id' ids hids
    rw [hfirst] at hids
    rw [hdeliveries]
    cases h.processed id' ids hids with
    | inl hpending => exact .inl (hstate id' _ hpending)
    | inr hmem =>
      obtain ⟨t, ht⟩ := hmem
      exact .inr ⟨t, List.mem_cons_of_mem _ ht⟩

/--
The present event is marked after a run is created for it.
-/
theorem Delivering.consuming {id : Uuid} {runId : RunId} (h : Delivering w)
    (hanswer : Answers (system env) pid (.consumeEvent id runId) w.state (.ok ()) s)
    (hworks : Working pid id w)
    : Delivering (w.after s (.call pid (Call.consumeEvent id runId) (.ok ()))) := by
  have hself : pass pid (w.after s (.call pid (Call.consumeEvent id runId) (.ok ())))
      = { pass pid w with unmarked := false } :=
    pass_call_self
  have hdeliveries : deliveries (w.after s (.call pid (Call.consumeEvent id runId) (.ok ()))).trace
      = deliveries w.trace := rfl
  have hfirst : ∀ id', firstMatch id' (w.after s (.call pid (Call.consumeEvent id runId)
      (.ok ()))).trace = firstMatch id' w.trace := by
    intro id'
    rw [firstMatch_after]
    simp [matchedFor, matchedTriggers]
  have hmarked : JobsDb.isConsumed s id = some true := by
    obtain ⟨b, hb⟩ := h.known pid id hworks.ahead
    rw [consumeEvent_answers hanswer, if_pos rfl, hb]
    rfl
  have hrest : ∀ id', id' ≠ id → JobsDb.isConsumed s id' = JobsDb.isConsumed w.state id' := by
    intro id' hne
    rw [consumeEvent_answers hanswer, if_neg hne]
  have htrue : ∀ id', JobsDb.isConsumed w.state id' = some true → JobsDb.isConsumed s id' = some true := by
    intro id' hid
    by_cases heq : id' = id
    . rw [heq]
      exact hmarked
    . rw [hrest id' heq]
      exact hid
  have hahead : ∀ pid' id', Ahead pid' id' (w.after s (.call pid (Call.consumeEvent id runId)
      (.ok ()))) ↔ Ahead pid' id' w := by
    intro pid' id'
    by_cases hne : pid' = pid
    . subst hne
      unfold Ahead
      rw [hself, gone_call]
      rfl
    . exact ahead_call_other hne
  have hworking : ∀ pid' id', Working pid' id' (w.after s (.call pid (Call.consumeEvent id runId)
      (.ok ()))) ↔ Working pid' id' w := by
    intro pid' id'
    by_cases hne : pid' = pid
    . subst hne
      unfold Working
      rw [hself, gone_call]
      rfl
    . exact working_call_other hne
  constructor
  . intro pid₁ pid₂ id' ha₁ ha₂
    exact h.unique _ _ _ ((hahead _ _).mp ha₁) ((hahead _ _).mp ha₂)
  . exact h.once
  . intro pid' ha
    have hold := h.nodup pid' (fun hg => ha (gone_call.mpr hg))
    by_cases hne : pid' = pid
    . subst hne
      rw [hself]
      exact hold
    . rw [pass_call_other hne]
      exact hold
  . intro pid' ha
    have hold := h.even pid' (fun hg => ha (gone_call.mpr hg))
    by_cases hne : pid' = pid
    . subst hne
      rw [hself]
      exact hold
    . rw [pass_call_other hne]
      exact hold
  . intro pid' id' ha
    obtain ⟨b, hb⟩ := h.known pid' id' ((hahead _ _).mp ha)
    by_cases heq : id' = id
    . exact ⟨true, heq ▸ hmarked⟩
    . exact ⟨b, (hrest id' heq).trans hb⟩
  . intro pid' id' ha hw
    have hbefore := (hahead _ _).mp ha
    have hidle : ¬ Working pid' id' w := fun h => hw ((hworking _ _).mpr h)
    have hne : id' ≠ id := by
      rintro rfl
      cases h.unique pid' pid id' hbefore hworks.ahead
      exact hidle hworks
    exact (hrest id' hne).trans (h.waiting pid' id' hbefore hidle)
  . intro pid' id' hw hunmarked
    have hbefore := (hworking _ _).mp hw
    by_cases hne : pid' = pid
    . subst hne
      cases Option.some.inj (hbefore.1.symm.trans hworks.1)
      exact hmarked
    . rw [pass_call_other hne] at hunmarked
      exact htrue id' (h.marked pid' id' hbefore hunmarked)
  . intro pid' id' hw t
    have hold := h.delivered pid' id' ((hworking _ _).mp hw) t
    by_cases hne : pid' = pid
    . subst hne
      rw [hself]
      exact hold
    . rw [pass_call_other hne]
      exact hold
  . intro pid' id' ha
    have hold := h.covers pid' id' (fun hg => ha (gone_call.mpr hg))
    rw [hfirst]
    by_cases hne : pid' = pid
    . subst hne
      rw [hself]
      exact hold
    . rw [pass_call_other hne]
      exact hold
  . intro id' t ht
    rw [hdeliveries] at ht ⊢
    simp only [hworking, hfirst]
    cases h.complete id' t ht with
    | inl hw => exact .inl hw
    | inr hcomplete => exact .inr ⟨htrue id' hcomplete.1, hcomplete.2⟩
  . intro id' ids hids
    rw [hfirst] at hids
    rw [hdeliveries]
    by_cases heq : id' = id
    . subst heq
      obtain ⟨t, ht⟩ := List.exists_mem_of_ne_nil _ hworks.2.1
      exact .inr ⟨t, (h.delivered pid id' hworks t).mpr ht⟩
    . cases h.processed id' ids hids with
      | inl hpending => exact .inl ((hrest id' heq).trans hpending)
      | inr hmem => exact .inr hmem

/-! ## The outline -/

/--
What a pass has to be at when it makes a call.
-/
def Pass.Fits (p : Pass) : Call → Prop
  | .listPendingEventsForOrg .. => p.current = none ∧ p.todo = []
  | .matchingTriggers .. => p.Settled
  | .createRun new => ∀ id, new.eventTrigger = some id →
    (∃ event, p.current = some event) ∧ ∃ trigger rest, p.left = trigger :: rest ∧ trigger.id = id
  | .consumeEvent id _ => p.currentId = some id ∧ p.created ≠ [] ∧ p.unmarked = true
  | _ => True

def eventsOutline (env : Env) : Outline (system env) where
  inv := Delivering
  ok := Undivided
  safe _ _ := True
  rely _ _ _ := True
  post pid _ _ w := (pass pid w).Settled
  rely_refl _ _ := trivial
  rely_trans _ _ _ _ _ _ := trivial

/--
A failed call does not move the pass.
-/
theorem step_error {c : Call} {err : JobsError} (p : Pass)
    : p.step (.call pid c (.error err) : Interleave.Event (system env)) = p := by
  cases c <;> rfl

/--
The calls that leave the events and the runs of a pass alone.
-/
def Call.Unsteering (c : Call) : Prop :=
  (∀ orgId limit, c ≠ .listPendingEventsForOrg orgId limit)
    ∧ (∀ orgId topic, c ≠ .matchingTriggers orgId topic)
    ∧ (∀ new, c = .createRun new → new.eventTrigger = none)
    ∧ ∀ id runId, c ≠ .consumeEvent id runId

theorem quiet_unsteering {c : Call} {r : Except JobsError c.Ret} (hc : c.Unsteering) {p : Pass}
    (heven : (p.step (.call pid c r : Interleave.Event (system env))).Even)
    : p.Quiet (p.step (.call pid c r : Interleave.Event (system env))) := by
  obtain ⟨hlist, hmatch, hcreate, hconsume⟩ := hc
  cases r with
  | error err =>
    rw [step_error]
    exact .refl p
  | ok a =>
    have hskip : p.skip.Even → p.Quiet p.skip := by
      intro heven
      cases heven with
      | inl hskipped => cases hskipped
      | inr hnil => exact .skip hnil
    cases c with
    | listPendingEventsForOrg orgId limit => exact absurd rfl (hlist orgId limit)
    | matchingTriggers orgId topic => exact absurd rfl (hmatch orgId topic)
    | consumeEvent id runId => exact absurd rfl (hconsume id runId)
    | createRun new =>
      simp only [Pass.step, hcreate new rfl]
      exact .refl p
    | getJobById id =>
      cases a with
      | none => exact hskip heven
      | some job => exact ⟨rfl, rfl, rfl, rfl, .inl ⟨rfl, rfl⟩⟩
    | countActiveRuns jobId =>
      simp only [Pass.step] at heven ⊢
      split
      . next hlimit =>
        rw [if_pos hlimit] at heven
        exact hskip heven
      . exact .refl p
    | _ => exact .refl p

theorem keeps_unsteering {c : Call} {r : Except JobsError c.Ret} (hinv : Delivering w)
    (hanswer : Answers (system env) pid c w.state r s) (hok : Undivided w (.call pid c r))
    (hc : c.Unsteering) : Delivering (w.after s (.call pid c r)) := by
  apply hinv.quiet rfl
  . cases c with
    | matchingTriggers orgId topic => exact absurd rfl (hc.2.1 orgId topic)
    | _ => rfl
  . cases c with
    | createRun new =>
      cases r with
      | ok run =>
        simp only [delivery, hc.2.2.1 new rfl]
        simp
      | error err => rfl
    | _ => rfl
  . intro id b hb
    exact answers_isConsumed hanswer hc.2.2.2 hb
  . rintro _ ⟨⟩
    exact quiet_unsteering hc (hok.even pid rfl)

theorem keeps_fits {c : Call} {r : Except JobsError c.Ret} (hinv : Delivering w)
    (hanswer : Answers (system env) pid c w.state r s) (hok : Undivided w (.call pid c r))
    (halive : ¬ Gone pid w) (hfits : (pass pid w).Fits c)
    : (eventsOutline env).Keeps w s (.call pid c r) where
  safe := trivial
  rely _ _ := trivial
  inv := by
    cases r with
    | error err =>
      have hsettled : (pass pid w).Settled := (hok.whole rfl).2 pid rfl
      apply hinv.quiet rfl
      . cases c <;> rfl
      . cases c <;> rfl
      . intro id b hb
        apply answers_isConsumed hanswer _ hb
        -- The event would be marked after all, but then a run is there and nothing may fail.
        rintro id' runId rfl
        obtain ⟨_, hcreated, hunmarked⟩ := hfits
        cases hsettled with
        | inl hnil => exact hcreated hnil
        | inr hdone =>
          rw [hdone.2] at hunmarked
          cases hunmarked
      . rintro _ ⟨⟩
        rw [step_error]
        exact .refl _
    | ok a =>
      cases c with
      | listPendingEventsForOrg orgId limit => exact hinv.listing hanswer hok hfits.1 hfits.2
      | matchingTriggers orgId topic => exact hinv.beginning hanswer hok halive hfits
      | consumeEvent id runId => exact hinv.consuming hanswer ⟨hfits.1, hfits.2.1, halive⟩
      | createRun new =>
        cases hnew : new.eventTrigger with
        | none =>
          apply keeps_unsteering hinv hanswer hok
          simp [Call.Unsteering, hnew]
        | some id =>
          obtain ⟨⟨event, hcurrent⟩, trigger, rest, hleft, rfl⟩ := hfits id hnew
          have hid : (pass pid w).currentId = some event.id := by
            simp [Pass.currentId, hcurrent]
          exact hinv.creating hanswer hok halive hnew hid hleft
      | _ =>
        apply keeps_unsteering hinv hanswer hok
        simp [Call.Unsteering]

end Steps

section Programs

variable {env : Env} {pid : Nat} {w : World (system env)} {α : Type}

/--
The pass of a process that is there.
-/
def At (pid : Nat) (p : Pass) (w : World (system env)) : Prop :=
  pass pid w = p ∧ ¬ Gone pid w

theorem At.extends {p : Pass} {w' : World (system env)} (h : Extends pid w w') (hat : At pid p w)
    : At pid p w' := by
  unfold At Gone at *
  rw [pass_extends h, Did.extends_iff h]
  exact hat

theorem At.call {p : Pass} {s : (system env).State} {c : Call} {r : Except JobsError c.Ret}
    (h : At pid p w)
    : At pid (p.step (.call pid c r : Interleave.Event (system env))) (w.after s (.call pid c r)) := by
  unfold At
  rw [pass_call_self, gone_call, h.1]
  exact ⟨rfl, h.2⟩

/--
The rule for a call that the pass is fit for.
-/
theorem wp_pass {c : Call} {f : c.Ret → JobsM α} {p : Pass} (h : At pid p w) (hfits : p.Fits c)
    (hnext : ∀ a w, At pid (p.step (.call pid c (.ok a) : Interleave.Event (system env))) w →
      (eventsOutline env).Wp pid (fun _ w => (pass pid w).Settled) (f a) w)
    : (eventsOutline env).Wp pid (fun _ w => (pass pid w).Settled) (query c >>= f) w := by
  apply Outline.wp_call
  intro w' hrely hinv r s hanswer hok
  have hat := h.extends hrely.1
  constructor
  . exact keeps_fits hinv hanswer hok hat.2 (hat.1 ▸ hfits)
  . cases r with
    | ok a => exact hnext a _ hat.call
    | error e =>
      intro w'' hrely' _
      have hsettled : (pass pid w').Settled := (hok.whole rfl).2 pid rfl
      rw [pass_extends hrely'.1, pass_call_self, step_error]
      exact hsettled

theorem fireEventTriggers_wp {event : Event} {payload : Json} {triggers : List Trigger} {p : Pass}
    {f : Unit → JobsM α} (h : At pid p w) (hleft : p.left = triggers)
    (hcurrent : p.current = some event) (hunmarked : p.unmarked = false)
    (hnext : ∀ p' w, At pid p' w → p'.todo = p.todo → p'.left = [] → p'.unmarked = false →
      (eventsOutline env).Wp pid (fun _ w => (pass pid w).Settled) (f ()) w)
    : (eventsOutline env).Wp pid (fun _ w => (pass pid w).Settled)
        (fireTriggers .event payload (fun _ run => query (.consumeEvent event.id run.id)) triggers
          >>= f) w := by
  induction triggers generalizing p w with
  | nil => exact hnext p w h rfl hleft hunmarked
  | cons trigger triggers ih =>
    have hskip : ∀ p' w, At pid p' w → p'.todo = p.todo → p'.left = triggers →
        p'.current = some event → p'.unmarked = false →
          (eventsOutline env).Wp pid (fun _ w => (pass pid w).Settled)
            (fireTriggers .event payload (fun _ run => query (.consumeEvent event.id run.id)) triggers
              >>= f) w := by
      intro p' w hat htodo hleft' hcurrent' hunmarked'
      apply ih hat hleft' hcurrent' hunmarked'
      intro p'' w hat htodo' hleft'' hunmarked''
      exact hnext p'' w hat (htodo'.trans htodo) hleft'' hunmarked''
    have htail : p.left.tail = triggers := by
      rw [hleft]
      rfl
    unfold fireTriggers fireTrigger
    simp only [Program.bind_assoc]
    apply wp_pass h
    . trivial
    intro job w₁ hat₁
    cases job with
    | none => exact hskip p.skip w₁ hat₁ rfl htail hcurrent hunmarked
    | some job =>
      simp only [Program.bind_assoc]
      apply wp_pass hat₁
      . trivial
      intro activeRuns w₂ hat₂
      simp only [Pass.step, Option.any_some, decide_eq_true_eq] at hat₂
      split
      . next hlimit =>
        rw [if_pos hlimit] at hat₂
        exact hskip _ w₂ hat₂ rfl htail hcurrent hunmarked
      . next hlimit =>
        rw [if_neg hlimit] at hat₂
        unfold createAndEnqueue
        simp only [Program.bind_assoc]
        apply wp_pass hat₂
        . intro id hid
          exact ⟨⟨event, hcurrent⟩, trigger, triggers, hleft, Option.some.inj hid⟩
        intro run w₃ hat₃
        apply wp_pass hat₃
        . trivial
        intro _ w₄ hat₄
        apply wp_pass hat₄
        . refine ⟨?_, List.cons_ne_nil _ _, rfl⟩
          show p.current.map (·.id) = some event.id
          rw [hcurrent]
          rfl
        intro _ w₅ hat₅
        exact hskip _ w₅ hat₅ rfl htail hcurrent rfl

theorem matchEvents_passes {events : List Event} {p : Pass} (h : At pid p w) (htodo : p.todo = events)
    (hsettled : p.Settled)
    : (eventsOutline env).Wp pid (fun _ w => (pass pid w).Settled) (matchEvents events) w := by
  induction events generalizing p w with
  | nil =>
    apply Outline.wp_pure
    intro w' hrely _
    rw [pass_extends hrely.1, h.1]
    exact hsettled
  | cons event events ih =>
    unfold matchEvents
    apply wp_pass h
    . exact hsettled
    intro triggers w₁ hat₁
    apply fireEventTriggers_wp hat₁ rfl
    . show p.todo.head? = some event
      rw [htodo]
      rfl
    . rfl
    intro p' w₂ hat₂ htodo₂ hleft₂ hunmarked₂
    apply ih hat₂
    . rw [htodo₂]
      show p.todo.tail = events
      rw [htodo]
      rfl
    . exact .inr ⟨hleft₂, hunmarked₂⟩

theorem pollEvents_passes (h : At pid .start w)
    : (eventsOutline env).Wp pid (fun _ w => (pass pid w).Settled) pollEvents w := by
  unfold pollEvents
  apply wp_pass h
  . exact ⟨rfl, rfl⟩
  intro events w₁ hat₁
  exact matchEvents_passes hat₁ rfl (.inl rfl)

theorem unsteering_of_makes {req : Request} {c : Call} (hreq : req ≠ .pollEvents) (h : req.Makes c)
    : c.Unsteering := by
  cases h with
  | inl hneutral => cases c <;> simp_all [Call.Unsteering, Call.isNeutral]
  | inr hwrites =>
    cases req with
    | pollEvents => exact absurd rfl hreq
    | _ => cases c <;> simp_all [Call.Unsteering, Request.writes, NewRun.eventTrigger]

theorem events_wp (req : Request) (h : At pid .start w)
    : (eventsOutline env).Wp pid (fun _ w => (pass pid w).Settled) (program env req) w := by
  by_cases hpoll : req = .pollEvents
  . subst hpoll
    exact pollEvents_passes h
  . have hstart : (pass pid w).created = [] ∧ ¬ Gone pid w := ⟨by rw [h.1]; rfl, h.2⟩
    have huses := (program_makes env req).mono (fun _ => unsteering_of_makes hpoll)
    refine Outline.wp_mono (Outline.wp_of_uses
      (J := fun w => (pass pid w).created = [] ∧ ¬ Gone pid w) huses hstart ?_ ?_)
      (fun _ _ _ hnil => .inl hnil.1)
    . rintro w w' hrely _ ⟨hnil, halive⟩
      unfold Gone
      rw [pass_extends hrely.1, Did.extends_iff hrely.1]
      exact ⟨hnil, halive⟩
    . rintro c hc w r s ⟨hnil, halive⟩ hinv hanswer hok
      refine ⟨⟨trivial, keeps_unsteering hinv hanswer hok hc, fun _ _ => trivial⟩, ?_, ?_⟩
      . rw [pass_call_self]
        exact (quiet_unsteering hc (hok.even pid rfl)).created.trans hnil
      . intro hgone
        exact halive (gone_call.mp hgone)

end Programs

theorem eventsOutline_sound (env : Env) : (eventsOutline env).Sound where
  spawn w pid req hinv hfresh _ := by
    refine ⟨trivial, ?_, fun _ _ => trivial⟩
    apply hinv.quiet rfl rfl rfl
    . exact fun _ _ h => h
    . exact fun _ _ => .refl _
  program w pid req _ hfresh _ := by
    apply events_wp req
    constructor
    . refine (pass_after_self rfl).trans ?_
      rw [pass_fresh hfresh]
      rfl
    . intro hgone
      exact Did.not_of_fresh hfresh ((Gone.after_iff rfl).mp hgone)
  finish w pid req r hinv _ hsettled _ := by
    refine ⟨trivial, ?_, fun _ _ => trivial⟩
    exact hinv.ending rfl rfl rfl rfl hsettled (fun _ => rfl)
  crash w pid req hinv _ hok := by
    refine ⟨trivial, ?_, fun _ _ => trivial⟩
    exact hinv.ending rfl rfl rfl rfl ((hok.whole rfl).2 pid rfl) (fun _ => rfl)
  tick w t hinv _ := by
    refine ⟨trivial, ?_, fun _ _ => trivial⟩
    apply hinv.quiet rfl rfl rfl
    . exact fun _ _ h => h
    . rintro _ ⟨⟩

/-! ## From the outline to the runs -/

section Runs

variable {env : Env}

theorem createRun_answers_length {pid : Nat} {new : NewRun} {run : Run} {s s' : JobsDb}
    (h : Answers (system env) pid (.createRun new) s (.ok run) s')
    : s.runs.rows.length < s'.runs.rows.length := by
  obtain ⟨x, hexec⟩ := exec_of_answers h
  have hcreate : s.createRun x.id new = (.ok run, s') := hexec
  unfold JobsDb.createRun at hcreate
  split at hcreate
  . next runs hinsert =>
    cases hcreate
    unfold Table.insert at hinsert
    split at hinsert
    . cases hinsert
      exact Nat.lt_succ_self _
    . cases hinsert
  . cases hcreate

/--
In the runs in question, a run is delivered exactly where the trace says so.
-/
theorem delivered_event_iff {c : Config (system env)}
    {next : Interleave.Event (system env) × Config (system env)} (h : Config.Steps c next)
    (hok : Undivided c.world next.1) (id trigger : Uuid)
    : Delivers id trigger c.world next.1 next.2.world
      ↔ delivery next.1 c.world.trace = some (id, trigger) := by
  constructor
  . rintro ⟨hcreates, ⟨pid, hpid, hcurrent⟩, _⟩
    generalize next.1 = e at *
    cases e with
    | call pid' call r =>
      cases hpid
      cases call with
      | createRun new =>
        cases r with
        | ok run =>
          have hnew : new.eventTrigger = some trigger := hcreates
          have hcurrent : (passOf pid c.world.trace).currentId = some id := hcurrent
          simp [delivery, hnew, hcurrent]
        | error err =>
          rw [(hok.whole rfl).1] at hcreates
          cases hcreates
      | _ => cases hcreates
    | _ => cases hcreates
  . intro hdelivery
    cases h with
    | @answer pid req call cont r s hp hanswer =>
      simp only [Config.answer] at hdelivery ⊢
      cases call with
      | createRun new =>
        cases r with
        | ok run =>
          simp only [delivery, Option.bind_eq_bind, Option.bind_eq_some_iff] at hdelivery
          obtain ⟨id', hcurrent, trigger', hnew, heq⟩ := hdelivery
          cases heq
          exact ⟨hnew, ⟨pid, rfl, hcurrent⟩, createRun_answers_length hanswer⟩
        | error err => cases hdelivery
      | _ => cases hdelivery
    | _ => cases hdelivery

theorem tally_delivers {id trigger : Uuid} {ms : List (Move (system env))}
    {c c' : Config (system env)} (hrun : Config.run ms c = some c')
    (hok : Config.Along Undivided ms c)
    : Config.tally (Delivers id trigger) ms c + (deliveries c.world.trace).count (id, trigger)
        =
      (deliveries c'.world.trace).count (id, trigger) := by
  induction ms generalizing c with
  | nil =>
    cases hrun
    exact Nat.zero_add _
  | cons m ms ih =>
    simp only [Config.run, Config.tally, Config.Along] at hrun hok ⊢
    cases hstep : Config.step m c with
    | none => simp [hstep] at hrun
    | some next =>
      simp only [hstep] at hrun hok ⊢
      have hsteps := Config.step_steps hstep
      rw [← ih hrun hok.2, hsteps.trace, deliveries, List.count_append]
      have hone : (if Delivers id trigger c.world next.1 next.2.world then 1 else 0)
          = (delivery next.1 c.world.trace).toList.count (id, trigger) := by
        simp only [delivered_event_iff hsteps hok.1 id trigger]
        cases delivery next.1 c.world.trace with
        | none => simp
        | some d => simp [List.count_singleton]
      omega

theorem startsOnce (env : Env) : StartsOnce env Undivided := by
  intro id trigger s ms c hrun hok
  have hvalid : (eventsOutline env).Valid (Config.start s) := by
    apply Outline.Valid.start
    constructor
    . rintro pid _ id ⟨hmem, _⟩
      cases hmem
    . exact List.nodup_nil
    . exact fun _ _ => ⟨List.nodup_nil, List.nodup_nil⟩
    . exact fun _ _ => .inl rfl
    . rintro pid id ⟨hmem, _⟩
      cases hmem
    . rintro pid id ⟨hmem, _⟩
      cases hmem
    . rintro pid id ⟨hcurrent, _⟩
      cases hcurrent
    . rintro pid id ⟨hcurrent, _⟩
      cases hcurrent
    . intro pid id _ hcurrent
      cases hcurrent
    . intro id t hmem
      cases hmem
    . intro id ids hids
      cases hids
  have hinv : Delivering c.world := ((eventsOutline_sound env).run hvalid hok hrun).1.inv
  have htally := @tally_delivers env id trigger ms _ c hrun hok
  have hzero : (deliveries (Config.start s : Config (system env)).world.trace).count (id, trigger) = 0 :=
    rfl
  rw [hzero, Nat.add_zero] at htally
  rw [htally]
  refine ⟨List.nodup_iff_count_le_one.mp hinv.once _, ?_⟩
  intro ids hids htrigger hconsumed hidle
  rw [List.count_eq_one_of_mem hinv.once]
  have hdelivered : ∃ t, (id, t) ∈ deliveries c.world.trace := by
    cases hinv.processed id ids hids with
    | inl hpending => exact absurd hpending hconsumed
    | inr hmem => exact hmem
  obtain ⟨t, ht⟩ := hdelivered
  cases hinv.complete id t ht with
  | inr hcomplete => exact hcomplete.2 ids hids trigger htrigger
  | inl hworking =>
    obtain ⟨pid, hworking⟩ := hworking
    have hahead := hworking.ahead
    have hmem : pid ∈ c.world.pids := by
      by_contra hnone
      have hfresh : Fresh pid c.world := by
        intro e he hpid
        exact hnone (List.mem_filterMap.mpr ⟨e, he, hpid⟩)
      have hstart := hahead.1
      rw [pass_fresh hfresh] at hstart
      cases hstart
    exact absurd hahead (hidle pid hmem)

end Runs

/--
An event with two triggers, whose jobs belong to the organisation that is polled.
-/
def JobsDb.emitted : JobsDb :=
  { JobsDb.empty with
    triggers := ⟨[⟨20, 3, .event, .object [("topic", .string "paid")], none, true, none, none⟩,
      ⟨21, 5, .event, .object [("topic", .string "paid")], none, true, none, none⟩], by
        simp [Relational.Constrained.conflict]⟩
    events := ⟨[⟨40, 0, "paid", .null, none, none, 5, none⟩], List.pairwise_singleton _ _⟩ }

/--
The second job has a limit of its own.
-/
def Choice.limited (id : Uuid) (limit : Int) : Choice :=
  ⟨id, [⟨3, 0, "mail", "mail", 2, 5, 1000⟩, ⟨5, 0, "bill", "bill", 2, limit, 1000⟩], ⟨200, ""⟩⟩

/--
The event is polled once with room for both jobs.
-/
def polledWhole : List (Move (system .plain)) :=
  .spawn Request.pollEvents :: goesOn 0 7 (.limited 100 5) ++ goesOn 0 5 (.limited 101 5)
    ++ .finish 0 :: serves 1 .pollEvents 1 (.limited 102 5)

example : Config.Along Undivided polledWhole (.start .emitted) := by
  decide +kernel

example : Config.tally (Delivers 40 21) polledWhole (.start .emitted) = 1 := by
  decide +kernel

/--
The second job is skipped after the first one has consumed the event.
-/
def polledInPart : List (Move (system .plain)) :=
  serves 0 .pollEvents 9 (.limited 100 0)

theorem not_startsOnce : ¬ StartsOnce .plain (fun _ _ => True) := by
  intro h
  have htally : Config.tally (Delivers 40 21) polledInPart (.start .emitted) = 0 := by
    decide +kernel
  have hrun : (Config.run polledInPart (.start .emitted)).any (fun c =>
      firstMatch 40 c.world.trace == some [20, 21]
        && JobsDb.isConsumed c.world.state 40 == some true
        && decide (∀ pid ∈ c.world.pids, ¬ Ahead pid 40 c.world)) = true := by
    decide +kernel
  obtain ⟨c, hrun, hcheck⟩ := Config.exists_of_any hrun
  simp only [Bool.and_eq_true, decide_eq_true_eq] at hcheck
  obtain ⟨⟨hfirst, hconsumed⟩, hidle⟩ := hcheck
  have hone := (h 40 21 .emitted polledInPart c hrun (Config.along_true _ _)).2 [20, 21]
    (eq_of_beq hfirst) (by decide) (by rw [eq_of_beq hconsumed]; decide) hidle
  rw [htally] at hone
  cases hone

/--
A run that is created before the event is marked is created again.
-/
example :
    let ms := .spawn Request.pollEvents :: goesOn 0 6 (.limited 100 5) ++ .crash 0
      :: .spawn Request.pollEvents :: goesOn 1 7 (.limited 101 5)
    Config.tally (Delivers 40 20) ms (.start .emitted) = 2 := by
  decide +kernel

end Reactor.Jobs
