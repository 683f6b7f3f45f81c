import ReactorCloud.Jobs.Calls
import ReactorCloud.Jobs.Frame

/-!
This module contains when a cron trigger fires once per due time. The lock of the listing is gone with
its statement, so between the listing and the update of a trigger nothing keeps other polls away.
-/

namespace Reactor.Jobs

open Interleave
open Interleave.Program
open Relational (Table)
open Rust (Json Uuid)

def JobsDb.nextAt (s : JobsDb) (id : Uuid) : Option Int :=
  (s.triggers.find? (·.id == id)).bind (·.nextTriggerAt)

section Polling

variable {env : Env}

def dueListed : Interleave.Event (system env) → List Trigger
  | .call _ (.listDueCronTriggers _) (.ok rows) => rows
  | _ => []

/--
The trigger a cron run is created for.
-/
def firedId : Interleave.Event (system env) → Option Uuid
  | .call _ (.createRun new) _ => if new.triggerKind == .cron then new.triggerId else none
  | _ => none

def updatedId : Interleave.Event (system env) → Option Uuid
  | .call _ (.updateTriggerFired id _ _) (.ok _) => some id
  | _ => none

def ListsDue (id : Uuid) (e : Interleave.Event (system env)) : Prop :=
  ∃ row ∈ dueListed e, row.id = id

def ListsDueAt (id : Uuid) (v : Int) (e : Interleave.Event (system env)) : Prop :=
  ∃ row ∈ dueListed e, row.id = id ∧ row.nextTriggerAt = some v

instance (id : Uuid) (e : Interleave.Event (system env)) : Decidable (ListsDue id e) :=
  List.decidableBEx _ _

instance (id : Uuid) (v : Int) (e : Interleave.Event (system env)) : Decidable (ListsDueAt id v e) :=
  List.decidableBEx _ _

/--
The process `pid` has listed the trigger as due at `v`.
-/
abbrev ListedAt (pid : Nat) (id : Uuid) (v : Int) (w : World (system env)) : Prop :=
  Did (ListsDueAt id v) pid w

abbrev Fired (pid : Nat) (id : Uuid) (w : World (system env)) : Prop :=
  Did (fun e => firedId e = some id) pid w

abbrev Updated (pid : Nat) (id : Uuid) (w : World (system env)) : Prop :=
  Did (fun e => updatedId e = some id) pid w

/--
The process `pid` has listed the trigger and has not yet updated it.
-/
def Polls (pid : Nat) (id : Uuid) (w : World (system env)) : Prop :=
  Did (ListsDue id) pid w ∧ ¬ Updated pid id w ∧ ¬ Gone pid w

instance (pid : Nat) (id : Uuid) (w : World (system env)) : Decidable (Polls pid id w) :=
  inferInstanceAs (Decidable (_ ∧ _))

/--
Every trigger the process `pid` has fired is updated.
-/
def Settled (pid : Nat) (w : World (system env)) : Prop :=
  ∀ e ∈ w.trace, e.pid? = some pid → (firedId e).all (fun id => Updated pid id w) = true

instance (pid : Nat) (w : World (system env)) : Decidable (Settled pid w) :=
  List.decidableBAll _ _

/--
A trigger is listed when no other poll has it, and no call fails from the creation of a run to the
update of its trigger.
-/
def Punctual (w : World (system env)) (e : Interleave.Event (system env)) : Prop :=
  (∀ row ∈ dueListed e, ∀ pid ∈ w.pids, e.pid? ≠ some pid → ¬ Polls pid row.id w)
    ∧ match e with
      | .call pid _ (.error _) => firedId e = none ∧ Settled pid w
      | .crash pid => Settled pid w
      | _ => True

instance (w : World (system env)) (e : Interleave.Event (system env)) : Decidable (Punctual w e) :=
  have : Decidable (∀ row ∈ dueListed e, ∀ pid ∈ w.pids, e.pid? ≠ some pid → ¬ Polls pid row.id w) :=
    List.decidableBAll _ _
  match e with
  | .call pid _ (.error _) => inferInstanceAs (Decidable (_ ∧ _ ∧ Settled pid w))
  | .call _ _ (.ok _) => inferInstanceAs (Decidable (_ ∧ True))
  | .crash pid => inferInstanceAs (Decidable (_ ∧ Settled pid w))
  | .spawn .. => inferInstanceAs (Decidable (_ ∧ True))
  | .finish .. => inferInstanceAs (Decidable (_ ∧ True))
  | .tick => inferInstanceAs (Decidable (_ ∧ True))

/--
The step creates a run of the trigger, which the process has listed as due at `v`.
-/
def FiresAt (id : Uuid) (v : Int) (w : World (system env)) (e : Interleave.Event (system env))
    (w' : World (system env)) : Prop :=
  firedId e = some id ∧ (∃ pid ∈ w.pids, e.pid? = some pid ∧ ListedAt pid id v w)
    ∧ w.state.runs.rows.length < w'.state.runs.rows.length

instance (id : Uuid) (v : Int) (w : World (system env)) (e : Interleave.Event (system env))
    (w' : World (system env)) : Decidable (FiresAt id v w e w') :=
  inferInstanceAs (Decidable (_ ∧ _ ∧ _))

end Polling

/--
From any state, in the runs whose steps are `ok`, no due time of a trigger gives rise to two runs.
-/
def FiresOnce (env : Env) (ok : World (system env) → Interleave.Event (system env) → Prop) : Prop :=
  ∀ (id : Uuid) (v : Int) (s : JobsDb) (ms : List (Move (system env))),
    Config.Along ok ms (Config.start s) → Config.tally (FiresAt id v) ms (Config.start s) ≤ 1

section History

variable {env : Env} {pid : Nat} {id : Uuid} {v : Int} {w w' : World (system env)}

theorem settled_iff : Settled pid w ↔ ∀ id, Fired pid id w → Updated pid id w := by
  constructor
  . rintro h id ⟨e, he, hpid, hfired⟩
    have := h e he hpid
    rw [hfired] at this
    exact of_decide_eq_true this
  . intro h e he hpid
    cases hfired : firedId e with
    | none => rfl
    | some id => exact decide_eq_true (h id ⟨e, he, hpid, hfired⟩)

theorem Polls.extends_iff (h : Extends pid w w') : Polls pid id w' ↔ Polls pid id w := by
  unfold Polls Gone
  simp only [Did.extends_iff h]

theorem Settled.extends_iff (h : Extends pid w w') : Settled pid w' ↔ Settled pid w := by
  simp only [settled_iff, Did.extends_iff h]

theorem ListedAt.lists (h : ListedAt pid id v w) : Did (ListsDue id) pid w := by
  obtain ⟨e, he, hpid, row, hrow, hid, _⟩ := h
  exact ⟨e, he, hpid, row, hrow, hid⟩

theorem Polls.mem_pids (h : Polls pid id w) : pid ∈ w.pids :=
  h.1.mem_pids

end History

/-! ## What a call does to the triggers -/

namespace JobsDb

theorem nextAt_updateTriggerFired (s : JobsDb) (id id' : Uuid) (last : Int) (next : Option Int)
    : (s.updateTriggerFired id last next).nextAt id'
        =
      if id' = id then (s.triggers.find? (·.id == id)).bind (fun _ => next) else s.nextAt id' := by
  have hfind : (s.updateTriggerFired id last next).triggers.find? (·.id == id')
      = (s.triggers.find? (·.id == id')).map (fun t =>
        if t.id == id then t.fired last next else t) :=
    @Table.find?_modify Trigger _ s.triggers (·.id == id) (·.id == id') (Trigger.fired last next)
      (fun _ _ => rfl) (fun _ => rfl)
  unfold nextAt
  rw [hfind]
  cases hrow : s.triggers.find? (·.id == id') with
  | none =>
    split
    . next heq => rw [← heq, hrow]; rfl
    . rfl
  | some t =>
    have hid : t.id = id' := by
      simpa using Table.prop_of_find? hrow
    split
    . next heq => simp [← heq, hrow, hid, Trigger.fired]
    . next hne => simp [hid, hne]

end JobsDb

/-! ## The outline -/

/--
A trigger has one poll at most, which has seen its present due time, and the due times that are spent
are over or are those of the polls that go on.
-/
structure Timely {env : Env} (w : World (system env)) : Prop where
  unique : ∀ pid pid' id, Polls pid id w → Polls pid' id w → pid = pid'
  current : ∀ pid id v, Polls pid id w → ListedAt pid id v w →
    JobsDb.nextAt w.state id = some v ∧ v ≤ w.state.now
  spent : ∀ pid id v, ListedAt pid id v w → Fired pid id w →
    Polls pid id w ∨ ∀ v', JobsDb.nextAt w.state id = some v' → v < v'

def Spent {env : Env} (id : Uuid) (v : Int) (w : World (system env)) : Prop :=
  ∃ pid, ListedAt pid id v w ∧ Fired pid id w

def cronOutline (env : Env) : Outline (system env) where
  inv := Timely
  ok := Punctual
  safe w e := ∀ id v w', FiresAt id v w e w' → ¬ Spent id v w
  rely _ w w' := w.state.now ≤ w'.state.now
  post pid _ _ w := Settled pid w
  rely_refl _ _ := Int.le_refl _
  rely_trans _ _ _ _ h h' := Int.le_trans h h'

section Steps

variable {env : Env} {pid : Nat} {w : World (system env)}

/--
What a process has to know to make a call.
-/
structure Fits (pid : Nat) (c : Call) (w : World (system env)) : Prop where
  fire : ∀ new id, c = .createRun new → new.triggerKind = .cron → new.triggerId = some id →
    Polls pid id w ∧ ¬ Fired pid id w
  update : ∀ id last next, c = .updateTriggerFired id last next →
    Polls pid id w ∧ Fired pid id w ∧ ∃ v, ListedAt pid id v w ∧ ∀ v', next = some v' → v < v'
  list : ∀ now, c = .listDueCronTriggers now → now ≤ w.state.now ∧ ∀ id, ¬ Fired pid id w

theorem answers_now {c : Call} {r : Except JobsError c.Ret} {s s' : JobsDb}
    (h : Answers (system env) pid c s r s') : s'.now = s.now :=
  answers_keep (P := fun s' => s'.now = s.now) h rfl (s.exec_now c)

theorem answers_triggers {c : Call} {r : Except JobsError c.Ret} {s s' : JobsDb}
    (h : Answers (system env) pid c s r s') (hc : c.table ≠ some .triggers)
    : s'.triggers = s.triggers :=
  answers_keep (P := fun s' => s'.triggers = s.triggers) h rfl (fun x => s.exec_triggers x hc)

theorem Polls.after {s : JobsDb} {e : Interleave.Event (system env)} {pid' : Nat} {id : Uuid}
    (h : Polls pid' id w) (hupdated : e.pid? = some pid' → updatedId e ≠ some id)
    (hends : e.ends = false) : Polls pid' id (w.after s e) := by
  refine ⟨h.1.after s e, ?_, ?_⟩
  . intro hdid
    cases Did.after_iff.mp hdid with
    | inl hnew => exact hupdated hnew.1 hnew.2
    | inr hold => exact h.2.1 hold
  . intro hdid
    cases Did.after_iff.mp hdid with
    | inl hnew =>
      rw [hends] at hnew
      cases hnew.2
    | inr hold => exact h.2.2 hold

theorem Polls.of_after {s : JobsDb} {e : Interleave.Event (system env)} {pid' : Nat} {id : Uuid}
    (h : Polls pid' id (w.after s e))
    : Polls pid' id w ∨ (e.pid? = some pid' ∧ ListsDue id e) := by
  obtain ⟨hlists, hupdated, halive⟩ := h
  cases Did.after_iff.mp hlists with
  | inl hnew => exact .inr hnew
  | inr hold =>
    exact .inl ⟨hold, fun h => hupdated (h.after s e), fun h => halive (h.after s e)⟩

theorem not_listsDue {e : Interleave.Event (system env)} {id : Uuid} (h : dueListed e = [])
    : ¬ ListsDue id e := by
  rintro ⟨row, hrow, _⟩
  rw [h] at hrow
  cases hrow

theorem ListedAt.of_after {s : JobsDb} {e : Interleave.Event (system env)} {pid' : Nat} {id : Uuid}
    {v : Int} (h : ListedAt pid' id v (w.after s e)) (hlisted : dueListed e = [])
    : ListedAt pid' id v w := by
  cases Did.after_iff.mp h with
  | inl hnew =>
    obtain ⟨_, row, hrow, _⟩ := hnew
    rw [hlisted] at hrow
    cases hrow
  | inr hold => exact hold

theorem nextAt_of_triggers {s s' : JobsDb} (h : s'.triggers = s.triggers) (id : Uuid)
    : s'.nextAt id = s.nextAt id := by
  unfold JobsDb.nextAt
  rw [h]

/--
A step that lists no trigger, fires only what its process polls, and lets no poll go that has fired.
-/
theorem Timely.unlisted {s : JobsDb} {e : Interleave.Event (system env)} (h : Timely w)
    (htriggers : s.triggers = w.state.triggers) (hnow : w.state.now ≤ s.now)
    (hlisted : dueListed e = [])
    (hfires : ∀ pid id, e.pid? = some pid → firedId e = some id → Polls pid id w)
    (hkept : ∀ pid id, Polls pid id w → Fired pid id (w.after s e) → Polls pid id (w.after s e))
    : Timely (w.after s e) := by
  have hnext := nextAt_of_triggers htriggers
  have hpolls : ∀ pid id, Polls pid id (w.after s e) → Polls pid id w := by
    intro pid id hp
    cases hp.of_after with
    | inl hold => exact hold
    | inr hnew => exact absurd hnew.2 (not_listsDue hlisted)
  constructor
  . intro pid pid' id hp hp'
    exact h.unique pid pid' id (hpolls _ _ hp) (hpolls _ _ hp')
  . intro pid id v hp hl
    obtain ⟨hcurrent, hle⟩ := h.current pid id v (hpolls _ _ hp) (hl.of_after hlisted)
    exact ⟨(hnext id).trans hcurrent, Int.le_trans hle hnow⟩
  . intro pid id v hl hf
    cases Did.after_iff.mp hf with
    | inl hnew => exact .inl (hkept pid id (hfires pid id hnew.1 hnew.2) hf)
    | inr hold =>
      cases h.spent pid id v (hl.of_after hlisted) hold with
      | inl hp => exact .inl (hkept pid id hp hf)
      | inr hover =>
        apply Or.inr
        intro v' hv'
        exact hover v' ((hnext id).symm.trans hv')

theorem Timely.listing {now : Int} {rows : List Trigger} {s : JobsDb} (h : Timely w)
    (hanswer : Answers (system env) pid (.listDueCronTriggers now) w.state (.ok rows) s)
    (hok : Punctual w (.call pid (Call.listDueCronTriggers now) (.ok rows)))
    (hfits : Fits pid (.listDueCronTriggers now) w)
    : Timely (w.after s (.call pid (Call.listDueCronTriggers now) (.ok rows))) := by
  obtain ⟨x, hexec⟩ := hanswer.ok
  have hrows : rows = JobsDb.listDueCronTriggers w.state now := by
    cases hexec
    rfl
  have hs : s = w.state := by
    cases hexec
    rfl
  subst hs
  obtain ⟨hnow, hunfired⟩ := hfits.list now rfl
  have hself : ∀ pid' id,
      Polls pid' id (w.after w.state (.call pid (Call.listDueCronTriggers now) (.ok rows))) →
      Polls pid' id w ∨ (pid' = pid ∧ ∀ q, q ≠ pid → ¬ Polls q id w) := by
    intro pid' id hp
    cases hp.of_after with
    | inl hold => exact .inl hold
    | inr hnew =>
      obtain ⟨hpid, row, hrow, rfl⟩ := hnew
      apply Or.inr
      constructor
      . exact (Option.some.inj hpid).symm
      . intro q hq hpolls
        apply hok.1 row hrow q hpolls.mem_pids _ hpolls
        intro heq
        exact hq (Option.some.inj heq).symm
  constructor
  . intro p p' id hp hp'
    cases hself p id hp with
    | inl hold =>
      cases hself p' id hp' with
      | inl hold' => exact h.unique p p' id hold hold'
      | inr hnew' =>
        by_contra hne
        exact hnew'.2 p (hnew'.1 ▸ hne) hold
    | inr hnew =>
      cases hself p' id hp' with
      | inl hold' =>
        by_contra hne
        exact hnew.2 p' (fun heq => hne (hnew.1.trans heq.symm)) hold'
      | inr hnew' => exact hnew.1.trans hnew'.1.symm
  . intro p id v hp hl
    cases Did.after_iff.mp hl with
    | inl hnew =>
      obtain ⟨_, row, hrow, hid, hv⟩ := hnew
      have hrow : row ∈ JobsDb.listDueCronTriggers w.state now := hrows ▸ hrow
      unfold JobsDb.listDueCronTriggers at hrow
      rw [Table.mem_select] at hrow
      have hfind : w.state.triggers.find? (·.id == id) = some row := by
        apply Table.find?_eq_some hrow.1
        . simp [hid]
        . intro t ht
          simp [Relational.Constrained.conflict, hid, eq_of_beq ht]
      constructor
      . show (w.state.triggers.find? (·.id == id)).bind (·.nextTriggerAt) = some v
        rw [hfind]
        exact hv
      . have hdue := hrow.2
        simp only [JobsDb.isDueCron, hv, Option.any_some, Bool.and_eq_true, decide_eq_true_eq] at hdue
        exact Int.le_trans hdue.2 hnow
    | inr hold =>
      apply h.current p id v _ hold
      exact ⟨ListedAt.lists hold, fun h => hp.2.1 (h.after _ _), fun h => hp.2.2 (h.after _ _)⟩
  . intro p id v hl hf
    have hf : Fired p id w := by
      cases Did.after_iff.mp hf with
      | inl hnew => cases hnew.2
      | inr hold => exact hold
    cases Did.after_iff.mp hl with
    | inl hnew =>
      cases Option.some.inj hnew.1
      exact absurd hf (hunfired id)
    | inr hold =>
      cases h.spent p id v hold hf with
      | inl hp => exact .inl (hp.after (by simp [updatedId]) rfl)
      | inr hover => exact .inr hover

theorem Timely.updating {id : Uuid} {last : Int} {next : Option Int} {s : JobsDb} (h : Timely w)
    (hanswer : Answers (system env) pid (.updateTriggerFired id last next) w.state (.ok ()) s)
    (hfits : Fits pid (.updateTriggerFired id last next) w)
    : Timely (w.after s (.call pid (Call.updateTriggerFired id last next) (.ok ()))) := by
  obtain ⟨x, hexec⟩ := hanswer.ok
  have hs : s = JobsDb.updateTriggerFired w.state id last next := by
    cases hexec
    rfl
  obtain ⟨hpolls, _, v₀, hlisted₀, hlt⟩ := hfits.update id last next rfl
  obtain ⟨hcurrent₀, _⟩ := h.current pid id v₀ hpolls hlisted₀
  have hnext : ∀ id', s.nextAt id' = if id' = id then next else JobsDb.nextAt w.state id' := by
    intro id'
    rw [hs]
    refine (JobsDb.nextAt_updateTriggerFired w.state id id' last next).trans ?_
    split
    . cases hfind : w.state.triggers.find? (·.id == id) with
      | none => simp [JobsDb.nextAt, hfind] at hcurrent₀
      | some t => rfl
    . rfl
  have hother : ∀ p id', Polls p id' (w.after s (.call pid (Call.updateTriggerFired id last next)
      (.ok ()))) → Polls p id' w ∧ id' ≠ id := by
    intro p id' hp
    have hold : Polls p id' w := by
      cases hp.of_after with
      | inl hold => exact hold
      | inr hnew => exact absurd hnew.2 (not_listsDue rfl)
    refine ⟨hold, ?_⟩
    rintro rfl
    cases h.unique p pid id' hold hpolls
    exact hp.2.1 (Did.after_iff.mpr (.inl ⟨rfl, rfl⟩))
  constructor
  . intro p p' id' hp hp'
    exact h.unique p p' id' (hother p id' hp).1 (hother p' id' hp').1
  . intro p id' v hp hl
    obtain ⟨hold, hne⟩ := hother p id' hp
    obtain ⟨hcurrent, hle⟩ := h.current p id' v hold (hl.of_after rfl)
    constructor
    . show s.nextAt id' = some v
      rw [hnext, if_neg hne]
      exact hcurrent
    . exact Int.le_trans hle (Int.le_of_eq (answers_now hanswer).symm)
  . intro p id' v hlafter hfafter
    have hl : ListedAt p id' v w := hlafter.of_after rfl
    have hf : Fired p id' w := by
      cases Did.after_iff.mp hfafter with
      | inl hnew => cases hnew.2
      | inr hold => exact hold
    by_cases hid : id' = id
    . subst hid
      apply Or.inr
      intro v' hv'
      have hv' : s.nextAt id' = some v' := hv'
      rw [hnext, if_pos rfl] at hv'
      have hlt' := hlt v' hv'
      cases h.spent p id' v hl hf with
      | inl hp =>
        have hcurrent := (h.current p id' v hp hl).1
        rw [hcurrent₀] at hcurrent
        cases hcurrent
        exact hlt'
      | inr hover => exact Int.lt_trans (hover v₀ hcurrent₀) hlt'
    . cases h.spent p id' v hl hf with
      | inl hp =>
        apply Or.inl
        apply hp.after _ rfl
        intro _ heq
        exact hid (Option.some.inj heq).symm
      | inr hover =>
        apply Or.inr
        intro v' hv'
        have hv' : s.nextAt id' = some v' := hv'
        rw [hnext, if_neg hid] at hv'
        exact hover v' hv'

theorem createRun_of_firedId {c : Call} {r : Except JobsError c.Ret} {id : Uuid}
    (h : firedId (.call pid c r : Interleave.Event (system env)) = some id)
    : ∃ new, c = .createRun new ∧ new.triggerKind = .cron ∧ new.triggerId = some id := by
  cases c with
  | createRun new =>
    simp only [firedId] at h
    split at h
    . next hkind => exact ⟨new, rfl, eq_of_beq hkind, h⟩
    . cases h
  | _ => cases h

theorem Timely.other {c : Call} {r : Except JobsError c.Ret} {s : JobsDb} (h : Timely w)
    (hanswer : Answers (system env) pid c w.state r s) (hfits : Fits pid c w)
    (htable : c.table ≠ some .triggers)
    (hlisted : dueListed (.call pid c r : Interleave.Event (system env)) = [])
    : Timely (w.after s (.call pid c r)) := by
  apply h.unlisted (answers_triggers hanswer htable) (Int.le_of_eq (answers_now hanswer).symm) hlisted
  . intro p id hpid hfired
    cases hpid
    obtain ⟨new, rfl, hkind, hid⟩ := createRun_of_firedId hfired
    exact (hfits.fire new id rfl hkind hid).1
  . intro p id hp _
    apply hp.after _ rfl
    intro _ hupdated
    cases c with
    | updateTriggerFired id last next => exact htable rfl
    | _ => cases hupdated

theorem keeps_fit {c : Call} {r : Except JobsError c.Ret} {s : JobsDb} (hinv : Timely w)
    (hanswer : Answers (system env) pid c w.state r s) (hok : Punctual w (.call pid c r))
    (hfits : Fits pid c w) : (cronOutline env).Keeps w s (.call pid c r) where
  safe := by
    rintro id v w' ⟨hfired, ⟨p, _, hp, hlisted⟩, _⟩ ⟨p', hlisted', hfired'⟩
    cases hp
    obtain ⟨new, rfl, hkind, hid⟩ := createRun_of_firedId hfired
    obtain ⟨hpolls, hunfired⟩ := hfits.fire new id rfl hkind hid
    cases hinv.spent p' id v hlisted' hfired' with
    | inl hpolls' =>
      cases hinv.unique pid p' id hpolls hpolls'
      exact hunfired hfired'
    | inr hover => exact Int.lt_irrefl v (hover v (hinv.current pid id v hpolls hlisted).1)
  inv := by
    cases c with
    | listDueCronTriggers now =>
      cases r with
      | ok rows => exact hinv.listing hanswer hok hfits
      | error e => exact hinv.other hanswer hfits (by simp [Call.table]) rfl
    | updateTriggerFired id last next =>
      cases r with
      | ok _ => exact hinv.updating hanswer hfits
      | error e =>
        -- The run of the trigger is there, so the update cannot be one that fails.
        obtain ⟨hpolls, hfired, _⟩ := hfits.update id last next rfl
        exact absurd (settled_iff.mp hok.2.2 id hfired) hpolls.2.1
    | _ => exact hinv.other hanswer hfits (by simp [Call.table]) rfl
  rely := by
    intro _ _
    exact Int.le_of_eq (answers_now hanswer).symm

end Steps

section Programs

variable {env : Env} {pid : Nat} {w : World (system env)} {α : Type}
  {Q : Except JobsError α → World (system env) → Prop}

theorem Settled.after_error {c : Call} {e : JobsError} {s : JobsDb}
    (h : Punctual w (.call pid c (.error e)))
    : Settled pid (w.after s (.call pid c (.error e))) := by
  obtain ⟨_, hnone, hsettled⟩ := h
  rw [settled_iff] at hsettled ⊢
  intro id hfired
  cases Did.after_iff.mp hfired with
  | inl hnew =>
    rw [hnone] at hnew
    cases hnew.2
  | inr hold => exact (hsettled id hold).after _ _

/--
The rule for a call of a process that knows what it needs.
-/
theorem wp_fit {c : Call} {f : c.Ret → JobsM α} {A : World (system env) → Prop} (hA : A w)
    (hstable : ∀ w w', (cronOutline env).Rely pid w w' → A w → A w')
    (hfits : ∀ w, A w → Fits pid c w) (hQ : ∀ e w, Settled pid w → Q (.error e) w)
    (hnext : ∀ w a s, A w → Timely w → Answers (system env) pid c w.state (.ok a) s →
      (cronOutline env).Wp pid Q (f a) (w.after s (.call pid c (.ok a))))
    : (cronOutline env).Wp pid Q (query c >>= f) w := by
  apply Outline.wp_call
  intro w' hrely hinv r s hanswer hok
  have hA' := hstable w w' hrely hA
  constructor
  . exact keeps_fit hinv hanswer hok (hfits w' hA')
  . cases r with
    | ok a => exact hnext w' a s hA' hinv hanswer
    | error e =>
      intro w'' hrely' _
      apply hQ
      rw [Settled.extends_iff hrely'.1]
      exact .after_error hok

/--
The calls that have nothing to do with cron triggers.
-/
def Call.IsUntimed (c : Call) : Prop :=
  (∀ new, c = .createRun new → new.triggerKind ≠ .cron) ∧ c.table ≠ some .triggers
    ∧ ∀ now, c ≠ .listDueCronTriggers now

theorem Fits.untimed {c : Call} (h : c.IsUntimed) : Fits pid c w where
  fire := by
    intro new id hc hkind
    exact absurd hkind (h.1 new hc)
  update := by
    rintro id last next rfl
    exact absurd rfl h.2.1
  list := by
    intro now hc
    exact absurd hc (h.2.2 now)

theorem Settled.after_untimed {c : Call} {r : Except JobsError c.Ret} {s : JobsDb}
    (h : Settled pid w) (hc : c.IsUntimed) : Settled pid (w.after s (.call pid c r)) := by
  rw [settled_iff] at h ⊢
  intro id hfired
  cases Did.after_iff.mp hfired with
  | inl hnew =>
    obtain ⟨new, hnew, hkind, _⟩ := createRun_of_firedId hnew.2
    exact absurd hkind (hc.1 new hnew)
  | inr hold => exact (h id hold).after _ _

theorem wp_untimed {x : JobsM α} (hx : x.Uses Call.IsUntimed) (h : Settled pid w)
    : (cronOutline env).Wp pid (fun _ w => Settled pid w) x w := by
  apply Outline.wp_of_uses hx h
  . intro w w' hrely _
    exact (Settled.extends_iff hrely.1).mpr
  . intro c hc w r s hsettled hinv hanswer hok
    exact ⟨keeps_fit hinv hanswer hok (.untimed hc), hsettled.after_untimed hc⟩

/--
The process has listed the triggers and is about to fire them.
-/
structure Polling (pid : Nat) (rows : List Trigger) (w : World (system env)) : Prop where
  polls : ∀ row ∈ rows, Polls pid row.id w
  listed : ∀ row ∈ rows, ∃ v, ListedAt pid row.id v w
  unfired : ∀ row ∈ rows, ¬ Fired pid row.id w
  settled : ∀ id, Fired pid id w → Updated pid id w

/--
The process has created the run of a trigger and has not yet updated it.
-/
structure Firing (pid : Nat) (row : Trigger) (rows : List Trigger) (w : World (system env)) : Prop where
  polls : ∀ row' ∈ row :: rows, Polls pid row'.id w
  listed : ∀ row' ∈ row :: rows, ∃ v, ListedAt pid row'.id v w
  unfired : ∀ row' ∈ rows, ¬ Fired pid row'.id w
  fired : Fired pid row.id w
  settled : ∀ id, Fired pid id w → Updated pid id w ∨ id = row.id

theorem Polling.extends {rows : List Trigger} {w w' : World (system env)} (h : Extends pid w w')
    (hpolling : Polling pid rows w) : Polling pid rows w' := by
  obtain ⟨hpolls, hlisted, hunfired, hsettled⟩ := hpolling
  constructor
  . simpa only [Polls.extends_iff h] using hpolls
  . simpa only [Did.extends_iff h] using hlisted
  . simpa only [Did.extends_iff h] using hunfired
  . simpa only [Did.extends_iff h] using hsettled

theorem Firing.extends {row : Trigger} {rows : List Trigger} {w w' : World (system env)}
    (h : Extends pid w w') (hfiring : Firing pid row rows w) : Firing pid row rows w' := by
  obtain ⟨hpolls, hlisted, hunfired, hfired, hsettled⟩ := hfiring
  constructor
  . simpa only [Polls.extends_iff h] using hpolls
  . simpa only [Did.extends_iff h] using hlisted
  . simpa only [Did.extends_iff h] using hunfired
  . exact (Did.extends_iff h).mpr hfired
  . simpa only [Did.extends_iff h] using hsettled

theorem Polling.settle {rows : List Trigger} (h : Polling pid rows w) : Settled pid w :=
  settled_iff.mpr h.settled

theorem Polling.tail {row : Trigger} {rows : List Trigger} (h : Polling pid (row :: rows) w)
    : Polling pid rows w where
  polls row' hrow := h.polls row' (List.mem_cons_of_mem _ hrow)
  listed row' hrow := h.listed row' (List.mem_cons_of_mem _ hrow)
  unfired row' hrow := h.unfired row' (List.mem_cons_of_mem _ hrow)
  settled := h.settled

theorem not_fires_untimed {c : Call} {r : Except JobsError c.Ret} {id : Uuid} (hc : c.IsUntimed)
    : firedId (.call pid c r : Interleave.Event (system env)) ≠ some id := by
  intro hfired
  obtain ⟨new, hnew, hkind, _⟩ := createRun_of_firedId hfired
  exact hc.1 new hnew hkind

theorem not_updates_untimed {c : Call} {r : Except JobsError c.Ret} {id : Uuid} (hc : c.IsUntimed)
    : updatedId (.call pid c r : Interleave.Event (system env)) ≠ some id := by
  cases c with
  | updateTriggerFired id last next => exact absurd rfl hc.2.1
  | _ => simp [updatedId]

theorem Fired.of_after {s : JobsDb} {e : Interleave.Event (system env)} {id : Uuid}
    (h : Fired pid id (w.after s e)) (he : firedId e ≠ some id) : Fired pid id w := by
  cases Did.after_iff.mp h with
  | inl hnew => exact absurd hnew.2 he
  | inr hold => exact hold

theorem Polling.after_untimed {c : Call} {r : Except JobsError c.Ret} {s : JobsDb}
    {rows : List Trigger} (h : Polling pid rows w) (hc : c.IsUntimed)
    : Polling pid rows (w.after s (.call pid c r)) where
  polls row hrow := (h.polls row hrow).after (fun _ => not_updates_untimed hc) rfl
  listed row hrow := by
    obtain ⟨v, hlisted⟩ := h.listed row hrow
    exact ⟨v, hlisted.after _ _⟩
  unfired row hrow hfired := h.unfired row hrow (hfired.of_after (not_fires_untimed hc))
  settled id hfired := (h.settled id (hfired.of_after (not_fires_untimed hc))).after _ _

theorem Firing.after_untimed {c : Call} {r : Except JobsError c.Ret} {s : JobsDb} {row : Trigger}
    {rows : List Trigger} (h : Firing pid row rows w) (hc : c.IsUntimed)
    : Firing pid row rows (w.after s (.call pid c r)) where
  polls row' hrow := (h.polls row' hrow).after (fun _ => not_updates_untimed hc) rfl
  listed row' hrow := by
    obtain ⟨v, hlisted⟩ := h.listed row' hrow
    exact ⟨v, hlisted.after _ _⟩
  unfired row' hrow hfired := h.unfired row' hrow (hfired.of_after (not_fires_untimed hc))
  fired := h.fired.after _ _
  settled id hfired := by
    cases h.settled id (hfired.of_after (not_fires_untimed hc)) with
    | inl hupdated => exact .inl (hupdated.after _ _)
    | inr heq => exact .inr heq

/--
The run of the first trigger is created.
-/
theorem Polling.fire {new : NewRun} {r : Except JobsError Run} {s : JobsDb} {row : Trigger}
    {rows : List Trigger} (h : Polling pid (row :: rows) w) (hkind : new.triggerKind = .cron)
    (hid : new.triggerId = some row.id) (hrows : ∀ row' ∈ rows, row'.id ≠ row.id)
    : Firing pid row rows (w.after s (.call pid (Call.createRun new) r)) := by
  have hfires : firedId (.call pid (Call.createRun new) r : Interleave.Event (system env))
      = some row.id := by
    simp [firedId, hkind, hid]
  constructor
  . intro row' hrow
    exact (h.polls row' hrow).after (by simp [updatedId]) rfl
  . intro row' hrow
    obtain ⟨v, hlisted⟩ := h.listed row' hrow
    exact ⟨v, hlisted.after _ _⟩
  . intro row' hrow hfired
    apply h.unfired row' (List.mem_cons_of_mem _ hrow)
    apply hfired.of_after
    rw [hfires]
    intro heq
    exact hrows row' hrow (Option.some.inj heq).symm
  . exact Did.after_iff.mpr (.inl ⟨rfl, hfires⟩)
  . intro id hfired
    cases Did.after_iff.mp hfired with
    | inl hnew =>
      rw [hfires] at hnew
      exact .inr (Option.some.inj hnew.2).symm
    | inr hold => exact .inl ((h.settled id hold).after _ _)

/--
The trigger is updated and the poll goes on with the next one.
-/
theorem Firing.update {last : Int} {next : Option Int} {s : JobsDb} {row : Trigger}
    {rows : List Trigger} (h : Firing pid row rows w) (hrows : ∀ row' ∈ rows, row'.id ≠ row.id)
    : Polling pid rows (w.after s (.call pid (Call.updateTriggerFired row.id last next) (.ok ()))) := by
  constructor
  . intro row' hrow
    apply (h.polls row' (List.mem_cons_of_mem _ hrow)).after _ rfl
    intro _ heq
    exact hrows row' hrow (Option.some.inj heq).symm
  . intro row' hrow
    obtain ⟨v, hlisted⟩ := h.listed row' (List.mem_cons_of_mem _ hrow)
    exact ⟨v, hlisted.after _ _⟩
  . intro row' hrow hfired
    exact h.unfired row' hrow (hfired.of_after (by simp [firedId]))
  . intro id hfired
    cases h.settled id (hfired.of_after (by simp [firedId])) with
    | inl hupdated => exact hupdated.after _ _
    | inr heq =>
      rw [heq]
      exact Did.after_iff.mpr (.inl ⟨rfl, rfl⟩)

section Poll

variable {Q : Except JobsError α → World (system env) → Prop} (hQ : ∀ e w, Settled pid w → Q (.error e) w)

include hQ

theorem wp_polling {c : Call} {f : c.Ret → JobsM α} {rows : List Trigger} (h : Polling pid rows w)
    (hc : c.IsUntimed) (hnext : ∀ a w, Polling pid rows w → (cronOutline env).Wp pid Q (f a) w)
    : (cronOutline env).Wp pid Q (query c >>= f) w := by
  apply wp_fit h
  . intro w w' hrely hpolling
    exact hpolling.extends hrely.1
  . intro _ _
    exact .untimed hc
  . exact hQ
  . intro w a s hpolling _ _
    exact hnext a _ (hpolling.after_untimed hc)

theorem wp_firing {c : Call} {f : c.Ret → JobsM α} {row : Trigger} {rows : List Trigger}
    (h : Firing pid row rows w) (hc : c.IsUntimed)
    (hnext : ∀ a w s, Firing pid row rows w → Timely w →
      Answers (system env) pid c w.state (.ok a) s →
        (cronOutline env).Wp pid Q (f a) (w.after s (.call pid c (.ok a))))
    : (cronOutline env).Wp pid Q (query c >>= f) w := by
  apply wp_fit h
  . intro w w' hrely hfiring
    exact hfiring.extends hrely.1
  . intro _ _
    exact .untimed hc
  . exact hQ
  . intro w a s
    exact hnext a w s

end Poll

theorem lt_of_computeNextTrigger {parseSchedule : String → Option Schedule} {config : Json}
    {now next : Int} (h : computeNextTrigger parseSchedule config now = some next) : now < next := by
  unfold computeNextTrigger at h
  simp only [Option.bind_eq_bind, Option.bind_eq_some_iff] at h
  obtain ⟨_, _, schedule, _, hnext⟩ := h
  exact schedule.lt_next now next hnext

/--
The trigger gets a time that is later than all that the process has seen of it.
-/
theorem triggerFired_wp {f : Unit → JobsM α} {row : Trigger} {rows : List Trigger} {now : Int}
    (parseSchedule : String → Option Schedule) (h : Firing pid row rows w)
    (hrows : ∀ row' ∈ rows, row'.id ≠ row.id) (hQ : ∀ e w, Settled pid w → Q (.error e) w)
    (hnext : ∀ w, Polling pid rows w → (cronOutline env).Wp pid Q (f ()) w)
    : (cronOutline env).Wp pid Q (triggerFired parseSchedule now row >>= f) w := by
  unfold triggerFired
  rw [bind_assoc]
  apply wp_firing hQ h (by simp [Call.IsUntimed, Call.table])
  intro later w₁ s₁ hfiring₁ hinv₁ hanswer₁
  have hlater : ∀ v, ListedAt pid row.id v (w₁.after s₁ (.call pid Call.utcNow (.ok later))) →
      v ≤ later := by
    intro v hlisted
    obtain ⟨x, hexec⟩ := hanswer₁.ok
    cases hexec
    exact (hinv₁.current pid row.id v (hfiring₁.polls row List.mem_cons_self)
      (hlisted.of_after rfl)).2
  apply wp_fit (A := fun w => Firing pid row rows w ∧ ∀ v, ListedAt pid row.id v w → v ≤ later)
  . exact ⟨hfiring₁.after_untimed (by simp [Call.IsUntimed, Call.table]), hlater⟩
  . rintro w w' hrely ⟨hfiring, hlater⟩
    simp only [Did.extends_iff hrely.1]
    exact ⟨hfiring.extends hrely.1, hlater⟩
  . rintro w ⟨hfiring, hlater⟩
    constructor
    . rintro _ _ ⟨⟩
    . rintro _ _ _ ⟨⟩
      obtain ⟨v, hlisted⟩ := hfiring.listed row List.mem_cons_self
      refine ⟨hfiring.polls row List.mem_cons_self, hfiring.fired, v, hlisted, ?_⟩
      intro v' hv'
      exact Int.lt_of_le_of_lt (hlater v hlisted) (lt_of_computeNextTrigger hv')
    . rintro _ ⟨⟩
  . exact hQ
  . rintro w _ s ⟨hfiring, _⟩ _ _
    exact hnext _ (hfiring.update hrows)

theorem fireCronTriggers_wp {rows : List Trigger} {now : Int} {payload : Json}
    (parseSchedule : String → Option Schedule) (h : Polling pid rows w)
    (hnodup : (rows.map (·.id)).Nodup)
    : (cronOutline env).Wp pid (fun _ w => Settled pid w)
        (fireTriggers .cron payload (fun t _ => triggerFired parseSchedule now t) rows) w := by
  induction rows generalizing w with
  | nil =>
    apply Outline.wp_pure
    intro w' hrely _
    exact (Settled.extends_iff hrely.1).mpr h.settle
  | cons row rows ih =>
    rw [List.map_cons, List.nodup_cons] at hnodup
    have hrows : ∀ row' ∈ rows, row'.id ≠ row.id := by
      intro row' hrow heq
      exact hnodup.1 (heq ▸ List.mem_map_of_mem hrow)
    have hrest : ∀ w, Polling pid rows w → (cronOutline env).Wp pid (fun _ w => Settled pid w)
        (fireTriggers .cron payload (fun t _ => triggerFired parseSchedule now t) rows) w :=
      fun w hpolling => ih hpolling hnodup.2
    unfold fireTriggers fireTrigger
    rw [bind_assoc]
    apply wp_polling (fun _ _ => id) h (by simp [Call.IsUntimed, Call.table])
    intro job w₁ hpolling₁
    cases job with
    | none => exact hrest w₁ hpolling₁.tail
    | some job =>
      simp only [bind_assoc]
      apply wp_polling (fun _ _ => id) hpolling₁ (by simp [Call.IsUntimed, Call.table])
      intro activeRuns w₂ hpolling₂
      split
      . exact hrest w₂ hpolling₂.tail
      . unfold createAndEnqueue
        simp only [bind_assoc]
        apply wp_fit hpolling₂
        . intro w w' hrely hpolling
          exact hpolling.extends hrely.1
        . intro w hpolling
          constructor
          . rintro _ _ ⟨⟩ _ ⟨⟩
            exact ⟨hpolling.polls row List.mem_cons_self, hpolling.unfired row List.mem_cons_self⟩
          . rintro _ _ _ ⟨⟩
          . rintro _ ⟨⟩
        . exact fun _ _ => id
        . intro w run s hpolling _ _
          apply wp_firing (fun _ _ => id) (hpolling.fire rfl rfl hrows)
            (by simp [Call.IsUntimed, Call.table])
          intro _ w₃ s₃ hfiring₃ _ _
          exact triggerFired_wp parseSchedule (hfiring₃.after_untimed (by simp [Call.IsUntimed, Call.table]))
            hrows (fun _ _ => id) hrest

/--
A process that has done nothing with the triggers yet.
-/
structure Untouched (pid : Nat) (w : World (system env)) : Prop where
  unfired : ∀ id, ¬ Fired pid id w
  unupdated : ∀ id, ¬ Updated pid id w
  alive : ¬ Gone pid w

theorem Untouched.extends {w w' : World (system env)} (h : Extends pid w w') (hnone : Untouched pid w)
    : Untouched pid w' := by
  obtain ⟨hunfired, hunupdated, halive⟩ := hnone
  constructor
  . simpa only [Did.extends_iff h] using hunfired
  . simpa only [Did.extends_iff h] using hunupdated
  . unfold Gone
    rw [Did.extends_iff h]
    exact halive

theorem Untouched.after {e : Interleave.Event (system env)} {s : JobsDb} (h : Untouched pid w)
    (hfired : firedId e = none) (hupdated : updatedId e = none) (hends : e.ends = false)
    : Untouched pid (w.after s e) where
  unfired id hdid := h.unfired id (hdid.of_after (by simp [hfired]))
  unupdated id hdid := by
    cases Did.after_iff.mp hdid with
    | inl hnew =>
      rw [hupdated] at hnew
      cases hnew.2
    | inr hold => exact h.unupdated id hold
  alive hdid := by
    cases Did.after_iff.mp hdid with
    | inl hnew =>
      rw [hends] at hnew
      cases hnew.2
    | inr hold => exact h.alive hold

theorem Untouched.spawn {req : Request} (h : Fresh pid w) (s : JobsDb)
    : Untouched pid (w.after s (.spawn pid req)) := by
  apply Untouched.after _ rfl rfl rfl
  exact ⟨fun _ => Did.not_of_fresh h, fun _ => Did.not_of_fresh h, Did.not_of_fresh h⟩

theorem Untouched.settle (h : Untouched pid w) : Settled pid w := by
  rw [settled_iff]
  intro id hfired
  exact absurd hfired (h.unfired id)

theorem Untouched.list {now : Int} {rows : List Trigger} {s : JobsDb} (h : Untouched pid w)
    (hdue : ∀ row ∈ rows, row.nextTriggerAt.isSome = true)
    : Polling pid rows (w.after s (.call pid (Call.listDueCronTriggers now) (.ok rows))) := by
  have hafter := h.after (e := .call pid (Call.listDueCronTriggers now) (.ok rows)) (s := s) rfl rfl rfl
  constructor
  . intro row hrow
    exact ⟨Did.after_iff.mpr (.inl ⟨rfl, row, hrow, rfl⟩), hafter.unupdated row.id, hafter.alive⟩
  . intro row hrow
    obtain ⟨v, hv⟩ := Option.isSome_iff_exists.mp (hdue row hrow)
    exact ⟨v, Did.after_iff.mpr (.inl ⟨rfl, row, hrow, rfl, hv⟩)⟩
  . intro row _
    exact hafter.unfired row.id
  . intro id hfired
    exact absurd hfired (hafter.unfired id)

theorem pollCron_wp (h : Untouched pid w) (parseSchedule : String → Option Schedule)
    : (cronOutline env).Wp pid (fun _ w => Settled pid w) (pollCronTriggers parseSchedule) w := by
  unfold pollCronTriggers
  apply wp_fit h
  . intro w w' hrely hnone
    exact hnone.extends hrely.1
  . intro _ _
    exact .untimed (by simp [Call.IsUntimed, Call.table])
  . exact fun _ _ => id
  intro w₁ now s₁ hnone₁ _ hanswer₁
  have hnow : now ≤ s₁.now := by
    obtain ⟨x, hexec⟩ := hanswer₁.ok
    cases hexec
    exact Int.le_refl _
  apply wp_fit (A := fun w => Untouched pid w ∧ now ≤ w.state.now)
  . exact ⟨hnone₁.after rfl rfl rfl, hnow⟩
  . rintro w w' hrely ⟨hnone, hnow⟩
    exact ⟨hnone.extends hrely.1, Int.le_trans hnow hrely.2⟩
  . rintro w ⟨hnone, hnow⟩
    constructor
    . rintro _ _ ⟨⟩
    . rintro _ _ _ ⟨⟩
    . rintro _ ⟨⟩
      exact ⟨hnow, hnone.unfired⟩
  . exact fun _ _ => id
  rintro w₂ rows s₂ ⟨hnone₂, _⟩ _ hanswer₂
  have hrows : rows = JobsDb.listDueCronTriggers w₂.state now := by
    obtain ⟨x, hexec⟩ := hanswer₂.ok
    cases hexec
    rfl
  apply fireCronTriggers_wp
  . apply hnone₂.list
    intro row hrow
    subst hrows
    unfold JobsDb.listDueCronTriggers at hrow
    have hdue := (Table.mem_select.mp hrow).2
    simp only [JobsDb.isDueCron, Bool.and_eq_true] at hdue
    exact Option.isSome_of_any hdue.2
  . rw [hrows]
    have hunique := w₂.state.triggers.unique.filter (JobsDb.isDueCron now)
    unfold JobsDb.listDueCronTriggers Table.select List.Nodup
    rw [List.pairwise_map]
    apply hunique.imp
    intro row row' hconflict heq
    simp [Relational.Constrained.conflict, heq] at hconflict

theorem untimed_of_makes {req : Request} {c : Call} (hreq : req ≠ .pollCronTriggers)
    (h : req.Makes c) : c.IsUntimed := by
  cases h with
  | inl hneutral => cases c <;> simp_all [Call.IsUntimed, Call.isNeutral, Call.table]
  | inr hwrites =>
    cases req with
    | pollCronTriggers => exact absurd rfl hreq
    | _ => cases c <;> simp_all [Call.IsUntimed, Request.writes, Call.table]

theorem cron_wp (req : Request) (h : Untouched pid w)
    : (cronOutline env).Wp pid (fun _ w => Settled pid w) (program env req) w := by
  by_cases hpoll : req = .pollCronTriggers
  . subst hpoll
    exact pollCron_wp h env.parseSchedule
  . apply wp_untimed _ h.settle
    exact (program_makes env req).mono (fun _ => untimed_of_makes hpoll)

end Programs

theorem keeps_unfiring {env : Env} {w : World (system env)} {s : JobsDb}
    {e : Interleave.Event (system env)} (hinv : Timely w) (htriggers : s.triggers = w.state.triggers)
    (hnow : w.state.now ≤ s.now) (hlisted : dueListed e = []) (hfired : firedId e = none)
    (hupdated : updatedId e = none) (hsettled : e.ends = true → ∃ pid, e.pid? = some pid ∧ Settled pid w)
    : (cronOutline env).Keeps w s e where
  safe := by
    rintro id v w' ⟨hfires, _⟩
    rw [hfired] at hfires
    cases hfires
  inv := by
    apply hinv.unlisted htriggers hnow hlisted
    . intro pid id _ hfires
      rw [hfired] at hfires
      cases hfires
    . intro pid id hp hf
      have hf := hf.of_after (by simp [hfired])
      refine ⟨hp.1.after s e, ?_, ?_⟩
      . intro hdid
        cases Did.after_iff.mp hdid with
        | inl hnew =>
          rw [hupdated] at hnew
          cases hnew.2
        | inr hold => exact hp.2.1 hold
      . intro hdid
        cases Did.after_iff.mp hdid with
        | inl hnew =>
          obtain ⟨pid', hpid', hsettled⟩ := hsettled hnew.2
          cases Option.some.inj (hpid'.symm.trans hnew.1)
          exact hp.2.1 (settled_iff.mp hsettled id hf)
        | inr hold => exact hp.2.2 hold
  rely := by
    intro _ _
    exact hnow

theorem cronOutline_sound (env : Env) : (cronOutline env).Sound where
  spawn w pid req hinv _ _ := by
    apply keeps_unfiring hinv rfl (Int.le_refl _) rfl rfl rfl
    rintro ⟨⟩
  program w pid req _ hfresh _ := cron_wp req (.spawn hfresh w.state)
  finish w pid req r hinv _ hsettled _ := by
    apply keeps_unfiring hinv rfl (Int.le_refl _) rfl rfl rfl
    exact fun _ => ⟨pid, rfl, hsettled⟩
  crash w pid req hinv _ hok := by
    apply keeps_unfiring hinv rfl (Int.le_refl _) rfl rfl rfl
    exact fun _ => ⟨pid, rfl, hok.2⟩
  tick w t hinv _ := by
    apply keeps_unfiring (s := (system env).tick t w.state) hinv rfl _ rfl rfl rfl
    . rintro ⟨⟩
    . exact Int.le_add_of_nonneg_right (Int.natCast_nonneg t)

theorem Spent.of_trace {env : Env} {id : Uuid} {v : Int} {w w' : World (system env)}
    {e : Interleave.Event (system env)} (h : Spent id v w) (htrace : w'.trace = e :: w.trace)
    : Spent id v w' := by
  obtain ⟨pid, ⟨e₁, he₁, hlisted⟩, ⟨e₂, he₂, hfired⟩⟩ := h
  refine ⟨pid, ⟨e₁, ?_, hlisted⟩, ⟨e₂, ?_, hfired⟩⟩
  . rw [htrace]
    exact List.mem_cons_of_mem _ he₁
  . rw [htrace]
    exact List.mem_cons_of_mem _ he₂

theorem FiresAt.spent {env : Env} {id : Uuid} {v : Int} {w w' : World (system env)}
    {e : Interleave.Event (system env)} (h : FiresAt id v w e w') (htrace : w'.trace = e :: w.trace)
    : Spent id v w' := by
  obtain ⟨hfired, ⟨pid, _, hpid, e₁, he₁, hlisted⟩, _⟩ := h
  refine ⟨pid, ⟨e₁, ?_, hlisted⟩, ⟨e, ?_, hpid, hfired⟩⟩
  . rw [htrace]
    exact List.mem_cons_of_mem _ he₁
  . rw [htrace]
    exact List.mem_cons_self

theorem firesOnce (env : Env) : FiresOnce env Punctual := by
  intro id v s ms hok
  have hvalid : (cronOutline env).Valid (Config.start s) := by
    apply Outline.Valid.start
    constructor
    . rintro _ _ _ ⟨⟨_, he, _⟩, _⟩
      cases he
    . rintro _ _ _ ⟨⟨_, he, _⟩, _⟩
      cases he
    . rintro _ _ _ ⟨_, he, _⟩
      cases he
  have hsafe := (cronOutline_sound env).along hvalid hok
  apply Config.tally_le_one (D := Spent id v)
  . intro c next hsteps hfires
    exact hfires.spent hsteps.trace
  . intro c next hsteps hspent
    exact hspent.of_trace hsteps.trace
  . apply Config.along_mono hsafe
    intro w e hsafe hspent w' hfires
    exact hsafe id v w' hfires hspent

/--
One trigger of the job is due.
-/
def JobsDb.due : JobsDb :=
  { JobsDb.empty with
    now := 100
    triggers := ⟨[⟨20, 3, .cron, .null, none, true, none, some 60⟩], List.pairwise_singleton _ _⟩ }

/--
The trigger is polled twice, the second time while nothing is due.
-/
def polledInTurn : List (Move (system .plain)) :=
  serves 0 .pollCronTriggers 8 (.plain 7 200) ++ serves 1 .pollCronTriggers 2 (.plain 8 200)

example : Config.Along Punctual polledInTurn (.start .due) := by
  decide

example : Config.tally (FiresAt 20 60) polledInTurn (.start .due) = 1 := by
  decide

/--
Two servers list the trigger before either of them updates it.
-/
def polledTwice : List (Move (system .plain)) :=
  .spawn Request.pollCronTriggers :: .spawn Request.pollCronTriggers :: goesOn 0 2 (.plain 7 200)
    ++ goesOn 1 2 (.plain 7 200) ++ goesOn 0 4 (.plain 7 200) ++ goesOn 1 3 (.plain 8 200)

theorem not_firesOnce : ¬ FiresOnce .plain (fun _ _ => True) := by
  intro h
  have htally : Config.tally (FiresAt 20 60) polledTwice (.start .due) = 2 := by
    decide
  have hle := h 20 60 .due polledTwice (Config.along_true _ _)
  omega

/--
One server alone fires twice when the update fails.
-/
example :
    let ms := .spawn Request.pollCronTriggers :: goesOn 0 7 (.plain 7 200) ++ .fail 0 :: .finish 0
      :: serves 1 .pollCronTriggers 8 (.plain 8 200)
    Config.tally (FiresAt 20 60) ms (.start .due) = 2 := by
  decide

end Reactor.Jobs
