import ReactorCloud.Jobs.Status

/-!
This module contains when a run that is finished stays finished. The worker, the cancellation and the
scheduler each read a run and write its status later, so the sections between the two must not
overlap.
-/

namespace Reactor.Jobs

open Interleave
open Interleave.Program
open Relational (Table)
open Rust (Json Uuid)

/--
The runs that are read to decide about their status.
-/
def Call.found : (c : Call) → Except JobsError c.Ret → List Run
  | .getRun _, .ok (some run) => [run]
  | .listSleepingRunsDue _, .ok runs => runs
  | _, _ => []

/--
The request goes on to write the status of a run that it read in this status.
-/
def Request.takes : Request → RunStatus → Bool
  | .work, st => st.isDue
  | .cancelRun .., st => !st.isFinal
  | .pollSleepingRuns, st => st == .sleeping
  | _, _ => false

theorem isFinal_of_takes {req : Request} {st : RunStatus} (h : req.takes st = true)
    : st.isFinal = false := by
  cases req with
  | work => exact RunStatus.isFinal_of_isDue h
  | cancelRun => simpa [Request.takes] using h
  | pollSleepingRuns =>
    rw [eq_of_beq h]
    rfl
  | _ => cases h

section Holding

variable {env : Env}

def taken : Interleave.Event (system env) → Interleave.Event (system env) → List RunId
  | .spawn _ req, .call _ c r =>
    ((Call.found c r).filter (fun run => Request.takes req run.status)).map (·.id)
  | _, _ => []

/--
Only the status `running` is written by a process that goes on with the run.
-/
def letsGo (id : RunId) : Interleave.Event (system env) → Bool
  | .call _ c _ => (Call.sets c).any (fun (id', st) => id' == id && st != .running)
  | _ => false

def asleep : Interleave.Event (system env) → List RunId
  | .call _ (.setRunSleeping id _) _ => [id]
  | _ => []

def Took (pid : Nat) (id : RunId) (w : World (system env)) : Prop :=
  Did (fun e => Did (fun e' => id ∈ taken e e') pid w) pid w

/--
The process `pid` has read the run and has not yet written what it makes of it.
-/
def Holds (pid : Nat) (id : RunId) (w : World (system env)) : Prop :=
  Took pid id w ∧ ¬ Did (fun e => letsGo id e = true) pid w ∧ ¬ Gone pid w

instance {pid : Nat} {id : RunId} {w : World (system env)} : Decidable (Took pid id w) :=
  inferInstanceAs (Decidable (Did _ pid w))

instance {pid : Nat} {id : RunId} {w : World (system env)} : Decidable (Holds pid id w) :=
  inferInstanceAs (Decidable (_ ∧ _))

/--
A run is taken when no other process holds it, and put to sleep while a process holds it.
-/
def Disciplined (w : World (system env)) (e : Interleave.Event (system env)) : Prop :=
  (∀ e' ∈ w.trace, e'.pid? = e.pid? → ∀ id ∈ taken e' e, ∀ pid ∈ w.pids, e.pid? ≠ some pid →
      ¬ Holds pid id w)
    ∧ ∀ id ∈ asleep e, ∃ pid ∈ w.pids, Holds pid id w

-- Without the bound of the list the instance goes through all identifiers.
instance {w : World (system env)} {e : Interleave.Event (system env)} : Decidable (Disciplined w e) :=
  have (e' : Interleave.Event (system env)) : Decidable (∀ id ∈ taken e' e, ∀ pid ∈ w.pids,
      e.pid? ≠ some pid → ¬ Holds pid id w) := List.decidableBAll _ _
  have : Decidable (∀ id ∈ asleep e, ∃ pid ∈ w.pids, Holds pid id w) := List.decidableBAll _ _
  inferInstanceAs (Decidable (_ ∧ _))

variable {pid pid' : Nat} {id : RunId} {w w' : World (system env)}

theorem Took.extends_iff (h : Extends pid w w') : Took pid id w' ↔ Took pid id w := by
  unfold Took
  simp only [Did.extends_iff h]

theorem Holds.extends_iff (h : Extends pid w w') : Holds pid id w' ↔ Holds pid id w := by
  unfold Holds Gone
  simp only [Took.extends_iff h, Did.extends_iff h]

/--
A new event takes a run only with an event before it.
-/
theorem Took.of_after {s : JobsDb} {e : Interleave.Event (system env)}
    (hnew : ∀ e' ∈ w.trace, e'.pid? = e.pid? → taken e e' = []) (h : Took pid id (w.after s e))
    : Took pid id w
      ∨ (e.pid? = some pid ∧ ∃ e' ∈ w.trace, e'.pid? = e.pid? ∧ id ∈ taken e' e) := by
  obtain ⟨e₁, he₁, hpid₁, e₂, he₂, hpid₂, htaken⟩ := h
  cases he₁ with
  | head =>
    cases he₂ with
    | head => cases e <;> cases htaken
    | tail _ he₂ =>
      rw [hnew e₂ he₂ (hpid₂.trans hpid₁.symm)] at htaken
      cases htaken
  | tail _ he₁ =>
    cases he₂ with
    | head => exact .inr ⟨hpid₂, e₁, he₁, hpid₁.trans hpid₂.symm, htaken⟩
    | tail _ he₂ => exact .inl ⟨e₁, he₁, hpid₁, e₂, he₂, hpid₂, htaken⟩

theorem Holds.of_after {s : JobsDb} {e : Interleave.Event (system env)}
    (hnew : ∀ e' ∈ w.trace, e'.pid? = e.pid? → taken e e' = []) (h : Holds pid id (w.after s e))
    : Holds pid id w
      ∨ (e.pid? = some pid ∧ ∃ e' ∈ w.trace, e'.pid? = e.pid? ∧ id ∈ taken e' e) := by
  obtain ⟨htook, hkept, halive⟩ := h
  cases htook.of_after hnew with
  | inl htook =>
    apply Or.inl
    refine ⟨htook, ?_, ?_⟩
    . intro hdid
      exact hkept (hdid.after s e)
    . intro hgone
      exact halive (hgone.after s e)
  | inr hnew => exact .inr hnew

theorem Holds.took (h : Holds pid id w) : Took pid id w := h.1

theorem Holds.mem_pids (h : Holds pid id w) : pid ∈ w.pids :=
  h.took.mem_pids

/--
A process that writes its status for good does not hold the run any more.
-/
theorem not_holds_of_sets {s : JobsDb} {c : Call} {r : Except JobsError c.Ret} {st : RunStatus}
    (hc : c.sets = some (id, st)) (hst : st ≠ .running)
    : ¬ Holds pid id (w.after s (.call pid c r)) := by
  rintro ⟨_, hkept, _⟩
  apply hkept
  refine ⟨_, List.mem_cons_self, rfl, ?_⟩
  simp [letsGo, hc, hst]

theorem Holds.after_call {s : JobsDb} {c : Call} {r : Except JobsError c.Ret} (h : Holds pid id w)
    (hc : ∀ st, c.sets = some (id, st) → st = .running)
    : Holds pid id (w.after s (.call pid c r)) := by
  obtain ⟨⟨e₁, he₁, hpid₁, e₂, he₂, hpid₂, htaken⟩, hkept, halive⟩ := h
  refine ⟨⟨e₁, .tail _ he₁, hpid₁, e₂, .tail _ he₂, hpid₂, htaken⟩, ?_, ?_⟩
  . intro hdid
    cases Did.after_iff.mp hdid with
    | inl hnew =>
      obtain ⟨_, hlets⟩ := hnew
      simp only [letsGo, Option.any_eq_true] at hlets
      obtain ⟨⟨id', st⟩, hsets, hboth⟩ := hlets
      simp only [Bool.and_eq_true, beq_iff_eq, bne_iff_ne] at hboth
      exact hboth.2 (hc st (by rw [hsets, hboth.1]))
    | inr hold => exact hkept hold
  . intro hgone
    cases Did.after_iff.mp hgone with
    | inl hnew => cases hnew.2
    | inr hold => exact halive hold

/--
The process `pid` serves the request and has let go of no run.
-/
structure Idle (pid : Nat) (req : Request) (w : World (system env)) : Prop where
  spawned : .spawn pid req ∈ w.trace
  kept : ∀ id, ¬ Did (fun e => letsGo id e = true) pid w
  alive : ¬ Gone pid w

theorem Idle.extends {req : Request} (h : Extends pid w w') (hidle : Idle pid req w)
    : Idle pid req w' where
  spawned := h.mem hidle.spawned
  kept := by
    intro id
    rw [Did.extends_iff h]
    exact hidle.kept id
  alive := by
    unfold Gone
    rw [Did.extends_iff h]
    exact hidle.alive

theorem Idle.after_call {req : Request} {s : JobsDb} {c : Call} {r : Except JobsError c.Ret}
    (h : Idle pid req w) (hc : c.sets = none) : Idle pid req (w.after s (.call pid c r)) where
  spawned := .tail _ h.spawned
  kept := by
    intro id hdid
    cases Did.after_iff.mp hdid with
    | inl hnew => simp [letsGo, hc] at hnew
    | inr hold => exact h.kept id hold
  alive := by
    intro hgone
    cases Did.after_iff.mp hgone with
    | inl hnew => cases hnew.2
    | inr hold => exact h.alive hold

theorem Idle.spawn {req : Request} (h : Fresh pid w) (s : JobsDb)
    : Idle pid req (w.after s (.spawn pid req)) where
  spawned := List.mem_cons_self
  kept := by
    intro id hdid
    cases Did.after_iff.mp hdid with
    | inl hnew => cases hnew.2
    | inr hold => exact Did.not_of_fresh h hold
  alive := by
    intro hgone
    cases Did.after_iff.mp hgone with
    | inl hnew => cases hnew.2
    | inr hold => exact Did.not_of_fresh h hold

/--
An answer with a run that the request takes.
-/
theorem Idle.holds {req : Request} {s : JobsDb} {c : Call} {r : Except JobsError c.Ret}
    (h : Idle pid req w) (hc : c.sets = none) {run : Run} (hfound : run ∈ c.found r)
    (htakes : req.takes run.status = true) : Holds pid run.id (w.after s (.call pid c r)) := by
  have hafter := h.after_call (s := s) (r := r) hc
  refine ⟨⟨_, hafter.spawned, rfl, _, List.mem_cons_self, rfl, ?_⟩, hafter.kept _, hafter.alive⟩
  exact List.mem_map_of_mem (List.mem_filter.mpr ⟨hfound, htakes⟩)

end Holding

/--
What is finished in `s` is finished in `s'` in the same way.
-/
def Frozen (s s' : JobsDb) : Prop :=
  ∀ id st, s.statusOf id = some st → st.isFinal = true → s'.statusOf id = some st

/--
No two processes hold a run, and a run that is held is not finished.
-/
structure Exclusive {env : Env} (w : World (system env)) : Prop where
  unique : ∀ pid pid' id, Holds pid id w → Holds pid' id w → pid = pid'
  live : ∀ pid id, Holds pid id w → ∀ st, JobsDb.statusOf w.state id = some st → st.isFinal = false

def finishedOutline (env : Env) : Outline (system env) where
  inv := Exclusive
  ok := Disciplined
  safe _ _ := True
  rely _ w w' := Frozen w.state w'.state
  post _ _ _ _ := True
  rely_refl _ _ _ _ h _ := h
  rely_trans _ _ _ _ h h' id st hst hfinal := h' id st (h id st hst hfinal) hfinal

section Steps

variable {env : Env} {pid : Nat} {w : World (system env)}

theorem findRun_of_getRun {id : RunId} {found : Option Run} {s s' : JobsDb}
    (h : Answers (system env) pid (.getRun id) s (.ok found) s') : s.findRun id = found := by
  obtain ⟨x, hexec⟩ := h.ok
  cases hexec
  rfl

theorem listSleepingRunsDue_found {now : Int} {runs : List Run} {s s' : JobsDb}
    (h : Answers (system env) pid (.listSleepingRunsDue now) s (.ok runs) s')
    : s.runs.select (JobsDb.isSleepingDue now) = runs := by
  obtain ⟨x, hexec⟩ := h.ok
  cases hexec
  rfl

theorem holds_of_getRun {req : Request} {runId : RunId} {run : Run} {s : JobsDb}
    (h : Idle pid req w) (htakes : req.takes run.status = true)
    (hanswer : Answers (system env) pid (.getRun runId) w.state (.ok (some run)) s)
    : Holds pid runId (w.after s (.call pid (Call.getRun runId) (.ok (some run)))) := by
  have hid : run.id = runId := by
    simpa using Table.prop_of_find? (findRun_of_getRun hanswer)
  have hfound : run ∈ Call.found (.getRun runId) (.ok (some run)) := List.mem_cons_self
  have hholds := h.holds (s := s) rfl hfound htakes
  rw [hid] at hholds
  exact hholds

theorem findRun_of_found {c : Call} {r : Except JobsError c.Ret} {s s' : JobsDb} {run : Run}
    (hanswer : Answers (system env) pid c s r s') (h : run ∈ c.found r)
    : s.findRun run.id = some run := by
  unfold Call.found at h
  split at h
  . next id found =>
    rw [List.mem_singleton] at h
    subst h
    exact JobsDb.findRun_of_mem (Table.mem_of_find? (findRun_of_getRun hanswer))
  . next now runs =>
    rw [← listSleepingRunsDue_found hanswer, Table.mem_select] at h
    exact JobsDb.findRun_of_mem h.1
  . exact absurd h List.not_mem_nil

/--
A run that is taken is not finished.
-/
theorem live_of_taken {e : Interleave.Event (system env)} {c : Call} {r : Except JobsError c.Ret}
    {s : JobsDb} {id : RunId} (hanswer : Answers (system env) pid c w.state r s)
    (htaken : id ∈ taken e (.call pid c r)) (st : RunStatus)
    (hst : JobsDb.statusOf w.state id = some st) : st.isFinal = false := by
  cases e with
  | spawn pid' req =>
    rw [taken, List.mem_map] at htaken
    obtain ⟨run, hrun, hid⟩ := htaken
    obtain ⟨hfound, htakes⟩ := List.mem_filter.mp hrun
    unfold JobsDb.statusOf at hst
    rw [← hid, findRun_of_found hanswer hfound] at hst
    cases hst
    exact isFinal_of_takes htakes
  | _ => cases htaken

theorem keeps_call {c : Call} {r : Except JobsError c.Ret} {s : JobsDb} (hinv : Exclusive w)
    (hanswer : Answers (system env) pid c w.state r s) (hok : Disciplined w (.call pid c r))
    (hsets : ∀ id st, c.sets = some (id, st) →
      ∃ pid', Holds pid' id w ∧ (st.isFinal = true → pid' = pid))
    : (finishedOutline env).Keeps w s (.call pid c r) := by
  have hnew : ∀ e' ∈ w.trace, e'.pid? = some pid →
      taken (.call pid c r : Interleave.Event (system env)) e' = [] := fun _ _ _ => rfl
  have hfrozen : Frozen w.state s := by
    intro id st hst hfinal
    have hbecomes := answers_becomes hanswer id
    rw [hst] at hbecomes
    generalize hst' : s.statusOf id = st' at hbecomes
    cases hbecomes with
    | same => rfl
    | set hc =>
      obtain ⟨pid', hholds, _⟩ := hsets id _ hc
      have := hinv.live pid' id hholds st hst
      simp [hfinal] at this
  refine ⟨trivial, ⟨?_, ?_⟩, fun _ _ => hfrozen⟩
  . intro pid₁ pid₂ id h₁ h₂
    cases h₁.of_after hnew with
    | inl h₁ =>
      cases h₂.of_after hnew with
      | inl h₂ => exact hinv.unique _ _ _ h₁ h₂
      | inr h₂ =>
        obtain ⟨hpid₂, e', he', hpid', htaken⟩ := h₂
        by_contra hne
        refine hok.1 e' he' hpid' id htaken pid₁ h₁.mem_pids ?_ h₁
        intro hpid₁
        exact hne (Option.some.inj (hpid₁.symm.trans hpid₂))
    | inr h₁ =>
      obtain ⟨hpid₁, e', he', hpid', htaken⟩ := h₁
      cases h₂.of_after hnew with
      | inl h₂ =>
        by_contra hne
        refine hok.1 e' he' hpid' id htaken pid₂ h₂.mem_pids ?_ h₂
        intro hpid₂
        exact hne (Option.some.inj (hpid₁.symm.trans hpid₂))
      | inr h₂ => exact Option.some.inj (hpid₁.symm.trans h₂.1)
  . intro pid₁ id hholds st hst
    have hbecomes := answers_becomes hanswer id
    rw [show s.statusOf id = some st from hst] at hbecomes
    generalize hst' : JobsDb.statusOf w.state id = st' at hbecomes
    cases hbecomes with
    | same =>
      cases hholds.of_after hnew with
      | inl hold => exact hinv.live pid₁ id hold st hst'
      | inr hnew =>
        obtain ⟨_, e', _, _, htaken⟩ := hnew
        exact live_of_taken hanswer htaken st hst'
    | created => rfl
    | set hc =>
      by_contra hfinal
      simp only [Bool.not_eq_false] at hfinal
      have hrunning : st ≠ .running := by
        rintro rfl
        cases hfinal
      obtain ⟨pid', hholds', heq⟩ := hsets id st hc
      cases heq hfinal
      have hpid : pid₁ = pid := by
        cases hholds.of_after hnew with
        | inl hold => exact hinv.unique _ _ _ hold hholds'
        | inr hnew => exact (Option.some.inj hnew.1).symm
      rw [hpid] at hholds
      exact not_holds_of_sets hc hrunning hholds

end Steps

section Programs

variable {env : Env} {pid : Nat} {w : World (system env)} {α : Type}

theorem wp_quiet {x : JobsM α} (hx : x.Uses Call.IsQuiet)
    : (finishedOutline env).Wp pid (fun _ _ => True) x w := by
  apply Outline.wp_of_uses hx trivial (fun _ _ _ _ _ => trivial)
  intro c hc w r s _ hinv hanswer hok
  refine ⟨keeps_call hinv hanswer hok ?_, trivial⟩
  intro id st hsets
  cases hc with
  | inl hnone =>
    rw [hnone] at hsets
    cases hsets
  | inr hsleep =>
    obtain ⟨id', wakeupAt, rfl⟩ := hsleep
    cases hsets
    obtain ⟨pid', _, hholds⟩ := hok.2 id List.mem_cons_self
    exact ⟨pid', hholds, fun hfinal => by cases hfinal⟩

/--
A call that only writes to runs the process holds.
-/
theorem wp_held {A : World (system env) → Prop} {c : Call} {f : c.Ret → JobsM α} (hA : A w)
    (hstable : ∀ w w', Extends pid w w' → A w → A w')
    (hholds : ∀ w, A w → ∀ id st, c.sets = some (id, st) → Holds pid id w)
    (hnext : ∀ w, A w → ∀ a s, Answers (system env) pid c w.state (.ok a) s →
      (finishedOutline env).Wp pid (fun _ _ => True) (f a) (w.after s (.call pid c (.ok a))))
    : (finishedOutline env).Wp pid (fun _ _ => True) (query c >>= f) w := by
  apply Outline.wp_call
  intro w' hrely hinv r s hanswer hok
  have hA' := hstable w w' hrely.1 hA
  constructor
  . apply keeps_call hinv hanswer hok
    intro id st hsets
    exact ⟨pid, hholds w' hA' id st hsets, fun _ => rfl⟩
  . cases r with
    | ok a => exact hnext w' hA' a s hanswer
    | error e => exact wp_quiet (uses_fail e)

theorem wp_done {c : Call} (hholds : ∀ id st, c.sets = some (id, st) → Holds pid id w)
    : (finishedOutline env).Wp pid (fun _ _ => True) (query c) w := by
  apply Outline.wp_request
  intro w' hrely hinv r s hanswer hok
  refine ⟨?_, fun _ _ _ => trivial⟩
  apply keeps_call hinv hanswer hok
  intro id st hsets
  exact ⟨pid, (Holds.extends_iff hrely.1).mpr (hholds id st hsets), fun _ => rfl⟩

section Worker

variable {runId : RunId}

/--
A call of the worker while it executes a run.
-/
theorem wp_executing {c : Call} {f : c.Ret → JobsM α} (h : Holds pid runId w)
    (hc : ∀ id st, c.sets = some (id, st) → id = runId ∧ st = .running)
    (hnext : ∀ a w, Holds pid runId w →
      (finishedOutline env).Wp pid (fun _ _ => True) (f a) w)
    : (finishedOutline env).Wp pid (fun _ _ => True) (query c >>= f) w := by
  apply wp_held h
  . intro w w' hextends hholds
    exact (Holds.extends_iff hextends).mpr hholds
  . intro w hholds id st hsets
    rw [(hc id st hsets).1]
    exact hholds
  . intro w hholds a s _
    apply hnext
    exact hholds.after_call (fun st hsets => (hc runId st hsets).2)

theorem settle_wp (h : Holds pid runId w) (run : Run) (response : FunctionResponse)
    : (finishedOutline env).Wp pid (fun _ _ => True) (settle runId run response) w := by
  unfold settle
  split
  . apply wp_done
    intro id st hsets
    cases hsets
    exact h
  . split
    . apply wp_done
      intro id st hsets
      cases hsets
      exact h
    . apply wp_held h
      . intro w w' hextends hholds
        exact (Holds.extends_iff hextends).mpr hholds
      . intro w hholds id st hsets
        cases hsets
        exact hholds
      . intro _ _ _ _ _
        exact wp_quiet (uses_request _ (.inl rfl))

theorem executeRun_wp (h : Idle pid .work w) (config : JobsConfig)
    : (finishedOutline env).Wp pid (fun _ _ => True) (executeRun config runId) w := by
  unfold executeRun
  apply wp_held h
  . intro w w' hextends hidle
    exact hidle.extends hextends
  . intro w _ id st hsets
    cases hsets
  . intro w₁ hidle found s hanswer
    apply Outline.wp_okOr
    . rintro run rfl
      split
      . next hdue =>
        apply wp_executing (holds_of_getRun hidle hdue hanswer)
        . rintro _ _ ⟨⟩
        intro job w₂ hholds₂
        apply Outline.wp_okOr
        . intro job _
          apply wp_executing hholds₂
          . rintro _ _ ⟨⟩
            exact ⟨rfl, rfl⟩
          intro _ w₃ hholds₃
          apply wp_executing hholds₃
          . rintro _ _ ⟨⟩
          intro steps w₄ hholds₄
          apply wp_executing hholds₄
          . rintro _ _ ⟨⟩
          intro state w₅ hholds₅
          apply wp_executing hholds₅
          . rintro _ _ ⟨⟩
          intro response w₆ hholds₆
          exact settle_wp hholds₆ run response
        . intro _
          exact wp_quiet (uses_fail _)
      . exact wp_quiet (uses_pure _)
    . intro _
      exact wp_quiet (uses_fail _)

theorem processNextRun_wp (h : Idle pid .work w) (config : JobsConfig)
    : (finishedOutline env).Wp pid (fun _ _ => True) (processNextRun config) w := by
  unfold processNextRun
  apply Outline.wp_bind
  apply Outline.wp_attempt
  apply Outline.wp_request
  intro w₁ hrely₁ hinv₁ r s hanswer hok
  constructor
  . apply keeps_call hinv₁ hanswer hok
    rintro _ _ ⟨⟩
  intro w₂ hrely₂ _
  have hidle := ((h.extends hrely₁.1).after_call (c := .dequeue config.visibilityTimeout) rfl).extends
    hrely₂.1
  simp only
  split
  . exact wp_quiet (uses_pure _)
  . exact wp_quiet (uses_pure _)
  . split
    . apply wp_quiet
      apply quiet_attempt (.inl rfl)
      intro _
      exact uses_pure _
    . apply Outline.wp_bind
      apply Outline.wp_attempt
      refine Outline.wp_mono (executeRun_wp hidle config) ?_
      intro r w _ _
      cases r with
      | ok _ =>
        apply wp_quiet
        apply quiet_attempt (.inl rfl)
        intro _
        exact uses_pure _
      | error _ =>
        apply wp_quiet
        apply quiet_attempt (.inl rfl)
        intro _
        exact uses_pure _

end Worker

section Cancel

variable {ctx : JobCtx} {name : String} {runId : RunId}

theorem cancelRun_wp (h : Idle pid (.cancelRun ctx name runId) w)
    : (finishedOutline env).Wp pid (fun _ _ => True) (cancelRun ctx name runId) w := by
  unfold cancelRun requireJobPermission findRun findJob
  apply Outline.wp_require
  . intro _
    simp only [bind_assoc]
    apply wp_held h
    . intro w w' hextends hidle
      exact hidle.extends hextends
    . rintro _ _ _ _ ⟨⟩
    intro w₁ hidle₁ job s₁ _
    apply Outline.wp_okOr
    . intro job _
      apply wp_held (hidle₁.after_call (c := .getJob ctx.activeOrg name) rfl)
      . intro w w' hextends hidle
        exact hidle.extends hextends
      . rintro _ _ _ _ ⟨⟩
      intro w₂ hidle₂ found s₂ hanswer
      apply Outline.wp_okOr
      . rintro run rfl
        apply Outline.wp_require
        . intro _
          apply Outline.wp_require
          . intro hlive
            apply wp_held (holds_of_getRun hidle₂ hlive hanswer)
            . intro w w' hextends hholds
              exact (Holds.extends_iff hextends).mpr hholds
            . rintro _ hholds _ _ ⟨⟩
              exact hholds
            intro _ _ _ _ _
            apply wp_quiet
            apply quiet_attempt (.inl rfl)
            intro _
            apply quiet_call (.inl rfl)
            intro run
            exact uses_okOr _ _
          . intro _
            exact wp_quiet (uses_fail _)
        . intro _
          exact wp_quiet (uses_fail _)
      . intro _
        exact wp_quiet (uses_fail _)
    . intro _
      exact wp_quiet (uses_fail _)
  . intro _
    exact wp_quiet (uses_fail _)

end Cancel

/--
The runs that are still to be woken are held.
-/
theorem wakeRuns_wp {runs : List Run} (hholds : ∀ run ∈ runs, Holds pid run.id w)
    (hnodup : (runs.map (·.id)).Nodup)
    : (finishedOutline env).Wp pid (fun _ _ => True) (wakeRuns runs) w := by
  induction runs generalizing w with
  | nil => exact wp_quiet (uses_pure _)
  | cons run runs ih =>
    rw [List.map_cons, List.nodup_cons] at hnodup
    unfold wakeRuns
    apply wp_held (A := fun w => ∀ run' ∈ run :: runs, Holds pid run'.id w) hholds
    . intro w w' hextends hholds run hrun
      exact (Holds.extends_iff hextends).mpr (hholds run hrun)
    . rintro _ hholds _ _ ⟨⟩
      exact hholds run List.mem_cons_self
    intro w₁ hholds₁ _ s₁ _
    have hrest : ∀ run' ∈ runs, Holds pid run'.id (w₁.after s₁ (.call pid
        (Call.updateRunStatus run.id .pending none none) (.ok ()))) := by
      intro run' hrun'
      apply (hholds₁ run' (List.mem_cons_of_mem _ hrun')).after_call
      intro st hsets
      simp only [Call.sets, Option.some.injEq, Prod.mk.injEq] at hsets
      apply absurd _ hnodup.1
      rw [hsets.1]
      exact List.mem_map_of_mem hrun'
    apply wp_held (A := fun w => ∀ run' ∈ runs, Holds pid run'.id w) hrest
    . intro w w' hextends hholds run hrun
      exact (Holds.extends_iff hextends).mpr (hholds run hrun)
    . rintro _ _ _ _ ⟨⟩
    intro w₂ hholds₂ _ s₂ _
    apply ih _ hnodup.2
    intro run' hrun'
    apply (hholds₂ run' hrun').after_call
    rintro _ ⟨⟩

theorem pollSleepingRuns_wp (h : Idle pid .pollSleepingRuns w)
    : (finishedOutline env).Wp pid (fun _ _ => True) pollSleepingRuns w := by
  unfold pollSleepingRuns
  apply wp_held h
  . intro w w' hextends hidle
    exact hidle.extends hextends
  . rintro _ _ _ _ ⟨⟩
  intro w₁ hidle₁ now s₁ _
  apply wp_held (hidle₁.after_call (c := .utcNow) rfl)
  . intro w w' hextends hidle
    exact hidle.extends hextends
  . rintro _ _ _ _ ⟨⟩
  intro w₂ hidle₂ runs s₂ hanswer
  have hfound := listSleepingRunsDue_found hanswer
  apply wakeRuns_wp
  . intro run hrun
    apply hidle₂.holds (c := .listSleepingRunsDue now) rfl hrun
    rw [← hfound, Table.mem_select] at hrun
    simp only [JobsDb.isSleepingDue, Bool.and_eq_true] at hrun
    exact hrun.2.1
  . rw [← hfound]
    have hunique := w₂.state.runs.unique.filter (JobsDb.isSleepingDue now)
    unfold Table.select List.Nodup
    rw [List.pairwise_map]
    apply hunique.imp
    intro run run' hconflict heq
    simp [Relational.Constrained.conflict, heq] at hconflict

theorem program_wp (req : Request) (h : Idle pid req w)
    : (finishedOutline env).Wp pid (fun _ _ => True) (program env req) w := by
  by_cases hwork : req = .work
  . subst hwork
    exact processNextRun_wp h env.config
  by_cases hpoll : req = .pollSleepingRuns
  . subst hpoll
    exact pollSleepingRuns_wp h
  by_cases hcancel : ∃ ctx name runId, req = .cancelRun ctx name runId
  . obtain ⟨ctx, name, runId, rfl⟩ := hcancel
    exact cancelRun_wp h
  . apply wp_quiet
    apply program_quiet env hwork hpoll
    intro ctx name runId heq
    exact hcancel ⟨ctx, name, runId, heq⟩

end Programs

/--
An event other than a call leaves the runs as they are.
-/
theorem keeps_other {env : Env} {w : World (system env)} {s : JobsDb}
    {e : Interleave.Event (system env)} (hinv : Exclusive w) (hruns : s.runs = w.state.runs)
    (hnew : ∀ e' ∈ w.trace, e'.pid? = e.pid? → taken e e' = []) (hold : ∀ e', taken e' e = [])
    : (finishedOutline env).Keeps w s e := by
  have hstatus : ∀ id, s.statusOf id = JobsDb.statusOf w.state id := by
    intro id
    unfold JobsDb.statusOf JobsDb.findRun
    rw [hruns]
  have hholds : ∀ pid id, Holds pid id (w.after s e) → Holds pid id w := by
    intro pid id h
    cases h.of_after hnew with
    | inl h => exact h
    | inr h =>
      obtain ⟨_, e', _, _, htaken⟩ := h
      rw [hold] at htaken
      cases htaken
  refine ⟨trivial, ⟨?_, ?_⟩, ?_⟩
  . intro pid pid' id h h'
    exact hinv.unique pid pid' id (hholds _ _ h) (hholds _ _ h')
  . intro pid id h st hst
    exact hinv.live pid id (hholds _ _ h) st ((hstatus id).symm.trans hst)
  . intro _ _ id st hst _
    exact (hstatus id).trans hst

theorem finishedOutline_sound (env : Env) : (finishedOutline env).Sound where
  spawn w pid req hinv hfresh _ := by
    apply keeps_other hinv rfl
    . intro e' he' hpid
      exact absurd hpid (hfresh e' he')
    . intro e'
      cases e' <;> rfl
  program w pid req _ hfresh _ := program_wp req (.spawn hfresh w.state)
  finish w pid req r hinv _ _ _ := by
    apply keeps_other hinv rfl
    . intro _ _ _
      rfl
    . intro e'
      cases e' <;> rfl
  crash w pid req hinv _ _ := by
    apply keeps_other hinv rfl
    . intro _ _ _
      rfl
    . intro e'
      cases e' <;> rfl
  tick w t hinv _ := by
    apply keeps_other (s := (system env).tick t w.state) hinv rfl
    . intro _ _ _
      rfl
    . intro e'
      cases e' <;> rfl

/--
In the runs whose steps meet the condition, from any state of the tables, what is finished stays.
-/
def FinishedStays (env : Env) (ok : World (system env) → Interleave.Event (system env) → Prop)
    : Prop :=
  ∀ (s : JobsDb) (ms ms' : List (Move (system env))) (c c' : Config (system env)),
    Config.run ms (Config.start s) = some c → Config.run ms' c = some c' →
      Config.Along ok ms (Config.start s) → Config.Along ok ms' c →
        Frozen c.world.state c'.world.state

/--
A run is triggered and executed, and is cancelled when it is done.
-/
def lateCancel : List (Move (system .plain)) :=
  serves 0 (.manualTrigger .owner "mail" .null) 4 (.plain 7 200) ++ serves 1 .work 9 (.plain 8 200)
    ++ serves 2 (.cancelRun .owner "mail" 7) 2 (.plain 9 200)

example : Config.Along Disciplined lateCancel (.start .empty) := by
  decide +kernel

example : (Config.run lateCancel (.start .empty)).map (fun c => c.world.state.statusOf 7)
    = some (some .succeeded) := by
  decide +kernel

/--
A worker executes a run, which is cancelled while the function is at it.
-/
def cancelled : List (Move (system .plain)) :=
  serves 0 (.manualTrigger .owner "mail" .null) 4 (.plain 7 200)
    ++ .spawn Request.work :: goesOn 1 6 (.plain 8 200)
    ++ serves 2 (.cancelRun .owner "mail" 7) 5 (.plain 9 200)

end Reactor.Jobs
