import ReactorCloud.Interleave.Machine
import ReactorCloud.Studio.Runner

/-!
This module contains the auto-iteration loop as a machine with two parties, the run and whoever requests a stop.
A report that cannot be saved leaves the state behind, and the reason of a stop is read after it is overwritten.
-/

namespace Reactor.Studio.Eval

open Interleave (Machine)
open Rust (F64)

inductive LoopState where
  | idle
  | running
  | stopping
  | stopped
  deriving DecidableEq, Repr

structure LoopConfig where
  levels : List TestLevel := [.l0, .l1, .l2]
  maxIterations : Option UInt32 := none
  concurrency : Nat := 4
  stopOnFailure : Bool := false

/--
The part of the report that the loop reads.
-/
structure IterationReport where
  iteration : Nat
  passRateAfter : F64
  lessonsPromoted : List (String × String × String)
  lessonsDemoted : List (String × String × String)

inductive LoopEvent where
  | runStarted (runId : String) (levels : List String) (maxIterations : Option UInt32)
  | iterationComplete (iteration : Nat) (passRates : List (String × F64)) (promotions demotions : List String)
  | runStopped (runId reason : String)
  | error (location message : String)

/--
Why the loop was left.
-/
inductive Cause where
  | user
  | limit
  | failure
  deriving DecidableEq, Repr

/--
Where a run stands between two accesses to the state.
-/
inductive Place where
  | check
  | iterate
  | save (report : IterationReport)
  | stop (cause : Cause)
  | report (cause : Cause)
  | reset (cause : Cause)

structure Run where
  runId : String
  config : LoopConfig
  iteration : Nat := 0
  reports : List IterationReport := []
  place : Place := .check

structure AutoIterationLoop where
  state : LoopState := .idle
  run : Option Run := none

inductive Action where
  | requestStop
  | enter (runId : String) (config : LoopConfig)
  | check
  | iterate (result : Except String IterationReport)
  | save (result : Except String Unit)
  | stop
  | report
  | reset

/--
What an action does. A stop is requested in a state, and a call of `run` returns in one.
-/
inductive Event where
  | stopRequested (state : LoopState)
  | refused (state : LoopState)
  | started (runId : String) (config : LoopConfig)
  | left (cause : Cause)
  | iterationStarted (iteration : Nat)
  | iterated (report : IterationReport)
  | iterationFailed (iteration : Nat) (message : String) (leaves : Bool)
  | saved (report : IterationReport)
  | saveFailed (message : String) (state : LoopState)
  | markedStopped
  | reported (runId reason : String)
  | returned (reports : List IterationReport) (state : LoopState)

/--
What subscribers of the loop see.
-/
def Event.emits : Event → Option LoopEvent
  | .started runId config => some (.runStarted runId (config.levels.map TestLevel.asStr) config.maxIterations)
  | .iterationFailed iteration message _ => some (.error ("iteration_" ++ Nat.repr iteration) message)
  | .saved report =>
    some (.iterationComplete report.iteration [("overall", report.passRateAfter)] (report.lessonsPromoted.map (·.1))
      (report.lessonsDemoted.map (·.1)))
  | .reported runId reason => some (.runStopped runId reason)
  | _ => none

/--
The state when a call of `run` returns, with `Ok` or `Err`.
-/
def Event.returnsIn : Event → Option LoopState
  | .refused state => some state
  | .saveFailed _ state => some state
  | .returned _ state => some state
  | _ => none

def requestStop (l : AutoIterationLoop) : Event × AutoIterationLoop :=
  (.stopRequested l.state, if l.state = .running then { l with state := .stopping } else l)

def enter (runId : String) (config : LoopConfig) (l : AutoIterationLoop) : Event × AutoIterationLoop :=
  if l.state ≠ .idle then
    (.refused l.state, l)
  else
    (.started runId config, ⟨.running, some { runId, config }⟩)

def limitReached (run : Run) : Bool :=
  run.config.maxIterations.any (fun max => max.toNat ≤ run.iteration)

/--
The top of the loop, up to the start of the iteration. The counter does not overflow before the limit.
-/
def check (l : AutoIterationLoop) (run : Run) : Event × AutoIterationLoop :=
  if l.state = .stopping then
    (.left .user, { l with run := some { run with place := .stop .user } })
  else if limitReached run then
    (.left .limit, { l with run := some { run with place := .stop .limit } })
  else
    (.iterationStarted (run.iteration + 1),
      { l with run := some { run with iteration := run.iteration + 1, place := .iterate } })

def iterated (l : AutoIterationLoop) (run : Run) : Except String IterationReport → Event × AutoIterationLoop
  | .ok report => (.iterated report, { l with run := some { run with place := .save report } })
  | .error message =>
    (.iterationFailed run.iteration message run.config.stopOnFailure,
      { l with run := some { run with place := if run.config.stopOnFailure then .stop .failure else .check } })

def saved (l : AutoIterationLoop) (run : Run) (report : IterationReport)
    : Except String Unit → Event × AutoIterationLoop
  | .ok () => (.saved report, { l with run := some { run with reports := run.reports ++ [report], place := .check } })
  -- `?` returns from `run` as it is
  | .error message => (.saveFailed message l.state, { l with run := none })

def reason (state : LoopState) : String :=
  if state = .stopping then "User requested stop" else "Completed"

def step (action : Action) (l : AutoIterationLoop) : Option (Event × AutoIterationLoop) :=
  match action, l.run with
  | .requestStop, _ => some (requestStop l)
  | .enter runId config, none => some (enter runId config l)
  | .enter _ _, some _ => none
  | _, none => none
  | .check, some run =>
    match run.place with
    | .check => some (check l run)
    | _ => none
  | .iterate result, some run =>
    match run.place with
    | .iterate => some (iterated l run result)
    | _ => none
  | .save result, some run =>
    match run.place with
    | .save report => some (saved l run report result)
    | _ => none
  | .stop, some run =>
    match run.place with
    | .stop cause => some (.markedStopped, ⟨.stopped, some { run with place := .report cause }⟩)
    | _ => none
  | .report, some run =>
    match run.place with
    | .report cause =>
      some (.reported run.runId (reason l.state), { l with run := some { run with place := .reset cause } })
    | _ => none
  | .reset, some run =>
    match run.place with
    | .reset _ => some (.returned run.reports .idle, ⟨.idle, none⟩)
    | _ => none

/--
The loop and its callers, one run at a time.
-/
def loop : Machine AutoIterationLoop Action Event :=
  ⟨{}, step⟩

/-! ## What a trace should look like, the latest event first -/

/--
Why the latest run has left its loop.
-/
def causeOf : List Event → Option Cause
  | [] => none
  | .left cause :: _ => some cause
  | .iterationFailed _ _ true :: _ => some .failure
  | .started _ _ :: _ => none
  | _ :: events => causeOf events

/--
The configuration of the latest run and the iterations it has started.
-/
def executed : List Event → Option (LoopConfig × Nat)
  | [] => none
  | .started _ config :: _ => some (config, 0)
  | .iterationStarted _ :: events => (executed events).map (fun (config, k) => (config, k + 1))
  | _ :: events => executed events

structure Truthful (trace : List Event) : Prop where
  idle : ∀ e ∈ trace, ∀ state, e.returnsIn = some state → state = .idle
  stops : ∀ later n mid earlier, trace = later ++ .iterationStarted n :: (mid ++ .stopRequested .running :: earlier)
    → ∃ e ∈ mid, e.returnsIn ≠ none
  truthful : ∀ later runId reason earlier, trace = later ++ .reported runId reason :: earlier
    → (reason = "User requested stop" ↔ causeOf earlier = some .user)
  bounded : ∀ later earlier config k max, trace = later ++ earlier → executed earlier = some (config, k)
    → config.maxIterations = some max → k ≤ max.toNat

theorem Truthful.of_suffix {trace trace' : List Event} (h : Truthful trace') (hsuffix : trace <:+ trace')
    : Truthful trace := by
  obtain ⟨newer, rfl⟩ := hsuffix
  constructor
  . exact fun e he => h.idle e (List.mem_append_right _ he)
  . rintro later n mid earlier rfl
    exact h.stops (newer ++ later) n mid earlier (by rw [List.append_assoc])
  . rintro later runId reason earlier rfl
    exact h.truthful (newer ++ later) runId reason earlier (by rw [List.append_assoc])
  . rintro later earlier config k max rfl
    exact h.bounded (newer ++ later) earlier config k max (by rw [List.append_assoc])

/--
A stop was requested while the latest run was running.
-/
def stopPending : List Event → Bool
  | [] => false
  | .stopRequested .running :: _ => true
  | .stopRequested _ :: events => stopPending events
  | e :: events => e.returnsIn = none && stopPending events

theorem stopPending_cons {e : Event} (hreturns : e.returnsIn = none) (hstop : ∀ state, e ≠ .stopRequested state)
    (events : List Event) : stopPending (e :: events) = stopPending events := by
  cases e with
  | stopRequested state => exact absurd rfl (hstop state)
  | refused => cases hreturns
  | saveFailed => cases hreturns
  | returned => cases hreturns
  | _ => rfl

theorem returns_of_not_pending {mid earlier : List Event}
    (h : stopPending (mid ++ .stopRequested .running :: earlier) = false) : ∃ e ∈ mid, e.returnsIn ≠ none := by
  induction mid with
  | nil => cases h
  | cons e mid ih =>
    by_cases hreturns : e.returnsIn = none
    . have hrest : stopPending (mid ++ .stopRequested .running :: earlier) = false := by
        cases e with
        | stopRequested state =>
          cases state with
          | running => cases h
          | _ => exact h
        | _ =>
          rw [List.cons_append, stopPending_cons hreturns nofun] at h
          exact h
      obtain ⟨e', hmem, hreturns'⟩ := ih hrest
      exact ⟨e', List.mem_cons_of_mem _ hmem, hreturns'⟩
    . exact ⟨e, List.mem_cons_self, hreturns⟩

/--
What an event has to be for the trace to stay truthful.
-/
structure Fits (e : Event) (trace : List Event) : Prop where
  idle : ∀ state, e.returnsIn = some state → state = .idle
  stops : ∀ n, e = .iterationStarted n → stopPending trace = false
  truthful : ∀ runId reason, e = .reported runId reason
    → (reason = "User requested stop" ↔ causeOf trace = some .user)
  bounded : ∀ config k max, executed (e :: trace) = some (config, k) → config.maxIterations = some max
    → k ≤ max.toNat

theorem Truthful.cons {e : Event} {trace : List Event} (h : Truthful trace) (he : Fits e trace)
    : Truthful (e :: trace) := by
  constructor
  . exact List.forall_mem_cons.mpr ⟨he.idle, h.idle⟩
  . intro later n mid earlier heq
    cases later with
    | nil =>
      obtain ⟨rfl, rfl⟩ := List.cons.inj heq
      exact returns_of_not_pending (he.stops n rfl)
    | cons e' later => exact h.stops later n mid earlier (List.cons.inj heq).2
  . intro later runId reason earlier heq
    cases later with
    | nil =>
      obtain ⟨rfl, rfl⟩ := List.cons.inj heq
      exact he.truthful runId reason rfl
    | cons e' later => exact h.truthful later runId reason earlier (List.cons.inj heq).2
  . intro later earlier config k max heq hexecuted hmax
    cases later with
    | nil =>
      rw [List.nil_append] at heq
      rw [← heq] at hexecuted
      exact he.bounded config k max hexecuted hmax
    | cons e' later => exact h.bounded later earlier config k max (List.cons.inj heq).2 hexecuted hmax

theorem truthful_nil : Truthful [] := by
  constructor
  . exact nofun
  . intro later n mid earlier heq
    simp at heq
  . intro later runId reason earlier heq
    simp at heq
  . intro later earlier config k max heq hexecuted
    have : earlier = [] := (List.append_eq_nil_iff.mp heq.symm).2
    rw [this] at hexecuted
    cases hexecuted

/-! ## The invariant -/

/--
The states in which a run can stand at a place.
-/
def Place.Allows : Place → LoopState → Prop
  | .check, s | .iterate, s | .save _, s | .stop _, s => s = .running ∨ s = .stopping
  | .report _, s | .reset _, s => s = .stopped

def Place.cause : Place → Option Cause
  | .check | .iterate | .save _ => none
  | .stop cause | .report cause | .reset cause => some cause

structure Inv (l : AutoIterationLoop) (trace : List Event) : Prop where
  pending : stopPending trace = true → l.state = .stopping ∨ l.state = .stopped
  place : ∀ run, l.run = some run → run.place.Allows l.state
  cause : ∀ run, l.run = some run → causeOf trace = run.place.cause
  counts : ∀ run, l.run = some run → executed trace = some (run.config, run.iteration)
  bounded : ∀ config k max, executed trace = some (config, k) → config.maxIterations = some max
    → k ≤ max.toNat

section

variable {l : AutoIterationLoop} {trace : List Event}

theorem Inv.requestStop (h : Inv l trace) : Inv (requestStop l).2 ((requestStop l).1 :: trace) := by
  unfold Eval.requestStop
  cases hstate : l.state with
  | running =>
    refine ⟨fun _ => .inl rfl, ?_, h.cause, h.counts, h.bounded⟩
    intro run hrun
    have hplace := h.place run hrun
    rw [hstate] at hplace
    unfold Place.Allows at hplace ⊢
    split at hplace <;> simp_all
  | _ =>
    refine ⟨?_, h.place, h.cause, h.counts, h.bounded⟩
    intro hpending
    exact h.pending hpending

theorem Inv.enter (h : Inv l trace) (hrun : l.run = none) (runId : String) (config : LoopConfig)
    : Inv (enter runId config l).2 ((enter runId config l).1 :: trace) := by
  unfold Eval.enter
  split
  . refine ⟨nofun, ?_, ?_, ?_, h.bounded⟩
    all_goals
      intro run hsome
      rw [hrun] at hsome
      cases hsome
  . next hidle =>
    have hidle := not_not.mp hidle
    refine ⟨?_, ?_, ?_, ?_, ?_⟩
    . intro hpending
      rw [stopPending_cons rfl (e := .started runId config) nofun] at hpending
      have := h.pending hpending
      rw [hidle] at this
      simp at this
    . rintro run ⟨⟩
      exact .inl rfl
    . rintro run ⟨⟩
      rfl
    . rintro run ⟨⟩
      rfl
    . intro config' k max hexecuted _
      cases hexecuted
      exact Nat.zero_le _

/--
The run goes on to another place, in a state that allows it.
-/
theorem Inv.moves (h : Inv l trace) {run run' : Run} {e : Event} {s : LoopState} (hrun : l.run = some run)
    (hpending : stopPending (e :: trace) = true → s = .stopping ∨ s = .stopped)
    (hplace : run'.place.Allows s) (hcause : causeOf (e :: trace) = run'.place.cause)
    (hcounts : executed (e :: trace) = executed trace) (hconfig : run'.config = run.config)
    (hiteration : run'.iteration = run.iteration) : Inv ⟨s, some run'⟩ (e :: trace) where
  pending := hpending
  place r hr := by
    cases hr
    exact hplace
  cause r hr := by
    cases hr
    exact hcause
  counts r hr := by
    cases hr
    rw [hcounts, hconfig, hiteration, h.counts run hrun]
  bounded config k max hexecuted hmax := by
    rw [hcounts] at hexecuted
    exact h.bounded config k max hexecuted hmax

/--
A move that leaves the state as it is.
-/
theorem Inv.goesOn (h : Inv l trace) {run run' : Run} {e : Event} (hrun : l.run = some run)
    (hreturns : e.returnsIn = none) (hstop : ∀ state, e ≠ .stopRequested state)
    (hplace : run'.place.Allows l.state) (hcause : causeOf (e :: trace) = run'.place.cause)
    (hcounts : executed (e :: trace) = executed trace) (hconfig : run'.config = run.config)
    (hiteration : run'.iteration = run.iteration) : Inv ⟨l.state, some run'⟩ (e :: trace) := by
  apply h.moves hrun _ hplace hcause hcounts hconfig hiteration
  intro hpending
  rw [stopPending_cons hreturns hstop] at hpending
  exact h.pending hpending

theorem Inv.check (h : Inv l trace) {run : Run} (hrun : l.run = some run) (hplace : run.place = .check)
    : Inv (check l run).2 ((check l run).1 :: trace) := by
  have hallows := h.place run hrun
  rw [hplace] at hallows
  unfold Eval.check
  split
  . next hstopping => exact h.goesOn hrun rfl nofun (.inr hstopping) rfl rfl rfl rfl
  . next hstopping =>
    have hrunning := hallows.resolve_right hstopping
    have hpending : stopPending trace ≠ true := by
      intro hpending
      have := h.pending hpending
      rw [hrunning] at this
      simp at this
    split
    . exact h.goesOn hrun rfl nofun (.inl hrunning) rfl rfl rfl rfl
    . next hlimit =>
      have hexecuted : executed (.iterationStarted (run.iteration + 1) :: trace)
          = some (run.config, run.iteration + 1) := by
        rw [executed, h.counts run hrun]
        rfl
      refine ⟨?_, ?_, ?_, ?_, ?_⟩
      . rw [stopPending_cons rfl (e := .iterationStarted _) nofun]
        exact fun hp => absurd hp hpending
      . rintro r ⟨⟩
        exact .inl hrunning
      . rintro r ⟨⟩
        have := h.cause run hrun
        rw [hplace] at this
        exact this
      . rintro r ⟨⟩
        exact hexecuted
      . intro config k max hsome hmax
        rw [hexecuted] at hsome
        cases hsome
        have : ¬ max.toNat ≤ run.iteration := by
          intro hle
          apply hlimit
          rw [limitReached, hmax, Option.any_some]
          exact decide_eq_true hle
        omega

theorem Inv.iterated (h : Inv l trace) {run : Run} (hrun : l.run = some run) (hplace : run.place = .iterate)
    (result : Except String IterationReport)
    : Inv (iterated l run result).2 ((iterated l run result).1 :: trace) := by
  have hallows := h.place run hrun
  have hcause := h.cause run hrun
  rw [hplace] at hallows hcause
  unfold Eval.iterated
  cases result with
  | ok report =>
    exact h.goesOn hrun rfl nofun hallows hcause rfl rfl rfl
  | error message =>
    cases hfail : run.config.stopOnFailure with
    | true =>
      exact h.goesOn hrun rfl nofun hallows rfl rfl rfl rfl
    | false =>
      exact h.goesOn hrun rfl nofun hallows hcause rfl rfl rfl

theorem Inv.saved (h : Inv l trace) {run : Run} {report : IterationReport} (hrun : l.run = some run)
    (hplace : run.place = .save report) (result : Except String Unit)
    : Inv (saved l run report result).2 ((saved l run report result).1 :: trace) := by
  have hallows := h.place run hrun
  have hcause := h.cause run hrun
  rw [hplace] at hallows hcause
  unfold Eval.saved
  cases result with
  | ok _ =>
    exact h.goesOn hrun rfl nofun hallows hcause rfl rfl rfl
  | error message => exact ⟨nofun, nofun, nofun, nofun, h.bounded⟩

end

/--
The steps of the loop, by action.
-/
inductive Step (l : AutoIterationLoop) : Action → Event × AutoIterationLoop → Prop where
  | requestStop : Step l .requestStop (requestStop l)
  | enter (runId config) (hrun : l.run = none) : Step l (.enter runId config) (enter runId config l)
  | check (run) (hrun : l.run = some run) (hplace : run.place = .check) : Step l .check (check l run)
  | iterate (run result) (hrun : l.run = some run) (hplace : run.place = .iterate)
    : Step l (.iterate result) (iterated l run result)
  | save (run report result) (hrun : l.run = some run) (hplace : run.place = .save report)
    : Step l (.save result) (saved l run report result)
  | stop (run cause) (hrun : l.run = some run) (hplace : run.place = .stop cause)
    : Step l .stop (.markedStopped, ⟨.stopped, some { run with place := .report cause }⟩)
  | report (run cause) (hrun : l.run = some run) (hplace : run.place = .report cause)
    : Step l .report (.reported run.runId (reason l.state), { l with run := some { run with place := .reset cause } })
  | reset (run cause) (hrun : l.run = some run) (hplace : run.place = .reset cause)
    : Step l .reset (.returned run.reports .idle, ⟨.idle, none⟩)

theorem step_of_step {l : AutoIterationLoop} {action : Action} {r : Event × AutoIterationLoop}
    (h : step action l = some r) : Step l action r := by
  unfold step at h
  split at h
  . cases h
    exact .requestStop
  . next hrun =>
    cases h
    exact .enter _ _ hrun
  . cases h
  . cases h
  . next run hrun =>
    split at h
    . next hplace =>
      cases h
      exact .check run hrun hplace
    . cases h
  . next run hrun =>
    split at h
    . next hplace =>
      cases h
      exact .iterate run _ hrun hplace
    . cases h
  . next run hrun =>
    split at h
    . next report hplace =>
      cases h
      exact .save run report _ hrun hplace
    . cases h
  . next run hrun =>
    split at h
    . next cause hplace =>
      cases h
      exact .stop run cause hrun hplace
    . cases h
  . next run hrun =>
    split at h
    . next cause hplace =>
      cases h
      exact .report run cause hrun hplace
    . cases h
  . next run hrun =>
    split at h
    . next cause hplace =>
      cases h
      exact .reset run cause hrun hplace
    . cases h

theorem inv_first : Inv loop.first.state loop.first.trace :=
  ⟨nofun, nofun, nofun, nofun, nofun⟩

theorem Inv.step {l : AutoIterationLoop} {trace : List Event} {action : Action} {r : Event × AutoIterationLoop}
    (h : Inv l trace) (hstep : step action l = some r) : Inv r.2 (r.1 :: trace) := by
  cases step_of_step hstep with
  | requestStop => exact h.requestStop
  | enter runId config hrun => exact h.enter hrun runId config
  | check run hrun hplace => exact h.check hrun hplace
  | iterate run result hrun hplace => exact h.iterated hrun hplace result
  | save run report result hrun hplace => exact h.saved hrun hplace result
  | stop run cause hrun hplace =>
    have hcause := h.cause run hrun
    rw [hplace] at hcause
    exact h.moves hrun (fun _ => .inr rfl) rfl hcause rfl rfl rfl
  | report run cause hrun hplace =>
    have hallows := h.place run hrun
    have hcause := h.cause run hrun
    rw [hplace] at hallows hcause
    exact h.goesOn hrun rfl nofun hallows hcause rfl rfl rfl
  | reset run cause hrun hplace => exact ⟨nofun, nofun, nofun, nofun, h.bounded⟩

/-! ## The runs whose traces are truthful -/

/--
No report fails to be saved, and no run that a stop request has ended gets to its report.
-/
structure Kept (w : Machine.World AutoIterationLoop Event) (action : Action) : Prop where
  saves : ∀ message, action ≠ .save (.error message)
  stops : action = .report → causeOf w.trace ≠ some .user

/--
When nobody runs the loop, it is idle.
-/
def Free (l : AutoIterationLoop) : Prop :=
  l.run = none → l.state = .idle

theorem reason_stopped : reason .stopped = "Completed" :=
  rfl

theorem completed_ne : "Completed" ≠ "User requested stop" := by
  decide

section

variable {l : AutoIterationLoop} {trace : List Event} {action : Action} {r : Event × AutoIterationLoop}

theorem Free.step (h : Free l) (hkept : Kept ⟨l, trace⟩ action) (hstep : step action l = some r) : Free r.2 := by
  cases step_of_step hstep with
  | requestStop =>
    unfold Eval.requestStop
    dsimp only
    split
    . next hrunning =>
      intro hrun
      have := h hrun
      rw [hrunning] at this
      cases this
    . exact h
  | enter runId config hrun =>
    unfold Eval.enter
    split
    . exact h
    . exact nofun
  | check run hrun hplace =>
    unfold Eval.check
    split
    . exact nofun
    . split
      . exact nofun
      . exact nofun
  | iterate run result hrun hplace =>
    cases result with
    | ok report => exact nofun
    | error message => exact nofun
  | save run report result hrun hplace =>
    cases result with
    | ok _ => exact nofun
    | error message => exact absurd rfl (hkept.saves message)
  | stop run cause hrun hplace => exact nofun
  | report run cause hrun hplace => exact nofun
  | reset run cause hrun hplace => exact fun _ => rfl

/--
An event that neither returns, nor starts an iteration, nor reports.
-/
theorem Fits.quiet {e : Event} (h : Inv l (e :: trace)) (hreturns : e.returnsIn = none)
    (hstarts : ∀ n, e ≠ .iterationStarted n) (hreports : ∀ runId reason, e ≠ .reported runId reason)
    : Fits e trace where
  idle state hstate := by
    rw [hreturns] at hstate
    cases hstate
  stops n he := absurd he (hstarts n)
  truthful runId reason he := absurd he (hreports runId reason)
  bounded := h.bounded

theorem fits_step (h : Inv l trace) (hfree : Free l) (hkept : Kept ⟨l, trace⟩ action)
    (hstep : step action l = some r) : Fits r.1 trace := by
  have hinv := h.step hstep
  cases step_of_step hstep with
  | requestStop => exact .quiet hinv rfl nofun nofun
  | enter runId config hrun =>
    have hidle : ¬ l.state ≠ .idle := not_not.mpr (hfree hrun)
    unfold Eval.enter at hinv ⊢
    rw [if_neg hidle] at hinv ⊢
    exact .quiet hinv rfl nofun nofun
  | check run hrun hplace =>
    unfold Eval.check at hinv ⊢
    split at hinv
    . next hstopping =>
      rw [if_pos hstopping]
      exact .quiet hinv rfl nofun nofun
    . next hstopping =>
      rw [if_neg hstopping]
      split at hinv
      . next hlimit =>
        rw [if_pos hlimit]
        exact .quiet hinv rfl nofun nofun
      . next hlimit =>
        rw [if_neg hlimit]
        refine ⟨nofun, ?_, nofun, hinv.bounded⟩
        intro _ _
        rw [← Bool.not_eq_true]
        intro hpending
        have hallows := h.place run hrun
        rw [hplace] at hallows
        have hrunning := hallows.resolve_right hstopping
        have := h.pending hpending
        rw [hrunning] at this
        simp at this
  | iterate run result hrun hplace =>
    cases result with
    | ok report => exact .quiet hinv rfl nofun nofun
    | error message => exact .quiet hinv rfl nofun nofun
  | save run report result hrun hplace =>
    cases result with
    | ok _ => exact .quiet hinv rfl nofun nofun
    | error message => exact absurd rfl (hkept.saves message)
  | stop run cause hrun hplace => exact .quiet hinv rfl nofun nofun
  | report run cause hrun hplace =>
    have hallows := h.place run hrun
    rw [hplace] at hallows
    refine ⟨nofun, nofun, ?_, hinv.bounded⟩
    intro runId reason hevent
    have hreason := (Event.reported.inj hevent).2
    rw [show l.state = .stopped from hallows, reason_stopped] at hreason
    constructor
    . intro huser
      rw [huser] at hreason
      exact absurd hreason completed_ne
    . exact fun huser => absurd huser (hkept.stops rfl)
  | reset run cause hrun hplace =>
    refine ⟨?_, nofun, nofun, hinv.bounded⟩
    intro state hstate
    exact (Option.some.inj hstate).symm

/--
A step after which the trace is truthful is one that keeps it so.
-/
theorem kept_of_truthful (h : Inv l trace) (hstep : step action l = some r) (ht : Truthful (r.1 :: trace))
    : Kept ⟨l, trace⟩ action := by
  constructor
  . rintro message rfl
    cases step_of_step hstep with
    | save run report result hrun hplace =>
      have hallows := h.place run hrun
      rw [hplace] at hallows
      have hidle : l.state = .idle := ht.idle _ List.mem_cons_self l.state rfl
      unfold Place.Allows at hallows
      rw [hidle] at hallows
      simp at hallows
  . rintro rfl huser
    cases step_of_step hstep with
    | report run cause hrun hplace =>
      have hallows := h.place run hrun
      rw [hplace] at hallows
      have := (ht.truthful [] run.runId (reason l.state) trace rfl).mpr huser
      rw [show l.state = .stopped from hallows, reason_stopped] at this
      exact completed_ne this

end

/--
What holds in the worlds of a run all of whose steps are kept.
-/
theorem truthful_of_reached {w : Machine.World AutoIterationLoop Event} (h : loop.Reached Kept w)
    : Truthful w.trace := by
  have hall : Inv w.state w.trace ∧ Free w.state ∧ Truthful w.trace := by
    apply h.invariant
    . exact ⟨inv_first, fun _ => rfl, truthful_nil⟩
    . rintro action ⟨l, trace⟩ e l' ⟨hinv, hfree, ht⟩ hkept hstep
      exact ⟨hinv.step hstep, hfree.step hkept hstep, ht.cons (fits_step hinv hfree hkept hstep)⟩
  exact hall.2.2

theorem along_of_truthful {actions : List Action} {w w' : Machine.World AutoIterationLoop Event}
    (hinv : Inv w.state w.trace) (hrun : loop.run actions w = some w') (ht : Truthful w'.trace)
    : loop.Along Kept actions w := by
  induction actions generalizing w with
  | nil => trivial
  | cons action actions ih =>
    simp only [Machine.run, Option.bind_eq_some_iff] at hrun
    obtain ⟨w₁, hnext, hrun⟩ := hrun
    have ht₁ := ht.of_suffix (Machine.trace_suffix_of_run hrun)
    obtain ⟨e, l', hstep, rfl⟩ := Machine.next_eq_some_iff.mp hnext
    refine ⟨kept_of_truthful hinv hstep ht₁, ?_⟩
    intro w₂ hnext₂
    rw [hnext] at hnext₂
    cases hnext₂
    exact ih (hinv.step hstep) hrun

theorem truthful_iff {actions : List Action} {w : Machine.World AutoIterationLoop Event}
    (hrun : loop.run actions loop.first = some w) : Truthful w.trace ↔ loop.Along Kept actions loop.first := by
  constructor
  . exact along_of_truthful inv_first hrun
  . intro halong
    exact truthful_of_reached (Machine.Reached.run .first halong hrun)

/--
A run that the limit ends before its first iteration.
-/
theorem truthful_limit
    : ∃ w, loop.run [.enter "run" { maxIterations := some 0 }, .check, .stop, .report, .reset] loop.first = some w
      ∧ (Truthful w.trace
          ↔
        loop.Along Kept [.enter "run" { maxIterations := some 0 }, .check, .stop, .report, .reset] loop.first) :=
  ⟨_, rfl, truthful_iff rfl⟩

/--
The report of the first iteration cannot be saved, and the state stays `Running`.
-/
theorem not_truthful_saveFailed
    : ¬ ∀ actions w, loop.run actions loop.first = some w → Truthful w.trace := by
  intro h
  have ht := h [.enter "run" {}, .check, .iterate (.ok ⟨1, .ofInt 0, [], []⟩), .save (.error "disk full")] _ rfl
  have hidle := ht.idle _ List.mem_cons_self .running rfl
  cases hidle

end Reactor.Studio.Eval
