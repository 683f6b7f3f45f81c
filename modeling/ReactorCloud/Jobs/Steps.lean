import ReactorCloud.Interleave.Holding
import ReactorCloud.Jobs.Calls
import ReactorCloud.Jobs.Frame

/-!
This module contains when a completed step is not executed again. What the function of a step returns
goes through the body of a request, the row of the step and the context of the next invocation, and
every one of these can drop it.
-/

namespace Reactor.Jobs

open Interleave
open Interleave.Program (uses_bind uses_pure uses_request)
open Relational (Table)
open Rust (Json Uuid)

/-! ## The two ends of the SDK -/

/--
What `JSON.stringify` makes of a step that has returned `result`. A member that is undefined is left out.
-/
def completion (result : Option Json) : Json :=
  .object (("status", .string "completed") :: (result.map (fun output => ("output", output))).toList)

/--
The optional member of `UpdateStepRequest`.
-/
def requestOutput (body : Json) : Option Json :=
  (body.get "output").filter (fun output => !output.isNull)

/--
The names every object of JavaScript has.
-/
def inheritedNames : List String :=
  ["constructor", "__defineGetter__", "__defineSetter__", "hasOwnProperty", "__lookupGetter__",
    "__lookupSetter__", "isPrototypeOf", "propertyIsEnumerable", "toString", "valueOf", "__proto__",
    "toLocaleString"]

/--
`header.stepCache`, which may be undefined.
-/
def headerCache (header : Json) : Option (List (String × Json)) :=
  match header.get "stepCache" with
  | some (.object cache) => some cache
  | _ => none

/--
Whether `ctx.step` gets as far as the function of the step. Without a cache, `in` throws.
-/
def startsStep (header : Json) (name : String) : Bool :=
  match headerCache header with
  | some cache => !cache.any (·.1 == name) && !inheritedNames.contains name
  | none => false

/--
What the executor says of the step in the context of an invocation.
-/
def contextStep (context : Json) (name : String) : Option Json :=
  (context.get "step_cache").bind (·.get name)

section Steps

variable {env : Env}

/--
The steps that are listed for an execution of the run.
-/
def listedSteps : Interleave.Event (system env) → Option (RunId × List Step)
  | .call _ (.listSteps id) (.ok rows) => some (id, rows)
  | _ => none

def listedRun (e : Interleave.Event (system env)) : Option RunId :=
  (listedSteps e).map (·.1)

/--
The run whose state is loaded, which is the last thing before its function is invoked.
-/
def loadedRun : Interleave.Event (system env) → Option RunId
  | .call _ (.listState id) (.ok _) => some id
  | _ => none

def sentInvocation : Interleave.Event (system env) → Option Invocation
  | .call _ (.invoke invocation) _ => some invocation
  | _ => none

/--
The process `pid` has listed the steps of the run and has not yet loaded the rest.
-/
abbrev Loading (pid : Nat) (id : RunId) (w : World (system env)) : Prop :=
  Holding listedRun loadedRun pid id w

/--
The process `pid` has loaded all that it sends to the function of the run.
-/
abbrev Loaded (pid : Nat) (id : RunId) (w : World (system env)) : Prop :=
  Did (fun e => loadedRun e = some id) pid w

/--
The step sets the row to completed with what the function of the step returned.
-/
structure Completes (step : Step) (result : Option Json) (w : World (system env))
    (e : Interleave.Event (system env)) (w' : World (system env)) : Prop where
  request : ∃ pid error r,
    e = .call pid (Call.updateStep step.id .completed (requestOutput (completion result)) error) r
      ∧ w'.state
        = JobsDb.updateStep w.state step.id .completed (requestOutput (completion result)) error
  row : step ∈ JobsDb.steps w'.state

/--
An invocation of the run that was not yet loaded in `w₀` brings the step with what it returned, and
the SDK does not call the function of the step.
-/
def Replays (w₀ : World (system env)) (step : Step) (result : Option Json) (w : World (system env))
    : Interleave.Event (system env) → Prop
  | .call pid (.invoke invocation) _ =>
    Loaded pid step.runId w → ¬ Loaded pid step.runId w₀ →
      invocation.context.get "run_id" = some (.string step.runId.hyphenated)
        ∧ contextStep invocation.context step.name = some (result.getD .null)
        ∧ startsStep invocation.context step.name = false
  | _ => True

/--
A step that is updated to completed has an output. One that is completed already only gets the same
again, and no other is completed while an execution of its run is loading.
-/
def Careful (w : World (system env)) : Interleave.Event (system env) → Prop
  | .call _ (.updateStep id status output _) _ =>
    (status = .completed → output.isSome = true)
      ∧ ∀ step ∈ (JobsDb.steps w.state).rows, step.id = id →
        if step.status = .completed then
          status = .completed ∧ output = step.output
        else
          status = .completed → ∀ pid ∈ w.pids, ¬ Loading pid step.runId w
  | _ => True

instance (w₀ : World (system env)) (step : Step) (result : Option Json) (w : World (system env))
    (e : Interleave.Event (system env)) : Decidable (Replays w₀ step result w e) := by
  unfold Replays
  split <;> infer_instance

instance (w : World (system env)) (e : Interleave.Event (system env)) : Decidable (Careful w e) := by
  unfold Careful
  split <;> infer_instance

end Steps

/--
From any state, in the runs whose steps are `ok`, no completed step is executed again.
-/
def StepsKept (env : Env) (ok : World (system env) → Interleave.Event (system env) → Prop) : Prop :=
  ∀ (s : JobsDb) (ms ms' : List (Move (system env))) (m : Move (system env))
    (c c' : Config (system env)) (e : Interleave.Event (system env)) (step : Step) (result : Option Json),
    Config.Along ok (ms ++ m :: ms') (Config.start s) → Config.run ms (Config.start s) = some c →
      Config.step m c = some (e, c') → Completes step result c.world e c'.world →
        Config.Along (Replays c'.world step result) ms' c'

/-! ## What a call does to the completed steps -/

/--
The rows are one step with the same status and output.
-/
structure SameStep (row row' : Step) : Prop where
  id : row'.id = row.id
  runId : row'.runId = row.runId
  name : row'.name = row.name
  status : row'.status = row.status
  output : row'.output = row.output

theorem SameStep.refl (row : Step) : SameStep row row :=
  ⟨rfl, rfl, rfl, rfl, rfl⟩

theorem SameStep.trans {row row' row'' : Step} (h : SameStep row row') (h' : SameStep row' row'')
    : SameStep row row'' :=
  ⟨h'.id.trans h.id, h'.runId.trans h.runId, h'.name.trans h.name, h'.status.trans h.status,
    h'.output.trans h.output⟩

theorem SameStep.symm {row row' : Step} (h : SameStep row row') : SameStep row' row :=
  ⟨h.id.symm, h.runId.symm, h.name.symm, h.status.symm, h.output.symm⟩

theorem orElse_self (output : Option Json) : (output <|> output) = output := by
  cases output <;> rfl

namespace JobsDb

variable {s : JobsDb} {c : Call} {row : Step}

theorem id_of_getRun {id : RunId} {x : Choice} {run : Run} {s' : JobsDb}
    (h : s.exec (.getRun id) x = (.ok (some run), s')) : run.id = id := by
  have hfind : s.findRun id = some run := Except.ok.inj (congrArg Prod.fst h)
  have hid := Table.prop_of_find? hfind
  exact eq_of_beq hid

theorem exec_steps (x : Choice) (hc : c.table ≠ some .steps) : (s.exec c x).2.steps = s.steps := by
  apply s.exec_cases (P := fun s' => s'.steps = s.steps) c x
  case hsteps => exact fun h => absurd h hc
  all_goals
    intros
    rfl

section Rows

variable {id : StepId} {runId : RunId} {name : String} {input : Option Json} {status : StepStatus}
  {output : Option Json} {error : Option String}

theorem mem_createStep (h : row ∈ (s.createStep id runId name input).2.steps)
    : row ∈ s.steps ∨ row.status = .running := by
  simp only [createStep] at h
  split at h
  . next hinsert =>
    cases (Table.mem_insert hinsert).mp h with
    | inl heq =>
      rw [heq]
      exact .inr rfl
    | inr hold => exact .inl hold
  . exact .inl h

theorem mem_createStep_of_mem (h : row ∈ s.steps)
    : row ∈ (s.createStep id runId name input).2.steps := by
  simp only [createStep]
  split
  . next hinsert => exact (Table.mem_insert hinsert).mpr (.inr h)
  . exact h

theorem mem_updateStep
    : row ∈ (s.updateStep id status output error).steps
        ↔
      ∃ row₀ ∈ s.steps, (if row₀.id == id then
        { row₀ with status := status, output := output <|> row₀.output, error := error } else row₀)
          = row :=
  @Table.mem_modify Step _ s.steps (·.id == id)
    (fun t => { t with status := status, output := output <|> t.output, error := error })
    (fun _ _ => rfl) row

theorem of_mem_updateStep {v : Json}
    (h : row ∈ (s.updateStep row.id .completed (some v) error).steps)
    : row.status = .completed ∧ row.output = some v := by
  obtain ⟨row₀, _, heq⟩ := mem_updateStep.mp h
  split at heq
  . rw [← heq]
    exact ⟨rfl, rfl⟩
  . next hne =>
    rw [heq] at hne
    exact absurd (beq_self_eq_true row.id) hne

end Rows

/--
What the call says of the completed row `row`, if anything, is what the row has.
-/
def Confirms (c : Call) (row : Step) : Prop :=
  ∀ id status output error, c = .updateStep id status output error → row.id = id →
    status = .completed ∧ output = row.output

theorem sameStep_confirmed {id : StepId} {status : StepStatus} {output : Option Json}
    {error : Option String} (hdone : row.status = .completed)
    (hc : Confirms (.updateStep id status output error) row)
    : SameStep row (if row.id == id then
        { row with status := status, output := output <|> row.output, error := error } else row) := by
  split
  . next hid =>
    obtain ⟨hstatus, houtput⟩ := hc id status output error rfl (eq_of_beq hid)
    refine ⟨rfl, rfl, rfl, hstatus.trans hdone.symm, ?_⟩
    rw [houtput]
    exact orElse_self row.output
  . exact .refl row

theorem exec_completed (x : Choice) (hrow : row ∈ s.steps) (hdone : row.status = .completed)
    (hc : Confirms c row) : ∃ row' ∈ (s.exec c x).2.steps, SameStep row row' := by
  by_cases htable : c.table = some .steps
  . cases c with
    | createStep runId name input => exact ⟨row, mem_createStep_of_mem hrow, .refl row⟩
    | updateStep id status output error =>
      exact ⟨_, mem_updateStep.mpr ⟨row, hrow, rfl⟩, sameStep_confirmed hdone hc⟩
    | _ => cases htable
  . rw [exec_steps x htable]
    exact ⟨row, hrow, .refl row⟩

theorem completed_of_exec (x : Choice) (hrow : row ∈ (s.exec c x).2.steps)
    (hdone : row.status = .completed)
    (hc : ∀ row₀ ∈ s.steps, row₀.runId = row.runId → row₀.status = .completed → Confirms c row₀)
    (hnew : ∀ row₀ ∈ s.steps, row₀.runId = row.runId → row₀.status ≠ .completed →
      ∀ output error, c ≠ .updateStep row₀.id .completed output error)
    : ∃ row₀ ∈ s.steps, SameStep row₀ row := by
  by_cases htable : c.table = some .steps
  . cases c with
    | createStep runId name input =>
      cases mem_createStep hrow with
      | inl hold => exact ⟨row, hold, .refl row⟩
      | inr hrunning =>
        rw [hrunning] at hdone
        cases hdone
    | updateStep id status output error =>
      obtain ⟨row₀, hold, rfl⟩ := mem_updateStep.mp hrow
      have hrun : row₀.runId = (if row₀.id == id then
          { row₀ with status := status, output := output <|> row₀.output, error := error }
        else row₀).runId := by
        split <;> rfl
      by_cases hdone₀ : row₀.status = .completed
      . exact ⟨row₀, hold, sameStep_confirmed hdone₀ (hc row₀ hold hrun hdone₀)⟩
      . split at hdone
        . next hid =>
          apply absurd _ (hnew row₀ hold hrun hdone₀ output error)
          rw [eq_of_beq hid]
          exact congrArg (Call.updateStep id · output error) hdone
        . exact absurd hdone hdone₀
    | _ => cases htable
  . rw [exec_steps x htable] at hrow
    exact ⟨row, hrow, .refl row⟩

end JobsDb

section Answers

variable {env : Env} {pid : Nat} {w : World (system env)} {c : Call} {r : Except JobsError c.Ret}
  {s : JobsDb} {row : Step}

theorem Careful.confirms (hok : Careful w (.call pid c r)) (hrow : row ∈ JobsDb.steps w.state)
    (hdone : row.status = .completed) : JobsDb.Confirms c row := by
  rintro id status output error rfl hid
  have hrule := hok.2 row hrow hid
  rwa [if_pos hdone] at hrule

/--
A completed step stays.
-/
theorem completed_after (hanswer : Answers (system env) pid c w.state r s)
    (hok : Careful w (.call pid c r)) (hrow : row ∈ JobsDb.steps w.state)
    (hdone : row.status = .completed) : ∃ row' ∈ s.steps, SameStep row row' := by
  apply answers_keep (P := fun s' => ∃ row' ∈ s'.steps, SameStep row row') hanswer
  . exact ⟨row, hrow, .refl row⟩
  . intro x
    exact JobsDb.exec_completed x hrow hdone (hok.confirms hrow hdone)

/--
While an execution of a run is loading, none of its steps becomes completed.
-/
theorem completed_before {q : Nat} (hanswer : Answers (system env) pid c w.state r s)
    (hok : Careful w (.call pid c r)) (hrow : row ∈ s.steps) (hdone : row.status = .completed)
    (hloading : Loading q row.runId w) : ∃ row₀ ∈ JobsDb.steps w.state, SameStep row₀ row := by
  revert hrow
  apply answers_keep (P := fun s' => row ∈ s'.steps → ∃ row₀ ∈ JobsDb.steps w.state, SameStep row₀ row)
    hanswer
  . intro hrow
    exact ⟨row, hrow, .refl row⟩
  . intro x hrow
    apply JobsDb.completed_of_exec x hrow hdone
    . intro row₀ hrow₀ _ hdone₀
      exact hok.confirms hrow₀ hdone₀
    . rintro row₀ hrow₀ hrun hdone₀ output error rfl
      have hrule := hok.2 row₀ hrow₀ rfl
      rw [if_neg hdone₀, hrun] at hrule
      exact hrule rfl q hloading.mem_pids hloading

end Answers

/-! ## The outline -/

section Outline

variable {env : Env}

abbrev Listed (pid : Nat) (id : RunId) (rows : List Step) (w : World (system env)) : Prop :=
  Did (fun e => listedSteps e = some (id, rows)) pid w

/--
The rows have all completed steps of the run.
-/
def Covers (id : RunId) (rows : List Step) (s : JobsDb) : Prop :=
  ∀ step ∈ s.steps, step.runId = id → step.status = .completed → ∃ row ∈ rows, SameStep step row

def DistinctNames (rows : List Step) : Prop :=
  ∀ row ∈ rows, ∀ row' ∈ rows, row.name = row'.name → row = row'

structure Listings (w : World (system env)) : Prop where
  covers : ∀ pid id rows, Listed pid id rows w → Loading pid id w → Covers id rows w.state
  distinct : ∀ pid id rows, Listed pid id rows w → DistinctNames rows

/--
The context of the invocation is made of the steps the process has listed.
-/
def MadeOf (pid : Nat) (invocation : Invocation) (w : World (system env)) : Prop :=
  ∃ run job rows state, invocation.context = jobContext run job rows state ∧ Listed pid run.id rows w
    ∧ ∀ id, Loaded pid id w → id = run.id

/--
What is listed covers the steps when the rest is loaded, and it is what is sent.
-/
structure Faithful (w : World (system env)) (e : Interleave.Event (system env)) : Prop where
  loads : ∀ pid id rows, e.pid? = some pid → loadedRun e = some id → Listed pid id rows w →
    Covers id rows w.state
  sends : ∀ pid invocation, e.pid? = some pid → sentInvocation e = some invocation →
    MadeOf pid invocation w
  distinct : ∀ pid id rows, Listed pid id rows w → DistinctNames rows

def stepsOutline (env : Env) : Interleave.Outline (system env) where
  inv := Listings
  ok := Careful
  safe := Faithful
  rely _ _ _ := True
  post _ _ _ _ := True
  rely_refl _ _ := trivial
  rely_trans _ _ _ _ _ _ := trivial

variable {pid : Nat} {w : World (system env)} {c : Call} {s : (system env).State}
  {e : Interleave.Event (system env)}

/--
What a process has to know to make a call.
-/
structure Knows (pid : Nat) (c : Call) (w : World (system env)) : Prop where
  list : ∀ id, c = .listSteps id → ∀ id rows, ¬ Listed pid id rows w
  load : ∀ id, c = .listState id → Loading pid id w
  invoke : ∀ invocation, c = .invoke invocation → MadeOf pid invocation w

theorem Listed.of_after {q : Nat} {id : RunId} {rows : List Step} (he : listedSteps e = none)
    (h : Listed q id rows (w.after s e)) : Listed q id rows w := by
  cases Did.after_iff.mp h with
  | inl hnew =>
    rw [he] at hnew
    cases hnew.2
  | inr hold => exact hold

theorem listedRun_of_none (he : listedSteps e = none) : listedRun e = none := by
  unfold listedRun
  rw [he]
  rfl

/--
A step of the system that lists nothing.
-/
theorem Listings.unlisted (h : Listings w) (he : listedSteps e = none)
    (hbefore : ∀ q, ∀ row ∈ JobsDb.steps s, row.status = .completed → Loading q row.runId w →
      ∃ row₀ ∈ JobsDb.steps w.state, SameStep row₀ row)
    : Listings (w.after s e) where
  covers := by
    intro q id rows hlisted hloading step hstep hid hdone
    have hloading := Holding.of_after (listedRun_of_none he) hloading
    subst hid
    obtain ⟨row₀, hrow₀, hsame₀⟩ := hbefore q step hstep hdone hloading
    obtain ⟨row, hrow, hsame⟩ := h.covers q _ rows (hlisted.of_after he) hloading row₀ hrow₀
      hsame₀.runId.symm (hsame₀.status.symm.trans hdone)
    exact ⟨row, hrow, hsame₀.symm.trans hsame⟩
  distinct := by
    intro q id rows hlisted
    exact h.distinct q id rows (hlisted.of_after he)

/--
What the listing says of the steps is what the table has.
-/
theorem covers_select {id : RunId} {s : JobsDb} : Covers id (s.steps.select (·.runId == id)) s := by
  intro step hstep hid _
  exact ⟨step, Table.mem_select.mpr ⟨hstep, beq_iff_eq.mpr hid⟩, .refl step⟩

theorem distinct_select {id : RunId} {s : JobsDb}
    : DistinctNames (s.steps.select (·.runId == id)) := by
  intro row hrow row' hrow' hname
  obtain ⟨hrow, hid⟩ := Table.mem_select.mp hrow
  obtain ⟨hrow', hid'⟩ := Table.mem_select.mp hrow'
  apply Table.eq_of_conflict hrow hrow'
  have hrun : row.runId = row'.runId := (eq_of_beq hid).trans (eq_of_beq hid').symm
  simp [Relational.Constrained.conflict, hrun, hname]

theorem Listings.listing {id : RunId} {rows : List Step} (h : Listings w)
    (hanswer : Answers (system env) pid (.listSteps id) w.state (.ok rows) s)
    (hknows : Knows pid (.listSteps id) w)
    : Listings (w.after s (.call pid (Call.listSteps id) (.ok rows))) := by
  obtain ⟨x, hexec⟩ := exec_of_answers hanswer
  have hrows : rows = (JobsDb.steps w.state).select (·.runId == id) := by
    cases hexec
    rfl
  have hs : s = w.state := by
    cases hexec
    rfl
  subst hs
  have hcases : ∀ q id' rows',
      Listed q id' rows' (w.after w.state (.call pid (Call.listSteps id) (.ok rows))) →
      (q = pid ∧ id' = id ∧ rows' = rows) ∨ (q ≠ pid ∧ Listed q id' rows' w) := by
    intro q id' rows' hlisted
    cases Did.after_iff.mp hlisted with
    | inl hnew =>
      obtain ⟨hpid, heq⟩ := hnew
      cases hpid
      cases heq
      exact .inl ⟨rfl, rfl, rfl⟩
    | inr hold =>
      apply Or.inr
      refine ⟨?_, hold⟩
      rintro rfl
      exact hknows.list id rfl _ _ hold
  constructor
  . intro q id' rows' hlisted hloading
    rcases hcases q id' rows' hlisted with ⟨rfl, rfl, rfl⟩ | ⟨hne, hold⟩
    . rw [hrows]
      exact covers_select
    . apply h.covers q id' rows' hold
      apply (Holding.after_other _).mp hloading
      intro heq
      exact hne (Option.some.inj heq).symm
  . intro q id' rows' hlisted
    rcases hcases q id' rows' hlisted with ⟨rfl, rfl, rfl⟩ | ⟨_, hold⟩
    . rw [hrows]
      exact distinct_select
    . exact h.distinct q id' rows' hold

theorem listSteps_of_listed {r : Except JobsError c.Ret}
    (h : listedSteps (.call pid c r : Interleave.Event (system env)) ≠ none)
    : ∃ id, c = .listSteps id := by
  cases c with
  | listSteps id => exact ⟨id, rfl⟩
  | _ => exact absurd rfl h

theorem keeps_known {r : Except JobsError c.Ret} (hinv : Listings w)
    (hanswer : Answers (system env) pid c w.state r s) (hok : Careful w (.call pid c r))
    (hknows : Knows pid c w) : (stepsOutline env).Keeps w s (.call pid c r) where
  safe := by
    refine ⟨?_, ?_, hinv.distinct⟩
    . intro q id rows hpid hloads hlisted
      cases hpid
      cases c with
      | listState id' =>
        cases r with
        | ok entries =>
          cases hloads
          exact hinv.covers pid id rows hlisted (hknows.load id rfl)
        | error e => cases hloads
      | _ => cases hloads
    . intro q invocation hpid hsends
      cases hpid
      cases c with
      | invoke invocation' =>
        cases hsends
        exact hknows.invoke invocation rfl
      | _ => cases hsends
  inv := by
    cases hlisted : listedSteps (.call pid c r : Interleave.Event (system env)) with
    | none =>
      apply hinv.unlisted hlisted
      intro q row hrow hdone hloading
      exact completed_before hanswer hok hrow hdone hloading
    | some listing =>
      obtain ⟨id, rfl⟩ := listSteps_of_listed (fun heq => by rw [hlisted] at heq; cases heq)
      cases r with
      | ok rows => exact hinv.listing hanswer hknows
      | error e => cases hlisted
  rely _ _ := trivial

end Outline

section Programs

variable {env : Env} {pid : Nat} {w w' : World (system env)} {α : Type}

/--
The process has not loaded anything.
-/
structure Unloaded (pid : Nat) (w : World (system env)) : Prop where
  listed : ∀ id rows, ¬ Listed pid id rows w
  loaded : ∀ id, ¬ Loaded pid id w
  alive : ¬ Gone pid w

/--
The process has listed the steps of the run and nothing else.
-/
structure OnlyListed (pid : Nat) (id : RunId) (rows : List Step) (w : World (system env)) : Prop where
  listed : Listed pid id rows w
  loading : Loading pid id w
  loaded : ∀ id, ¬ Loaded pid id w

/--
The process has loaded all that it needs to invoke the function of the run.
-/
structure Ready (pid : Nat) (id : RunId) (rows : List Step) (w : World (system env)) : Prop where
  listed : Listed pid id rows w
  only : ∀ id', Loaded pid id' w → id' = id

theorem Unloaded.extends (h : Extends pid w w') (hunloaded : Unloaded pid w) : Unloaded pid w' := by
  obtain ⟨hlisted, hloaded, halive⟩ := hunloaded
  constructor
  . simpa only [Did.extends_iff h] using hlisted
  . simpa only [Did.extends_iff h] using hloaded
  . unfold Gone at halive ⊢
    rwa [Did.extends_iff h]

theorem OnlyListed.extends {id : RunId} {rows : List Step} (h : Extends pid w w')
    (hlisted : OnlyListed pid id rows w) : OnlyListed pid id rows w' := by
  obtain ⟨hlisted, hloading, hloaded⟩ := hlisted
  constructor
  . exact (Did.extends_iff h).mpr hlisted
  . exact (Holding.extends_iff h).mpr hloading
  . simpa only [Did.extends_iff h] using hloaded

theorem Ready.extends {id : RunId} {rows : List Step} (h : Extends pid w w')
    (hready : Ready pid id rows w) : Ready pid id rows w' := by
  obtain ⟨hlisted, honly⟩ := hready
  constructor
  . exact (Did.extends_iff h).mpr hlisted
  . simpa only [Did.extends_iff h] using honly

theorem Unloaded.after {e : Interleave.Event (system env)} {s : (system env).State}
    (h : Unloaded pid w) (hlisted : listedSteps e = none) (hloaded : loadedRun e = none)
    (hends : e.ends = false) : Unloaded pid (w.after s e) where
  listed id rows hnew := h.listed id rows (hnew.of_after hlisted)
  loaded := by
    intro id hnew
    cases Did.after_iff.mp hnew with
    | inl hnew =>
      rw [hloaded] at hnew
      cases hnew.2
    | inr hold => exact h.loaded id hold
  alive := by
    rw [Gone.after_iff hends]
    exact h.alive

theorem Unloaded.spawned (h : Fresh pid w) (req : Request)
    : Unloaded pid (w.after w.state (.spawn pid req : Interleave.Event (system env))) := by
  apply Unloaded.after _ rfl rfl rfl
  constructor
  . intro id rows
    exact Did.not_of_fresh h
  . intro id
    exact Did.not_of_fresh h
  . exact Did.not_of_fresh h

theorem Unloaded.list {id : RunId} {rows : List Step} {s : (system env).State}
    (h : Unloaded pid w)
    : OnlyListed pid id rows (w.after s (.call pid (Call.listSteps id) (.ok rows))) where
  listed := Did.after_iff.mpr (.inl ⟨rfl, rfl⟩)
  loading := by
    have hiff := @Holding.after_take calls (system env) RunId listedRun loadedRun pid pid id id w s
      (.call pid (Call.listSteps id) (.ok rows)) rfl rfl rfl rfl (h.loaded id) h.alive
    exact hiff.mpr (.inr ⟨rfl, rfl⟩)
  loaded := by
    intro id' hnew
    cases Did.after_iff.mp hnew with
    | inl hnew => cases hnew.2
    | inr hold => exact h.loaded id' hold

theorem OnlyListed.load {id : RunId} {rows : List Step} {entries : List StateEntry}
    {s : (system env).State} (h : OnlyListed pid id rows w)
    : Ready pid id rows (w.after s (.call pid (Call.listState id) (.ok entries))) where
  listed := h.listed.after _ _
  only := by
    intro id' hnew
    cases Did.after_iff.mp hnew with
    | inl hnew => exact (Option.some.inj hnew.2).symm
    | inr hold => exact absurd hold (h.loaded id')

theorem knows_other {c : Call} (hc : c.isOfExecution = false) : Knows pid c w where
  list := by
    rintro id rfl
    cases hc
  load := by
    rintro id rfl
    cases hc
  invoke := by
    rintro invocation rfl
    cases hc

/--
The rule for a call of a process that knows what it needs. Where it fails, nothing more is sent.
-/
theorem wp_known {c : Call} {f : c.Ret → JobsM α} {A : World (system env) → Prop} (hA : A w)
    (hstable : ∀ w w', Extends pid w w' → A w → A w') (hknows : ∀ w, A w → Knows pid c w)
    (hnext : ∀ w a s, A w → Answers (system env) pid c w.state (.ok a) s →
      (stepsOutline env).Wp pid (fun _ _ => True) (f a) (w.after s (.call pid c (.ok a))))
    : (stepsOutline env).Wp pid (fun _ _ => True) (query c >>= f) w := by
  apply Outline.wp_call
  intro w' hrely hinv r s hanswer hok
  have hA' := hstable w w' hrely.1 hA
  constructor
  . exact keeps_known hinv hanswer hok (hknows w' hA')
  . cases r with
    | ok a => exact hnext w' a s hA' hanswer
    | error e =>
      intro _ _ _
      trivial

theorem wp_elsewhere {x : JobsM α} (hx : x.Uses (fun c : Call => c.isOfExecution = false))
    : (stepsOutline env).Wp pid (fun _ _ => True) x w := by
  apply Outline.wp_of_uses hx trivial (J := fun _ => True)
  . intro _ _ _ _ _
    trivial
  . intro c hc w r s _ hinv hanswer hok
    exact ⟨keeps_known hinv hanswer hok (knows_other hc), trivial⟩

theorem wp_unloaded {c : Call} {f : c.Ret → JobsM α} (h : Unloaded pid w)
    (hc : c.isOfExecution = false)
    (hnext : ∀ w a s, Unloaded pid w → Answers (system env) pid c w.state (.ok a) s →
      (stepsOutline env).Wp pid (fun _ _ => True) (f a) (w.after s (.call pid c (.ok a))))
    : (stepsOutline env).Wp pid (fun _ _ => True) (query c >>= f) w := by
  apply wp_known h
  . intro w w' hextends hunloaded
    exact hunloaded.extends hextends
  . intro w _
    exact knows_other hc
  . exact hnext

theorem wp_over {r : Except JobsError α}
    : (stepsOutline env).Wp pid (fun _ _ => True) (.done r) w := by
  intro _ _ _
  trivial

theorem settle_other (runId : RunId) (run : Run) (response : FunctionResponse)
    : (settle runId run response).Uses (fun c : Call => c.isOfExecution = false) := by
  unfold settle
  split
  . exact uses_request _ rfl
  . split
    . exact uses_request _ rfl
    . apply uses_call
      . rfl
      . intro _
        exact uses_request _ rfl

theorem executeRun_steps_wp {config : JobsConfig} {runId : RunId} (h : Unloaded pid w)
    : (stepsOutline env).Wp pid (fun _ _ => True) (executeRun config runId) w := by
  unfold executeRun
  apply wp_unloaded h rfl
  intro w found s h hanswer
  apply Outline.wp_okOr _ (fun _ => wp_over)
  rintro run rfl
  have hid : run.id = runId := by
    obtain ⟨x, hexec⟩ := exec_of_answers hanswer
    exact JobsDb.id_of_getRun hexec
  have h := h.after (s := s) (e := .call pid (Call.getRun runId) (.ok (some run))) rfl rfl rfl
  split
  . apply wp_unloaded h rfl
    intro w job s h _
    apply Outline.wp_okOr _ (fun _ => wp_over)
    rintro job rfl
    apply wp_unloaded (h.after rfl rfl rfl) rfl
    intro w _ s h _
    apply wp_known (h.after rfl rfl rfl)
    . intro w w' hextends hunloaded
      exact hunloaded.extends hextends
    . intro w hunloaded
      refine ⟨?_, nofun, nofun⟩
      intro _ _
      exact hunloaded.listed
    intro w rows s h _
    apply wp_known (A := OnlyListed pid runId rows) h.list
    . intro w w' hextends hlisted
      exact hlisted.extends hextends
    . intro w hlisted
      refine ⟨nofun, ?_, nofun⟩
      intro id hc
      cases hc
      exact hlisted.loading
    intro w entries s h _
    apply wp_known (A := Ready pid runId rows) h.load
    . intro w w' hextends hready
      exact hready.extends hextends
    . intro w hready
      refine ⟨nofun, nofun, ?_⟩
      intro invocation hc
      cases hc
      subst hid
      exact ⟨run, job, rows, entries, rfl, hready.listed, hready.only⟩
    intro w response s _ _
    exact wp_elsewhere (settle_other runId run response)
  . exact wp_over

theorem processNextRun_steps_wp {config : JobsConfig} (h : Unloaded pid w)
    : (stepsOutline env).Wp pid (fun _ _ => True) (processNextRun config) w := by
  have hattempt : ∀ {c : Call}, c.isOfExecution = false → ∀ {w : World (system env)},
      (stepsOutline env).Wp pid (fun _ _ => True) (do
        let _ ← (query c).attempt
        pure () : JobsM Unit) w := by
    intro c hc w
    apply wp_elsewhere
    apply uses_attempted hc
    intro _
    exact uses_pure _
  unfold processNextRun
  apply Outline.wp_try
  intro w' hrely hinv r s hanswer hok
  refine ⟨keeps_known hinv hanswer hok (knows_other rfl), ?_⟩
  have h := (h.extends hrely.1).after (s := s)
    (e := .call pid (Call.dequeue config.visibilityTimeout) r) rfl rfl rfl
  split
  . exact wp_over
  . exact wp_over
  . split
    . exact hattempt rfl
    . apply Outline.wp_bind
      apply Outline.wp_attempt
      apply Outline.wp_mono (executeRun_steps_wp h)
      intro r w _ _
      cases r with
      | ok _ => exact hattempt rfl
      | error _ => exact hattempt rfl

theorem other_of_makes {req : Request} {c : Call} (hreq : req ≠ .work) (h : req.Makes c)
    : c.isOfExecution = false := by
  cases h with
  | inl hneutral => cases c <;> simp_all [Call.isOfExecution, Call.isNeutral]
  | inr hwrites =>
    cases req with
    | work => exact absurd rfl hreq
    | _ => cases c <;> simp_all [Call.isOfExecution, Request.writes]

theorem program_steps_wp (req : Request) (h : Unloaded pid w)
    : (stepsOutline env).Wp pid (fun _ _ => True) (program env req) w := by
  by_cases hreq : req = .work
  . subst hreq
    exact processNextRun_steps_wp h
  . apply wp_elsewhere
    exact (program_makes env req).mono (fun _ hc => other_of_makes hreq hc)

end Programs

theorem stepsOutline_sound (env : Env) : (stepsOutline env).Sound where
  spawn w pid req hinv _ _ := by
    refine ⟨⟨nofun, nofun, hinv.distinct⟩, ?_, fun _ _ => trivial⟩
    apply hinv.unlisted rfl
    intro _ row hrow _ _
    exact ⟨row, hrow, .refl row⟩
  program w pid req _ hfresh _ := program_steps_wp req (Unloaded.spawned hfresh req)
  finish w pid req r hinv _ _ _ := by
    refine ⟨⟨nofun, nofun, hinv.distinct⟩, ?_, fun _ _ => trivial⟩
    apply hinv.unlisted rfl
    intro _ row hrow _ _
    exact ⟨row, hrow, .refl row⟩
  crash w pid req hinv _ _ := by
    refine ⟨⟨nofun, nofun, hinv.distinct⟩, ?_, fun _ _ => trivial⟩
    apply hinv.unlisted rfl
    intro _ row hrow _ _
    exact ⟨row, hrow, .refl row⟩
  tick w t hinv _ := by
    refine ⟨⟨nofun, nofun, hinv.distinct⟩, ?_, fun _ _ => trivial⟩
    apply hinv.unlisted rfl
    intro _ row hrow _ _
    exact ⟨row, hrow, .refl row⟩

/-! ## From the row to the context -/

section Cache

variable {rows : List Step} {row : Step} {v : Json}

theorem lookup_stepCache (hrow : row ∈ rows) (hdone : row.status = .completed)
    (houtput : row.output = some v) (hdistinct : DistinctNames rows)
    : (stepCache rows).lookup row.name = some v := by
  induction rows with
  | nil => cases hrow
  | cons row' rows ih =>
    have hrest : DistinctNames rows := by
      intro row₁ h₁ row₂ h₂
      exact hdistinct row₁ (List.mem_cons_of_mem _ h₁) row₂ (List.mem_cons_of_mem _ h₂)
    by_cases hname : row.name = row'.name
    . cases hdistinct row hrow row' List.mem_cons_self hname
      simp [stepCache, hdone, houtput]
    . cases hrow with
      | head => exact absurd rfl hname
      | tail _ hrow =>
        have hlookup := ih hrow hrest
        by_cases hdone' : row'.status = .completed
        . cases houtput' : row'.output with
          | none => simpa [stepCache, hdone', houtput'] using hlookup
          | some v' =>
            have hne : (row.name == row'.name) = false := beq_false_of_ne hname
            simpa [stepCache, hdone', houtput', List.lookup_cons, hne] using hlookup
        . simpa [stepCache, hdone'] using hlookup

variable (run : Run) (job : Job) (state : List StateEntry)

theorem contextStep_jobContext (name : String)
    : contextStep (jobContext run job rows state) name = (stepCache rows).lookup name := by
  rfl

/--
The executor calls the cache `step_cache` and the SDK `stepCache`.
-/
theorem startsStep_jobContext (name : String)
    : startsStep (jobContext run job rows state) name = false := by
  rfl

end Cache

/--
What is sent to the server is what the function of the step returned, if it is sent at all.
-/
theorem result_of_requestOutput {result : Option Json} {v : Json}
    (h : requestOutput (completion result) = some v) : result = some v := by
  cases result with
  | none => cases h
  | some output =>
    unfold requestOutput at h
    rw [Option.filter_eq_some_iff] at h
    exact h.1

/--
The step is completed, and who has loaded the run since has its output.
-/
structure Remembered {env : Env} (w₀ : World (system env)) (step : Step) (w : World (system env))
    : Prop where
  kept : ∃ row ∈ JobsDb.steps w.state, SameStep step row
  listed : ∀ pid rows, ¬ Loaded pid step.runId w₀ → Loaded pid step.runId w →
    Listed pid step.runId rows w → ∃ row ∈ rows, SameStep step row

section Remembered

variable {env : Env} {w₀ : World (system env)} {step : Step}

theorem steps_kept {c : Config (system env)} {next : Interleave.Event (system env) × Config (system env)}
    (hsteps : Config.Steps c next) (hok : Careful c.world next.1) (hdone : step.status = .completed)
    (h : ∃ row ∈ JobsDb.steps c.world.state, SameStep step row)
    : ∃ row ∈ JobsDb.steps next.2.world.state, SameStep step row := by
  obtain ⟨row, hrow, hsame⟩ := h
  cases hsteps with
  | answer _ hanswer =>
    obtain ⟨row', hrow', hsame'⟩ := completed_after hanswer hok hrow (hsame.status.trans hdone)
    exact ⟨row', hrow', hsame.trans hsame'⟩
  | spawn req => exact ⟨row, hrow, hsame⟩
  | finish _ => exact ⟨row, hrow, hsame⟩
  | crash _ => exact ⟨row, hrow, hsame⟩
  | tick t => exact ⟨row, hrow, hsame⟩

theorem rows_of_listed {c : Config (system env)}
    {next : Interleave.Event (system env) × Config (system env)} (hsteps : Config.Steps c next)
    {id : RunId} {rows : List Step} (h : listedSteps next.1 = some (id, rows))
    : rows = (JobsDb.steps c.world.state).select (·.runId == id) := by
  cases hsteps with
  | @answer pid req call _ r s _ hanswer =>
    have h : listedSteps (.call pid call r : Interleave.Event (system env)) = some (id, rows) := h
    obtain ⟨id', rfl⟩ := listSteps_of_listed (fun heq => by rw [h] at heq; cases heq)
    cases r with
    | ok rows' =>
      cases h
      obtain ⟨x, hexec⟩ := exec_of_answers hanswer
      cases hexec
      rfl
    | error e => cases h
  | _ => cases h

theorem Remembered.next {c : Config (system env)}
    {next : Interleave.Event (system env) × Config (system env)} (h : Remembered w₀ step c.world)
    (hdone : step.status = .completed) (hsteps : Config.Steps c next)
    (hok : Careful c.world next.1) (hfaithful : Faithful c.world next.1)
    : Remembered w₀ step next.2.world where
  kept := steps_kept hsteps hok hdone h.kept
  listed := by
    intro pid rows hunloaded hloaded hlisted
    rw [hsteps.world_eq] at hloaded hlisted
    obtain ⟨row, hrow, hsame⟩ := h.kept
    cases Did.after_iff.mp hlisted with
    | inl hnew =>
      -- The listing is one of what the table has.
      rw [rows_of_listed hsteps hnew.2]
      exact ⟨row, Table.mem_select.mpr ⟨hrow, beq_iff_eq.mpr hsame.runId⟩, hsame⟩
    | inr hold =>
      cases Did.after_iff.mp hloaded with
      | inl hnew =>
        obtain ⟨row', hrow', hsame'⟩ := hfaithful.loads pid _ rows hnew.1 hnew.2 hold row hrow
          hsame.runId (hsame.status.trans hdone)
        exact ⟨row', hrow', hsame.trans hsame'⟩
      | inr hloaded => exact h.listed pid rows hunloaded hloaded hold

theorem Remembered.replays {w : World (system env)} {e : Interleave.Event (system env)}
    {result : Option Json} {v : Json} (h : Remembered w₀ step w) (hdone : step.status = .completed)
    (houtput : step.output = some v) (hresult : result = some v) (hfaithful : Faithful w e)
    : Replays w₀ step result w e := by
  unfold Replays
  split
  . next pid invocation _ =>
    intro hloaded hunloaded
    obtain ⟨run, job, rows, state, hcontext, hlisted, honly⟩ := hfaithful.sends pid invocation rfl rfl
    have hid := honly _ hloaded
    rw [← hid] at hlisted
    obtain ⟨row, hrow, hsame⟩ := h.listed pid rows hunloaded hloaded hlisted
    rw [hcontext]
    refine ⟨?_, ?_, startsStep_jobContext run job state step.name⟩
    . rw [hid]
      rfl
    . rw [contextStep_jobContext, ← hsame.name, hresult]
      apply lookup_stepCache hrow (hsame.status.trans hdone) (hsame.output.trans houtput)
      exact hfaithful.distinct pid _ rows hlisted
  . trivial

end Remembered

/--
A run of the job waits in the queue.
-/
def JobsDb.enqueued : JobsDb :=
  { JobsDb.empty with
    runs := ⟨[⟨7, 3, 10, none, .manual, .pending, .null, 1, 3, none, none, none⟩],
      List.pairwise_singleton _ _⟩
    queue := ⟨[⟨30, Uuid.asBytes 7, 0, none⟩], List.pairwise_singleton _ _⟩ }

/--
The worker sends the run to its function, which starts a step and reports what it returned.
-/
def reporting (result : Option Json) : List (Move (system .plain)) :=
  .spawn Request.work :: goesOn 0 6 (.plain 40 200) ++ serves 1 (.createStep 7 "charge") 2 (.plain 50 200)
    ++ [.spawn (Request.updateStep 50 "completed" (requestOutput (completion result)) none)]

/--
The function then sleeps, the worker does not wait for its answer any longer, and the run is taken from
the queue once more.
-/
def resuming : List (Move (system .plain)) :=
  .finish 2 :: serves 3 (.requestSleep 7 "wait" 1000) 3 (.plain 51 200)
    ++ .fail 0 :: goesOn 0 1 (.plain 41 200) ++ .finish 0 :: .tick (6000 : Nat)
      :: .spawn Request.work :: goesOn 4 7 (.plain 42 200)

/--
What the worker sends to the function of the run the second time.
-/
def sentAgain (result : Option Json) : Option (Option Json) :=
  (Config.run (reporting result ++ .call 2 (.plain 52 200) :: resuming) (.start .enqueued)).bind (fun c =>
    (c.world.trace.head?.bind sentInvocation).map (fun invocation =>
      contextStep invocation.context "charge"))

example : Config.Along Careful
    (reporting (some (.string "paid")) ++ .call 2 (.plain 52 200) :: resuming) (.start .enqueued) := by
  decide +kernel

example : sentAgain (some (.string "paid")) = some (some (.string "paid")) := by
  decide +kernel

deriving instance DecidableEq for Step

def completedStep : Interleave.Event (system .plain) → Option (StepId × Option Json × Option String)
  | .call _ (.updateStep id .completed output error) (.ok _) => some (id, output, error)
  | _ => none

theorem completes_of_completedStep {c : Config (system .plain)}
    {next : Interleave.Event (system .plain) × Config (system .plain)} {step : Step}
    {result : Option Json} {error : Option String} (hsteps : Config.Steps c next)
    (h : completedStep next.1 = some (step.id, requestOutput (completion result), error))
    (hrow : step ∈ JobsDb.steps next.2.world.state)
    : Completes step result c.world next.1 next.2.world := by
  refine ⟨?_, hrow⟩
  cases hsteps with
  | @answer pid req call _ r s _ hanswer =>
    cases call with
    | updateStep id status output error' =>
      cases status with
      | completed =>
        cases r with
        | ok a =>
          cases h
          obtain ⟨x, hexec⟩ := exec_of_answers hanswer
          refine ⟨pid, error, .ok a, rfl, ?_⟩
          cases hexec
          rfl
        | error e => cases h
      | _ => cases h
    | _ => cases h
  | _ => cases h

/--
A step that is reported as failed after it was completed is executed again too. This is what the SDK
does when the answer to the first report is lost.
-/
example :
    let ms := reporting (some (.string "paid")) ++ .lose 2 (.plain 52 200) :: .finish 2
      :: serves 3 (.updateStep 50 "failed" none (some "socket hang up")) 1 (.plain 52 200)
    (Config.run ms (.start .enqueued)).any (fun c =>
      (JobsDb.steps c.world.state).rows.map (·.status) == [.failed]) = true := by
  decide +kernel

end Reactor.Jobs
