import ReactorCloud.Jobs.Calls
import ReactorCloud.Jobs.Frame

/-!
This module contains what runs and dead letters are records of: a run keeps what it was created with and
counts its attempts upwards, and a dead letter is a copy of a run that has used up its attempts.
-/

namespace Reactor.Jobs

open Interleave
open Interleave.Program
open Relational (Table)
open Rust (Json Uuid)

/--
What may become of a run.
-/
structure Run.Grows (r r' : Run) : Prop where
  id : r'.id = r.id
  jobId : r'.jobId = r.jobId
  orgId : r'.orgId = r.orgId
  triggerId : r'.triggerId = r.triggerId
  triggerKind : r'.triggerKind = r.triggerKind
  payload : r'.payload = r.payload
  maxAttempts : r'.maxAttempts = r.maxAttempts
  attempt : r.attempt ≤ r'.attempt

namespace Run.Grows

variable {r r' r'' : Run}

theorem refl (r : Run) : Grows r r := ⟨rfl, rfl, rfl, rfl, rfl, rfl, rfl, Int.le_refl _⟩

theorem trans (h : Grows r r') (h' : Grows r' r'') : Grows r r'' where
  id := h'.id.trans h.id
  jobId := h'.jobId.trans h.jobId
  orgId := h'.orgId.trans h.orgId
  triggerId := h'.triggerId.trans h.triggerId
  triggerKind := h'.triggerKind.trans h.triggerKind
  payload := h'.payload.trans h.payload
  maxAttempts := h'.maxAttempts.trans h.maxAttempts
  attempt := Int.le_trans h.attempt h'.attempt

end Run.Grows

/--
The dead letter has what the run has, which has no attempts left.
-/
structure DlqEntry.Records (d : DlqEntry) (r : Run) : Prop where
  runId : r.id = d.runId
  jobId : r.jobId = d.jobId
  orgId : r.orgId = d.orgId
  payload : r.payload = d.payload
  attempt : d.attempt ≤ r.attempt
  usedUp : r.maxAttempts ≤ d.attempt

theorem DlqEntry.Records.grows {d : DlqEntry} {r r' : Run} (h : d.Records r) (hgrows : r.Grows r')
    : d.Records r' where
  runId := hgrows.id.trans h.runId
  jobId := hgrows.jobId.trans h.jobId
  orgId := hgrows.orgId.trans h.orgId
  payload := hgrows.payload.trans h.payload
  attempt := Int.le_trans h.attempt hgrows.attempt
  usedUp := hgrows.maxAttempts ▸ h.usedUp

namespace JobsDb

variable {s s' : JobsDb}

/--
Every run is still there.
-/
def RunsGrow (s s' : JobsDb) : Prop :=
  ∀ r ∈ s.runs, ∃ r' ∈ s'.runs, r.Grows r'

theorem RunsGrow.of_eq (h : s'.runs = s.runs) : RunsGrow s s' :=
  fun r hr => ⟨r, h.symm ▸ hr, .refl r⟩

theorem RunsGrow.trans {s'' : JobsDb} (h : RunsGrow s s') (h' : RunsGrow s' s'') : RunsGrow s s'' := by
  intro r hr
  obtain ⟨r', hr', hgrows⟩ := h r hr
  obtain ⟨r'', hr'', hgrows'⟩ := h' r' hr'
  exact ⟨r'', hr'', hgrows.trans hgrows'⟩

theorem updateRun_grow {id : RunId} {f : Run → Run} {hf : ∀ r, (f r).id = r.id}
    (hgrows : ∀ (r : Run), r.Grows (f r)) : RunsGrow s (s.updateRun id f hf) := by
  intro r hr
  refine ⟨if r.id == id then f r else r, ?_, ?_⟩
  . unfold updateRun
    rw [Table.mem_modify]
    exact ⟨r, hr, rfl⟩
  split
  . exact hgrows r
  . exact .refl r

theorem createRun_grow (id : RunId) (new : NewRun) : RunsGrow s (s.createRun id new).2 := by
  unfold createRun
  split
  . next hinsert => exact fun r hr => ⟨r, (Table.mem_insert hinsert).mpr (.inr hr), .refl r⟩
  . exact .of_eq rfl

theorem insertRunFromDlq_grow (id : RunId) (dlqId : Uuid) (x : Choice)
    : RunsGrow s (s.insertRunFromDlq id dlqId x).2 := by
  unfold insertRunFromDlq
  split
  . exact .of_eq rfl
  . next d _ =>
    split
    . exact .of_eq rfl
    . next job _ =>
      have h := createRun_grow (s := s) id
        ⟨d.jobId, d.orgId, none, .manual, d.payload, job.retryMaxAttempts⟩
      split
      . next heq =>
        rw [heq] at h
        exact h
      . next heq =>
        rw [heq] at h
        exact h

theorem exec_grow (c : Call) (x : Choice) (s : JobsDb) : RunsGrow s (s.exec c x).2 := by
  cases c with
  | createRun new => exact createRun_grow x.id new
  | insertRunFromDlq dlqId => exact insertRunFromDlq_grow x.id dlqId x
  | updateRunStatus id status errorCode errorMessage =>
    apply updateRun_grow
    . exact fun _ => rfl
    . exact fun r => ⟨rfl, rfl, rfl, rfl, rfl, rfl, rfl, Int.le_refl _⟩
  | setRunSleeping id wakeupAt =>
    apply updateRun_grow
    . exact fun _ => rfl
    . exact fun r => ⟨rfl, rfl, rfl, rfl, rfl, rfl, rfl, Int.le_refl _⟩
  | incrementRunAttempt id =>
    apply updateRun_grow
    . exact fun _ => rfl
    . refine fun r => ⟨rfl, rfl, rfl, rfl, rfl, rfl, rfl, ?_⟩
      show r.attempt ≤ r.attempt + 1
      omega
  | _ => exact .of_eq (s.exec_runs x (by simp [Call.table]))

/--
The run has no attempts left.
-/
def UsedUp (s : JobsDb) (runId : RunId) : Prop :=
  ∃ r ∈ s.runs, r.id = runId ∧ r.maxAttempts ≤ r.attempt

/--
Every dead letter is a copy of a run.
-/
def Recorded (s : JobsDb) : Prop :=
  ∀ d ∈ s.dlq, ∃ r ∈ s.runs, d.Records r

theorem run_eq_of_id {r r' : Run} (hr : r ∈ s.runs) (hr' : r' ∈ s.runs) (hid : r.id = r'.id) : r = r' := by
  apply Table.eq_of_conflict hr hr'
  simp [Relational.Constrained.conflict, hid]

theorem Recorded.grow (h : s.Recorded) (hdlq : ∀ d ∈ s'.dlq, d ∈ s.dlq) (hgrow : RunsGrow s s')
    : s'.Recorded := by
  intro d hd
  obtain ⟨r, hr, hrecords⟩ := h d (hdlq d hd)
  obtain ⟨r', hr', hgrows⟩ := hgrow r hr
  exact ⟨r', hr', hrecords.grows hgrows⟩

/--
A new dead letter copies the run as it is.
-/
theorem Recorded.moveToDlq (h : s.Recorded) (id : Uuid) {runId : RunId} (hused : s.UsedUp runId)
    : (s.moveToDlq id runId).2.Recorded := by
  unfold JobsDb.moveToDlq
  split
  . exact h
  . next r hfind =>
    have hr := Table.mem_of_find? hfind
    have hid := Table.prop_of_find? hfind
    split
    . next hinsert =>
      intro d hd
      cases (Table.mem_insert hinsert).mp hd with
      | inl heq =>
        obtain ⟨r', hr', hid', hle⟩ := hused
        obtain rfl := run_eq_of_id hr hr' ((eq_of_beq hid).trans hid'.symm)
        subst heq
        exact ⟨r, hr, rfl, rfl, rfl, rfl, Int.le_refl _, hle⟩
      | inr hd => exact h d hd
    . exact h

theorem Recorded.exec {c : Call} (x : Choice) (h : s.Recorded)
    (hused : ∀ runId reason, c = .moveToDlq runId reason → s.UsedUp runId) : (s.exec c x).2.Recorded := by
  cases c with
  | moveToDlq runId reason => exact h.moveToDlq x.id (hused runId reason rfl)
  | deleteDlq dlqId =>
    apply h.grow _ (exec_grow (.deleteDlq dlqId) x s)
    intro d hd
    exact (Table.mem_delete.mp hd).1
  | _ =>
    apply h.grow _ (exec_grow _ x s)
    intro d hd
    rw [s.exec_dlq x (by simp [Call.table])] at hd
    exact hd

theorem UsedUp.grow {runId : RunId} (h : s.UsedUp runId) (hgrow : RunsGrow s s') : s'.UsedUp runId := by
  obtain ⟨r, hr, hid, hle⟩ := h
  obtain ⟨r', hr', hgrows⟩ := hgrow r hr
  refine ⟨r', hr', hgrows.id.trans hid, ?_⟩
  rw [hgrows.maxAttempts]
  exact Int.le_trans hle hgrows.attempt

end JobsDb

section Outline

variable {env : Env}

/--
A run is only moved to the dead letters when it has no attempts left.
-/
def recordsOutline (env : Env) : Outline (system env) where
  inv w := w.state.Recorded
  ok _ _ := True
  safe _ _ := True
  rely _ w w' := w.state.RunsGrow w'.state
  post _ _ _ _ := True
  rely_refl _ _ := .of_eq rfl
  rely_trans _ _ _ _ h h' := h.trans h'

variable {pid : Nat} {w : World (system env)} {α : Type}

theorem answers_grow {c : Call} {s s' : JobsDb} {r : Except JobsError c.Ret}
    (h : Answers (system env) pid c s r s') : s.RunsGrow s' :=
  answers_keep (P := fun s' => s.RunsGrow s') h (.of_eq rfl) (fun x => s.exec_grow c x)

theorem keeps_records {c : Call} {r : Except JobsError c.Ret} {s : JobsDb}
    (hinv : (recordsOutline env).inv w) (hanswer : Answers (system env) pid c w.state r s)
    (hused : ∀ runId reason, c = .moveToDlq runId reason → w.state.UsedUp runId)
    : (recordsOutline env).Keeps w s (.call pid c r) where
  safe := trivial
  inv := answers_keep (P := JobsDb.Recorded) hanswer hinv (fun x => JobsDb.Recorded.exec x hinv hused)
  rely _ _ := answers_grow hanswer

/--
Calls other than the move to the dead letters ask for nothing.
-/
def Call.isKept : Call → Bool
  | .moveToDlq .. => false
  | _ => true

abbrev Keeping (pid : Nat) (x : JobsM α) (w : World (system env)) : Prop :=
  (recordsOutline env).Wp pid (fun _ _ => True) x w

theorem wp_kept {x : JobsM α} (hx : x.Uses (fun c : Call => c.isKept = true))
    : Keeping pid x w := by
  apply Outline.wp_of_uses hx (J := fun _ => True) trivial
  . intro _ _ _ _ _
    trivial
  . intro c hc w r s _ hinv hanswer _
    refine ⟨keeps_records hinv hanswer ?_, trivial⟩
    rintro runId reason rfl
    cases hc

/--
The rule for a statement in front of which a fact about the runs holds that lasts.
-/
theorem wp_statement {c : Call} {f : c.Ret → JobsM α} {J : JobsDb → Prop} (hc : c.isKept = true)
    (hstable : ∀ s s', JobsDb.RunsGrow s s' → J s → J s') (hJ : J w.state)
    (h : ∀ a (w' : World (system env)), J w'.state → Keeping pid (f a) w')
    : Keeping pid (query c >>= f) w := by
  apply Outline.wp_call
  intro w' hrely hinv r s hanswer _
  constructor
  . apply keeps_records hinv hanswer
    rintro runId reason rfl
    cases hc
  . have hJ' := hstable _ _ (answers_grow hanswer) (hstable _ _ hrely.2 hJ)
    cases r with
    | ok a => exact h a _ hJ'
    | error e => exact wp_kept (uses_fail e)

/--
The run that was read is there, with as many attempts at least.
-/
def Seen (run : Run) (s : JobsDb) : Prop :=
  ∃ r ∈ s.runs, run.Grows r

theorem seen_grow {run : Run} (s s' : JobsDb) (hgrow : s.RunsGrow s') (h : Seen run s) : Seen run s' := by
  obtain ⟨r, hr, hgrows⟩ := h
  obtain ⟨r', hr', hgrows'⟩ := hgrow r hr
  exact ⟨r', hr', hgrows.trans hgrows'⟩

theorem settle_records {run : Run} {response : FunctionResponse} (hseen : Seen run w.state)
    : Keeping pid (settle run.id run response) w := by
  unfold settle
  apply Outline.wp_ite
  . intro _
    exact wp_kept (uses_request _ rfl)
  . intro _
    apply Outline.wp_ite
    . intro _
      exact wp_kept (uses_request _ rfl)
    . intro hattempts
      have hused : w.state.UsedUp run.id := by
        obtain ⟨r, hr, hgrows⟩ := hseen
        refine ⟨r, hr, hgrows.id, ?_⟩
        have := hgrows.attempt
        have := hgrows.maxAttempts
        omega
      apply wp_statement (J := fun s => s.UsedUp run.id) rfl (fun _ _ hgrow h => h.grow hgrow) hused
      intro _ w' hused'
      apply Outline.wp_request
      intro w'' hrely hinv r s hanswer _
      constructor
      . apply keeps_records hinv hanswer
        intro runId reason heq
        cases heq
        exact hused'.grow hrely.2
      . intro _ _ _
        trivial

theorem executeRun_records (config : JobsConfig) (runId : RunId)
    : Keeping pid (executeRun config runId) w := by
  unfold executeRun
  apply Outline.wp_call
  intro w₁ _ hinv₁ r s hanswer _
  constructor
  . exact keeps_records hinv₁ hanswer (fun _ _ => nofun)
  . cases r with
    | error e => exact wp_kept (uses_fail e)
    | ok found =>
      apply Outline.wp_okOr
      case hnone =>
        intro _
        exact wp_kept (uses_fail _)
      intro run hfound
      have hseen : Seen run s ∧ run.id = runId := by
        obtain ⟨x, hexec⟩ := exec_of_answers hanswer
        cases hexec
        unfold JobsDb.findRun at hfound
        exact ⟨⟨run, Table.mem_of_find? hfound, .refl run⟩, by simpa using Table.prop_of_find? hfound⟩
      obtain ⟨hseen, rfl⟩ := hseen
      apply Outline.wp_ite
      case hneg =>
        intro _
        exact wp_kept (uses_pure _)
      intro _
      apply wp_statement rfl seen_grow hseen
      intro job w₂ hseen₂
      apply Outline.wp_okOr
      case hnone =>
        intro _
        exact wp_kept (uses_fail _)
      intro job _
      apply wp_statement rfl seen_grow hseen₂
      intro _ w₃ hseen₃
      apply wp_statement rfl seen_grow hseen₃
      intro steps w₄ hseen₄
      apply wp_statement rfl seen_grow hseen₄
      intro state w₅ hseen₅
      apply wp_statement rfl seen_grow hseen₅
      intro response w₆ hseen₆
      exact settle_records hseen₆

theorem processNextRun_records (config : JobsConfig)
    : Keeping pid (processNextRun config) w := by
  unfold processNextRun
  apply Outline.wp_try
  intro w₁ _ hinv₁ r s hanswer _
  constructor
  . exact keeps_records hinv₁ hanswer (fun _ _ => nofun)
  . split
    . exact wp_kept (uses_pure _)
    . exact wp_kept (uses_pure _)
    . split
      . exact wp_kept (uses_attempted rfl (fun _ => uses_pure _))
      . apply Outline.wp_bind
        apply Outline.wp_attempt
        apply Outline.wp_mono (executeRun_records config _)
        intro r w₂ _ _
        cases r with
        | ok _ => exact wp_kept (uses_attempted rfl (fun _ => uses_pure _))
        | error _ => exact wp_kept (uses_attempted rfl (fun _ => uses_pure _))

theorem recordsOutline_sound (env : Env) : (recordsOutline env).Sound where
  spawn w pid req hinv _ _ := ⟨trivial, hinv, fun _ _ => .of_eq rfl⟩
  program w pid req _ _ _ := by
    have hkept : req ≠ .work → (program env req).Uses (fun c : Call => c.isKept = true) := by
      intro hwork
      apply (program_makes env req).mono
      intro c hmakes
      cases c with
      | moveToDlq runId reason =>
        cases hmakes with
        | inl hneutral => cases hneutral
        | inr hwrites =>
          cases req with
          | work => exact absurd rfl hwork
          | _ => cases hwrites
      | _ => rfl
    cases req with
    | work => exact processNextRun_records env.config
    | _ => exact wp_kept (hkept nofun)
  finish w pid req r hinv _ _ _ := ⟨trivial, hinv, fun _ _ => .of_eq rfl⟩
  crash w pid req hinv _ _ := ⟨trivial, hinv, fun _ _ => .of_eq rfl⟩
  tick w t hinv _ := ⟨trivial, hinv, fun _ _ => .of_eq rfl⟩

/--
Between any two moments of a run of the service every run is still there and has only grown, and every
dead letter is a copy of a run that had used up its attempts.
-/
structure RecordsKept (env : Env) : Prop where
  runs : ∀ (ms ms' : List (Move (system env))) c c', Config.run ms (.start .empty) = some c
    → Config.run ms' c = some c' → ∀ r ∈ c.world.state.runs, ∃ r' ∈ c'.world.state.runs, r.Grows r'
  deadLetters : ∀ (ms : List (Move (system env))) c, Config.run ms (.start .empty) = some c
    → ∀ d ∈ c.world.state.dlq, ∃ r ∈ c.world.state.runs, d.Records r

end Outline
end Reactor.Jobs
