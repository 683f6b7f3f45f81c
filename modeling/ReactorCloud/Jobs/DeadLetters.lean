import ReactorCloud.Jobs.Calls
import ReactorCloud.Jobs.Frame

/-!
This module contains what becomes of the dead letters. The routes check the job of the path and then
act on the entry of the path, and a retry creates the run in one statement and deletes the entry in
the next one.
-/

namespace Reactor.Jobs

open Interleave
open Interleave.Program
open Relational (Table)
open Rust (Json Uuid)

/--
The organisation, the job and the entry of a request.
-/
def Request.dlqPath : Request → Option (ReactorId × String × Uuid)
  | .retryDlq ctx name dlqId => some (ctx.activeOrg, name, dlqId)
  | .deleteDlq ctx name dlqId => some (ctx.activeOrg, name, dlqId)
  | _ => none

def Request.discards : Request → Bool
  | .deleteDlq .. => true
  | _ => false

namespace JobsDb

/--
The run `runId` was made of the entry.
-/
def HasRunOf (s : JobsDb) (runId : RunId) (d : DlqEntry) : Prop :=
  ∃ run ∈ s.runs, run.id = runId ∧ run.jobId = d.jobId ∧ run.orgId = d.orgId ∧ run.payload = d.payload

end JobsDb

section Entries

variable {env : Env}

def namedEntry : Interleave.Event (system env) → Option Uuid
  | .spawn _ req => req.dlqPath.map (fun (_, _, dlqId) => dlqId)
  | _ => none

def namedJob : Interleave.Event (system env) → Option Job
  | .call _ (.getJob ..) (.ok job) => job
  | _ => none

def insertedEntry : Interleave.Event (system env) → Option Uuid
  | .call _ (.insertRunFromDlq dlqId) (.ok _) => some dlqId
  | _ => none

def deletedEntry : Interleave.Event (system env) → Option Uuid
  | .call _ (.deleteDlq dlqId) _ => some dlqId
  | _ => none

def retriedEntry : Interleave.Event (system env) → Option Uuid
  | .call _ (.insertRunFromDlq dlqId) _ => some dlqId
  | _ => none

def buries : Interleave.Event (system env) → Bool
  | .call _ (.moveToDlq ..) _ => true
  | _ => false

/--
A request under way names the entry.
-/
def Names (pid : Nat) (id : Uuid) (w : World (system env)) : Prop :=
  Did (fun e => namedEntry e = some id) pid w ∧ ¬ Gone pid w

/--
The process is between the two statements of a retry.
-/
def Turning (pid : Nat) (id : Uuid) (w : World (system env)) : Prop :=
  Did (fun e => insertedEntry e = some id) pid w ∧ ¬ Did (fun e => deletedEntry e = some id) pid w
    ∧ ¬ Gone pid w

instance (pid : Nat) (id : Uuid) (w : World (system env)) : Decidable (Names pid id w) :=
  inferInstanceAs (Decidable (_ ∧ _))

instance (pid : Nat) (id : Uuid) (w : World (system env)) : Decidable (Turning pid id w) :=
  inferInstanceAs (Decidable (_ ∧ _))

def turnedBy (pid : Nat) (w : World (system env)) : List Uuid :=
  (w.trace.filterMap insertedEntry).filter (fun id => Turning pid id w)

/--
The condition on the steps that touch dead letters.
-/
structure Orderly (w : World (system env)) (e : Interleave.Event (system env)) : Prop where
  /-- The entry of the path is one of the job of the path. -/
  own : ∀ job ∈ namedJob e, ∀ d ∈ w.state.dlq.rows, ∀ pid ∈ e.pid?, Names pid d.id w →
    d.jobId = job.id
  /-- No run is moved to the dead letters while a request names an entry that is not there. -/
  fresh : buries e = true → ∀ pid ∈ w.pids, ∀ id ∈ w.trace.filterMap namedEntry, Names pid id w →
    (JobsDb.findDlq w.state id).isSome = true
  /-- An entry is retried when no other retry of it is under way. -/
  alone : ∀ id ∈ retriedEntry e, ∀ pid ∈ w.pids, ¬ Turning pid id w
  /-- A retry of an entry that is there does not fail. -/
  whole : breaks e = true → (∀ id ∈ retriedEntry e, (JobsDb.findDlq w.state id).isNone = true)
    ∧ ∀ pid ∈ e.pid?, turnedBy pid w = []

-- The quantifiers are bounded explicitly, since identifiers are finitely many.
instance (w : World (system env)) (e : Interleave.Event (system env)) : Decidable (Orderly w e) :=
  have : Decidable (∀ job ∈ namedJob e, ∀ d ∈ w.state.dlq.rows, ∀ pid ∈ e.pid?, Names pid d.id w →
      d.jobId = job.id) := inferInstance
  have : Decidable (∀ pid ∈ w.pids, ∀ id ∈ w.trace.filterMap namedEntry, Names pid id w →
      (JobsDb.findDlq w.state id).isSome = true) :=
    have (pid : Nat) : Decidable (∀ id ∈ w.trace.filterMap namedEntry, Names pid id w →
        (JobsDb.findDlq w.state id).isSome = true) := List.decidableBAll _ _
    inferInstance
  have : Decidable (∀ id ∈ retriedEntry e, ∀ pid ∈ w.pids, ¬ Turning pid id w) :=
    Option.decidableForallMem _
  have : Decidable (∀ id ∈ retriedEntry e, (JobsDb.findDlq w.state id).isNone = true) :=
    Option.decidableForallMem _
  decidable_of_iff (_ ∧ _ ∧ _ ∧ (_ → _ ∧ ∀ pid ∈ e.pid?, turnedBy pid w = []))
    ⟨fun ⟨own, fresh, alone, whole⟩ => ⟨own, fresh, alone, whole⟩,
      fun h => ⟨h.own, h.fresh, h.alone, h.whole⟩⟩

/--
The process looked up the job of its path.
-/
def FoundJob (pid : Nat) (id : Uuid) (job : Job) (w : World (system env)) : Prop :=
  ∃ req org name, .spawn pid req ∈ w.trace ∧ req.dlqPath = some (org, name, id)
    ∧ .call pid (Call.getJob org name) (.ok (some job)) ∈ w.trace ∧ job.orgId = org ∧ job.name = name

def Discards (pid : Nat) (w : World (system env)) : Prop :=
  ∃ req, .spawn pid req ∈ w.trace ∧ req.discards = true

def BecameRun (pid : Nat) (d : DlqEntry) (w : World (system env)) : Prop :=
  ∃ runId, .call pid (Call.insertRunFromDlq d.id) (.ok runId) ∈ w.trace ∧ w.state.HasRunOf runId d

def Turns (id : Uuid) (w : World (system env)) (e : Interleave.Event (system env))
    (w' : World (system env)) : Prop :=
  retriedEntry e = some id ∧ w.state.runs.rows.length < w'.state.runs.rows.length

def Enters (id : Uuid) (w : World (system env)) (_ : Interleave.Event (system env))
    (w' : World (system env)) : Prop :=
  (JobsDb.findDlq w.state id).isNone = true ∧ (JobsDb.findDlq w'.state id).isSome = true

instance (id : Uuid) (w : World (system env)) (e : Interleave.Event (system env))
    (w' : World (system env)) : Decidable (Turns id w e w') :=
  inferInstanceAs (Decidable (_ ∧ _))

instance (id : Uuid) (w : World (system env)) (e : Interleave.Event (system env))
    (w' : World (system env)) : Decidable (Enters id w e w') :=
  inferInstanceAs (Decidable (_ ∧ _))

/--
An entry that the step removes or turns into a run is one of the job of the path, as are new runs.
-/
def StaysInside (w : World (system env)) (e : Interleave.Event (system env)) (w' : World (system env))
    : Prop :=
  ∀ d ∈ w.state.dlq, d ∉ w'.state.dlq ∨ Turns d.id w e w' →
    ∃ pid job, e.pid? = some pid ∧ FoundJob pid d.id job w ∧ d.jobId = job.id
      ∧ ∀ run ∈ w'.state.runs, run ∈ w.state.runs ∨ run.jobId = job.id

/--
An entry that the step removes was turned into a run or is deleted explicitly.
-/
def Accounted (w : World (system env)) (e : Interleave.Event (system env)) (w' : World (system env))
    : Prop :=
  ∀ d ∈ w.state.dlq, d ∉ w'.state.dlq →
    ∃ pid, e.pid? = some pid ∧ (Discards pid w ∨ BecameRun pid d w)

end Entries

/--
From any state, the runs whose steps are `ok` keep the entries in their jobs and account for them.
-/
def EntriesKept (env : Env) (ok : World (system env) → Interleave.Event (system env) → Prop) : Prop :=
  ∀ (s : JobsDb) (ms : List (Move (system env))), Config.Along ok ms (Config.start s) →
    Config.Throughout StaysInside ms (Config.start s) ∧ Config.Throughout Accounted ms (Config.start s)
      ∧ ∀ id, Config.tally (Turns id) ms (Config.start s)
        ≤ Config.tally (Enters id) ms (Config.start s) + if (s.findDlq id).isSome then 1 else 0

/-! ## What a call does to the entries -/

namespace JobsDb

theorem insertRunFromDlq_some {s : JobsDb} (id : RunId) {dlqId : Uuid} {x : Choice} {d : DlqEntry}
    {runId : RunId} (hfind : s.findDlq dlqId = some d)
    (h : (s.insertRunFromDlq id dlqId x).1 = .ok runId)
    : (s.insertRunFromDlq id dlqId x).2.HasRunOf runId d := by
  unfold findDlq at hfind
  unfold insertRunFromDlq createRun at h ⊢
  rw [hfind] at h ⊢
  simp only at h ⊢
  cases hjob : x.getJobById d.jobId with
  | none => simp [hjob] at h
  | some job =>
    simp only [hjob] at h ⊢
    cases hinsert : s.runs.insert (newRun id ⟨d.jobId, d.orgId, none, .manual, d.payload,
        job.retryMaxAttempts⟩) with
    | none => simp [hinsert] at h
    | some runs =>
      simp only [hinsert, Except.ok.injEq] at h ⊢
      subst h
      exact ⟨_, (Table.mem_insert hinsert).mpr (.inl rfl), rfl, rfl, rfl, rfl⟩

theorem insertRunFromDlq_none {s : JobsDb} {id : RunId} {dlqId : Uuid} {x : Choice}
    (hfind : s.findDlq dlqId = none) : s.insertRunFromDlq id dlqId x = (.ok id, s) := by
  unfold findDlq at hfind
  unfold insertRunFromDlq
  rw [hfind]

/--
The new run is one of the job of the entry.
-/
theorem mem_insertRunFromDlq {s : JobsDb} {id : RunId} {dlqId : Uuid} {x : Choice} {d : DlqEntry}
    {run : Run} (hfind : s.findDlq dlqId = some d)
    (h : run ∈ (s.insertRunFromDlq id dlqId x).2.runs) : run ∈ s.runs ∨ run.jobId = d.jobId := by
  unfold findDlq at hfind
  unfold insertRunFromDlq createRun at h
  rw [hfind] at h
  simp only at h
  cases hjob : x.getJobById d.jobId with
  | none =>
    simp only [hjob] at h
    exact .inl h
  | some job =>
    simp only [hjob] at h
    cases hinsert : s.runs.insert (newRun id ⟨d.jobId, d.orgId, none, .manual, d.payload,
        job.retryMaxAttempts⟩) with
    | none =>
      simp only [hinsert] at h
      exact .inl h
    | some runs =>
      simp only [hinsert] at h
      cases (Table.mem_insert hinsert).mp h with
      | inl heq =>
        subst heq
        exact .inr rfl
      | inr hmem => exact .inl hmem

theorem hasRunOf_updateRun {s : JobsDb} {id runId : RunId} {f : Run → Run} {hf : ∀ r, (f r).id = r.id}
    {d : DlqEntry} (hjob : ∀ r, (f r).jobId = r.jobId) (horg : ∀ r, (f r).orgId = r.orgId)
    (hpayload : ∀ r, (f r).payload = r.payload) (h : s.HasRunOf runId d)
    : (s.updateRun id f hf).HasRunOf runId d := by
  obtain ⟨run, hrun, hrest⟩ := h
  have hmem : (if run.id == id then f run else run) ∈ (s.updateRun id f hf).runs :=
    List.mem_map.mpr ⟨run, hrun, rfl⟩
  refine ⟨_, hmem, ?_⟩
  split
  . rw [hf, hjob, horg, hpayload]
    exact hrest
  . exact hrest

theorem hasRunOf_createRun {s : JobsDb} (id : RunId) (new : NewRun) {runId : RunId} {d : DlqEntry}
    (h : s.HasRunOf runId d) : (s.createRun id new).2.HasRunOf runId d := by
  unfold createRun
  split
  . next runs hinsert =>
    obtain ⟨run, hrun, hrest⟩ := h
    exact ⟨run, (Table.mem_insert hinsert).mpr (.inr hrun), hrest⟩
  . exact h

theorem hasRunOf_insertRunFromDlq {s : JobsDb} {id runId : RunId} {dlqId : Uuid} {x : Choice}
    {d : DlqEntry} (h : s.HasRunOf runId d) : (s.insertRunFromDlq id dlqId x).2.HasRunOf runId d := by
  unfold insertRunFromDlq
  split
  . exact h
  . next d' _ =>
    split
    . exact h
    . next job _ =>
      have hcreate := hasRunOf_createRun id
        ⟨d'.jobId, d'.orgId, none, .manual, d'.payload, job.retryMaxAttempts⟩ h
      split
      . next heq =>
        rw [heq] at hcreate
        exact hcreate
      . next heq =>
        rw [heq] at hcreate
        exact hcreate

/--
Runs keep their job and their payload.
-/
theorem exec_hasRunOf {s : JobsDb} {c : Call} {x : Choice} {runId : RunId} {d : DlqEntry}
    (h : s.HasRunOf runId d) : (s.exec c x).2.HasRunOf runId d := by
  cases c with
  | createRun new => exact hasRunOf_createRun x.id new h
  | insertRunFromDlq dlqId => exact hasRunOf_insertRunFromDlq h
  | updateRunStatus id status errorCode errorMessage =>
    apply hasRunOf_updateRun _ _ _ h <;> exact fun _ => rfl
  | setRunSleeping id wakeupAt =>
    apply hasRunOf_updateRun _ _ _ h <;> exact fun _ => rfl
  | incrementRunAttempt id =>
    apply hasRunOf_updateRun _ _ _ h <;> exact fun _ => rfl
  | _ =>
    unfold HasRunOf
    rw [s.exec_runs x (by simp [Call.table])]
    exact h

/--
Entries do not change.
-/
theorem mem_exec_dlq {s : JobsDb} {c : Call} {x : Choice} {d : DlqEntry} (h : d ∈ (s.exec c x).2.dlq)
    : d ∈ s.dlq ∨ ((∃ runId reason, c = .moveToDlq runId reason) ∧ s.findDlq d.id = none) := by
  cases c with
  | moveToDlq runId reason =>
    have h : d ∈ (s.moveToDlq x.id runId).2.dlq := h
    unfold moveToDlq at h
    split at h
    . exact .inl h
    . split at h
      . next dlq hinsert =>
        cases (Table.mem_insert hinsert).mp h with
        | inr hmem => exact .inl hmem
        | inl heq =>
          apply Or.inr
          refine ⟨⟨runId, reason, rfl⟩, ?_⟩
          have hfree := Table.insert_isSome.mp (by rw [hinsert]; rfl)
          unfold findDlq Table.find?
          rw [List.find?_eq_none]
          intro d' hd' hid
          have hne := hfree d' hd'
          rw [← heq] at hne
          simp only [Relational.Constrained.conflict, beq_eq_false_iff_ne] at hne
          exact hne (eq_of_beq hid).symm
      . exact .inl h
  | deleteDlq dlqId => exact .inl (Table.mem_delete.mp h).1
  | _ =>
    rw [s.exec_dlq x (by simp [Call.table])] at h
    exact .inl h

theorem mem_exec_of_mem_dlq {s : JobsDb} {c : Call} {x : Choice} {d : DlqEntry} (h : d ∈ s.dlq)
    (hc : c ≠ .deleteDlq d.id) : d ∈ (s.exec c x).2.dlq := by
  cases c with
  | moveToDlq runId reason =>
    show d ∈ (s.moveToDlq x.id runId).2.dlq
    unfold moveToDlq
    split
    . exact h
    . split
      . next dlq hinsert => exact (Table.mem_insert hinsert).mpr (.inr h)
      . exact h
  | deleteDlq dlqId =>
    apply Table.mem_delete.mpr
    refine ⟨h, ?_⟩
    simp only [beq_eq_false_iff_ne, ne_eq]
    rintro rfl
    exact hc rfl
  | _ =>
    rw [s.exec_dlq x (by simp [Call.table])]
    exact h

theorem findDlq_of_mem {s : JobsDb} {d : DlqEntry} (h : d ∈ s.dlq) : s.findDlq d.id = some d := by
  apply Table.find?_eq_some h
  . simp
  . intro d' hd'
    simpa [Relational.Constrained.conflict] using (eq_of_beq hd').symm

end JobsDb

section History

variable {env : Env} {pid : Nat} {id : Uuid} {w w' : World (system env)} {s : JobsDb}
  {e : Interleave.Event (system env)}

theorem Turning.extends_iff (h : Extends pid w w') : Turning pid id w' ↔ Turning pid id w := by
  unfold Turning Gone
  simp only [Did.extends_iff h]

theorem Turning.mem_pids (h : Turning pid id w) : pid ∈ w.pids :=
  h.1.mem_pids

theorem Turning.mem_turnedBy (h : Turning pid id w) : id ∈ turnedBy pid w := by
  obtain ⟨e, he, _, hinserted⟩ := h.1
  exact List.mem_filter.mpr ⟨List.mem_filterMap.mpr ⟨e, he, hinserted⟩, decide_eq_true h⟩

theorem Turning.of_after (h : Turning pid id (w.after s e))
    : Turning pid id w ∨ (e.pid? = some pid ∧ insertedEntry e = some id) := by
  obtain ⟨hinserted, hdeleted, halive⟩ := h
  cases Did.after_iff.mp hinserted with
  | inl hnew => exact .inr hnew
  | inr hold =>
    exact .inl ⟨hold, fun h => hdeleted (h.after s e), fun h => halive (h.after s e)⟩

/--
A retry goes on until it deletes the entry or is gone.
-/
theorem Turning.after (h : Turning pid id w)
    (hdeleted : e.pid? = some pid → deletedEntry e ≠ some id ∧ e.ends = false)
    : Turning pid id (w.after s e) := by
  refine ⟨h.1.after s e, ?_, ?_⟩
  . intro hdid
    cases Did.after_iff.mp hdid with
    | inl hnew => exact (hdeleted hnew.1).1 hnew.2
    | inr hold => exact h.2.1 hold
  . intro hdid
    cases Did.after_iff.mp hdid with
    | inl hnew => exact Bool.false_ne_true ((hdeleted hnew.1).2.symm.trans hnew.2)
    | inr hold => exact h.2.2 hold

theorem FoundJob.of_subset {job : Job} (h : FoundJob pid id job w) (htrace : w.trace ⊆ w'.trace)
    : FoundJob pid id job w' := by
  obtain ⟨req, org, name, hspawn, hpath, hcall, hjob⟩ := h
  exact ⟨req, org, name, htrace hspawn, hpath, htrace hcall, hjob⟩

theorem FoundJob.names {job : Job} (h : FoundJob pid id job w) (halive : ¬ Gone pid w)
    : Names pid id w := by
  obtain ⟨req, org, name, hspawn, hpath, _⟩ := h
  refine ⟨⟨_, hspawn, rfl, ?_⟩, halive⟩
  simp [namedEntry, hpath]

/--
A job that is found now is the answer of a request that names the entry.
-/
theorem FoundJob.of_after {c : Call} {r : Except JobsError c.Ret} {pid' : Nat} {job : Job}
    (h : FoundJob pid' id job (w.after s (.call pid c r)))
    : FoundJob pid' id job w ∨ (pid = pid'
      ∧ namedJob (.call pid c r : Interleave.Event (system env)) = some job
      ∧ Did (fun e => namedEntry e = some id) pid' w) := by
  obtain ⟨req, org, name, hspawn, hpath, hcall, hjob⟩ := h
  cases hspawn with
  | tail _ hspawn =>
    cases hcall with
    | head =>
      apply Or.inr
      refine ⟨rfl, rfl, _, hspawn, rfl, ?_⟩
      simp [namedEntry, hpath]
    | tail _ hcall => exact .inl ⟨req, org, name, hspawn, hpath, hcall, hjob⟩

theorem BecameRun.of_subset {d : DlqEntry} (h : BecameRun pid d w) (htrace : w.trace ⊆ w'.trace)
    (hruns : ∀ runId, w.state.HasRunOf runId d → w'.state.HasRunOf runId d)
    : BecameRun pid d w' := by
  obtain ⟨runId, hcall, hrun⟩ := h
  exact ⟨runId, htrace hcall, hruns runId hrun⟩

end History

/-! ## The outline -/

/--
What is known of the entries that requests under way name.
-/
structure DlqInv {env : Env} (w : World (system env)) : Prop where
  names : ∀ pid id, Turning pid id w → Names pid id w
  became : ∀ pid id, Turning pid id w → ∀ d ∈ w.state.dlq, d.id = id → BecameRun pid d w
  owned : ∀ pid id job, FoundJob pid id job w → ¬ Gone pid w → ∀ d ∈ w.state.dlq, d.id = id →
    d.jobId = job.id

/--
What is known of the statement of a request when it is executed.
-/
structure Licit {env : Env} (w : World (system env)) (e : Interleave.Event (system env)) : Prop where
  own : ∀ d ∈ w.state.dlq, retriedEntry e = some d.id ∨ deletedEntry e = some d.id →
    ∃ pid job, e.pid? = some pid ∧ FoundJob pid d.id job w ∧ d.jobId = job.id
  removes : ∀ d ∈ w.state.dlq, deletedEntry e = some d.id →
    ∃ pid, e.pid? = some pid ∧ (Discards pid w ∨ BecameRun pid d w)
  begins : ∀ pid id, e.pid? = some pid → insertedEntry e = some id →
    ¬ Did (fun e => deletedEntry e = some id) pid w ∧ ¬ Gone pid w
  ends : ∀ pid id, e.pid? = some pid → e.ends = true → ¬ Turning pid id w

def dlqOutline (env : Env) : Outline (system env) where
  inv := DlqInv
  ok := Orderly
  safe := Licit
  rely _ _ _ := True
  post pid _ _ w := ∀ id, ¬ Turning pid id w
  rely_refl _ _ := trivial
  rely_trans _ _ _ _ _ _ := trivial

/--
What a process has to know to make a call.
-/
structure DlqFits {env : Env} (pid : Nat) (c : Call) (w : World (system env)) : Prop where
  alive : ¬ Gone pid w
  retries : ∀ id, c = .insertRunFromDlq id →
    (∃ job, FoundJob pid id job w) ∧ ¬ Did (fun e => deletedEntry e = some id) pid w
  deletes : ∀ id, c = .deleteDlq id →
    (∃ job, FoundJob pid id job w) ∧ (Discards pid w ∨ Turning pid id w)

section Steps

variable {env : Env} {pid : Nat} {w : World (system env)} {c : Call} {r : Except JobsError c.Ret}
  {s : JobsDb}

theorem answers_hasRunOf {s s' : JobsDb} {runId : RunId} {d : DlqEntry}
    (h : Answers (system env) pid c s r s') (hrun : s.HasRunOf runId d) : s'.HasRunOf runId d :=
  answers_keep (P := fun s' => s'.HasRunOf runId d) h hrun (fun _ => JobsDb.exec_hasRunOf hrun)

theorem mem_of_answers {s s' : JobsDb} {d : DlqEntry} (h : Answers (system env) pid c s r s')
    : d ∈ s'.dlq →
      d ∈ s.dlq ∨ ((∃ runId reason, c = .moveToDlq runId reason) ∧ s.findDlq d.id = none) :=
  answers_keep (P := fun s' => d ∈ s'.dlq → _) h .inl (fun _ => JobsDb.mem_exec_dlq)

theorem mem_answers {s s' : JobsDb} {d : DlqEntry} (h : Answers (system env) pid c s r s')
    (hd : d ∈ s.dlq) (hc : c ≠ .deleteDlq d.id) : d ∈ s'.dlq :=
  answers_keep (P := fun s' => d ∈ s'.dlq) h hd (fun _ => JobsDb.mem_exec_of_mem_dlq hd hc)

/--
An entry that is named by a request under way was there before.
-/
theorem mem_of_named {d : DlqEntry} {pid' : Nat} (hanswer : Answers (system env) pid c w.state r s)
    (hok : Orderly w (.call pid c r)) (hnames : Names pid' d.id w) (hd : d ∈ s.dlq)
    : d ∈ w.state.dlq := by
  cases mem_of_answers hanswer hd with
  | inl hold => exact hold
  | inr hnew =>
    obtain ⟨⟨runId, reason, rfl⟩, hnone⟩ := hnew
    obtain ⟨e, he, hpid, hnamed⟩ := hnames.1
    have hsome := hok.fresh rfl pid' (Did.mem_pids hnames.1) d.id
      (List.mem_filterMap.mpr ⟨e, he, hnamed⟩) hnames
    rw [hnone] at hsome
    cases hsome

theorem insertRunFromDlq_of_insertedEntry {id : Uuid}
    (h : insertedEntry (.call pid c r : Interleave.Event (system env)) = some id)
    : c = .insertRunFromDlq id ∧ ∃ a, r = .ok a := by
  cases c with
  | insertRunFromDlq dlqId =>
    cases r with
    | ok runId =>
      cases h
      exact ⟨rfl, runId, rfl⟩
    | error e => cases h
  | _ => cases h

theorem deleteDlq_of_deletedEntry {id : Uuid}
    (h : deletedEntry (.call pid c r : Interleave.Event (system env)) = some id)
    : c = .deleteDlq id := by
  cases c with
  | deleteDlq dlqId =>
    cases h
    rfl
  | _ => cases h

theorem insertRunFromDlq_of_retriedEntry {id : Uuid}
    (h : retriedEntry (.call pid c r : Interleave.Event (system env)) = some id)
    : c = .insertRunFromDlq id := by
  cases c with
  | insertRunFromDlq dlqId =>
    cases h
    rfl
  | _ => cases h

theorem licit_call (hinv : DlqInv w) (hfits : DlqFits pid c w) : Licit w (.call pid c r) where
  own d hd htouches := by
    have hfound : ∃ job, FoundJob pid d.id job w := by
      cases htouches with
      | inl hretried => exact (hfits.retries d.id (insertRunFromDlq_of_retriedEntry hretried)).1
      | inr hdeleted => exact (hfits.deletes d.id (deleteDlq_of_deletedEntry hdeleted)).1
    obtain ⟨job, hjob⟩ := hfound
    exact ⟨pid, job, rfl, hjob, hinv.owned pid d.id job hjob hfits.alive d hd rfl⟩
  removes d hd hdeleted := by
    exists pid
    refine ⟨rfl, ?_⟩
    cases (hfits.deletes d.id (deleteDlq_of_deletedEntry hdeleted)).2 with
    | inl hdiscards => exact .inl hdiscards
    | inr hturning => exact .inr (hinv.became pid d.id hturning d hd rfl)
  begins pid' id hpid hinserted := by
    cases hpid
    obtain ⟨hc, _⟩ := insertRunFromDlq_of_insertedEntry hinserted
    exact ⟨(hfits.retries id hc).2, hfits.alive⟩
  ends _ _ _ hends := by
    cases hends

/--
The statement of a retry makes a run of the entry that is there.
-/
theorem becameRun_of_insert {id : Uuid} {d : DlqEntry} {runId : RunId}
    (hanswer : Answers (system env) pid (.insertRunFromDlq id) w.state (.ok runId) s)
    (hd : d ∈ w.state.dlq) (hid : d.id = id)
    : BecameRun pid d (w.after s (.call pid (Call.insertRunFromDlq id) (.ok runId))) := by
  subst hid
  refine ⟨runId, List.mem_cons_self, ?_⟩
  obtain ⟨x, hexec⟩ := hanswer.ok
  have hexec : JobsDb.insertRunFromDlq w.state x.id d.id x = (.ok runId, s) := Option.some.inj hexec
  have hrun := JobsDb.insertRunFromDlq_some (x := x) x.id (JobsDb.findDlq_of_mem hd)
    (by rw [hexec])
  rw [hexec] at hrun
  exact hrun

theorem keeps_licit (hinv : DlqInv w) (hanswer : Answers (system env) pid c w.state r s)
    (hok : Orderly w (.call pid c r)) (hfits : DlqFits pid c w)
    : (dlqOutline env).Keeps w s (.call pid c r) where
  safe := licit_call hinv hfits
  inv := by
    have hsubset := trace_subset_after w s (.call pid c r)
    have hgone : ∀ pid', Gone pid' (w.after s (.call pid c r)) ↔ Gone pid' w :=
      fun pid' => Gone.after_iff rfl
    have hnames : ∀ pid' id, Turning pid' id (w.after s (.call pid c r)) → Names pid' id w := by
      intro pid' id h
      cases h.of_after with
      | inl hold => exact hinv.names pid' id hold
      | inr hnew =>
        cases hnew.1
        obtain ⟨hc, _⟩ := insertRunFromDlq_of_insertedEntry hnew.2
        obtain ⟨⟨job, hjob⟩, _⟩ := hfits.retries id hc
        exact hjob.names hfits.alive
    constructor
    . intro pid' id h
      obtain ⟨hnamed, halive⟩ := hnames pid' id h
      exact ⟨hnamed.after _ _, fun hafter => halive ((hgone pid').mp hafter)⟩
    . intro pid' id h d hd hid
      have hbefore : d ∈ w.state.dlq := mem_of_named hanswer hok (hid ▸ hnames pid' id h) hd
      cases h.of_after with
      | inl hold =>
        apply (hinv.became pid' id hold d hbefore hid).of_subset hsubset
        intro runId hrun
        exact answers_hasRunOf hanswer hrun
      | inr hnew =>
        cases hnew.1
        obtain ⟨rfl, runId, rfl⟩ := insertRunFromDlq_of_insertedEntry hnew.2
        exact becameRun_of_insert hanswer hbefore hid
    . intro pid' id job hfound halive d hd hid
      have halive : ¬ Gone pid' w := fun h => halive ((hgone pid').mpr h)
      cases hfound.of_after with
      | inl hold =>
        apply hinv.owned pid' id job hold halive d _ hid
        exact mem_of_named hanswer hok (hid ▸ hold.names halive) hd
      | inr hnew =>
        obtain ⟨rfl, hjob, hnamed⟩ := hnew
        have hnames : Names pid d.id w := hid ▸ ⟨hnamed, halive⟩
        exact hok.own job hjob d (mem_of_named hanswer hok hnames hd) pid rfl hnames
  rely _ _ := trivial

/--
An event that is no call changes nothing.
-/
theorem keeps_uncalled {e : Interleave.Event (system env)} (hinv : DlqInv w)
    (hdlq : s.dlq = w.state.dlq) (hruns : s.runs = w.state.runs) (hinserted : insertedEntry e = none)
    (hretried : retriedEntry e = none) (hdeleted : deletedEntry e = none)
    (hends : ∀ pid id, e.pid? = some pid → e.ends = true → ¬ Turning pid id w)
    (hfound : ∀ pid id job, FoundJob pid id job (w.after s e) → FoundJob pid id job w)
    : (dlqOutline env).Keeps w s e where
  safe := by
    constructor
    . rintro d _ (h | h)
      . rw [hretried] at h
        cases h
      . rw [hdeleted] at h
        cases h
    . intro d _ h
      rw [hdeleted] at h
      cases h
    . intro pid id _ h
      rw [hinserted] at h
      cases h
    . exact hends
  inv := by
    have hturning : ∀ pid id, Turning pid id (w.after s e) → Turning pid id w := by
      intro pid id h
      cases h.of_after with
      | inl hold => exact hold
      | inr hnew =>
        rw [hinserted] at hnew
        cases hnew.2
    have halive : ∀ pid, ¬ Gone pid (w.after s e) → ¬ Gone pid w := by
      intro pid h hgone
      exact h (hgone.after s e)
    constructor
    . intro pid id h
      obtain ⟨hnamed, _⟩ := hinv.names pid id (hturning pid id h)
      exact ⟨hnamed.after s e, h.2.2⟩
    . intro pid id h d hd hid
      apply (hinv.became pid id (hturning pid id h) d (hdlq ▸ hd) hid).of_subset
        (trace_subset_after w s e)
      rintro runId ⟨run, hrun, hrest⟩
      exact ⟨run, hruns ▸ hrun, hrest⟩
    . intro pid id job hjob hgone d hd hid
      exact hinv.owned pid id job (hfound pid id job hjob) (halive pid hgone) d (hdlq ▸ hd) hid
  rely _ _ := trivial

end Steps

section Programs

variable {env : Env} {pid : Nat} {w : World (system env)} {α : Type}

/--
A process that retries nothing at the moment.
-/
structure Resting (pid : Nat) (w : World (system env)) : Prop where
  alive : ¬ Gone pid w
  settled : ∀ id, ¬ Turning pid id w

/--
A process that has touched no entry.
-/
structure Starting (pid : Nat) (req : Request) (w : World (system env)) : Prop where
  spawned : .spawn pid req ∈ w.trace
  alive : ¬ Gone pid w
  uninserted : ∀ id, ¬ Did (fun e => insertedEntry e = some id) pid w
  undeleted : ∀ id, ¬ Did (fun e => deletedEntry e = some id) pid w

theorem Resting.extends {w' : World (system env)} (h : Extends pid w w') (hrest : Resting pid w)
    : Resting pid w' where
  alive := by
    unfold Gone
    rw [Did.extends_iff h]
    exact hrest.alive
  settled := by
    simpa only [Turning.extends_iff h] using hrest.settled

theorem Starting.extends {w' : World (system env)} {req : Request} (h : Extends pid w w')
    (hstart : Starting pid req w) : Starting pid req w' where
  spawned := h.mem hstart.spawned
  alive := by
    unfold Gone
    rw [Did.extends_iff h]
    exact hstart.alive
  uninserted := by simpa only [Did.extends_iff h] using hstart.uninserted
  undeleted := by simpa only [Did.extends_iff h] using hstart.undeleted

theorem Starting.after {req : Request} {s : JobsDb} {e : Interleave.Event (system env)}
    (h : Starting pid req w) (hinserted : insertedEntry e = none) (hdeleted : deletedEntry e = none)
    (hends : e.ends = false) : Starting pid req (w.after s e) where
  spawned := List.mem_cons_of_mem _ h.spawned
  alive := by
    intro hgone
    exact h.alive ((Gone.after_iff hends).mp hgone)
  uninserted id hdid := by
    cases Did.after_iff.mp hdid with
    | inl hnew =>
      rw [hinserted] at hnew
      cases hnew.2
    | inr hold => exact h.uninserted id hold
  undeleted id hdid := by
    cases Did.after_iff.mp hdid with
    | inl hnew =>
      rw [hdeleted] at hnew
      cases hnew.2
    | inr hold => exact h.undeleted id hold

theorem Starting.rest {req : Request} (h : Starting pid req w) : Resting pid w where
  alive := h.alive
  settled id hturning := h.uninserted id hturning.1

theorem Resting.after {s : JobsDb} {e : Interleave.Event (system env)} (h : Resting pid w)
    (hinserted : insertedEntry e = none) (hends : e.ends = false) : Resting pid (w.after s e) where
  alive := by
    intro hgone
    exact h.alive ((Gone.after_iff hends).mp hgone)
  settled id hturning := by
    cases hturning.of_after with
    | inl hold => exact h.settled id hold
    | inr hnew =>
      rw [hinserted] at hnew
      cases hnew.2

/--
The calls that touch no entry of a path.
-/
def Call.IsApart (c : Call) : Prop :=
  ∀ id, c ≠ .insertRunFromDlq id ∧ c ≠ .deleteDlq id

theorem DlqFits.apart {c : Call} (hc : c.IsApart) (halive : ¬ Gone pid w) : DlqFits pid c w where
  alive := halive
  retries id heq := absurd heq (hc id).1
  deletes id heq := absurd heq (hc id).2

theorem insertedEntry_apart {c : Call} {r : Except JobsError c.Ret} (hc : c.IsApart)
    : insertedEntry (.call pid c r : Interleave.Event (system env)) = none := by
  cases c with
  | insertRunFromDlq id => exact absurd rfl (hc id).1
  | _ => rfl

theorem wp_apart {x : JobsM α} (hx : x.Uses Call.IsApart) (h : Resting pid w)
    : (dlqOutline env).Wp pid (fun _ w => ∀ id, ¬ Turning pid id w) x w := by
  refine Outline.wp_mono (Outline.wp_of_uses hx h ?_ ?_) (fun _ _ _ hrest => Resting.settled hrest)
  . intro w w' hrely _ hrest
    exact hrest.extends hrely.1
  . intro c hc w r s hrest hinv hanswer hok
    exact ⟨keeps_licit hinv hanswer hok (.apart hc hrest.alive),
      hrest.after (insertedEntry_apart hc) rfl⟩

/--
The rule for a call of a request that names an entry.
-/
theorem wp_licit {c : Call} {f : c.Ret → JobsM α} {A : World (system env) → Prop} (hA : A w)
    (hstable : ∀ w w', Extends pid w w' → A w → A w') (hfits : ∀ w, A w → DlqFits pid c w)
    (herror : ∀ w, A w → ∀ e s, Orderly w (.call pid c (.error e)) →
      Resting pid (w.after s (.call pid c (.error e))))
    (hnext : ∀ w a s, A w → Answers (system env) pid c w.state (.ok a) s →
      (dlqOutline env).Wp pid (fun _ w => ∀ id, ¬ Turning pid id w) (f a)
        (w.after s (.call pid c (.ok a))))
    : (dlqOutline env).Wp pid (fun _ w => ∀ id, ¬ Turning pid id w) (query c >>= f) w := by
  apply Outline.wp_call
  intro w' hrely hinv r s hanswer hok
  have hA' := hstable w w' hrely.1 hA
  constructor
  . exact keeps_licit hinv hanswer hok (hfits w' hA')
  . cases r with
    | ok a => exact hnext w' a s hA' hanswer
    | error e => exact wp_apart (uses_fail e) (herror w' hA' e s hok)

theorem findJob_names {req : Request} {ctx : JobCtx} {name : String} {dlqId : Uuid}
    {f : Job → JobsM α} (h : Starting pid req w)
    (hpath : req.dlqPath = some (ctx.activeOrg, name, dlqId))
    (hnext : ∀ job w, Starting pid req w → FoundJob pid dlqId job w →
      (dlqOutline env).Wp pid (fun _ w => ∀ id, ¬ Turning pid id w) (f job) w)
    : (dlqOutline env).Wp pid (fun _ w => ∀ id, ¬ Turning pid id w) (findJob ctx name >>= f) w := by
  unfold findJob
  simp only [bind_assoc]
  apply wp_licit h
  . intro w w' hextends hstart
    exact hstart.extends hextends
  . intro w hstart
    exact .apart (by simp [Call.IsApart]) hstart.alive
  . intro w hstart e s _
    exact (hstart.after rfl rfl rfl).rest
  . intro w found s hstart hanswer
    have hafter := hstart.after (s := s)
      (e := .call pid (Call.getJob ctx.activeOrg name) (.ok found)) rfl rfl rfl
    apply Outline.wp_okOr
    . rintro job rfl
      apply hnext job _ hafter
      obtain ⟨x, hexec⟩ := hanswer.ok
      have hjob : x.getJob ctx.activeOrg name = some job :=
        Except.ok.inj (congrArg Prod.fst (Option.some.inj hexec))
      have hboth := List.find?_some hjob
      simp only [Bool.and_eq_true, beq_iff_eq] at hboth
      exact ⟨req, _, name, hafter.spawned, hpath, List.mem_cons_self, hboth⟩
    . intro _
      exact wp_apart (uses_fail _) hafter.rest

/--
The process has created the run of the entry and is about to delete the entry.
-/
structure Between (pid : Nat) (id : Uuid) (w : World (system env)) : Prop where
  found : ∃ job, FoundJob pid id job w
  turning : Turning pid id w
  only : ∀ id', Turning pid id' w → id' = id

theorem Between.extends {w' : World (system env)} {id : Uuid} (h : Extends pid w w')
    (hbetween : Between pid id w) : Between pid id w' where
  found := by
    obtain ⟨job, hjob⟩ := hbetween.found
    exact ⟨job, hjob.of_subset h.subset⟩
  turning := (Turning.extends_iff h).mpr hbetween.turning
  only := by simpa only [Turning.extends_iff h] using hbetween.only

theorem Starting.insert {req : Request} {id : Uuid} {job : Job} {runId : RunId} {s : JobsDb}
    (h : Starting pid req w) (hfound : FoundJob pid id job w)
    : Between pid id (w.after s (.call pid (Call.insertRunFromDlq id) (.ok runId))) where
  found := ⟨job, hfound.of_subset (trace_subset_after _ _ _)⟩
  turning := by
    refine ⟨Did.after_iff.mpr (.inl ⟨rfl, rfl⟩), ?_, ?_⟩
    . intro hdid
      cases Did.after_iff.mp hdid with
      | inl hnew => cases hnew.2
      | inr hold => exact h.undeleted id hold
    . intro hgone
      exact h.alive ((Gone.after_iff rfl).mp hgone)
  only id' hturning := by
    cases hturning.of_after with
    | inl hold => exact absurd hold (h.rest.settled id')
    | inr hnew => exact (Option.some.inj hnew.2).symm

theorem Between.delete {id : Uuid} {s : JobsDb} {r : Except JobsError Unit} (h : Between pid id w)
    : Resting pid (w.after s (.call pid (Call.deleteDlq id) r)) where
  alive := by
    intro hgone
    exact h.turning.2.2 ((Gone.after_iff rfl).mp hgone)
  settled id' hturning := by
    cases hturning.of_after with
    | inl hold =>
      cases h.only id' hold
      exact hturning.2.1 (Did.after_iff.mpr (.inl ⟨rfl, rfl⟩))
    | inr hnew => cases hnew.2

theorem retryDlq_wp {ctx : JobCtx} {name : String} {dlqId : Uuid}
    (h : Starting pid (.retryDlq ctx name dlqId) w)
    : (dlqOutline env).Wp pid (fun _ w => ∀ id, ¬ Turning pid id w) (retryDlq ctx name dlqId) w := by
  unfold retryDlq requireJobPermission
  apply Outline.wp_require
  . intro _
    apply findJob_names h rfl
    intro job w₁ hstart₁ hfound₁
    apply wp_licit (A := fun w => Starting pid (.retryDlq ctx name dlqId) w ∧ FoundJob pid dlqId job w)
      ⟨hstart₁, hfound₁⟩
    . rintro w w' hextends ⟨hstart, hfound⟩
      exact ⟨hstart.extends hextends, hfound.of_subset hextends.subset⟩
    . rintro w ⟨hstart, hfound⟩
      constructor
      . exact hstart.alive
      . rintro _ ⟨⟩
        exact ⟨⟨job, hfound⟩, hstart.undeleted dlqId⟩
      . rintro _ ⟨⟩
    . rintro w ⟨hstart, _⟩ e s _
      exact (hstart.after rfl rfl rfl).rest
    rintro w₂ runId s₂ ⟨hstart₂, hfound₂⟩ _
    apply wp_licit (hstart₂.insert hfound₂)
    . intro w w' hextends hbetween
      exact hbetween.extends hextends
    . intro w hbetween
      constructor
      . exact hbetween.turning.2.2
      . rintro _ ⟨⟩
      . rintro _ ⟨⟩
        exact ⟨hbetween.found, .inr hbetween.turning⟩
    . intro w hbetween e s _
      exact hbetween.delete
    intro w₃ _ s₃ hbetween₃ _
    apply wp_apart _ hbetween₃.delete
    apply uses_call (by simp [Call.IsApart])
    intro _
    apply uses_attempted (by simp [Call.IsApart])
    intro _
    apply uses_call (by simp [Call.IsApart])
    intro run
    exact uses_okOr _ _
  . intro _
    exact wp_apart (uses_fail _) h.rest

theorem deleteDlq_wp {ctx : JobCtx} {name : String} {dlqId : Uuid}
    (h : Starting pid (.deleteDlq ctx name dlqId) w)
    : (dlqOutline env).Wp pid (fun _ w => ∀ id, ¬ Turning pid id w) (deleteDlq ctx name dlqId) w := by
  unfold deleteDlq requireJobPermission
  apply Outline.wp_require
  . intro _
    apply findJob_names h rfl
    intro job w₁ hstart₁ hfound₁
    apply wp_licit (A := fun w => Starting pid (.deleteDlq ctx name dlqId) w ∧ FoundJob pid dlqId job w)
      ⟨hstart₁, hfound₁⟩
    . rintro w w' hextends ⟨hstart, hfound⟩
      exact ⟨hstart.extends hextends, hfound.of_subset hextends.subset⟩
    . rintro w ⟨hstart, hfound⟩
      constructor
      . exact hstart.alive
      . rintro _ ⟨⟩
      . rintro _ ⟨⟩
        exact ⟨⟨job, hfound⟩, .inl ⟨_, hstart.spawned, rfl⟩⟩
    . rintro w ⟨hstart, _⟩ e s _
      exact hstart.rest.after rfl rfl
    rintro w₂ _ s₂ ⟨hstart₂, _⟩ _
    apply wp_apart _ (hstart₂.rest.after rfl rfl)
    apply uses_attempted (by simp [Call.IsApart])
    intro _
    exact uses_pure _
  . intro _
    exact wp_apart (uses_fail _) h.rest

theorem apart_of_makes {req : Request} {c : Call} (hpath : req.dlqPath = none) (h : req.Makes c)
    : c.IsApart := by
  cases h with
  | inl hneutral => cases c <;> simp_all [Call.IsApart, Call.isNeutral]
  | inr hwrites =>
    cases req with
    | retryDlq ctx name dlqId => cases hpath
    | deleteDlq ctx name dlqId => cases hpath
    | _ => cases c <;> simp_all [Call.IsApart, Request.writes]

theorem dlq_wp (req : Request) (h : Starting pid req w)
    : (dlqOutline env).Wp pid (fun _ w => ∀ id, ¬ Turning pid id w) (program env req) w := by
  cases hpath : req.dlqPath with
  | none =>
    apply wp_apart _ h.rest
    exact (program_makes env req).mono (fun _ => apart_of_makes hpath)
  | some _ =>
    cases req with
    | retryDlq ctx name dlqId => exact retryDlq_wp h
    | deleteDlq ctx name dlqId => exact deleteDlq_wp h
    | _ => cases hpath

end Programs

theorem dlqOutline_sound (env : Env) : (dlqOutline env).Sound where
  spawn w pid req hinv hfresh _ := by
    apply keeps_uncalled hinv rfl rfl rfl rfl rfl
    . rintro _ _ _ ⟨⟩
    . rintro pid' id job ⟨req', org, name, hspawn, hpath, hcall, hjob⟩
      cases hcall with
      | tail _ hcall =>
        cases hspawn with
        | head => exact absurd rfl (hfresh _ hcall)
        | tail _ hspawn => exact ⟨req', org, name, hspawn, hpath, hcall, hjob⟩
  program w pid req _ hfresh _ := by
    apply dlq_wp req
    constructor
    . exact List.mem_cons_self
    . intro hgone
      cases Did.after_iff.mp hgone with
      | inl hnew => cases hnew.2
      | inr hold => exact Did.not_of_fresh hfresh hold
    . intro id hdid
      cases Did.after_iff.mp hdid with
      | inl hnew => cases hnew.2
      | inr hold => exact Did.not_of_fresh hfresh hold
    . intro id hdid
      cases Did.after_iff.mp hdid with
      | inl hnew => cases hnew.2
      | inr hold => exact Did.not_of_fresh hfresh hold
  finish w pid req r hinv _ hsettled _ := by
    apply keeps_uncalled hinv rfl rfl rfl rfl rfl
    . rintro _ id ⟨⟩ _
      exact hsettled id
    . rintro pid' id job ⟨req', org, name, hspawn, hpath, hcall, hjob⟩
      cases hcall with
      | tail _ hcall =>
        cases hspawn with
        | tail _ hspawn => exact ⟨req', org, name, hspawn, hpath, hcall, hjob⟩
  crash w pid req hinv _ hok := by
    apply keeps_uncalled hinv rfl rfl rfl rfl rfl
    . rintro _ id ⟨⟩ _ hturning
      have hmem := hturning.mem_turnedBy
      rw [(hok.whole rfl).2 pid rfl] at hmem
      cases hmem
    . rintro pid' id job ⟨req', org, name, hspawn, hpath, hcall, hjob⟩
      cases hcall with
      | tail _ hcall =>
        cases hspawn with
        | tail _ hspawn => exact ⟨req', org, name, hspawn, hpath, hcall, hjob⟩
  tick w t hinv _ := by
    apply keeps_uncalled (s := (system env).tick t w.state) hinv rfl rfl rfl rfl rfl
    . rintro _ _ ⟨⟩
    . rintro pid' id job ⟨req', org, name, hspawn, hpath, hcall, hjob⟩
      cases hcall with
      | tail _ hcall =>
        cases hspawn with
        | tail _ hspawn => exact ⟨req', org, name, hspawn, hpath, hcall, hjob⟩

/-! ## From the outline to the runs -/

section Runs

variable {env : Env}

theorem insertRunFromDlq_answers_none {pid : Nat} {id : Uuid} {r : Except JobsError RunId}
    {s s' : JobsDb} (h : Answers (system env) pid (.insertRunFromDlq id) s r s')
    (hfind : s.findDlq id = none) : s' = s :=
  answers_keep (P := fun s' => s' = s) h rfl
    (fun _ => congrArg Prod.snd (JobsDb.insertRunFromDlq_none hfind))

theorem insertRunFromDlq_answers_runs {pid : Nat} {d : DlqEntry} {r : Except JobsError RunId}
    {s s' : JobsDb} (h : Answers (system env) pid (.insertRunFromDlq d.id) s r s') (hd : d ∈ s.dlq)
    {run : Run} : run ∈ s'.runs → run ∈ s.runs ∨ run.jobId = d.jobId :=
  answers_keep (P := fun s' => run ∈ s'.runs → _) h .inl
    (fun _ => JobsDb.mem_insertRunFromDlq (JobsDb.findDlq_of_mem hd))

theorem deleteDlq_answers_runs {pid : Nat} {id : Uuid} {r : Except JobsError Unit} {s s' : JobsDb}
    (h : Answers (system env) pid (.deleteDlq id) s r s') : s'.runs = s.runs :=
  answers_keep (P := fun s' => s'.runs = s.runs) h rfl
    (fun x => s.exec_runs x (by simp [Call.table]))

theorem deleteDlq_answers_ok {pid : Nat} {id : Uuid} {s s' : JobsDb}
    (h : Answers (system env) pid (.deleteDlq id) s (.ok ()) s') : s'.findDlq id = none := by
  obtain ⟨x, hexec⟩ := exec_of_answers h
  have hs : s' = { s with dlq := s.dlq.delete (·.id == id) } := (congrArg Prod.snd hexec).symm
  unfold JobsDb.findDlq Table.find?
  rw [hs, List.find?_eq_none]
  intro d hd hid
  have hne := (Table.mem_delete.mp hd).2
  rw [hid] at hne
  cases hne

/--
Only a call changes the entries or retries one.
-/
theorem steps_cases {c : Config (system env)} {next : Interleave.Event (system env) × Config (system env)}
    (h : Config.Steps c next)
    : (∃ pid call r, next.1 = .call pid call r
        ∧ Answers (system env) pid call c.world.state r next.2.world.state)
      ∨ (retriedEntry next.1 = none ∧ deletedEntry next.1 = none
        ∧ next.2.world.state.dlq = c.world.state.dlq) := by
  cases h with
  | @answer pid _ call _ r _ _ h => exact .inl ⟨pid, call, r, rfl, h⟩
  | spawn req => exact .inr ⟨rfl, rfl, rfl⟩
  | finish _ => exact .inr ⟨rfl, rfl, rfl⟩
  | crash _ => exact .inr ⟨rfl, rfl, rfl⟩
  | tick t => exact .inr ⟨rfl, rfl, rfl⟩

/--
An entry is removed by the statement that deletes it.
-/
theorem deleted_of_steps {c : Config (system env)}
    {next : Interleave.Event (system env) × Config (system env)} (h : Config.Steps c next)
    {d : DlqEntry} (hd : d ∈ c.world.state.dlq) (hremoved : d ∉ next.2.world.state.dlq)
    : deletedEntry next.1 = some d.id := by
  cases steps_cases h with
  | inl hcall =>
    obtain ⟨pid, call, r, he, hanswer⟩ := hcall
    rw [he]
    by_contra hne
    apply hremoved
    apply mem_answers hanswer hd
    rintro rfl
    exact hne rfl
  | inr hother =>
    rw [hother.2.2] at hremoved
    exact absurd hd hremoved

theorem runs_of_steps {c : Config (system env)}
    {next : Interleave.Event (system env) × Config (system env)} (h : Config.Steps c next)
    {d : DlqEntry} (hd : d ∈ c.world.state.dlq)
    (htouches : retriedEntry next.1 = some d.id ∨ deletedEntry next.1 = some d.id)
    (run : Run) (hrun : run ∈ next.2.world.state.runs)
    : run ∈ c.world.state.runs ∨ run.jobId = d.jobId := by
  cases steps_cases h with
  | inr hother =>
    obtain ⟨hretried, hdeleted, _⟩ := hother
    rw [hretried, hdeleted] at htouches
    cases htouches <;> contradiction
  | inl hcall =>
    obtain ⟨pid, call, r, he, hanswer⟩ := hcall
    rw [he] at htouches
    cases htouches with
    | inl hretried =>
      cases insertRunFromDlq_of_retriedEntry hretried
      exact insertRunFromDlq_answers_runs hanswer hd hrun
    | inr hdeleted =>
      cases deleteDlq_of_deletedEntry hdeleted
      rw [deleteDlq_answers_runs hanswer] at hrun
      exact .inl hrun

theorem staysInside_of_steps {c : Config (system env)}
    {next : Interleave.Event (system env) × Config (system env)} (h : Config.Steps c next)
    (hlicit : Licit c.world next.1) : StaysInside c.world next.1 next.2.world := by
  intro d hd htouched
  have htouches : retriedEntry next.1 = some d.id ∨ deletedEntry next.1 = some d.id := by
    cases htouched with
    | inl hremoved => exact .inr (deleted_of_steps h hd hremoved)
    | inr hturns => exact .inl hturns.1
  obtain ⟨pid, job, hpid, hfound, hjob⟩ := hlicit.own d hd htouches
  refine ⟨pid, job, hpid, hfound, hjob, ?_⟩
  intro run hrun
  rw [← hjob]
  exact runs_of_steps h hd htouches run hrun

theorem accounted_of_steps {c : Config (system env)}
    {next : Interleave.Event (system env) × Config (system env)} (h : Config.Steps c next)
    (hlicit : Licit c.world next.1) : Accounted c.world next.1 next.2.world := by
  intro d hd hremoved
  exact hlicit.removes d hd (deleted_of_steps h hd hremoved)

/--
The entry is there and no retry of it is under way.
-/
def Retriable (id : Uuid) (w : World (system env)) : Prop :=
  (JobsDb.findDlq w.state id).isSome = true ∧ ∀ pid ∈ w.pids, ¬ Turning pid id w

instance (id : Uuid) (w : World (system env)) : Decidable (Retriable id w) :=
  inferInstanceAs (Decidable (_ ∧ _))

theorem Turns.retriable {c : Config (system env)}
    {next : Interleave.Event (system env) × Config (system env)} {id : Uuid}
    (h : Config.Steps c next) (hlicit : Licit c.world next.1) (hok : Orderly c.world next.1)
    (hturns : Turns id c.world next.1 next.2.world)
    : Retriable id c.world ∧ ¬ Retriable id next.2.world := by
  obtain ⟨hretried, hgrows⟩ := hturns
  cases steps_cases h with
  | inr hother =>
    rw [hother.1] at hretried
    cases hretried
  | inl hcall =>
    obtain ⟨pid, call, r, he, hanswer⟩ := hcall
    have hcallee := hretried
    rw [he] at hcallee
    cases insertRunFromDlq_of_retriedEntry hcallee
    have hsome : (JobsDb.findDlq c.world.state id).isSome = true := by
      cases hfind : JobsDb.findDlq c.world.state id with
      | some d => rfl
      | none =>
        rw [insertRunFromDlq_answers_none hanswer hfind] at hgrows
        exact absurd hgrows (Nat.lt_irrefl _)
    refine ⟨⟨hsome, hok.alone id hretried⟩, ?_⟩
    rintro ⟨_, hnone⟩
    cases r with
    | error e =>
      have := (hok.whole (by rw [he]; rfl)).1 id hretried
      rw [Option.isNone_iff_eq_none] at this
      rw [this] at hsome
      cases hsome
    | ok runId =>
      have hinserted : insertedEntry next.1 = some id := by rw [he]; rfl
      have hpid : next.1.pid? = some pid := by rw [he]; rfl
      obtain ⟨hundeleted, halive⟩ := hlicit.begins pid id hpid hinserted
      have hmem : next.1 ∈ next.2.world.trace := by
        rw [h.trace]
        exact List.mem_cons_self
      have hdid : Did (fun e => insertedEntry e = some id) pid next.2.world :=
        ⟨next.1, hmem, hpid, hinserted⟩
      apply hnone pid hdid.mem_pids
      refine ⟨hdid, ?_, ?_⟩
      . rintro ⟨e, hmem, hpid, hdeleted⟩
        rw [h.trace] at hmem
        cases hmem with
        | head =>
          rw [he] at hdeleted
          cases hdeleted
        | tail _ hmem => exact hundeleted ⟨e, hmem, hpid, hdeleted⟩
      . rintro ⟨e, hmem, hpid, hends⟩
        rw [h.trace] at hmem
        cases hmem with
        | head =>
          rw [he] at hends
          cases hends
        | tail _ hmem => exact halive ⟨e, hmem, hpid, hends⟩

/--
An entry comes to be retriable by entering.
-/
theorem Retriable.of_steps {c : Config (system env)}
    {next : Interleave.Event (system env) × Config (system env)} {id : Uuid}
    (h : Config.Steps c next) (hlicit : Licit c.world next.1) (hok : Orderly c.world next.1)
    (hretriable : Retriable id next.2.world)
    : Enters id c.world next.1 next.2.world ∨ Retriable id c.world := by
  obtain ⟨hsome, hnone⟩ := hretriable
  cases hbefore : (JobsDb.findDlq c.world.state id).isSome with
  | false =>
    apply Or.inl
    refine ⟨?_, hsome⟩
    simpa using hbefore
  | true =>
    apply Or.inr
    refine ⟨hbefore, ?_⟩
    intro pid hmem hturning
    have hafter : Turning pid id (c.world.after next.2.world.state next.1) := by
      apply hturning.after
      intro hpid
      constructor
      . intro hdeleted
        -- The statement that deletes the entry has not failed, so the entry is gone.
        rw [Option.isSome_iff_ne_none] at hsome
        cases steps_cases h with
        | inr hother =>
          rw [hother.2.1] at hdeleted
          cases hdeleted
        | inl hcall =>
          obtain ⟨pid', call, r, he, hanswer⟩ := hcall
          rw [he] at hdeleted
          cases deleteDlq_of_deletedEntry hdeleted
          cases r with
          | ok _ => exact hsome (deleteDlq_answers_ok hanswer)
          | error e =>
            have hturned := (hok.whole (by rw [he]; rfl)).2 pid hpid
            exact List.ne_nil_of_mem hturning.mem_turnedBy hturned
      . cases hends : next.1.ends with
        | false => rfl
        | true => exact absurd hturning (hlicit.ends pid id hpid hends)
    rw [← h.world_eq] at hafter
    exact hnone pid hafter.mem_pids hafter

theorem entriesKept (env : Env) : EntriesKept env Orderly := by
  intro s ms hok
  have hvalid : (dlqOutline env).Valid (Config.start s) := by
    apply Outline.Valid.start
    constructor
    . rintro _ _ ⟨⟨_, he, _⟩, _⟩
      cases he
    . rintro _ _ ⟨⟨_, he, _⟩, _⟩
      cases he
    . rintro _ _ _ ⟨_, _, _, he, _⟩
      cases he
  have hlicit := (dlqOutline_sound env).along hvalid hok
  have hboth := Config.along_and hlicit hok
  refine ⟨?_, ?_, ?_⟩
  . exact Config.throughout_of_along (fun c next h => staysInside_of_steps h) hlicit
  . exact Config.throughout_of_along (fun c next h => accounted_of_steps h) hlicit
  . intro id
    have hle := Config.tally_le_tally (p := Turns id) (q := Enters id)
      (fun w => if Retriable id w then 1 else 0) (fun c next h hok => by
        obtain ⟨hlicit, hok⟩ := hok
        by_cases hturns : Turns id c.world next.1 next.2.world
        . obtain ⟨hbefore, hafter⟩ := hturns.retriable h hlicit hok
          simp only [if_pos hturns, if_pos hbefore, if_neg hafter]
          omega
        . by_cases hafter : Retriable id next.2.world
          . cases hafter.of_steps h hlicit hok with
            | inl henters =>
              simp only [if_neg hturns, if_pos hafter, if_pos henters]
              omega
            | inr hbefore =>
              simp only [if_neg hturns, if_pos hafter, if_pos hbefore]
              omega
          . simp only [if_neg hturns, if_neg hafter]
            omega) hboth
    refine Nat.le_trans hle (Nat.add_le_add_left ?_ _)
    split
    . next hretriable =>
      have hsome : (s.findDlq id).isSome = true := hretriable.1
      simp [hsome]
    . exact Nat.zero_le _

end Runs

/--
Two dead letters, the second of which is one of another organisation.
-/
def JobsDb.buried : JobsDb :=
  { JobsDb.empty with
    dlq := ⟨[⟨30, 7, 3, 10, .null, none, none, 2⟩, ⟨31, 8, 4, 11, .null, none, none, 2⟩], by
      simp [Relational.Constrained.conflict]⟩ }

/--
There are jobs of two organisations.
-/
def Choice.tenants (id : Uuid) : Choice :=
  ⟨id, [⟨3, 10, "mail", "mail", 2, 5, 1000⟩, ⟨4, 11, "bill", "bill", 2, 5, 1000⟩], ⟨200, ""⟩⟩

/--
The entry is retried, and deleted afterwards when it is not there any more.
-/
def retriedInTurn : List (Move (system .plain)) :=
  serves 0 (.retryDlq .owner "mail" 30) 6 (.tenants 9)
    ++ serves 1 (.deleteDlq .owner "mail" 30) 3 (.tenants 10)

example : Config.Along Orderly retriedInTurn (.start .buried) := by
  decide

example : (Config.run retriedInTurn (.start .buried)).map (fun c =>
    (c.world.state.runs.rows.length, c.world.state.dlq.rows.length)) = some (1, 1) := by
  decide

/--
Two retries insert before either of them deletes.
-/
def retriedTwice : List (Move (system .plain)) :=
  .spawn (Request.retryDlq .owner "mail" 30) :: .spawn (Request.retryDlq .owner "mail" 30)
    :: goesOn 0 2 (.tenants 9) ++ goesOn 1 2 (.tenants 10)

theorem not_entriesKept : ¬ EntriesKept .plain (fun _ _ => True) := by
  intro h
  have hturns : Config.tally (Turns 30) retriedTwice (.start .buried) = 2 := by
    decide
  have henters : Config.tally (Enters 30) retriedTwice (.start .buried) = 0 := by
    decide
  have hle := (h .buried retriedTwice (Config.along_true _ _)).2.2 30
  rw [hturns, henters] at hle
  exact absurd hle (by decide)

/--
The owner of one organisation retries the entry of the other one by its identifier.
-/
example : (Config.run (serves 0 (.retryDlq .owner "mail" 31) 6 (.tenants 9)) (.start .buried)).map
    (fun c => (c.world.state.runs.rows.map (fun run => (run.jobId, run.orgId)),
      c.world.state.dlq.rows.map (·.id))) = some ([(4, 11)], [30]) := by
  decide

end Reactor.Jobs
