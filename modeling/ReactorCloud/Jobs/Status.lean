import ReactorCloud.Jobs.Calls
import ReactorCloud.Jobs.Frame

/-!
This module contains what the calls do to the status of a run and which requests write none.
-/

namespace Reactor.Jobs

open Interleave
open Interleave.Program
open Relational (Table)
open Rust (Json Uuid)

/--
The run whose status a call writes, and the status.
-/
def Call.sets : Call → Option (RunId × RunStatus)
  | .updateRunStatus id status _ _ => some (id, status)
  | .setRunSleeping id _ => some (id, .sleeping)
  | .incrementRunAttempt id => some (id, .pending)
  | _ => none

namespace JobsDb

def statusOf (s : JobsDb) (id : RunId) : Option RunStatus :=
  (s.findRun id).map (·.status)

theorem findRun_of_mem {s : JobsDb} {run : Run} (h : run ∈ s.runs)
    : s.findRun run.id = some run := by
  apply Table.find?_eq_some h
  . simp
  . intro r hr
    simpa [Relational.Constrained.conflict] using (eq_of_beq hr).symm

/--
What may become of the status of a run in a call.
-/
inductive Becomes (c : Call) (id : RunId) : Option RunStatus → Option RunStatus → Prop where
  | same (st : Option RunStatus) : Becomes c id st st
  | created : Becomes c id none (some .pending)
  | set {st st' : RunStatus} (h : c.sets = some (id, st')) : Becomes c id (some st) (some st')

theorem updateRun_becomes {c : Call} {s : JobsDb} {id : RunId} {f : Run → Run}
    {hf : ∀ r, (f r).id = r.id} {st : RunStatus} (hc : c.sets = some (id, st))
    (hst : ∀ r, (f r).status = st) (id' : RunId)
    : Becomes c id' (s.statusOf id') ((s.updateRun id f hf).statusOf id') := by
  have hfind : (s.updateRun id f hf).findRun id'
      = (s.findRun id').map (fun r => if r.id == id then f r else r) := by
    have hq : ∀ r, ((f r).id == id') = (r.id == id') := by
      intro r
      rw [hf]
    unfold findRun updateRun
    rw [Table.find?_modify hq]
  unfold statusOf
  rw [hfind]
  cases hrun : s.findRun id' with
  | none => exact .same none
  | some r =>
    have hid : r.id = id' := by
      simpa using Table.prop_of_find? hrun
    simp only [Option.map_some]
    split
    . next heq =>
      rw [hst]
      apply Becomes.set
      rw [hc, ← hid, eq_of_beq heq]
    . exact .same _

theorem createRun_becomes {c : Call} (s : JobsDb) (id : RunId) (new : NewRun) (id' : RunId)
    : Becomes c id' (s.statusOf id') ((s.createRun id new).2.statusOf id') := by
  unfold createRun
  split
  . next runs hinsert =>
    simp only [statusOf, findRun]
    rw [Table.find?_insert hinsert]
    split
    . next heq =>
      have hnone : s.runs.find? (·.id == id') = none := by
        cases hfind : s.runs.find? (·.id == id') with
        | none => rfl
        | some r =>
          have hfree := Table.insert_isSome.mp (by rw [hinsert]; rfl)
          have hne := hfree r (Table.mem_of_find? hfind)
          have hid := Table.prop_of_find? hfind
          simp only [Relational.Constrained.conflict, beq_eq_false_iff_ne] at hne
          exact absurd ((eq_of_beq heq).trans (eq_of_beq hid).symm) hne
      rw [hnone]
      exact .created
    . exact .same _
  . exact .same _

theorem becomes_of_runs {c : Call} {s s' : JobsDb} (h : s'.runs = s.runs) (id : RunId)
    : Becomes c id (s.statusOf id) (s'.statusOf id) := by
  unfold statusOf findRun
  rw [h]
  exact .same _

theorem insertRunFromDlq_becomes {c : Call} (s : JobsDb) (id : RunId) (dlqId : Uuid)
    (x : Choice) (id' : RunId)
    : Becomes c id' (s.statusOf id') ((s.insertRunFromDlq id dlqId x).2.statusOf id') := by
  unfold insertRunFromDlq
  split
  . exact .same _
  . next d _ =>
    split
    . exact .same _
    next job _ =>
    have h := createRun_becomes (c := c) s id
      ⟨d.jobId, d.orgId, none, .manual, d.payload, job.retryMaxAttempts⟩ id'
    split
    . next heq =>
      rw [heq] at h
      exact h
    . next heq =>
      rw [heq] at h
      exact h

theorem exec_becomes (c : Call) (x : Choice) (s : JobsDb) (id : RunId)
    : Becomes c id (s.statusOf id) ((s.exec c x).2.statusOf id) := by
  cases c with
  | createRun new => exact createRun_becomes s x.id new id
  | insertRunFromDlq dlqId => exact insertRunFromDlq_becomes s x.id dlqId x id
  | updateRunStatus id' status errorCode errorMessage =>
    apply updateRun_becomes
    . intro r
      rfl
    . rfl
    . intro r
      rfl
  | setRunSleeping id' wakeupAt =>
    apply updateRun_becomes
    . intro r
      rfl
    . rfl
    . intro r
      rfl
  | incrementRunAttempt id' =>
    apply updateRun_becomes
    . intro r
      rfl
    . rfl
    . intro r
      rfl
  | _ => exact becomes_of_runs (s.exec_runs x (by simp [Call.table])) id

end JobsDb

/--
The same for every answer of a call.
-/
theorem answers_becomes {env : Env} {pid : Nat} {c : Call} {s s' : JobsDb}
    {r : Except JobsError c.Ret} (h : Answers (system env) pid c s r s') (id : RunId)
    : JobsDb.Becomes c id (s.statusOf id) (s'.statusOf id) :=
  answers_keep (P := fun s' => JobsDb.Becomes c id (s.statusOf id) (s'.statusOf id)) h (.same _)
    (fun x => s.exec_becomes c x id)

/--
The call writes no status, or the function of the run asks for it.
-/
def Call.IsQuiet (c : Call) : Prop :=
  c.sets = none ∨ ∃ id wakeupAt, c = .setRunSleeping id wakeupAt

section Quiet

variable {α : Type}

theorem quiet_call {c : Call} {f : c.Ret → JobsM α} (hc : c.IsQuiet)
    (hf : ∀ a, (f a).Uses Call.IsQuiet) : Program.Uses Call.IsQuiet (query c >>= f) :=
  uses_call hc hf

theorem quiet_attempt {c : Call} {f : Except JobsError c.Ret → JobsM α} (hc : c.IsQuiet)
    (hf : ∀ r, (f r).Uses Call.IsQuiet) : Program.Uses Call.IsQuiet ((query c).attempt >>= f) :=
  uses_attempted hc hf

/--
Only the worker, the cancellation and the waking of sleeping runs write a status on their own.
-/
theorem program_quiet (env : Env) {req : Request} (hwork : req ≠ .work)
    (hpoll : req ≠ .pollSleepingRuns) (hcancel : ∀ ctx name runId, req ≠ .cancelRun ctx name runId)
    : (program env req).Uses Call.IsQuiet := by
  apply (program_makes env req).mono
  intro c hmakes
  cases c with
  | setRunSleeping id wakeupAt => exact .inr ⟨id, wakeupAt, rfl⟩
  | updateRunStatus id status errorCode errorMessage =>
    cases hmakes with
    | inl h => cases h
    | inr h =>
      cases req with
      | work => exact absurd rfl hwork
      | pollSleepingRuns => exact absurd rfl hpoll
      | cancelRun ctx name runId => exact absurd rfl (hcancel ctx name runId)
      | _ => cases h
  | incrementRunAttempt id =>
    cases hmakes with
    | inl h => cases h
    | inr h =>
      cases req with
      | work => exact absurd rfl hwork
      | _ => cases h
  | _ => exact .inl rfl

end Quiet
end Reactor.Jobs
