import Mathlib.Data.Finset.Card
import ReactorCloud.Jobs.Status

/-!
This module contains when the concurrency limit of a job holds. The triggers count the active runs in
one call and create a run in a later one, so what is created in between has to fit in as well.
-/

namespace Reactor.Jobs

open Interleave
open Interleave.Program
open Relational (Table)
open Rust (Json Uuid)

namespace RunStatus

theorem isActive_eq (st : RunStatus) : JobsDb.isActive st = !st.isFinal := by
  cases st <;> rfl

end RunStatus

namespace JobsDb

def active (s : JobsDb) (jobId : JobId) : Nat :=
  s.runs.count (fun r => r.jobId == jobId && isActive r.status)

/--
A new run of the job can come from the call in this state.
-/
def adds (s : JobsDb) (jobId : JobId) : Call → Bool
  | .createRun new => new.jobId == jobId
  | .insertRunFromDlq dlqId => (s.findDlq dlqId).any (·.jobId == jobId)
  | _ => false

/--
The call makes a finished run of the job active.
-/
def revives (s : JobsDb) (jobId : JobId) (c : Call) : Bool :=
  c.sets.any fun (id, st) =>
    !st.isFinal && (s.findRun id).any fun r => r.jobId == jobId && r.status.isFinal

end JobsDb

/--
The number as a `u32`.
-/
def castU32 (n : Int) : Nat :=
  (n % 4294967296).toNat

theorem maxConcurrencyU32_eq (job : Job) : job.maxConcurrencyU32 = castU32 job.maxConcurrency := rfl

section Checking

variable {env : Env} (jobId : JobId) (m : Int)

/--
Whether the process has room for a run of the job after the event, as far as the event decides it.
-/
def toggles : Interleave.Event (system env) → Option Bool
  | .call _ (.countActiveRuns j) (.ok n) => if j = jobId then some (n < castU32 m) else none
  | .call _ (.createRun _) _ => some false
  | .finish .. => some false
  | .crash _ => some false
  | _ => none

/--
The process `pid` has counted fewer runs than the limit and has not yet created one.
-/
def Checked (pid : Nat) (w : World (system env)) : Prop :=
  (w.trace.filter (·.pid? == some pid)).findSome? (toggles jobId m) = some true

instance (pid : Nat) (w : World (system env)) : Decidable (Checked jobId m pid w) :=
  inferInstanceAs (Decidable (_ = _))

def checkers (w : World (system env)) : Finset Nat :=
  w.pids.toFinset.filter (Checked jobId m · w)

/--
There is room for one more run besides those that are about to be created.
-/
def Room (w : World (system env)) : Prop :=
  (JobsDb.active w.state jobId + (checkers jobId m w).card : Int) < m

instance (w : World (system env)) : Decidable (Room jobId m w) :=
  inferInstanceAs (Decidable (_ < _))

def isRetry : Interleave.Event (system env) → Bool
  | .spawn _ (.retryRun ..) => true
  | _ => false

/--
The process `pid` serves a retry, which does not look at the limit.
-/
def Retries (pid : Nat) (w : World (system env)) : Prop :=
  Did (fun e => isRetry e = true) pid w

instance (pid : Nat) (w : World (system env)) : Decidable (Retries pid w) :=
  inferInstanceAs (Decidable (Did _ pid w))

def Call.isCreateRun : Call → Bool
  | .createRun _ => true
  | _ => false

def Call.CreatesNone (c : Call) : Prop :=
  c.isCreateRun = false

/--
A check passes, and a run is created without a check, when there is room; and no finished run becomes
active again.
-/
def WithinLimit (w : World (system env)) (e : Interleave.Event (system env)) : Prop :=
  (toggles jobId m e = some true → Room jobId m w)
    ∧ match e with
      | .call pid c _ =>
        (JobsDb.adds w.state jobId c = true → (Call.isCreateRun c = true → Retries pid w) →
            Room jobId m w)
          ∧ JobsDb.revives w.state jobId c = false
      | _ => True

instance (w : World (system env)) : (e : Interleave.Event (system env)) →
    Decidable (WithinLimit jobId m w e)
  | .call .. => inferInstanceAs (Decidable (_ ∧ _ ∧ _))
  | .spawn .. => inferInstanceAs (Decidable (_ ∧ True))
  | .finish .. => inferInstanceAs (Decidable (_ ∧ True))
  | .crash _ => inferInstanceAs (Decidable (_ ∧ True))
  | .tick => inferInstanceAs (Decidable (_ ∧ True))

def jobsFound : Interleave.Event (system env) → List Job
  | .call _ (.getJob ..) (.ok (some job)) => [job]
  | .call _ (.getJobById _) (.ok (some job)) => [job]
  | _ => []

/--
The job has the limit whenever it is read.
-/
def HasLimit (e : Interleave.Event (system env)) : Prop :=
  ∀ job ∈ jobsFound e, job.id = jobId → job.maxConcurrency = m

instance (e : Interleave.Event (system env)) : Decidable (HasLimit jobId m e) :=
  List.decidableBAll _ _

end Checking

/--
The active runs of a job with the limit `m` do not exceed it, in the runs whose steps are `ok` for the
job, from any state in which they do not.
-/
def LimitHolds (env : Env)
    (ok : JobId → Int → World (system env) → Interleave.Event (system env) → Prop) : Prop :=
  ∀ (jobId : JobId) (m : Int) (s : JobsDb) (ms : List (Move (system env))) (c : Config (system env)),
    (s.active jobId : Int) ≤ m → Config.run ms (Config.start s) = some c →
      Config.Along (fun _ e => HasLimit jobId m e) ms (Config.start s) →
        Config.Along (ok jobId m) ms (Config.start s) →
          (JobsDb.active c.world.state jobId : Int) ≤ m

section History

variable {env : Env} {jobId : JobId} {m : Int} {pid : Nat} {w w' : World (system env)}

theorem Checked.extends_iff (h : Extends pid w w') : Checked jobId m pid w' ↔ Checked jobId m pid w := by
  obtain ⟨es, htrace, hes⟩ := h
  have hnone : es.filter (·.pid? == some pid) = [] := by
    rw [List.filter_eq_nil_iff]
    intro e he
    simpa using hes e he
  unfold Checked
  rw [htrace, List.filter_append, hnone, List.nil_append]

theorem Checked.after_iff {s : JobsDb} {e : Interleave.Event (system env)} (hpid : e.pid? = some pid)
    : Checked jobId m pid (w.after s e)
      ↔ toggles jobId m e = some true ∨ (toggles jobId m e = none ∧ Checked jobId m pid w) := by
  unfold Checked
  rw [show (w.after s e).trace = e :: w.trace from rfl, List.filter_cons_of_pos (by simp [hpid]),
    List.findSome?_cons]
  cases toggles jobId m e with
  | none => simp
  | some b => simp

theorem Checked.mem_pids (h : Checked jobId m pid w) : pid ∈ w.pids := by
  obtain ⟨e, he, _⟩ := List.exists_of_findSome?_eq_some h
  rw [List.mem_filter] at he
  exact List.mem_filterMap.mpr ⟨e, he.1, eq_of_beq he.2⟩

theorem mem_checkers : pid ∈ checkers jobId m w ↔ Checked jobId m pid w := by
  unfold checkers
  rw [Finset.mem_filter, List.mem_toFinset]
  constructor
  . exact And.right
  . intro h
    exact ⟨h.mem_pids, h⟩

/--
An event only concerns its own process.
-/
theorem Checked.of_after {s : JobsDb} {e : Interleave.Event (system env)}
    (h : Checked jobId m pid (w.after s e))
    : Checked jobId m pid w ∨ (e.pid? = some pid ∧ toggles jobId m e = some true) := by
  by_cases hpid : e.pid? = some pid
  . cases (Checked.after_iff hpid).mp h with
    | inl htrue => exact .inr ⟨hpid, htrue⟩
    | inr hnone => exact .inl hnone.2
  . exact .inl ((Checked.extends_iff (.after w s e hpid)).mp h)

theorem card_checkers_after (w : World (system env)) (s : JobsDb)
    {e : Interleave.Event (system env)} (h : toggles jobId m e ≠ some true)
    : (checkers jobId m (w.after s e)).card ≤ (checkers jobId m w).card := by
  apply Finset.card_le_card
  intro pid hpid
  rw [mem_checkers] at hpid ⊢
  cases hpid.of_after with
  | inl hold => exact hold
  | inr hnew => exact absurd hnew.2 h

variable (jobId m) in
theorem card_checkers_succ (w : World (system env)) (s : JobsDb)
    (e : Interleave.Event (system env))
    : (checkers jobId m (w.after s e)).card ≤ (checkers jobId m w).card + 1 := by
  cases hpid : e.pid? with
  | none =>
    apply Nat.le_succ_of_le
    apply Finset.card_le_card
    intro pid hmem
    rw [mem_checkers] at hmem ⊢
    cases hmem.of_after with
    | inl hold => exact hold
    | inr hnew => simp [hpid] at hnew
  | some pid =>
    apply (Finset.card_le_card _).trans (Finset.card_insert_le pid _)
    intro pid' hmem
    rw [mem_checkers] at hmem
    rw [Finset.mem_insert, mem_checkers]
    cases hmem.of_after with
    | inl hold => exact .inr hold
    | inr hnew => exact .inl (Option.some.inj (hnew.1.symm.trans hpid))

/--
A process that creates a run gives its room away.
-/
theorem card_checkers_create (s : JobsDb) (new : NewRun) (r : Except JobsError Run)
    (h : Checked jobId m pid w)
    : (checkers jobId m (w.after s (.call pid (Call.createRun new) r))).card + 1
      ≤ (checkers jobId m w).card := by
  rw [← Finset.card_erase_add_one (mem_checkers.mpr h)]
  apply Nat.succ_le_succ
  apply Finset.card_le_card
  intro pid' hmem
  rw [mem_checkers] at hmem
  rw [Finset.mem_erase, mem_checkers]
  constructor
  . rintro rfl
    have := (Checked.after_iff (e := .call pid' (Call.createRun new) r) rfl).mp hmem
    simp [toggles] at this
  . cases hmem.of_after with
    | inl hold => exact hold
    | inr hnew => simp [toggles] at hnew

end History

/-! ## What a call does to the number of active runs -/

namespace JobsDb

variable {s : JobsDb} {jobId : JobId}

theorem active_updateRun {id : RunId} {f : Run → Run} {hf : ∀ r, (f r).id = r.id}
    (hjob : ∀ r, (f r).jobId = r.jobId)
    (h : ∀ r, s.findRun id = some r → r.jobId = jobId → isActive (f r).status = true →
      isActive r.status = true)
    : (s.updateRun id f hf).active jobId ≤ s.active jobId := by
  unfold active updateRun Table.count Table.modify
  rw [List.countP_map]
  apply List.countP_mono_left
  intro r hr hcounts
  simp only [Function.comp_apply] at hcounts
  split at hcounts
  . next hid =>
    simp only [Bool.and_eq_true, beq_iff_eq, hjob] at hcounts ⊢
    have hfind := findRun_of_mem (s := s) hr
    rw [eq_of_beq hid] at hfind
    exact ⟨hcounts.1, h r hfind hcounts.1 hcounts.2⟩
  . exact hcounts

theorem active_createRun (s : JobsDb) (jobId : JobId) (id : RunId) (new : NewRun)
    : (s.createRun id new).2.active jobId
      ≤ s.active jobId + if new.jobId = jobId then 1 else 0 := by
  unfold createRun
  split
  . next runs hinsert =>
    unfold Table.insert at hinsert
    split at hinsert
    . cases hinsert
      unfold active Table.count
      rw [List.countP_cons]
      apply Nat.add_le_add_left
      split
      . next hcounts =>
        simp only [Bool.and_eq_true, beq_iff_eq] at hcounts
        have hjob : new.jobId = jobId := hcounts.1
        simp [hjob]
      . exact Nat.zero_le _
    . cases hinsert
  . exact Nat.le_add_right _ _

variable (jobId) in
theorem active_of_runs {s' : JobsDb} (h : s'.runs = s.runs) : s'.active jobId ≤ s.active jobId := by
  unfold active
  rw [h]

theorem active_insertRunFromDlq (id : RunId) (dlqId : Uuid) (x : Choice)
    : (s.insertRunFromDlq id dlqId x).2.active jobId
      ≤ s.active jobId + if (s.findDlq dlqId).any (·.jobId == jobId) then 1 else 0 := by
  unfold insertRunFromDlq findDlq
  split
  . exact Nat.le_add_right _ _
  . next d hfind =>
    rw [hfind]
    split
    . exact Nat.le_add_right _ _
    . next job _ =>
      have hcreate := s.active_createRun jobId id
        ⟨d.jobId, d.orgId, none, .manual, d.payload, job.retryMaxAttempts⟩
      simp only [Option.any_some, beq_iff_eq]
      split
      . next heq =>
        rw [heq] at hcreate
        exact hcreate
      . next heq =>
        rw [heq] at hcreate
        exact hcreate

theorem exec_active (c : Call) (x : Choice) (s : JobsDb) {jobId : JobId}
    (h : s.revives jobId c = false)
    : (s.exec c x).2.active jobId ≤ s.active jobId + if s.adds jobId c then 1 else 0 := by
  have hkept : ∀ id st, c.sets = some (id, st) → ∀ r, s.findRun id = some r → r.jobId = jobId →
      isActive st = true → isActive r.status = true := by
    intro id st hsets r hfind hjob hactive
    simp only [revives, hsets, Option.any_some, hfind] at h
    rw [RunStatus.isActive_eq] at hactive ⊢
    simpa [hactive, hjob] using h
  cases c with
  | createRun new =>
    simp only [adds, beq_iff_eq]
    exact s.active_createRun jobId x.id new
  | insertRunFromDlq dlqId => exact active_insertRunFromDlq x.id dlqId x
  | updateRunStatus id status errorCode errorMessage =>
    apply Nat.le_add_right_of_le
    apply active_updateRun
    . intro r
      rfl
    . intro r
      rfl
    . exact hkept id status rfl
  | setRunSleeping id wakeupAt =>
    apply Nat.le_add_right_of_le
    apply active_updateRun
    . intro r
      rfl
    . intro r
      rfl
    . exact hkept id .sleeping rfl
  | incrementRunAttempt id =>
    apply Nat.le_add_right_of_le
    apply active_updateRun
    . intro r
      rfl
    . intro r
      rfl
    . exact hkept id .pending rfl
  | _ => exact Nat.le_add_right_of_le (active_of_runs jobId (s.exec_runs x (by simp [Call.table])))

end JobsDb

theorem answers_active {env : Env} {pid : Nat} {c : Call} {s s' : JobsDb} {jobId : JobId}
    {r : Except JobsError c.Ret} (h : Answers (system env) pid c s r s')
    (hrevives : s.revives jobId c = false)
    : s'.active jobId ≤ s.active jobId + if s.adds jobId c then 1 else 0 :=
  answers_keep (P := fun s' => s'.active jobId ≤ _) h (Nat.le_add_right _ _)
    (fun x => s.exec_active c x hrevives)

/-! ## The outline -/

def limitOutline (env : Env) (jobId : JobId) (m : Int) : Outline (system env) where
  inv w := (JobsDb.active w.state jobId + (checkers jobId m w).card : Int) ≤ m
  ok w e := HasLimit jobId m e ∧ WithinLimit jobId m w e
  safe _ _ := True
  rely _ _ _ := True
  post _ _ _ _ := True
  rely_refl _ _ := trivial
  rely_trans _ _ _ _ _ _ := trivial

section Steps

variable {env : Env} {jobId : JobId} {m : Int} {pid : Nat} {w : World (system env)}

/--
A run is created after a check or by a retry.
-/
def Licensed (jobId : JobId) (m : Int) (pid : Nat) (c : Call) (w : World (system env)) : Prop :=
  ∀ new, c = .createRun new → new.jobId = jobId → Checked jobId m pid w ∨ Retries pid w

theorem keeps_licensed {c : Call} {r : Except JobsError c.Ret} {s : JobsDb}
    (hinv : (limitOutline env jobId m).inv w) (hanswer : Answers (system env) pid c w.state r s)
    (hok : (limitOutline env jobId m).ok w (.call pid c r)) (h : Licensed jobId m pid c w)
    : (limitOutline env jobId m).Keeps w s (.call pid c r) := by
  obtain ⟨_, hcheck, hcreate, hrevives⟩ := hok
  have hactive := answers_active hanswer hrevives
  refine ⟨trivial, ?_, fun _ _ => trivial⟩
  show (JobsDb.active s jobId + (checkers jobId m (w.after s (.call pid c r))).card : Int) ≤ m
  have hinv : (JobsDb.active w.state jobId + (checkers jobId m w).card : Int) ≤ m := hinv
  cases hadds : JobsDb.adds w.state jobId c with
  | false =>
    rw [hadds] at hactive
    by_cases htoggles : toggles jobId m (.call pid c r : Interleave.Event (system env)) = some true
    . have hroom : (JobsDb.active w.state jobId + (checkers jobId m w).card : Int) < m :=
        hcheck htoggles
      have hcard := card_checkers_succ jobId m w s (.call pid c r)
      simp only [Bool.false_eq_true, ↓reduceIte] at hactive
      omega
    . have hcard := card_checkers_after w s htoggles
      simp only [Bool.false_eq_true, ↓reduceIte] at hactive
      omega
  | true =>
    rw [hadds] at hactive
    simp only [↓reduceIte] at hactive
    by_cases hchecked : Call.isCreateRun c = true ∧ ¬ Retries pid w
    . obtain ⟨hc, hretries⟩ := hchecked
      cases c with
      | createRun new =>
        have hnew := h new rfl (by simpa [JobsDb.adds] using hadds)
        have hcard := card_checkers_create s new r (hnew.resolve_right hretries)
        omega
      | _ => cases hc
    . have hroom : (JobsDb.active w.state jobId + (checkers jobId m w).card : Int) < m := by
        apply hcreate hadds
        intro hc
        by_contra hretries
        exact hchecked ⟨hc, hretries⟩
      have htoggles : toggles jobId m (.call pid c r : Interleave.Event (system env)) ≠ some true := by
        cases c with
        | createRun new => simp [toggles]
        | insertRunFromDlq dlqId => simp [toggles]
        | _ => cases hadds
      have hcard := card_checkers_after w s htoggles
      omega

end Steps

/-! ## The programs -/

section Programs

variable {env : Env} {jobId : JobId} {m : Int} {pid : Nat} {w : World (system env)} {α : Type}

theorem Licensed.of_ne {c : Call} (h : Call.isCreateRun c = false) : Licensed jobId m pid c w := by
  rintro new rfl
  cases h

theorem wp_uncreating {x : JobsM α} (hx : x.Uses Call.CreatesNone)
    : (limitOutline env jobId m).Wp pid (fun _ _ => True) x w := by
  apply Outline.wp_of_uses hx trivial (fun _ _ _ _ _ => trivial)
  intro c hc w r s _ hinv hanswer hok
  exact ⟨keeps_licensed hinv hanswer hok (.of_ne hc), trivial⟩

/--
A program after another one of which only the answer is kept.
-/
theorem wp_then {β : Type} {x : JobsM β} {f : β → JobsM α}
    (hx : (limitOutline env jobId m).Wp pid (fun _ _ => True) x w)
    (hf : ∀ b w, (limitOutline env jobId m).Wp pid (fun _ _ => True) (f b) w)
    : (limitOutline env jobId m).Wp pid (fun _ _ => True) (x >>= f) w := by
  apply Outline.wp_bind
  refine Outline.wp_mono hx ?_
  intro r w' _ _
  cases r with
  | ok b => exact hf b w'
  | error e => exact wp_uncreating (uses_fail e)

/--
A call that creates no run, with what the condition on the runs says of its answer.
-/
theorem wp_query {c : Call} {f : c.Ret → JobsM α} {A : World (system env) → Prop} (hA : A w)
    (hstable : ∀ w w', Extends pid w w' → A w → A w') (hc : Call.isCreateRun c = false)
    (hnext : ∀ w a s, A w → Answers (system env) pid c w.state (.ok a) s →
      HasLimit jobId m (.call pid c (.ok a) : Interleave.Event (system env)) →
        (limitOutline env jobId m).Wp pid (fun _ _ => True) (f a) (w.after s (.call pid c (.ok a))))
    : (limitOutline env jobId m).Wp pid (fun _ _ => True) (query c >>= f) w := by
  apply Outline.wp_call
  intro w' hrely hinv r s hanswer hok
  constructor
  . exact keeps_licensed hinv hanswer hok (.of_ne hc)
  . cases r with
    | ok a => exact hnext w' a s (hstable w w' hrely.1 hA) hanswer hok.1
    | error e => exact wp_uncreating (uses_fail e)

/--
The process may create a run of the job.
-/
def Cleared (jobId : JobId) (m : Int) (pid : Nat) (id : JobId) (w : World (system env)) : Prop :=
  id = jobId → Checked jobId m pid w ∨ Retries pid w

theorem Cleared.extends {w' : World (system env)} {id : JobId} (h : Extends pid w w')
    (hcleared : Cleared jobId m pid id w) : Cleared jobId m pid id w' := by
  unfold Cleared Retries at hcleared ⊢
  rw [Checked.extends_iff h, Did.extends_iff h]
  exact hcleared

theorem createAndEnqueue_wp {new : NewRun} (h : Cleared jobId m pid new.jobId w)
    : (limitOutline env jobId m).Wp pid (fun _ _ => True) (createAndEnqueue new) w := by
  unfold createAndEnqueue
  apply Outline.wp_call
  intro w' hrely hinv r s hanswer hok
  constructor
  . apply keeps_licensed hinv hanswer hok
    rintro new' heq hjob
    cases heq
    exact h.extends hrely.1 hjob
  . cases r with
    | error e => exact wp_uncreating (uses_fail e)
    | ok run =>
      apply wp_uncreating
      apply uses_call
      . rfl
      intro _
      exact uses_pure _

/--
A count below the limit of the job clears the process.
-/
theorem cleared_of_count {job : Job} {n : Nat} {s : JobsDb}
    (hlimit : job.id = jobId → job.maxConcurrency = m) (hlt : n < job.maxConcurrencyU32)
    : Cleared jobId m pid job.id (w.after s (.call pid (Call.countActiveRuns job.id) (.ok n))) := by
  intro hid
  apply Or.inl
  apply (Checked.after_iff rfl).mpr
  apply Or.inl
  rw [maxConcurrencyU32_eq, hlimit hid] at hlt
  simp [toggles, hid, hlt]

theorem requireConcurrency_wp {job : Job} {name : String} {f : Unit → JobsM α}
    (hlimit : job.id = jobId → job.maxConcurrency = m)
    (hf : ∀ w, Cleared jobId m pid job.id w →
      (limitOutline env jobId m).Wp pid (fun _ _ => True) (f ()) w)
    : (limitOutline env jobId m).Wp pid (fun _ _ => True) (requireConcurrency job name >>= f) w := by
  unfold requireConcurrency
  rw [bind_assoc]
  apply wp_query (A := fun _ => True) trivial (fun _ _ _ _ => trivial) rfl
  intro w₁ n s₁ _ _ _
  apply Outline.wp_require
  . intro hlt
    apply hf
    apply cleared_of_count hlimit
    simpa using hlt
  . intro _
    exact wp_uncreating (uses_fail _)

/--
The job a request is about.
-/
theorem findJob_wp {ctx : JobCtx} {name : String} {f : Job → JobsM α} {A : World (system env) → Prop}
    (hA : A w) (hstable : ∀ w w', Extends pid w w' → A w → A w')
    (hcall : ∀ w s c r, A w → A (w.after s (.call pid c r)))
    (hf : ∀ job w, A w → (job.id = jobId → job.maxConcurrency = m) →
      (limitOutline env jobId m).Wp pid (fun _ _ => True) (f job) w)
    : (limitOutline env jobId m).Wp pid (fun _ _ => True) (findJob ctx name >>= f) w := by
  unfold findJob
  rw [bind_assoc]
  apply wp_query hA hstable rfl
  intro w₁ job s₁ hA₁ _ hlimit
  apply Outline.wp_okOr
  . rintro job rfl
    exact hf job _ (hcall _ _ _ _ hA₁) (hlimit job List.mem_cons_self)
  . intro _
    exact wp_uncreating (uses_fail _)

theorem manualTrigger_wp (ctx : JobCtx) (name : String) (payload : Json)
    : (limitOutline env jobId m).Wp pid (fun _ _ => True) (manualTrigger ctx name payload) w := by
  unfold manualTrigger requireJobPermission
  apply Outline.wp_require
  . intro _
    apply findJob_wp (A := fun _ => True) trivial (fun _ _ _ _ => trivial) (fun _ _ _ _ _ => trivial)
    intro job w₁ _ hlimit
    apply requireConcurrency_wp hlimit
    intro w₂ hcleared
    exact createAndEnqueue_wp hcleared
  . intro _
    exact wp_uncreating (uses_fail _)

theorem webhookTrigger_wp (config : JobsConfig) (decode : String → Option JobId)
    (parsePayload : List UInt8 → Json) (token : String) (body : List UInt8)
    : (limitOutline env jobId m).Wp pid (fun _ _ => True)
        (webhookTrigger config decode parsePayload token body) w := by
  unfold webhookTrigger
  apply Outline.wp_okOr
  . intro id _
    apply wp_query (A := fun _ => True) trivial (fun _ _ _ _ => trivial) rfl
    intro w₁ job s₁ _ _ hlimit
    apply Outline.wp_okOr
    . rintro job rfl
      have hlimit := hlimit job List.mem_cons_self
      apply wp_query (A := fun _ => True) trivial (fun _ _ _ _ => trivial) rfl
      intro w₂ trigger s₂ _ _ _
      apply Outline.wp_okOr
      . intro trigger _
        apply Outline.wp_require
        . intro _
          apply requireConcurrency_wp hlimit
          intro w₃ hcleared
          apply Outline.wp_require
          . intro _
            exact createAndEnqueue_wp hcleared
          . intro _
            exact wp_uncreating (uses_fail _)
        . intro _
          exact wp_uncreating (uses_fail _)
      . intro _
        exact wp_uncreating (uses_fail _)
    . intro _
      exact wp_uncreating (uses_fail _)
  . intro _
    exact wp_uncreating (uses_fail _)

theorem retryRun_wp (ctx : JobCtx) (name : String) (runId : RunId) (h : Retries pid w)
    : (limitOutline env jobId m).Wp pid (fun _ _ => True) (retryRun ctx name runId) w := by
  have hstable : ∀ w w' : World (system env), Extends pid w w' → Retries pid w → Retries pid w' := by
    intro w w' hextends
    exact (Did.extends_iff hextends).mpr
  unfold retryRun requireJobPermission findRun
  apply Outline.wp_require
  . intro _
    simp only [bind_assoc, pure_bind]
    apply findJob_wp h hstable (fun _ s _ _ h => h.after s _)
    intro job w₁ h₁ _
    apply wp_query h₁ hstable rfl
    intro w₂ run s₂ h₂ _ _
    apply Outline.wp_okOr
    . intro run _
      apply Outline.wp_require
      . intro _
        apply wp_then
        . apply createAndEnqueue_wp
          intro _
          exact .inr (h₂.after s₂ _)
        . intro new w₃
          apply wp_uncreating
          apply uses_attempted
          . rfl
          intro _
          exact uses_pure _
      . intro _
        exact wp_uncreating (uses_fail _)
    . intro _
      exact wp_uncreating (uses_fail _)
  . intro _
    exact wp_uncreating (uses_fail _)

theorem fireTrigger_wp (kind : TriggerKind) (payload : Json) {fired : Run → JobsM Unit}
    (hfired : ∀ run, (fired run).Uses Call.CreatesNone) (trigger : Trigger)
    : (limitOutline env jobId m).Wp pid (fun _ _ => True) (fireTrigger trigger kind payload fired)
        w := by
  unfold fireTrigger
  apply wp_query (A := fun _ => True) trivial (fun _ _ _ _ => trivial) rfl
  intro w₁ job s₁ _ _ hlimit
  cases job with
  | none => exact wp_uncreating (uses_pure _)
  | some job =>
    have hlimit := hlimit job List.mem_cons_self
    apply wp_query (A := fun _ => True) trivial (fun _ _ _ _ => trivial) rfl
    intro w₂ activeRuns s₂ _ _ _
    split
    . exact wp_uncreating (uses_pure _)
    . next hlt =>
      apply wp_then
      . apply createAndEnqueue_wp
        exact cleared_of_count hlimit (Nat.lt_of_not_le hlt)
      . intro run w₃
        exact wp_uncreating (hfired run)

theorem fireTriggers_wp (kind : TriggerKind) (payload : Json) {fired : Trigger → Run → JobsM Unit}
    (hfired : ∀ trigger run, (fired trigger run).Uses Call.CreatesNone)
    (triggers : List Trigger)
    : (limitOutline env jobId m).Wp pid (fun _ _ => True) (fireTriggers kind payload fired triggers)
        w := by
  induction triggers generalizing w with
  | nil => exact wp_uncreating (uses_pure _)
  | cons trigger triggers ih =>
    unfold fireTriggers
    apply wp_then (fireTrigger_wp kind payload (hfired trigger) trigger)
    intro _ _
    exact ih

theorem pollCronTriggers_wp (parseSchedule : String → Option Schedule)
    : (limitOutline env jobId m).Wp pid (fun _ _ => True) (pollCronTriggers parseSchedule) w := by
  unfold pollCronTriggers
  apply wp_query (A := fun _ => True) trivial (fun _ _ _ _ => trivial) rfl
  intro w₁ now s₁ _ _ _
  apply wp_query (A := fun _ => True) trivial (fun _ _ _ _ => trivial) rfl
  intro w₂ triggers s₂ _ _ _
  apply fireTriggers_wp
  intro trigger run
  apply uses_call
  . rfl
  intro later
  exact uses_request _ rfl

theorem matchEvents_wp (events : List Event)
    : (limitOutline env jobId m).Wp pid (fun _ _ => True) (matchEvents events) w := by
  induction events generalizing w with
  | nil => exact wp_uncreating (uses_pure _)
  | cons event events ih =>
    unfold matchEvents
    apply wp_query (A := fun _ => True) trivial (fun _ _ _ _ => trivial) rfl
    intro w₁ triggers s₁ _ _ _
    apply wp_then
    . apply fireTriggers_wp
      intro trigger run
      exact uses_request _ rfl
    . intro _ w₂
      exact ih

theorem pollEvents_wp
    : (limitOutline env jobId m).Wp pid (fun _ _ => True) pollEvents w := by
  unfold pollEvents
  apply wp_query (A := fun _ => True) trivial (fun _ _ _ _ => trivial) rfl
  intro w₁ events s₁ _ _ _
  exact matchEvents_wp events

end Programs

/-! ## All requests -/

section Sound

variable {env : Env} {jobId : JobId} {m : Int} {w : World (system env)}

theorem createsNone_of_makes {req : Request} {c : Call} (h : req.Makes c)
    (hreq : ∀ new, req.writes (.createRun new) = false) : c.CreatesNone := by
  cases c with
  | createRun new =>
    cases h with
    | inl h => cases h
    | inr h =>
      rw [hreq new] at h
      cases h
  | _ => rfl

/--
A request that creates no run by itself.
-/
theorem wp_other {req : Request} {pid : Nat} (hreq : ∀ new, req.writes (.createRun new) = false)
    : (limitOutline env jobId m).Wp pid (fun _ _ => True) (program env req) w := by
  apply wp_uncreating
  apply (program_makes env req).mono
  intro c hmakes
  exact createsNone_of_makes hmakes hreq

theorem limit_wp (req : Request) (pid : Nat) (s : JobsDb)
    : (limitOutline env jobId m).Wp pid (fun _ _ => True) (program env req)
        (w.after s (.spawn pid req)) := by
  cases req with
  | pollCronTriggers => exact pollCronTriggers_wp _
  | pollEvents => exact pollEvents_wp
  | manualTrigger ctx name payload => exact manualTrigger_wp ctx name payload
  | webhookTrigger token body => exact webhookTrigger_wp _ _ _ token body
  | retryRun ctx name runId =>
    apply retryRun_wp
    exact Did.after_iff.mpr (.inl ⟨rfl, rfl⟩)
  | _ => exact wp_other fun _ => rfl

/--
An event other than a call gives no one room.
-/
theorem keeps_uncounted {s : JobsDb} {e : Interleave.Event (system env)}
    (hinv : (limitOutline env jobId m).inv w) (hruns : s.runs = w.state.runs)
    (htoggles : toggles jobId m e ≠ some true) : (limitOutline env jobId m).Keeps w s e := by
  refine ⟨trivial, ?_, fun _ _ => trivial⟩
  have hactive := JobsDb.active_of_runs jobId hruns
  have hcard := card_checkers_after w s htoggles
  have hinv : (JobsDb.active w.state jobId + (checkers jobId m w).card : Int) ≤ m := hinv
  show (JobsDb.active s jobId + (checkers jobId m (w.after s e)).card : Int) ≤ m
  omega

theorem limitOutline_sound : (limitOutline env jobId m).Sound where
  spawn w pid req hinv _ _ := keeps_uncounted hinv rfl (by simp [toggles])
  program w pid req _ _ _ := limit_wp req pid w.state
  finish w pid req r hinv _ _ _ := keeps_uncounted hinv rfl (by simp [toggles])
  crash w pid req hinv _ _ := keeps_uncounted hinv rfl (by simp [toggles])
  tick w t hinv _ := keeps_uncounted hinv rfl (by simp [toggles])

end Sound

theorem limitHolds (env : Env) : LimitHolds env WithinLimit := by
  intro jobId m s ms c hactive hrun hlimit hok
  have hvalid : (limitOutline env jobId m).Valid (Config.start s) := by
    apply Outline.Valid.start
    have hnone : checkers jobId m (⟨s, []⟩ : World (system env)) = ∅ := rfl
    show (JobsDb.active s jobId + (checkers jobId m (⟨s, []⟩ : World (system env))).card : Int) ≤ m
    rw [hnone]
    simpa using hactive
  have hinv := (limitOutline_sound.run hvalid (Config.along_and hlimit hok) hrun).1.inv
  have hinv : (JobsDb.active c.world.state jobId + (checkers jobId m c.world).card : Int) ≤ m := hinv
  omega

/--
The only job may have one active run.
-/
def Choice.single (id : Uuid) : Choice :=
  ⟨id, [⟨3, 10, "mail", "mail", 2, 1, 1000⟩], ⟨200, ""⟩⟩

def mail : Request :=
  .manualTrigger .owner "mail" .null

/--
A run is triggered and executed before the next one is triggered.
-/
def oneByOne : List (Move (system .plain)) :=
  serves 0 mail 4 (.single 7) ++ serves 1 .work 9 (.single 8) ++ serves 2 mail 4 (.single 9)

example : Config.Along (WithinLimit 3 1) oneByOne (.start .empty) := by
  decide +kernel

example : (Config.run oneByOne (.start .empty)).map (fun c => (c.world.state.runs.rows.length,
    c.world.state.active 3)) = some (2, 1) := by
  decide +kernel

/--
Two requests count before either of them creates its run.
-/
def sideBySide : List (Move (system .plain)) :=
  .spawn mail :: .spawn mail :: goesOn 0 2 (.single 7) ++ goesOn 1 3 (.single 8)
    ++ goesOn 0 1 (.single 9)

theorem not_limitHolds : ¬ LimitHolds .plain (fun _ _ _ _ => True) := by
  intro h
  have hrun : (Config.run sideBySide (.start .empty)).any (fun c =>
      decide (1 < JobsDb.active c.world.state 3)) = true := by
    decide
  obtain ⟨c, hrun, hcheck⟩ := Config.exists_of_any hrun
  have hlimit : Config.Along (fun _ e => HasLimit 3 1 e) sideBySide (.start .empty) := by
    decide
  have hle := h 3 1 .empty _ c (by decide) hrun hlimit (Config.along_true _ _)
  have hlt : 1 < JobsDb.active c.world.state 3 := of_decide_eq_true hcheck
  omega

/--
A retry does not count at all.
-/
example :
    let ms := serves 0 mail 4 (.single 7) ++ serves 1 (.retryRun .owner "mail" 7) 5 (.single 8)
    (Config.run ms (.start .empty)).map (fun c => c.world.state.active 3) = some 2 := by
  decide

end Reactor.Jobs
