import ReactorCloud.Data.Migrate.Runner
import ReactorCloud.Rust.Result

/-!
This module proves when a recorded migration is a completely applied one, in all runs and with all
failures.
-/

namespace Reactor.Data.Migrate

open Dialect (Migration PolicyStmt)

namespace MigrationRunner

variable (runner : MigrationRunner)

/--
All policies of a migration file are in the store.
-/
def Stored (file : MigrationFile) (db : Db) : Prop :=
  ∀ migration, runner.prepare file = .ok migration →
    ∀ policy ∈ policiesOf migration, ∃ row ∈ db.policies, runner.policyRow file.name policy = .ok row

/--
Every migration that is recorded has all of its policies.
-/
def Complete (db : Db) : Prop :=
  ∀ file ∈ runner.source, file.name ∈ db.migrations.map Prod.fst → runner.Stored file db

/--
An attempt that fails leaves nothing behind, and one that succeeds everything.
-/
def Atomic (attempt : Attempt) : Prop :=
  (∀ e, attempt.result = .error e → attempt.after = attempt.before)
    ∧ (attempt.result = .ok () → runner.Stored attempt.file attempt.after)

end MigrationRunner

def Faults.Commits (faults : Faults) : Prop :=
  faults.begin = none ∧ faults.executeDdl = none ∧ faults.recordMigration = none
    ∧ faults.commit = none

/--
None of the new rows has the key of a row before it.
-/
def Fresh : List StoredPolicy → List StoredPolicy → Prop
  | _, [] => True
  | rows, row :: new => rows.any row.sameKey = false ∧ Fresh (rows ++ [row]) new

namespace MigrationRunner

section

variable (runner : MigrationRunner)

/--
If the transaction commits, then nothing that is still to be done fails: the policies are valid,
their keys are new, and neither the inserts nor the refresh fail.
-/
def Clean (faults : Faults) (file : MigrationFile) (db : Db) : Prop :=
  ∀ migration, runner.prepare file = .ok migration → faults.Commits →
    file.name ∉ db.migrations.map Prod.fst →
    (∃ rows, (policiesOf migration).mapM (runner.policyRow file.name) = .ok rows
      ∧ Fresh db.policies rows)
    ∧ (∀ policy ∈ policiesOf migration, faults.insertPolicy policy.name = none)
    ∧ faults.refreshTables = none

end

theorem attempted_eq_ok {fault : Option String} {u : Unit} : attempted fault = .ok u ↔ fault = none := by
  cases fault <;> simp [attempted]

theorem transact_eq_ok {faults : Faults} {file : MigrationFile} {migration : Migration} {db db' : Db}
    : transact faults file migration db = .ok db'
        ↔
      faults.Commits ∧ file.name ∉ db.migrations.map Prod.fst
        ∧ db' = db.record file migration := by
  have hname : db.migrations.any (·.1 = file.name) = true ↔ file.name ∈ db.migrations.map Prod.fst := by
    simp [List.any_eq_true]
  unfold transact Faults.Commits
  split
  . next hany =>
    simp [Rust.bind_eq_ok, hname.mp hany]
  . next hany =>
    rw [hname] at hany
    simp only [Rust.bind_eq_ok, attempted_eq_ok, Except.ok.injEq, hany, not_false_eq_true, true_and]
    grind

variable {runner : MigrationRunner}

/--
What is stored if nothing fails, and that nothing failed if the store reports success.
-/
theorem storePolicies_eq_ok {faults : Faults} {name : String} {policies : List PolicyStmt}
    {rows rows' : List StoredPolicy}
    : runner.storePolicies faults name policies rows = (.ok (), rows')
        ↔
      ∃ new, policies.mapM (runner.policyRow name) = .ok new ∧ Fresh rows new
        ∧ (∀ policy ∈ policies, faults.insertPolicy policy.name = none) ∧ rows' = rows ++ new := by
  induction policies generalizing rows with
  | nil =>
    simp only [storePolicies, List.mapM_nil, pure, Except.pure, Except.ok.injEq, Prod.mk.injEq,
      true_and]
    constructor
    . rintro rfl
      exact ⟨[], rfl, trivial, by simp, by simp⟩
    . rintro ⟨new, rfl, _, _, h⟩
      simpa using h.symm
  | cons policy policies ih =>
    simp only [Rust.mapM_cons_eq_ok, List.forall_mem_cons]
    unfold storePolicies
    cases hrow : runner.policyRow name policy with
    | error e => simp
    | ok row =>
      unfold insertPolicy
      cases hfault : faults.insertPolicy policy.name with
      | some message => simp
      | none =>
        by_cases hany : rows.any row.sameKey = true
        . simp only [hany, if_true, Prod.mk.injEq, reduceCtorEq, false_and, false_iff]
          rintro ⟨_, ⟨_, _, heq, _, rfl⟩, hfresh, _⟩
          simp only [Except.ok.injEq] at heq
          subst heq
          simp [Fresh, hany] at hfresh
        . rw [Bool.not_eq_true] at hany
          simp only [hany, Bool.false_eq_true, if_false, ih]
          constructor
          . rintro ⟨new, hnew, hfresh, hfaults, hrows⟩
            exact ⟨row :: new, ⟨row, new, rfl, hnew, rfl⟩, ⟨hany, hfresh⟩, ⟨trivial, hfaults⟩,
              by simp [hrows]⟩
          . rintro ⟨_, ⟨_, new, heq, hnew, rfl⟩, hfresh, ⟨_, hfaults⟩, hrows⟩
            simp only [Except.ok.injEq] at heq
            subst heq
            exact ⟨new, hnew, hfresh.2, hfaults, by simp [hrows]⟩

/--
Policies are only added.
-/
theorem prefix_storePolicies (faults : Faults) (name : String) (policies : List PolicyStmt)
    (rows : List StoredPolicy)
    : rows <+: (runner.storePolicies faults name policies rows).2 := by
  induction policies generalizing rows with
  | nil => exact List.prefix_rfl
  | cons policy policies ih =>
    unfold storePolicies
    cases runner.policyRow name policy with
    | error e => exact List.prefix_rfl
    | ok row =>
      unfold insertPolicy
      cases faults.insertPolicy policy.name with
      | some message => exact List.prefix_rfl
      | none =>
        simp only
        by_cases hany : rows.any row.sameKey = true
        . rw [if_pos hany]
        . rw [if_neg hany]
          exact (List.prefix_append rows [row]).trans (ih (rows ++ [row]))

/--
Everything that one attempt can do: either nothing happens, or the transaction commits and then the
policies are stored as far as possible.
-/
theorem attempt_cases (faults : Faults) (file : MigrationFile) (db : Db)
    : ((∃ e, runner.attempt faults file db = ⟨db, file, faults, .error e, db⟩)
          ∧ ¬ (∃ migration, runner.prepare file = .ok migration ∧ faults.Commits
            ∧ file.name ∉ db.migrations.map Prod.fst))
        ∨
      ∃ migration stored rows, runner.prepare file = .ok migration ∧ faults.Commits
        ∧ file.name ∉ db.migrations.map Prod.fst
        ∧ runner.storePolicies faults file.name (policiesOf migration) db.policies = (stored, rows)
        ∧ runner.attempt faults file db = ⟨
          db, file, faults,
          stored.bind (fun _ => attempted faults.refreshTables),
          { db.record file migration with policies := rows }⟩ := by
  unfold attempt applySingle
  cases hprepare : runner.prepare file with
  | error e => simp
  | ok migration =>
    cases htransact : transact faults file migration db with
    | error e =>
      left
      refine ⟨⟨e, by simp [htransact]⟩, ?_⟩
      rintro ⟨_, heq, hcommits, hname⟩
      simp only [Except.ok.injEq] at heq
      subst heq
      rw [transact_eq_ok.mpr ⟨hcommits, hname, rfl⟩] at htransact
      cases htransact
    | ok db' =>
      right
      have ⟨hcommits, hname, hdb⟩ := transact_eq_ok.mp htransact
      subst hdb
      refine ⟨migration, _, _, rfl, hcommits, hname, rfl, ?_⟩
      simp only [Db.record, htransact]
      cases (runner.storePolicies faults file.name (policiesOf migration) db.policies).1 with
      | error e => rfl
      | ok u => rfl

theorem prefix_attempt (faults : Faults) (file : MigrationFile) (db : Db)
    : db.policies <+: (runner.attempt faults file db).after.policies := by
  cases @attempt_cases runner faults file db with
  | inl h =>
    have ⟨⟨e, h⟩, _⟩ := h
    simp [h]
  | inr h =>
    have ⟨migration, stored, rows, _, _, _, hstore, h⟩ := h
    have := @prefix_storePolicies runner faults file.name (policiesOf migration) db.policies
    simpa [h, hstore] using this

/--
The step: an attempt is all or nothing exactly if it meets the condition.
-/
theorem atomic_attempt_iff (faults : Faults) (file : MigrationFile) (db : Db)
    : runner.Atomic (runner.attempt faults file db) ↔ runner.Clean faults file db := by
  cases @attempt_cases runner faults file db with
  | inl h =>
    obtain ⟨⟨e, hattempt⟩, hnone⟩ := h
    rw [hattempt]
    constructor
    . intro _ migration hprepare hcommits hname
      exact absurd ⟨migration, hprepare, hcommits, hname⟩ hnone
    . intro _
      exact ⟨fun _ _ => rfl, by simp⟩
  | inr h =>
    obtain ⟨migration, stored, rows, hprepare, hcommits, hname, hstore, hattempt⟩ := h
    rw [hattempt]
    constructor
    . intro hatomic migration' hprepare' _ _
      rw [hprepare, Except.ok.injEq] at hprepare'
      subst hprepare'
      -- The record is in the migrations table, so that the attempt cannot have failed.
      have hok (e : MigrationError)
          : stored.bind (fun _ => attempted faults.refreshTables) ≠ .error e := by
        intro herror
        have := congrArg (List.length ∘ Db.migrations) (hatomic.1 e herror)
        simp [Db.record] at this
      cases stored with
      | error e => exact absurd rfl (hok e)
      | ok u =>
        obtain ⟨new, hnew, hfresh, hfaults, _⟩ := storePolicies_eq_ok.mp hstore
        refine ⟨⟨new, hnew, hfresh⟩, hfaults, ?_⟩
        cases hrefresh : faults.refreshTables with
        | none => rfl
        | some message =>
          exact absurd (by simp [hrefresh, Except.bind, attempted]) (hok (.database message))
    . intro hclean
      obtain ⟨⟨new, hnew, hfresh⟩, hfaults, hrefresh⟩ := hclean migration hprepare hcommits hname
      rw [storePolicies_eq_ok.mpr ⟨new, hnew, hfresh, hfaults, rfl⟩, Prod.mk.injEq] at hstore
      obtain ⟨hstored, hrows⟩ := hstore
      subst hstored hrows
      constructor
      . simp [hrefresh, Except.bind, attempted]
      . intro _ migration' hprepare' policy hpolicy
        simp only at hprepare' hpolicy ⊢
        rw [hprepare, Except.ok.injEq] at hprepare'
        subst hprepare'
        obtain ⟨row, hrow, hpolicyRow⟩ := Rust.exists_mem_of_mapM_eq_ok hnew hpolicy
        exact ⟨row, List.mem_append_right _ hrow, hpolicyRow⟩

theorem Stored.mono {file : MigrationFile} {db db' : Db} (h : runner.Stored file db)
    (hsub : ∀ row ∈ db.policies, row ∈ db'.policies) : runner.Stored file db' := by
  intro migration hprepare policy hpolicy
  have ⟨row, hrow, hpolicyRow⟩ := h migration hprepare policy hpolicy
  exact ⟨row, hsub row hrow, hpolicyRow⟩

theorem Complete.attempt {faults : Faults} {file : MigrationFile} {db : Db} (h : runner.Complete db)
    (hfile : file ∈ runner.source) (hatomic : runner.Atomic (runner.attempt faults file db))
    : runner.Complete (runner.attempt faults file db).after := by
  cases hresult : (runner.attempt faults file db).result with
  | error e =>
    rw [hatomic.1 e hresult]
    exact h
  | ok u =>
    have hstored := hatomic.2 hresult
    have hpolicies := (@prefix_attempt runner faults file db).subset
    intro file' hfile' hname'
    by_cases heq : file'.name = file.name
    . rw [List.inj_on_of_nodup_map runner.source_nodup hfile' hfile heq]
      exact hstored
    . apply Stored.mono (h file' hfile' ?_) hpolicies
      cases @attempt_cases runner faults file db with
      | inl hcases =>
        have ⟨⟨e, hattempt⟩, _⟩ := hcases
        simpa [hattempt] using hname'
      | inr hcases =>
        have ⟨_, _, _, _, _, _, _, hattempt⟩ := hcases
        rw [hattempt] at hname'
        simpa [Db.record, heq] using hname'

theorem applyPending_complete {faults : RunFaults} {count : Nat} {db : Db} {files : List MigrationFile}
    (h : runner.Complete db) (hfiles : ∀ file ∈ files, file ∈ runner.source)
    (hatomic : ∀ attempt ∈ (runner.applyPending faults count db files).attempts, runner.Atomic attempt)
    : (∀ attempt ∈ (runner.applyPending faults count db files).attempts, runner.Complete attempt.after)
        ∧ runner.Complete (runner.applyPending faults count db files).db := by
  induction files generalizing count db with
  | nil => exact ⟨by simp [applyPending], h⟩
  | cons file files ih =>
    simp only [List.forall_mem_cons] at hfiles
    unfold applyPending at hatomic ⊢
    cases hresult : (runner.attempt (faults.apply file.name) file db).result with
    | error e =>
      simp only [hresult, List.forall_mem_singleton] at hatomic ⊢
      exact ⟨h.attempt hfiles.1 hatomic, h.attempt hfiles.1 hatomic⟩
    | ok u =>
      simp only [hresult, List.forall_mem_cons] at hatomic ⊢
      have hfirst := h.attempt hfiles.1 hatomic.1
      have ⟨hrest, hdb⟩ := ih hfirst hfiles.2 hatomic.2
      exact ⟨⟨hfirst, hrest⟩, hdb⟩

theorem pendingMigrations_subset {applied : List (String × String)} {files pending : List MigrationFile}
    (h : pendingMigrations applied files = .ok pending) : pending ⊆ files := by
  induction files generalizing pending with
  | nil =>
    simp only [pendingMigrations, Except.ok.injEq] at h
    simp [← h]
  | cons file files ih =>
    unfold pendingMigrations at h
    split at h
    . split at h
      . cases h
      . exact List.subset_cons_of_subset file (ih h)
    . rw [Rust.bind_eq_ok] at h
      have ⟨rest, hrest, heq⟩ := h
      rw [Except.ok.injEq] at heq
      rw [← heq]
      exact List.cons_subset_cons file (ih hrest)

theorem run_complete {faults : RunFaults} {db : Db} (h : runner.Complete db)
    (hatomic : ∀ attempt ∈ (runner.run faults db).attempts, runner.Atomic attempt)
    : (∀ attempt ∈ (runner.run faults db).attempts, runner.Complete attempt.after)
        ∧ runner.Complete (runner.run faults db).db := by
  unfold run at hatomic ⊢
  cases hpending : runner.pending faults db with
  | error e =>
    exact ⟨by simp, h⟩
  | ok files =>
    simp only [hpending] at hatomic ⊢
    apply applyPending_complete h ?_ hatomic
    unfold pending at hpending
    split at hpending
    . simp [Rust.bind_eq_ok] at hpending
    . rw [Rust.bind_eq_ok] at hpending
      obtain ⟨_, _, hpending⟩ := hpending
      exact fun file hfile => pendingMigrations_subset hpending hfile

theorem mem_runs {runFaults : List RunFaults} {db : Db} {attempt : Attempt}
    (h : attempt ∈ runner.runs db runFaults)
    : attempt = runner.attempt attempt.faults attempt.file attempt.before := by
  have hpending {faults : RunFaults} {count : Nat} {db : Db} {files : List MigrationFile}
      (h : attempt ∈ (runner.applyPending faults count db files).attempts)
      : attempt = runner.attempt attempt.faults attempt.file attempt.before := by
    induction files generalizing count db with
    | nil => simp [applyPending] at h
    | cons file files ih =>
      have hself : attempt = runner.attempt (faults.apply file.name) file db
          → attempt = runner.attempt attempt.faults attempt.file attempt.before := by
        intro heq
        rw [heq]
        rfl
      unfold applyPending at h
      cases hresult : (runner.attempt (faults.apply file.name) file db).result with
      | error e =>
        simp only [hresult, List.mem_singleton] at h
        exact hself h
      | ok u =>
        simp only [hresult, List.mem_cons] at h
        exact h.elim hself ih
  induction runFaults generalizing db with
  | nil => simp [runs] at h
  | cons faults rest ih =>
    rw [runs, List.mem_append] at h
    cases h with
    | inl h =>
      unfold run at h
      split at h
      . simp at h
      . exact hpending h
    | inr h => exact ih h

theorem runs_complete {runFaults : List RunFaults} {db : Db} (h : runner.Complete db)
    (hatomic : ∀ attempt ∈ runner.runs db runFaults, runner.Atomic attempt)
    : ∀ attempt ∈ runner.runs db runFaults, runner.Complete attempt.after := by
  induction runFaults generalizing db with
  | nil => simp [runs]
  | cons faults rest ih =>
    simp only [runs, List.forall_mem_append] at hatomic ⊢
    have ⟨hfirst, hdb⟩ := run_complete h hatomic.1
    exact ⟨hfirst, ih hdb hatomic.2⟩

theorem runs_atomic_iff (runner : MigrationRunner) (db : Db) (runFaults : List RunFaults)
    (h : runner.Complete db)
    : (∀ attempt ∈ runner.runs db runFaults, runner.Clean attempt.faults attempt.file attempt.before)
        ↔
      ∀ attempt ∈ runner.runs db runFaults, runner.Atomic attempt ∧ runner.Complete attempt.after := by
  have hstep (attempt : Attempt) (hmem : attempt ∈ runner.runs db runFaults)
      : runner.Atomic attempt ↔ runner.Clean attempt.faults attempt.file attempt.before := by
    rw [mem_runs hmem]
    exact atomic_attempt_iff attempt.faults attempt.file attempt.before
  constructor
  . intro hclean
    have hatomic := fun attempt hmem => (hstep attempt hmem).mpr (hclean attempt hmem)
    exact fun attempt hmem => ⟨hatomic attempt hmem, runs_complete h hatomic attempt hmem⟩
  . intro hatomic attempt hmem
    exact (hstep attempt hmem).mp (hatomic attempt hmem).1

def emptyDb : Db where
  ddl := []
  migrations := []
  policies := []

def todosFile (content : String) : MigrationFile where
  name := "0001_todos.sql"
  content := content
  checksum := "6f1d"

def todosRunner (content : String) : MigrationRunner where
  unicode := Dialect.Unicode.ascii
  parseSql _ := .ok []
  source := [todosFile content]
  userSchema := "public"
  source_nodup := by simp

def noFaults : RunFaults where
  readApplied := none
  discover := none
  apply _ := ⟨none, none, none, none, fun _ => none, none⟩

theorem runs_atomic_iff_owner
    : let runner := todosRunner "policy owner on todos for select using (user_id = auth.user_id());"
      (∀ attempt ∈ runner.runs emptyDb [noFaults, noFaults],
          runner.Clean attempt.faults attempt.file attempt.before)
        ↔
      ∀ attempt ∈ runner.runs emptyDb [noFaults, noFaults],
        runner.Atomic attempt ∧ runner.Complete attempt.after := by
  intro runner
  apply MigrationRunner.runs_atomic_iff
  intro file hfile hname
  simp [emptyDb] at hname

-- The expression of the policy ends too early, which is noticed after the commit. The second run
-- succeeds and does not look at the file again.
theorem runs_unparsable
    : let file := todosFile "policy owner on todos for select using (user_id = );"
      let runner := todosRunner file.content
      let db := (runner.run noFaults emptyDb).db
      ¬ runner.Complete db ∧ db.migrations = [(file.name, file.checksum)] ∧ db.policies.length = 0
        ∧ (runner.run noFaults db).result.toOption = some 0
        ∧ (runner.runs emptyDb [noFaults, noFaults]).length = 1 := by
  intro file runner db
  have hmigrations : db.migrations = [(file.name, file.checksum)] := by decide +kernel
  have hpolicies : db.policies.length = 0 := by decide +kernel
  refine ⟨?_, hmigrations, hpolicies, by decide +kernel, by decide +kernel⟩
  intro hcomplete
  have hstored := hcomplete file (List.mem_singleton_self _) (by simp [hmigrations])
  have hprepare : (runner.prepare file).toOption.map
      (fun migration => (policiesOf migration).length) = some 1 := by
    decide +kernel
  rw [Option.map_eq_some_iff] at hprepare
  have ⟨migration, hmigration, hlength⟩ := hprepare
  have ⟨policy, hpolicy⟩ := List.exists_mem_of_length_pos (hlength ▸ Nat.one_pos)
  have ⟨row, hrow, _⟩ := hstored migration (Rust.toOption_eq_some.mp hmigration) policy hpolicy
  rw [List.length_eq_zero_iff.mp hpolicies] at hrow
  simp at hrow

end MigrationRunner
end Reactor.Data.Migrate
