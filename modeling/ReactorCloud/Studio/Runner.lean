import ReactorCloud.Rust.Double

/-!
This module contains the runner of the evaluation suite. A test whose task fails is logged and left out of the
outcomes, so that the pass rates are over the others; and a test without runs has no pass rate.
-/

namespace Reactor.Studio.Eval

open Rust (Double F64)

/-! ## The runner -/

inductive TestLevel where
  | l0
  | l1
  | l2
  | l3
  | l4
  | l5
  | l6
  | l7
  deriving DecidableEq, Repr

def TestLevel.asStr : TestLevel → String
  | .l0 => "L0"
  | .l1 => "L1"
  | .l2 => "L2"
  | .l3 => "L3"
  | .l4 => "L4"
  | .l5 => "L5"
  | .l6 => "L6"
  | .l7 => "L7"

structure ScoreResult where
  passed : Bool
  scorerKind : String
  message : String

/--
The scorers `Scorer` of a test are its conditions of success.
-/
structure Test (Scorer : Type) where
  id : String
  level : TestLevel
  success : List Scorer
  runsRequired : UInt32 := 1
  passThreshold : Double := .of (F64.ofInt 1)

structure RunOutcome where
  testId : String
  level : TestLevel
  passed : Bool
  runs : UInt32
  passes : Nat
  passRate : Double
  scores : List ScoreResult
  worktreePath : Option String
  error : Option String := none

/--
What the environment does to the task of a test: the worktree, the scores of every run, and the cleanup.
-/
structure Task (Scorer : Type) where
  panics : Bool := false
  create : Except String String
  evaluate : Nat → Scorer → Except String ScoreResult
  cleanup : Except String Unit := .ok ()

section

variable {Scorer : Type}

/--
The scorers of one run, the first error ends the test.
-/
def evaluateAll (evaluate : Scorer → Except String ScoreResult) : List Scorer → Except String (List ScoreResult)
  | [] => .ok []
  | scorer :: scorers => do
    let result ← evaluate scorer
    let results ← evaluateAll evaluate scorers
    return result :: results

/--
The loop over the runs from `runNum` on, with the passes so far. The scores are those of the first run.
-/
def repeatRuns (task : Task Scorer) (test : Test Scorer) (runNum passes : Nat) (scores : List ScoreResult)
    : Nat → Except String (Nat × List ScoreResult)
  | 0 => .ok (passes, scores)
  | n + 1 => do
    let results ← evaluateAll (task.evaluate runNum) test.success
    let passes := if results.all (·.passed) then passes + 1 else passes
    repeatRuns task test (runNum + 1) passes (if runNum = 0 then results else scores) n

/-- `passes as f64 / runs_required as f64` -/
def quotient (passes runs : Nat) : Double :=
  if runs = 0 then (if passes = 0 then .nan else .of .infinite) else .of (F64.ratio passes runs)

def runTest (test : Test Scorer) (task : Task Scorer) : Except String RunOutcome := do
  let worktreePath ← task.create
  let (passes, scores) ← repeatRuns task test 0 0 [] test.runsRequired.toNat
  let passRate := quotient passes test.runsRequired.toNat
  let passed := passRate.ge test.passThreshold
  if passed then
    task.cleanup
  return {
    testId := test.id,
    level := test.level,
    passed,
    runs := test.runsRequired,
    passes,
    passRate,
    scores,
    worktreePath := if passed then none else some worktreePath }

/--
The result of the task, where a panic is an error of its handle.
-/
def join (test : Test Scorer) (task : Task Scorer) : Option (Except String RunOutcome) :=
  if task.panics then none else some (runTest test task)

/--
The outcomes of the loop over the handles, errors and panics are only logged.
-/
def collect : List (Test Scorer × Task Scorer) → List RunOutcome
  | [] => []
  | (test, task) :: rest =>
    match join test task with
    | some (.ok outcome) => outcome :: collect rest
    | some (.error _) => collect rest
    | none => collect rest

/--
The outcomes of a suite. With no permits the first test waits for ever.
-/
def runSuite (concurrency : Nat) (tests : List (Test Scorer × Task Scorer)) : Option (List RunOutcome) :=
  if concurrency = 0 ∧ tests ≠ [] then none else some (collect tests)

end

/-! ## The rates -/

def passRate (outcomes : List RunOutcome) : F64 :=
  if outcomes = [] then F64.ofInt 0
  else F64.ratio (outcomes.countP (·.passed)) outcomes.length

/--
The counters of the passed and of all outcomes of the levels.
-/
def byLevel (outcomes : List RunOutcome) : TestLevel → Option (Nat × Nat) :=
  outcomes.foldl (fun counters outcome level =>
    if level = outcome.level then
      let entry := (counters level).getD (0, 0)
      some (if outcome.passed then entry.1 + 1 else entry.1, entry.2 + 1)
    else counters level) (fun _ => none)

def passRateByLevel (outcomes : List RunOutcome) (level : TestLevel) : Option F64 :=
  (byLevel outcomes level).map (fun (passed, total) => if total = 0 then F64.ofInt 0 else F64.ratio passed total)

/-! ## What the rates should say -/

section

variable {Scorer : Type}

/--
A test that errors or panics has not passed.
-/
def passes (t : Test Scorer × Task Scorer) : Bool :=
  match join t.1 t.2 with
  | some (.ok outcome) => outcome.passed
  | _ => false

def Double.IsRate (x : Double) : Prop :=
  ∃ q h, x = .of (.finite q h) ∧ 0 ≤ q ∧ q ≤ 1

/--
The outcomes have an entry for each of the tests, and the rates are over all of them.
-/
structure Counted (tests : List (Test Scorer × Task Scorer)) (outcomes : List RunOutcome) : Prop where
  entries : (outcomes.map (fun o => (o.testId, o.level))).Perm (tests.map (fun t => (t.1.id, t.1.level)))
  rate : passRate outcomes = if tests = [] then F64.ofInt 0 else F64.ratio (tests.countP passes) tests.length
  levels : ∀ level, passRateByLevel outcomes level
    = if tests.countP (fun t => t.1.level = level) = 0 then none
      else some (F64.ratio (tests.countP (fun t => passes t && t.1.level = level))
        (tests.countP (fun t => t.1.level = level)))
  rates : ∀ o ∈ outcomes, Double.IsRate o.passRate

def CountsEveryTest (concurrency : Nat) (tests : List (Test Scorer × Task Scorer)) : Prop :=
  ∃ outcomes, runSuite concurrency tests = some outcomes ∧ Counted tests outcomes

/-! ### Rates -/

theorem nearest_one : F64.nearest 1 = 1 := by
  decide +kernel

theorem isRate_ratio {m n : Nat} (hn : 0 < n) (h : m ≤ n) : Double.IsRate (.of (F64.ratio m n)) := by
  have hone : 1 ≤ F64.nearest n := by
    rw [← nearest_one]
    apply F64.nearest_mono
    exact_mod_cast hn
  have hm : 0 ≤ F64.nearest m := F64.nearest_nonneg (by exact_mod_cast Nat.zero_le m)
  have hle : F64.nearest m ≤ F64.nearest n := F64.nearest_mono (by exact_mod_cast h)
  have hq : 0 ≤ F64.nearest m / F64.nearest n := div_nonneg hm (by linarith)
  have hq' : F64.nearest m / F64.nearest n ≤ 1 := (div_le_one (by linarith)).mpr hle
  have hlow := F64.nearest_nonneg hq
  have hhigh := F64.nearest_mono hq'
  rw [nearest_one] at hhigh
  have hfinite : |F64.nearest (F64.nearest m / F64.nearest n)| < 2 ^ 1024 := by
    rw [abs_of_nonneg hlow]
    calc F64.nearest (F64.nearest m / F64.nearest n)
      _ ≤ 1 := hhigh
      _ < 2 ^ 1024 := one_lt_pow₀ (by norm_num) (by norm_num)
  refine ⟨_, ⟨F64.nearest_nearest _, hfinite⟩, ?_, hlow, hhigh⟩
  rw [F64.ratio, F64.round, dif_pos hfinite]

/-! ### One test -/

theorem repeatRuns_le {task : Task Scorer} {test : Test Scorer} {n runNum k m : Nat} {scores scores' : List ScoreResult}
    (h : repeatRuns task test runNum k scores n = .ok (m, scores')) : m ≤ k + n := by
  induction n generalizing runNum k scores with
  | zero =>
    cases h
    omega
  | succ n ih =>
    unfold repeatRuns at h
    cases hall : evaluateAll (task.evaluate runNum) test.success with
    | error e =>
      rw [hall] at h
      cases h
    | ok results =>
      rw [hall] at h
      have := ih h
      split at this <;> omega

theorem runTest_ok {test : Test Scorer} {task : Task Scorer} {outcome : RunOutcome} (h : runTest test task = .ok outcome)
    : outcome.testId = test.id ∧ outcome.level = test.level
      ∧ ∃ m ≤ test.runsRequired.toNat, outcome.passRate = quotient m test.runsRequired.toNat := by
  unfold runTest at h
  cases hcreate : task.create with
  | error e =>
    rw [hcreate] at h
    cases h
  | ok worktreePath =>
    rw [hcreate] at h
    cases hruns : repeatRuns task test 0 0 [] test.runsRequired.toNat with
    | error e =>
      simp only [hruns, bind, Except.bind] at h
      cases h
    | ok p =>
      obtain ⟨m, scores⟩ := p
      simp only [hruns, bind, Except.bind, pure, Except.pure] at h
      have hm := repeatRuns_le hruns
      rw [Nat.zero_add] at hm
      split at h
      . split at h
        . cases h
        . cases h
          exact ⟨rfl, rfl, m, hm, rfl⟩
      . cases h
        exact ⟨rfl, rfl, m, hm, rfl⟩

/--
No run is no rate.
-/
theorem isRate_iff {test : Test Scorer} {task : Task Scorer} {outcome : RunOutcome} (h : runTest test task = .ok outcome)
    : Double.IsRate outcome.passRate ↔ test.runsRequired ≠ 0 := by
  obtain ⟨-, -, m, hm, hrate⟩ := runTest_ok h
  rw [hrate, quotient]
  constructor
  . rintro ⟨q, hq, heq, -⟩ hzero
    rw [hzero] at heq hm
    have hnone : UInt32.toNat 0 = 0 := rfl
    rw [if_pos hnone, if_pos (Nat.le_zero.mp hm)] at heq
    cases heq
  . intro hne
    have hpos : test.runsRequired.toNat ≠ 0 := fun hzero => hne (UInt32.toNat_inj.mp hzero)
    rw [if_neg hpos]
    exact isRate_ratio (Nat.pos_of_ne_zero hpos) hm

/-! ### All tests -/

/--
The task ends with an outcome.
-/
def Finishes (t : Test Scorer × Task Scorer) : Prop :=
  ∃ outcome, join t.1 t.2 = some (.ok outcome)

/--
Nothing fails, whether or not the test passes.
-/
theorem finishes_of_ok {t : Test Scorer × Task Scorer} {path : String} {m : Nat} {scores : List ScoreResult}
    (hpanics : t.2.panics = false) (hcreate : t.2.create = .ok path)
    (hruns : repeatRuns t.2 t.1 0 0 [] t.1.runsRequired.toNat = .ok (m, scores)) (hcleanup : t.2.cleanup = .ok ())
    : Finishes t := by
  unfold Finishes join
  rw [hpanics, if_neg Bool.false_ne_true]
  simp only [runTest, hcreate, hruns, hcleanup, bind, Except.bind, pure, Except.pure]
  cases (quotient m t.1.runsRequired.toNat).ge t.1.passThreshold <;> exact ⟨_, rfl⟩

theorem collect_cons_ok {t : Test Scorer × Task Scorer} {outcome : RunOutcome} (h : join t.1 t.2 = some (.ok outcome))
    (rest : List (Test Scorer × Task Scorer)) : collect (t :: rest) = outcome :: collect rest := by
  rw [collect, h]

theorem collect_cons_lost {t : Test Scorer × Task Scorer} (h : ¬ Finishes t) (rest : List (Test Scorer × Task Scorer))
    : collect (t :: rest) = collect rest := by
  rw [collect]
  split
  . next outcome hjoin => exact absurd ⟨outcome, hjoin⟩ h
  . rfl
  . rfl

theorem length_collect_le (tests : List (Test Scorer × Task Scorer)) : (collect tests).length ≤ tests.length := by
  induction tests with
  | nil => exact Nat.le_refl 0
  | cons t rest ih =>
    by_cases hfin : Finishes t
    . obtain ⟨outcome, hjoin⟩ := hfin
      rw [collect_cons_ok hjoin, List.length_cons, List.length_cons]
      omega
    . rw [collect_cons_lost hfin, List.length_cons]
      omega

theorem finishes_of_length {tests : List (Test Scorer × Task Scorer)} (h : (collect tests).length = tests.length)
    : ∀ t ∈ tests, Finishes t := by
  induction tests with
  | nil => exact nofun
  | cons t rest ih =>
    by_cases hfin : Finishes t
    . obtain ⟨outcome, hjoin⟩ := hfin
      rw [collect_cons_ok hjoin, List.length_cons, List.length_cons, Nat.add_right_cancel_iff] at h
      exact List.forall_mem_cons.mpr ⟨⟨outcome, hjoin⟩, ih h⟩
    . have := length_collect_le rest
      rw [collect_cons_lost hfin, List.length_cons] at h
      omega

theorem join_ok {t : Test Scorer × Task Scorer} {outcome : RunOutcome} (h : join t.1 t.2 = some (.ok outcome))
    : t.2.panics = false ∧ runTest t.1 t.2 = .ok outcome := by
  unfold join at h
  split at h
  . cases h
  . next hpanics => exact ⟨Bool.eq_false_iff.mpr hpanics, Option.some.inj h⟩

theorem countP_collect {tests : List (Test Scorer × Task Scorer)} (h : ∀ t ∈ tests, Finishes t)
    (p : Bool → TestLevel → Bool)
    : (collect tests).countP (fun o => p o.passed o.level) = tests.countP (fun t => p (passes t) t.1.level) := by
  induction tests with
  | nil => rfl
  | cons t rest ih =>
    rw [List.forall_mem_cons] at h
    obtain ⟨⟨outcome, hjoin⟩, hrest⟩ := h
    have hpasses : passes t = outcome.passed := by
      rw [passes, hjoin]
    have hlevel := (runTest_ok (join_ok hjoin).2).2.1
    rw [collect_cons_ok hjoin, List.countP_cons, List.countP_cons, ih hrest, hpasses, hlevel]

theorem map_collect {tests : List (Test Scorer × Task Scorer)} (h : ∀ t ∈ tests, Finishes t)
    : (collect tests).map (fun o => (o.testId, o.level)) = tests.map (fun t => (t.1.id, t.1.level)) := by
  induction tests with
  | nil => rfl
  | cons t rest ih =>
    rw [List.forall_mem_cons] at h
    obtain ⟨⟨outcome, hjoin⟩, hrest⟩ := h
    have ⟨hid, hlevel, _⟩ := runTest_ok (join_ok hjoin).2
    rw [collect_cons_ok hjoin, List.map_cons, List.map_cons, ih hrest, hid, hlevel]

theorem mem_collect {tests : List (Test Scorer × Task Scorer)} {o : RunOutcome}
    : o ∈ collect tests ↔ ∃ t ∈ tests, join t.1 t.2 = some (.ok o) := by
  induction tests with
  | nil => simp [collect]
  | cons t rest ih =>
    rw [List.exists_mem_cons_iff, ← ih]
    by_cases hfin : Finishes t
    . obtain ⟨outcome, hjoin⟩ := hfin
      rw [collect_cons_ok hjoin, List.mem_cons, hjoin, Option.some.injEq, Except.ok.injEq, eq_comm]
    . rw [collect_cons_lost hfin]
      exact ⟨.inr, fun h => h.resolve_left (fun hjoin => hfin ⟨o, hjoin⟩)⟩

theorem foldl_byLevel (outcomes : List RunOutcome) (level : TestLevel) (counters : TestLevel → Option (Nat × Nat))
    : outcomes.foldl (fun counters outcome level =>
        if level = outcome.level then
          let entry := (counters level).getD (0, 0)
          some (if outcome.passed then entry.1 + 1 else entry.1, entry.2 + 1)
        else counters level) counters level
      = if outcomes.countP (fun o => o.level = level) = 0 then counters level
        else some (((counters level).getD (0, 0)).1 + outcomes.countP (fun o => o.passed && o.level = level),
          ((counters level).getD (0, 0)).2 + outcomes.countP (fun o => o.level = level)) := by
  induction outcomes generalizing counters with
  | nil => rfl
  | cons outcome outcomes ih =>
    rw [List.foldl_cons, ih, List.countP_cons, List.countP_cons]
    by_cases hlevel : outcome.level = level
    . have hle : outcomes.countP (fun o => o.passed && o.level = level) ≤ outcomes.countP (fun o => o.level = level) := by
        apply List.countP_mono_left
        intro o _ ho
        exact (Bool.and_eq_true _ _ ▸ ho).2
      simp only [hlevel, decide_true, if_true, Bool.and_true, Nat.add_eq_zero_iff, Nat.one_ne_zero, and_false, if_false,
        Option.getD_some]
      -- the entry counts this outcome, whether or not others of the level follow
      split
      . next hnone =>
        rw [hnone] at hle
        rw [hnone, Nat.le_zero.mp hle]
        cases outcome.passed <;> simp
      . cases outcome.passed <;> simp <;> omega
    . have hlevel' : ¬ level = outcome.level := fun heq => hlevel heq.symm
      simp [hlevel, hlevel']

theorem byLevel_eq (outcomes : List RunOutcome) (level : TestLevel)
    : byLevel outcomes level
        = if outcomes.countP (fun o => o.level = level) = 0 then none
          else some (outcomes.countP (fun o => o.passed && o.level = level), outcomes.countP (fun o => o.level = level)) := by
  rw [byLevel, foldl_byLevel]
  simp

theorem counted_of_finishes {tests : List (Test Scorer × Task Scorer)}
    (h : ∀ t ∈ tests, Finishes t ∧ t.1.runsRequired ≠ 0) : Counted tests (collect tests) where
  entries := by
    rw [map_collect (fun t ht => (h t ht).1)]
  rate := by
    have hfin : ∀ t ∈ tests, Finishes t := fun t ht => (h t ht).1
    have hcount := countP_collect hfin (fun passed _ => passed)
    have hlength : (collect tests).length = tests.length := by
      have := congrArg List.length (map_collect hfin)
      rwa [List.length_map, List.length_map] at this
    have hnil : collect tests = [] ↔ tests = [] := by
      rw [← List.length_eq_zero_iff, hlength, List.length_eq_zero_iff]
    simp only [passRate, hcount, hlength, hnil]
  levels level := by
    have hfin : ∀ t ∈ tests, Finishes t := fun t ht => (h t ht).1
    have hall := countP_collect hfin (fun _ l => l = level)
    have hpassed := countP_collect hfin (fun passed l => passed && l = level)
    rw [passRateByLevel, byLevel_eq, hall, hpassed]
    split
    . rfl
    . next hne =>
      rw [Option.map_some]
      dsimp only
      rw [if_neg hne]
  rates o ho := by
    obtain ⟨t, ht, hjoin⟩ := mem_collect.mp ho
    exact (isRate_iff (join_ok hjoin).2).mpr (h t ht).2

theorem counts_iff (concurrency : Nat) (tests : List (Test Scorer × Task Scorer))
    : CountsEveryTest concurrency tests
        ↔
      (concurrency = 0 → tests = [])
        ∧ ∀ t ∈ tests, t.2.panics = false ∧ (∃ outcome, runTest t.1 t.2 = .ok outcome) ∧ t.1.runsRequired ≠ 0 := by
  constructor
  . rintro ⟨outcomes, hrun, hcounted⟩
    unfold runSuite at hrun
    split at hrun
    . cases hrun
    . next hpermits =>
      cases hrun
      refine ⟨fun hzero => Classical.byContradiction fun hne => hpermits ⟨hzero, hne⟩, ?_⟩
      have hlength := hcounted.entries.length_eq
      rw [List.length_map, List.length_map] at hlength
      intro t ht
      obtain ⟨outcome, hjoin⟩ := finishes_of_length hlength t ht
      have ⟨hpanics, hok⟩ := join_ok hjoin
      refine ⟨hpanics, ⟨outcome, hok⟩, ?_⟩
      exact (isRate_iff hok).mp (hcounted.rates outcome (mem_collect.mpr ⟨t, ht, hjoin⟩))
  . rintro ⟨hpermits, htests⟩
    have hfin : ∀ t ∈ tests, Finishes t ∧ t.1.runsRequired ≠ 0 := by
      intro t ht
      obtain ⟨hpanics, ⟨outcome, hok⟩, hruns⟩ := htests t ht
      exact ⟨⟨outcome, by rw [join, hpanics, hok, if_neg Bool.false_ne_true]⟩, hruns⟩
    refine ⟨collect tests, ?_, counted_of_finishes hfin⟩
    rw [runSuite, if_neg (fun h => h.2 (hpermits h.1))]

/--
Tests that crash instead of failing do not change a rate over all tests.
-/
def Crashing (tests tests' : List (Test Scorer × Task Scorer)) : Prop :=
  List.Forall₂ (fun t t' => t'.1 = t.1 ∧ (t' = t ∨ passes t = false ∧ passes t' = false)) tests tests'

theorem Crashing.countP {tests tests' : List (Test Scorer × Task Scorer)} (h : Crashing tests tests')
    (p : Bool → TestLevel → Bool)
    : tests'.countP (fun t => p (passes t) t.1.level) = tests.countP (fun t => p (passes t) t.1.level) := by
  induction h with
  | nil => rfl
  | @cons t t' _ _ hcrash _ ih =>
    have hpasses : passes t' = passes t := by
      rcases hcrash.2 with heq | ⟨hfails, hcrashes⟩
      . rw [heq]
      . rw [hfails, hcrashes]
    rw [List.countP_cons, List.countP_cons, ih, hpasses, hcrash.1]

theorem Crashing.map {tests tests' : List (Test Scorer × Task Scorer)} (h : Crashing tests tests')
    : tests'.map Prod.fst = tests.map Prod.fst := by
  induction h with
  | nil => rfl
  | cons hcrash _ ih => rw [List.map_cons, List.map_cons, ih, hcrash.1]

theorem Crashing.length {tests tests' : List (Test Scorer × Task Scorer)} (h : Crashing tests tests')
    : tests'.length = tests.length := by
  have := congrArg List.length h.map
  rwa [List.length_map, List.length_map] at this

/--
What counts all tests counts them with their crashes.
-/
theorem Counted.of_crashing {tests tests' : List (Test Scorer × Task Scorer)} {outcomes : List RunOutcome}
    (hcounted : Counted tests outcomes) (h : Crashing tests tests') : Counted tests' outcomes where
  entries := by
    have hmap := congrArg (List.map (fun t : Test Scorer => (t.id, t.level))) h.map
    rw [List.map_map, List.map_map] at hmap
    have := hcounted.entries
    exact this.trans (.of_eq hmap.symm)
  rate := by
    have hnil : tests' = [] ↔ tests = [] := by
      rw [← List.length_eq_zero_iff, h.length, List.length_eq_zero_iff]
    simp only [hcounted.rate, h.length, h.countP (fun passed _ => passed), hnil]
  levels level := by
    have hall := h.countP (fun _ l => l = level)
    have hpassed := h.countP (fun passed l => passed && l = level)
    rw [hcounted.levels, hall, hpassed]
  rates := hcounted.rates

theorem Counted.rate_of_crashing {tests tests' : List (Test Scorer × Task Scorer)} {outcomes outcomes' : List RunOutcome}
    (hcounted : Counted tests outcomes) (hcounted' : Counted tests' outcomes') (h : Crashing tests tests')
    : passRate outcomes' = passRate outcomes := by
  rw [(hcounted.of_crashing h).rate, hcounted'.rate]

theorem countsEveryTest_iff (concurrency : Nat) (tests : List (Test Scorer × Task Scorer))
    : (CountsEveryTest concurrency tests
        ↔
      (concurrency = 0 → tests = [])
        ∧ ∀ t ∈ tests, t.2.panics = false ∧ (∃ outcome, runTest t.1 t.2 = .ok outcome) ∧ t.1.runsRequired ≠ 0)
      ∧ ∀ tests' outcomes outcomes', Counted tests outcomes → Counted tests' outcomes' → Crashing tests tests'
        → passRate outcomes' = passRate outcomes := by
  refine ⟨counts_iff concurrency tests, ?_⟩
  intro tests' outcomes outcomes' hcounted hcounted' hcrash
  exact hcounted.rate_of_crashing hcounted' hcrash

end

/--
A test whose only scorer says no.
-/
def failing : Test Unit × Task Unit :=
  (⟨"fails", .l0, [()], 1, .of (F64.ofInt 1)⟩, ⟨false, .ok "a", fun _ _ => .ok ⟨false, "tests", ""⟩, .ok ()⟩)

/--
What could stand for the test after its crash.
-/
def crashed : RunOutcome where
  testId := "fails"
  level := .l0
  passed := false
  runs := 1
  passes := 0
  passRate := .of (F64.ratio 0 1)
  scores := []
  worktreePath := none
  error := some "Task panicked"

theorem failing_crashes : passRate [crashed] = passRate (collect [failing]) := by
  have hcounted : Counted [failing] (collect [failing]) := by
    apply counted_of_finishes
    intro t ht
    rw [List.mem_singleton.mp ht]
    exact ⟨finishes_of_ok rfl rfl rfl rfl, by decide⟩
  have hcounted' : Counted [(failing.1, { failing.2 with panics := true })] [crashed] := by
    refine ⟨.refl _, rfl, ?_, ?_⟩
    . intro level
      cases level <;> rfl
    . intro o ho
      rw [List.mem_singleton.mp ho]
      exact isRate_ratio (by decide) (by decide)
  have hfails : passes failing = false := by decide +kernel
  exact (countsEveryTest_iff 4 [failing]).2 _ _ _ hcounted hcounted' (.cons ⟨rfl, .inr ⟨hfails, rfl⟩⟩ .nil)

/--
One test that passes, and one that crashes instead of failing.
-/
def crashing : List (Test Unit × Task Unit) :=
  [(⟨"passes", .l0, [], 1, .of (F64.ofInt 1)⟩, ⟨false, .ok "a", fun _ _ => .error "", .ok ()⟩),
    (⟨"crashes", .l0, [()], 1, .of (F64.ofInt 1)⟩, ⟨true, .ok "b", fun _ _ => .error "", .ok ()⟩)]

theorem not_countsEveryTest : ¬ CountsEveryTest 4 crashing := by
  rintro ⟨outcomes, hrun, hcounted⟩
  cases hrun
  have hlength := hcounted.entries.length_eq
  rw [List.length_map, List.length_map] at hlength
  have hcrash := finishes_of_length hlength _ (List.mem_cons_of_mem _ List.mem_cons_self)
  obtain ⟨outcome, hjoin⟩ := hcrash
  cases hjoin

end Reactor.Studio.Eval
