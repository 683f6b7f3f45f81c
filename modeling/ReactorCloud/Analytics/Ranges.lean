import ReactorCloud.Analytics.Compiler
import ReactorCloud.Rust.Result

/-!
This module contains the bounds a compiled query has to keep: no panic and no overflow, a range of at most the
configured days, a limit of at most the configured rows; and the requests for which the compiler keeps them.
-/

namespace Reactor.Analytics

open Rust (bind_eq_ok bind_eq_error)

/-! ## What a request asks for -/

/--
The text without blanks ends in a character of several bytes.
-/
def Cut (text : String) : Prop :=
  ∃ front unit, (Rust.Str.trim text).toList = front ++ [unit] ∧ unit.utf8Size ≠ 1

def Reads (text : String) (num : Int64) (unit : Char) : Prop :=
  ∃ front, (Rust.Str.trim text).toList = front ++ [unit] ∧ unit.utf8Size = 1 ∧ Rust.parseI64 front = some num

def rangeSecs : Char → Option Int
  | 'm' => some 60
  | 'h' => some 3600
  | 'd' => some 86400
  | 'w' => some 604800
  | _ => none

def windowSecs : Char → Option Int
  | 's' => some 1
  | 'm' => some 60
  | 'h' => some 3600
  | 'd' => some 86400
  | 'w' => some 604800
  | _ => none

def Between (env : Env) (req : QueryRequest) (start stop : Time) : Prop :=
  match req.timeRange with
  | .absolute a b => start = a ∧ stop = b
  | .relative last =>
    stop = env.now
      ∧ ∃ num unit secs, Reads last num unit ∧ rangeSecs unit = some secs ∧ start = env.now - num.toInt * secs * nanos

def ValueOp.isList : ValueOp → Bool
  | .oneOf _ | .notIn _ => true
  | _ => false

mutual

/--
Lists are compared with hot columns only.
-/
def FilterExpr.supported : FilterExpr → Bool
  | .all exprs | .any exprs => supportedAll exprs
  | .not expr => expr.supported
  | .event _ | .user _ | .anon _ => true
  | .prop name op => name ∈ hotColumns || !op.isList

def supportedAll : List FilterExpr → Bool
  | [] => true
  | expr :: exprs => expr.supported && supportedAll exprs

end

def HasSteps (req : QueryRequest) : Prop :=
  ∃ step steps, req.steps = some (step :: steps)

/--
The request has what its kind needs.
-/
def Accepted (req : QueryRequest) : Prop :=
  match req.kind with
  | .funnel => HasSteps req ∧ ∀ text, req.conversionWindow = some text → ∃ num unit, Reads text num unit ∧ (windowSecs unit).isSome
  | .retention => req.cohort.isSome ∧ req.returnEvent.isSome
  | .events | .aggregate | .breakdown | .path => ∀ filter, req.filter = some filter → filter.supported = true

/-! ## What is claimed -/

def day : Int := 86400 * nanos

/--
The seconds of a window are in the range of an `i64`.
-/
def Fits (num : Int64) (secs : Int) : Prop :=
  -2 ^ 63 ≤ num.toInt * secs ∧ num.toInt * secs < 2 ^ 63

/--
An aggregate without groups is a single row.
-/
def Single (req : QueryRequest) : Prop :=
  (req.kind = .aggregate ∨ req.kind = .breakdown) ∧ groupCols req = []

structure Bounded (env : Env) (req : QueryRequest) : Prop where
  total : compile env req ≠ .error .panic
  /-- The window of a funnel is computed without an overflow. -/
  inRange : ∀ q, compile env req = .ok q → req.kind = .funnel → ∀ text num unit secs,
    req.conversionWindow = some text → Reads text num unit → windowSecs unit = some secs → Fits num secs
  covers : ∀ q start stop, compile env req = .ok q → resolveTimeRange env req.timeRange = .ok (start, stop) →
    start ≤ stop ∧ stop - start ≤ env.config.queryRawRangeDays.toNat * day
  /-- Events, aggregates, breakdowns and paths are the kinds with a limit. -/
  rows : ∀ q, compile env req = .ok q → req.kind ≠ .funnel → req.kind ≠ .retention →
    (∃ n ≤ env.config.queryMaxRows.toNat, q.sql.getLast? = some (.sql ("LIMIT " ++ Nat.repr n)))
      ∨ (Single req ∧ 1 ≤ env.config.queryMaxRows.toNat)

/--
A range whose last character has two bytes.
-/
theorem not_bounded : ¬ ∀ env req, Bounded env req := by
  intro h
  let env : Env := ⟨{}, 0⟩
  let req : QueryRequest := { projectId := 7, kind := .events, timeRange := .relative "7é" }
  have hsplit : splitDuration "7é" = .error .panic := by
    decide
  have hpanic : compile env req = .error .panic := by
    simp only [req, compile, resolveTimeRange, parseRelativeDuration, hsplit]
    rfl
  exact (h env req).total hpanic

/-! ## When it holds -/

/--
The days of the range are counted as at most the limit, and the range is not.
-/
def Slips (env : Env) (start stop : Time) : Prop :=
  let limit : Int := env.config.queryRawRangeDays.toNat
  (stop < start ∧ start - stop < day)
    ∨ (limit * day < stop - start ∧ stop - start < (limit + 1) * day)
    ∨ (let days := (stop - start).tdiv day
      (days < 0 ∨ 2 ^ 32 ≤ days) ∧ days % 2 ^ 32 ≤ limit)

def RowsOk (env : Env) (req : QueryRequest) : Prop :=
  match req.kind with
  | .events | .funnel | .retention => True
  | .path => ∃ limit, req.limit = some limit ∧ limit.toNat ≤ env.config.queryMaxRows.toNat
  | .aggregate | .breakdown =>
    (∃ limit, req.limit = some limit ∧ limit.toNat ≤ env.config.queryMaxRows.toNat)
      ∨ (groupCols req = [] ∧ 1 ≤ env.config.queryMaxRows.toNat)

structure Tame (env : Env) (req : QueryRequest) : Prop where
  rangeWhole : ∀ last, req.timeRange = .relative last → ¬ Cut last
  rangeFits : ∀ last num unit secs, req.timeRange = .relative last → Reads last num unit → rangeSecs unit = some secs →
    (num.toInt * secs * 1000).natAbs ≤ 9223372036854775807
      ∧ minUtc ≤ env.now - num.toInt * secs * nanos ∧ env.now - num.toInt * secs * nanos ≤ maxUtc
  windowWhole : ∀ start stop text, Between env req start stop → daysBetween start stop ≤ env.config.queryRawRangeDays →
    req.kind = .funnel → HasSteps req → req.conversionWindow = some text → ¬ Cut text
  windowFits : ∀ start stop text num unit secs, Between env req start stop →
    daysBetween start stop ≤ env.config.queryRawRangeDays → req.kind = .funnel → HasSteps req →
    req.conversionWindow = some text → Reads text num unit → windowSecs unit = some secs → Fits num secs
  range : ∀ start stop, Between env req start stop → Accepted req → ¬ Slips env start stop
  rows : ∀ start stop, Between env req start stop → daysBetween start stop ≤ env.config.queryRawRangeDays →
    Accepted req → RowsOk env req

/-! Durations -/

theorem splitUnit_append (front : List Char) (unit : Char)
    : splitUnit (front ++ [unit]) = if unit.utf8Size = 1 then .ok (front, unit) else .error .panic := by
  simp [splitUnit]

/--
What is left of a text without blanks: nothing, or characters and a last one.
-/
theorem splitDuration_cases (text : String)
    : (Rust.Str.trim text = "" ∧ splitDuration text = .error (.validation "empty duration"))
      ∨ ∃ front unit, (Rust.Str.trim text).toList = front ++ [unit]
        ∧ splitDuration text
          = if unit.utf8Size = 1 then
              match Rust.parseI64 front with
              | none => .error (.validation ("invalid duration: " ++ Rust.Str.trim text))
              | some num => .ok (num, unit)
            else .error .panic := by
  by_cases hempty : Rust.Str.trim text = ""
  . left
    refine ⟨hempty, ?_⟩
    simp only [splitDuration, if_pos hempty]
    rfl
  . right
    have hne : (Rust.Str.trim text).toList ≠ [] := by
      intro heq
      exact hempty (String.toList_eq_nil_iff.mp heq)
    obtain ⟨front, unit, htext⟩ : ∃ front unit, (Rust.Str.trim text).toList = front ++ [unit] :=
      ⟨_, _, (List.dropLast_append_getLast hne).symm⟩
    refine ⟨front, unit, htext, ?_⟩
    simp only [splitDuration, if_neg hempty, htext, splitUnit_append]
    split
    . simp only [pure, Except.pure, bind, Except.bind]
      cases Rust.parseI64 front <;> rfl
    . rfl

theorem splitDuration_eq_ok {text : String} {num : Int64} {unit : Char}
    : splitDuration text = .ok (num, unit) ↔ Reads text num unit := by
  rcases splitDuration_cases text with ⟨hempty, heq⟩ | ⟨front, unit', htext, heq⟩
  . rw [heq]
    constructor
    . nofun
    . rintro ⟨front, htext, _⟩
      rw [hempty] at htext
      simp at htext
  . rw [heq]
    constructor
    . intro h
      split at h
      . next hsize =>
        split at h
        . cases h
        . next hnum =>
          cases h
          exact ⟨front, htext, hsize, hnum⟩
      . cases h
    . rintro ⟨front', htext', hsize, hnum⟩
      rw [htext] at htext'
      obtain ⟨rfl, hunit⟩ := List.append_inj' htext' rfl
      cases hunit
      rw [if_pos hsize, hnum]

theorem splitDuration_eq_panic {text : String} : splitDuration text = .error .panic ↔ Cut text := by
  rcases splitDuration_cases text with ⟨hempty, heq⟩ | ⟨front, unit', htext, heq⟩
  . rw [heq]
    constructor
    . nofun
    . rintro ⟨front, unit, htext, _⟩
      rw [hempty] at htext
      simp at htext
  . rw [heq]
    constructor
    . intro h
      split at h
      . split at h <;> cases h
      . next hsize => exact ⟨front, unit', htext, hsize⟩
    . rintro ⟨front', unit, htext', hsize⟩
      rw [htext] at htext'
      obtain ⟨rfl, hunit⟩ := List.append_inj' htext' rfl
      cases hunit
      rw [if_neg hsize]

/--
The time before `now` a range starts at, none where `chrono` panics.
-/
def startOf (now : Time) (num : Int64) (secs : Int) : Option Time :=
  (durationOf num.toInt secs).bind (subtract now)

theorem parseRelativeDuration_of_reads {text : String} {num : Int64} {unit : Char} (now : Time) (h : Reads text num unit)
    : parseRelativeDuration text now
        =
      match rangeSecs unit with
      | none => .error (invalidUnit unit)
      | some secs =>
        match startOf now num secs with
        | none => .error .panic
        | some t => .ok t := by
  rw [← splitDuration_eq_ok] at h
  unfold parseRelativeDuration startOf
  rw [h]
  dsimp only [bind, Except.bind]
  split
  . rfl
  . rfl
  . rfl
  . rfl
  . next hm hh hd hw =>
    have hsecs : rangeSecs unit = none := by
      unfold rangeSecs
      split
      . exact absurd rfl hm
      . exact absurd rfl hh
      . exact absurd rfl hd
      . exact absurd rfl hw
      . rfl
    rw [hsecs]
    rfl

theorem parseRelativeDuration_eq_ok {text : String} {now t : Time}
    : parseRelativeDuration text now = .ok t
        ↔
      ∃ num unit secs, Reads text num unit ∧ rangeSecs unit = some secs ∧ startOf now num secs = some t := by
  constructor
  . intro h
    have hsplit : ∃ num unit, splitDuration text = .ok (num, unit) := by
      unfold parseRelativeDuration at h
      obtain ⟨⟨num, unit⟩, hsplit, _⟩ := bind_eq_ok.mp h
      exact ⟨num, unit, hsplit⟩
    obtain ⟨num, unit, hsplit⟩ := hsplit
    rw [splitDuration_eq_ok] at hsplit
    rw [parseRelativeDuration_of_reads now hsplit] at h
    split at h
    . cases h
    . next secs hsecs =>
      split at h
      . cases h
      . next t' hstart =>
        cases h
        exact ⟨num, unit, secs, hsplit, hsecs, hstart⟩
  . rintro ⟨num, unit, secs, hreads, hsecs, hstart⟩
    rw [parseRelativeDuration_of_reads now hreads]
    simp only [hsecs, hstart]

theorem parseRelativeDuration_eq_panic {text : String} {now : Time}
    : parseRelativeDuration text now = .error .panic
        ↔
      Cut text ∨ ∃ num unit secs, Reads text num unit ∧ rangeSecs unit = some secs ∧ startOf now num secs = none := by
  constructor
  . intro h
    cases hsplit : splitDuration text with
    | error e =>
      unfold parseRelativeDuration at h
      rw [hsplit] at h
      cases h
      exact .inl (splitDuration_eq_panic.mp hsplit)
    | ok p =>
      obtain ⟨num, unit⟩ := p
      rw [splitDuration_eq_ok] at hsplit
      rw [parseRelativeDuration_of_reads now hsplit] at h
      split at h
      . cases h
      . next secs hsecs =>
        split at h
        . next hstart => exact .inr ⟨num, unit, secs, hsplit, hsecs, hstart⟩
        . cases h
  . rintro (hcut | ⟨num, unit, secs, hreads, hsecs, hstart⟩)
    . unfold parseRelativeDuration
      rw [splitDuration_eq_panic.mpr hcut]
      rfl
    . rw [parseRelativeDuration_of_reads now hreads]
      simp only [hsecs, hstart]

theorem startOf_eq_some {now t : Time} {num : Int64} {secs : Int}
    : startOf now num secs = some t
        ↔
      (num.toInt * secs * 1000).natAbs ≤ 9223372036854775807
        ∧ minUtc ≤ now - num.toInt * secs * nanos ∧ now - num.toInt * secs * nanos ≤ maxUtc
        ∧ t = now - num.toInt * secs * nanos := by
  unfold startOf durationOf subtract
  split
  . next hle =>
    simp only [Option.bind_some, Option.ite_none_right_eq_some, Option.some.injEq, hle, true_and, and_assoc]
    rw [eq_comm]
  . next hle =>
    simp only [Option.bind_none, hle, false_and, reduceCtorEq]

theorem parseDurationSecs_of_reads {text : String} {num : Int64} {unit : Char} (h : Reads text num unit)
    : parseDurationSecs text ≠ .error .panic ∧ ((∃ n, parseDurationSecs text = .ok n) ↔ (windowSecs unit).isSome) := by
  rw [← splitDuration_eq_ok] at h
  unfold parseDurationSecs windowSecs
  rw [h]
  dsimp only [bind, Except.bind]
  split <;> simp [pure, Except.pure, throw, throwThe, MonadExceptOf.throw, invalidUnit]

theorem parseDurationSecs_isOk {text : String}
    : (∃ n, parseDurationSecs text = .ok n) ↔ ∃ num unit, Reads text num unit ∧ (windowSecs unit).isSome := by
  constructor
  . rintro ⟨n, h⟩
    have hsplit : ∃ num unit, splitDuration text = .ok (num, unit) := by
      unfold parseDurationSecs at h
      obtain ⟨⟨num, unit⟩, hsplit, _⟩ := bind_eq_ok.mp h
      exact ⟨num, unit, hsplit⟩
    obtain ⟨num, unit, hsplit⟩ := hsplit
    rw [splitDuration_eq_ok] at hsplit
    exact ⟨num, unit, hsplit, (parseDurationSecs_of_reads hsplit).2.mp ⟨n, h⟩⟩
  . rintro ⟨num, unit, hreads, hunit⟩
    exact (parseDurationSecs_of_reads hreads).2.mpr hunit

theorem parseDurationSecs_eq_panic {text : String} : parseDurationSecs text = .error .panic ↔ Cut text := by
  rw [← splitDuration_eq_panic]
  constructor
  . intro h
    cases hsplit : splitDuration text with
    | error e =>
      unfold parseDurationSecs at h
      rw [hsplit] at h
      cases h
      rfl
    | ok p =>
      rw [splitDuration_eq_ok] at hsplit
      exact absurd h (parseDurationSecs_of_reads hsplit).1
  . intro h
    unfold parseDurationSecs
    rw [h]
    rfl

/-! Kinds -/

/--
The computation is successful or gives an error, but does not panic.
-/
def Settles {α : Type} (succeeds : Bool) (x : Except AnalyticsError α) : Prop :=
  if succeeds then ∃ a, x = .ok a else ∃ message, x = .error (.validation message)

namespace Settles

variable {α β : Type} {succeeds succeeds' : Bool} {x : Except AnalyticsError α}

theorem ok (a : α) : Settles true (.ok a) :=
  ⟨a, rfl⟩

theorem error (message : String) : Settles false (.error (.validation message) : Except AnalyticsError α) :=
  ⟨message, rfl⟩

theorem ne_panic (h : Settles succeeds x) : x ≠ .error .panic := by
  rintro rfl
  cases succeeds
  . obtain ⟨_, h⟩ := h
    cases h
  . obtain ⟨_, h⟩ := h
    cases h

theorem isOk_iff (h : Settles succeeds x) : (∃ a, x = .ok a) ↔ succeeds = true := by
  cases succeeds with
  | true => exact ⟨fun _ => rfl, fun _ => h⟩
  | false =>
    obtain ⟨_, rfl⟩ := h
    simp

theorem bind {f : α → Except AnalyticsError β} (h : Settles succeeds x) (hf : ∀ a, Settles succeeds' (f a))
    : Settles (succeeds && succeeds') (x >>= f) := by
  cases succeeds with
  | false =>
    obtain ⟨message, rfl⟩ := h
    exact ⟨message, rfl⟩
  | true =>
    obtain ⟨a, rfl⟩ := h
    rw [Bool.true_and]
    exact hf a

/--
A computation with an error in no case behind it.
-/
theorem bind_ok {f : α → Except AnalyticsError β} (h : Settles succeeds x) (hf : ∀ a, ∃ b, f a = .ok b)
    : Settles succeeds (x >>= f) := by
  have hand : Settles (succeeds && true) (x >>= f) := h.bind hf
  rwa [Bool.and_true] at hand

end Settles

theorem settles_valueOp (c : SqlCompiler) (path : String) (op : ValueOp)
    : Settles (!op.isList) (compileValueOpJsonb c path op) := by
  cases op with
  | oneOf | notIn => exact .error _
  | eq | neq | gt | gte | lt | lte | isNull | isNotNull => exact .ok _

mutual

theorem settles_filter (c : SqlCompiler) (expr : FilterExpr) : Settles expr.supported (compileFilter c expr) := by
  cases expr with
  | all exprs => exact (settles_filters c " AND " exprs).bind_ok fun _ => ⟨_, rfl⟩
  | any exprs => exact (settles_filters c " OR " exprs).bind_ok fun _ => ⟨_, rfl⟩
  | not expr => exact (settles_filter c expr).bind_ok fun _ => ⟨_, rfl⟩
  | event op => exact .ok _
  | user op => exact .ok _
  | anon op => exact .ok _
  | prop name op =>
    simp only [compileFilter, FilterExpr.supported]
    split
    . next hmem =>
      simp only [hmem, decide_true, Bool.true_or]
      exact .ok _
    . next hmem =>
      simp only [hmem, decide_false, Bool.false_or]
      apply settles_valueOp

theorem settles_filters (c : SqlCompiler) (sep : String) (exprs : List FilterExpr)
    : Settles (supportedAll exprs) (compileFilters c sep exprs) := by
  cases exprs with
  | nil => exact .ok _
  | cons expr exprs =>
    cases exprs with
    | nil =>
      simp only [compileFilters, supportedAll, Bool.and_true]
      exact settles_filter c expr
    | cons expr' exprs =>
      rw [compileFilters, supportedAll]
      apply (settles_filter c expr).bind
      intro p
      exact (settles_filters p.2 sep (expr' :: exprs)).bind_ok fun _ => ⟨_, rfl⟩
      . nofun

end

theorem settles_customFilter (req : QueryRequest) (c : SqlCompiler) (before after : String)
    : Settles (req.filter.all FilterExpr.supported) (compileCustomFilter req c before after) := by
  unfold compileCustomFilter
  cases req.filter with
  | none => exact .ok _
  | some filter => exact (settles_filter c filter).bind_ok fun _ => ⟨_, rfl⟩

section

variable (env : Env) (req : QueryRequest) (start stop : Time) (c : SqlCompiler)

theorem settles_events : Settles (req.filter.all FilterExpr.supported) (compileEvents env req start stop c) :=
  (settles_customFilter req _ _ _).bind_ok fun _ => ⟨_, rfl⟩

theorem settles_aggregate : Settles (req.filter.all FilterExpr.supported) (compileAggregate req start stop c) :=
  (settles_customFilter req _ _ _).bind_ok fun _ => ⟨_, rfl⟩

theorem settles_path : Settles (req.filter.all FilterExpr.supported) (compilePath req start stop c) :=
  (settles_customFilter req _ _ _).bind_ok fun _ => ⟨_, rfl⟩

theorem settles_retention
    : Settles (req.cohort.isSome && req.returnEvent.isSome) (compileRetention req start stop c) := by
  unfold compileRetention
  cases req.cohort with
  | none => exact .error _
  | some cohort =>
    cases req.returnEvent with
    | none => exact .error _
    | some event => exact .ok _

/--
A funnel with steps has no error but those of its window.
-/
theorem compileFunnel_steps {step : FunnelStep} {steps : List FunnelStep} (h : req.steps = some (step :: steps))
    : ∃ f : Int64 → List Piece × SqlCompiler, compileFunnel req start stop c
      = (req.conversionWindow.map parseDurationSecs).getD (pure (86400 * 7)) >>= fun n => .ok (f n) := by
  unfold compileFunnel
  rw [h]
  exact ⟨_, rfl⟩

theorem compileFunnel_noSteps (h : ¬ HasSteps req)
    : ∃ message, compileFunnel req start stop c = .error (.validation message) := by
  unfold compileFunnel
  cases hsteps : req.steps with
  | none => exact ⟨_, rfl⟩
  | some steps =>
    cases steps with
    | nil => exact ⟨_, rfl⟩
    | cons step steps => exact absurd ⟨step, steps, hsteps⟩ h

theorem compileFunnel_isOk
    : (∃ p, compileFunnel req start stop c = .ok p)
        ↔
      HasSteps req ∧ ∀ text, req.conversionWindow = some text → ∃ num unit, Reads text num unit ∧ (windowSecs unit).isSome := by
  by_cases hsteps : HasSteps req
  . have ⟨_, _, hsome⟩ := hsteps
    obtain ⟨f, hf⟩ := compileFunnel_steps req start stop c hsome
    rw [hf]
    simp only [hsteps, true_and, ← parseDurationSecs_isOk]
    cases req.conversionWindow with
    | none => simp [bind, Except.bind, pure, Except.pure]
    | some text =>
      simp only [Option.map_some, Option.getD_some, bind_eq_ok, Option.some.injEq, forall_eq', Except.ok.injEq]
      constructor
      . rintro ⟨_, n, hn, _⟩
        exact ⟨n, hn⟩
      . rintro ⟨n, hn⟩
        exact ⟨f n, n, hn, rfl⟩
  . obtain ⟨message, herror⟩ := compileFunnel_noSteps req start stop c hsteps
    simp [herror, hsteps]

theorem compileFunnel_eq_panic
    : compileFunnel req start stop c = .error .panic
        ↔
      HasSteps req ∧ ∃ text, req.conversionWindow = some text ∧ Cut text := by
  by_cases hsteps : HasSteps req
  . have ⟨_, _, hsome⟩ := hsteps
    obtain ⟨f, hf⟩ := compileFunnel_steps req start stop c hsome
    rw [hf]
    simp only [hsteps, true_and, ← parseDurationSecs_eq_panic]
    cases req.conversionWindow with
    | none => simp [bind, Except.bind, pure, Except.pure]
    | some text => simp [bind_eq_error]
  . obtain ⟨message, herror⟩ := compileFunnel_noSteps req start stop c hsteps
    simp [herror, hsteps]

end

variable {env : Env} {req : QueryRequest} {start stop : Time} {c : SqlCompiler}

theorem all_supported_iff
    : req.filter.all FilterExpr.supported = true ↔ ∀ filter, req.filter = some filter → filter.supported = true := by
  cases req.filter <;> simp

theorem compileKind_isOk : (∃ p, compileKind env req start stop c = .ok p) ↔ Accepted req := by
  unfold compileKind Accepted
  cases req.kind with
  | events => rw [← all_supported_iff]; exact (settles_events env req start stop c).isOk_iff
  | aggregate => rw [← all_supported_iff]; exact (settles_aggregate req start stop c).isOk_iff
  | breakdown => rw [← all_supported_iff]; exact (settles_aggregate req start stop c).isOk_iff
  | path => rw [← all_supported_iff]; exact (settles_path req start stop c).isOk_iff
  | funnel => exact compileFunnel_isOk req start stop c
  | retention =>
    rw [← Bool.and_eq_true]
    exact (settles_retention req start stop c).isOk_iff

theorem compileKind_eq_panic
    : compileKind env req start stop c = .error .panic
        ↔
      req.kind = .funnel ∧ HasSteps req ∧ ∃ text, req.conversionWindow = some text ∧ Cut text := by
  unfold compileKind
  cases req.kind with
  | events => simp [(settles_events env req start stop c).ne_panic]
  | aggregate => simp [(settles_aggregate req start stop c).ne_panic]
  | breakdown => simp [compileBreakdown, (settles_aggregate req start stop c).ne_panic]
  | path => simp [(settles_path req start stop c).ne_panic]
  | funnel => simp [compileFunnel_eq_panic]
  | retention => simp [(settles_retention req start stop c).ne_panic]

/-! Ranges -/

theorem between_of_resolve (h : resolveTimeRange env req.timeRange = .ok (start, stop)) : Between env req start stop := by
  unfold Between
  cases hrange : req.timeRange with
  | absolute a b =>
    rw [hrange] at h
    cases h
    exact ⟨rfl, rfl⟩
  | relative last =>
    rw [hrange, resolveTimeRange, bind_eq_ok] at h
    obtain ⟨t, ht, hpair⟩ := h
    cases hpair
    obtain ⟨num, unit, secs, hreads, hsecs, hstart⟩ := parseRelativeDuration_eq_ok.mp ht
    exact ⟨rfl, num, unit, secs, hreads, hsecs, (startOf_eq_some.mp hstart).2.2.2⟩

theorem resolve_eq_panic
    : resolveTimeRange env req.timeRange = .error .panic
        ↔
      ∃ last, req.timeRange = .relative last
        ∧ (Cut last ∨ ∃ num unit secs, Reads last num unit ∧ rangeSecs unit = some secs ∧ startOf env.now num secs = none) := by
  cases hrange : req.timeRange with
  | absolute a b => simp [resolveTimeRange]
  | relative last =>
    simp only [resolveTimeRange, bind_eq_error, parseRelativeDuration_eq_panic, TimeRange.relative.injEq, exists_eq_left']
    constructor
    . rintro (h | ⟨_, _, h⟩)
      . exact h
      . cases h
    . exact .inl

/--
A start that is no time of `chrono`.
-/
theorem startOf_eq_none {now : Time} {num : Int64} {secs : Int}
    : startOf now num secs = none
        ↔
      ¬ ((num.toInt * secs * 1000).natAbs ≤ 9223372036854775807
        ∧ minUtc ≤ now - num.toInt * secs * nanos ∧ now - num.toInt * secs * nanos ≤ maxUtc) := by
  rw [Option.eq_none_iff_forall_ne_some]
  constructor
  . intro h hfits
    exact h _ (startOf_eq_some.mpr ⟨hfits.1, hfits.2.1, hfits.2.2, rfl⟩)
  . intro h t ht
    obtain ⟨hms, hmin, hmax, _⟩ := startOf_eq_some.mp ht
    exact h ⟨hms, hmin, hmax⟩

theorem tdiv_tdiv_day (x : Int) : (x.tdiv nanos).tdiv 86400 = x.tdiv day := by
  have hnonneg : ∀ y : Int, 0 ≤ y → (y.tdiv nanos).tdiv 86400 = y.tdiv day := by
    intro y hy
    have hnanos : 0 ≤ y.tdiv nanos := Int.tdiv_nonneg hy (by decide)
    rw [Int.tdiv_eq_ediv_of_nonneg hnanos, Int.tdiv_eq_ediv_of_nonneg hy, Int.tdiv_eq_ediv_of_nonneg hy]
    simp only [nanos, day]
    omega
  by_cases hx : 0 ≤ x
  . exact hnonneg x hx
  . have hneg := hnonneg (-x) (by omega)
    rw [Int.neg_tdiv, Int.neg_tdiv, Int.neg_tdiv] at hneg
    omega

theorem tdiv_day_bounds (x : Int)
    : (0 ≤ x → 0 ≤ x.tdiv day ∧ x.tdiv day * day ≤ x ∧ x < (x.tdiv day + 1) * day)
      ∧ (x < 0 → x.tdiv day ≤ 0 ∧ (x.tdiv day - 1) * day < x ∧ x ≤ x.tdiv day * day) := by
  have hnonneg : ∀ y : Int, 0 ≤ y → 0 ≤ y.tdiv day ∧ y.tdiv day * day ≤ y ∧ y < (y.tdiv day + 1) * day := by
    intro y hy
    rw [Int.tdiv_eq_ediv_of_nonneg hy]
    simp only [nanos, day]
    omega
  refine ⟨hnonneg x, ?_⟩
  intro hx
  have hneg := hnonneg (-x) (by omega)
  rw [Int.neg_tdiv] at hneg
  simp only [nanos, day] at hneg ⊢
  omega

theorem daysBetween_le_iff {limit : UInt32}
    : daysBetween start stop ≤ limit ↔ (stop - start).tdiv day % 2 ^ 32 ≤ (limit.toNat : Int) := by
  rw [daysBetween, tdiv_tdiv_day, UInt32.le_iff_toNat_le]
  have : (UInt32.ofInt ((stop - start).tdiv day)).toNat = ((stop - start).tdiv day % 2 ^ 32).toNat := by
    rw [UInt32.ofInt, UInt32.toNat_ofNat']
    omega
  rw [this]
  omega

theorem slips_cases {a b limit : Int} (hnonneg : 0 ≤ limit) (hlimit : limit < 2 ^ 32)
    : (b < a ∧ a - b < day ∨ limit * day < b - a ∧ b - a < (limit + 1) * day
        ∨ ((b - a).tdiv day < 0 ∨ 2 ^ 32 ≤ (b - a).tdiv day) ∧ (b - a).tdiv day % 2 ^ 32 ≤ limit)
        ↔
      (b - a).tdiv day % 2 ^ 32 ≤ limit ∧ ¬ (a ≤ b ∧ b - a ≤ limit * day) := by
  have hbounds := tdiv_day_bounds (b - a)
  generalize (b - a).tdiv day = days at *
  simp only [day, nanos] at *
  omega

/--
The ranges that are taken although they are not within the limit.
-/
theorem slips_iff
    : Slips env start stop
        ↔
      daysBetween start stop ≤ env.config.queryRawRangeDays
        ∧ ¬ (start ≤ stop ∧ stop - start ≤ env.config.queryRawRangeDays.toNat * day) := by
  rw [daysBetween_le_iff]
  have := env.config.queryRawRangeDays.toNat_lt
  apply slips_cases <;> omega

/-! The text behind a query -/

theorem compile_eq_ok {q : CompiledQuery}
    : compile env req = .ok q
        ↔
      ∃ start stop sql c, resolveTimeRange env req.timeRange = .ok (start, stop)
        ∧ daysBetween start stop ≤ env.config.queryRawRangeDays ∧ compileKind env req start stop {} = .ok (sql, c)
        ∧ q = ⟨.sql ("SET statement_timeout = '" ++ Nat.repr env.config.queryTimeoutMs.toNat ++ "ms';\n") :: sql, c.params,
          (daysBetween start stop).toNat * 1000⟩ := by
  unfold compile
  rw [bind_eq_ok]
  constructor
  . rintro ⟨⟨start, stop⟩, hrange, h⟩
    dsimp only at h
    by_cases hdays : env.config.queryRawRangeDays < daysBetween start stop
    . rw [if_pos hdays] at h
      cases h
    . rw [if_neg hdays, bind_eq_ok] at h
      obtain ⟨⟨sql, c⟩, hkind, hret⟩ := h
      cases hret
      exact ⟨start, stop, sql, c, hrange, UInt32.not_lt.mp hdays, hkind, rfl⟩
  . rintro ⟨start, stop, sql, c, hrange, hdays, hkind, rfl⟩
    refine ⟨(start, stop), hrange, ?_⟩
    dsimp only
    rw [if_neg (UInt32.not_lt.mpr hdays), bind_eq_ok]
    exact ⟨(sql, c), hkind, rfl⟩

theorem compile_eq_panic
    : compile env req = .error .panic
        ↔
      resolveTimeRange env req.timeRange = .error .panic
        ∨ ∃ start stop, resolveTimeRange env req.timeRange = .ok (start, stop)
          ∧ daysBetween start stop ≤ env.config.queryRawRangeDays ∧ compileKind env req start stop {} = .error .panic := by
  unfold compile
  rw [bind_eq_error]
  apply or_congr Iff.rfl
  constructor
  . rintro ⟨⟨start, stop⟩, hrange, h⟩
    dsimp only at h
    by_cases hdays : env.config.queryRawRangeDays < daysBetween start stop
    . rw [if_pos hdays] at h
      cases h
    . rw [if_neg hdays, bind_eq_error] at h
      refine ⟨start, stop, hrange, UInt32.not_lt.mp hdays, ?_⟩
      rcases h with h | ⟨_, _, h⟩
      . exact h
      . cases h
  . rintro ⟨start, stop, hrange, hdays, hkind⟩
    refine ⟨(start, stop), hrange, ?_⟩
    dsimp only
    rw [if_neg (UInt32.not_lt.mpr hdays), bind_eq_error]
    exact .inl hkind

/--
What a query that is compiled comes from.
-/
theorem of_compile {q : CompiledQuery} (h : compile env req = .ok q)
    : ∃ start stop, Between env req start stop ∧ resolveTimeRange env req.timeRange = .ok (start, stop)
      ∧ daysBetween start stop ≤ env.config.queryRawRangeDays ∧ Accepted req := by
  obtain ⟨start, stop, sql, c, hrange, hdays, hkind, _⟩ := compile_eq_ok.mp h
  exact ⟨start, stop, between_of_resolve hrange, hrange, hdays, compileKind_isOk.mp ⟨_, hkind⟩⟩

theorem compile_of_resolve (hrange : resolveTimeRange env req.timeRange = .ok (start, stop))
    (hdays : daysBetween start stop ≤ env.config.queryRawRangeDays) (haccepted : Accepted req)
    : ∃ q, compile env req = .ok q := by
  obtain ⟨⟨sql, c⟩, hkind⟩ := compileKind_isOk.mpr haccepted
  exact ⟨_, compile_eq_ok.mpr ⟨start, stop, sql, c, hrange, hdays, hkind, rfl⟩⟩

/-! Rows -/

theorem limitText_inj {m n : Nat} (h : "LIMIT " ++ Nat.repr m = "LIMIT " ++ Nat.repr n) : m = n := by
  have hlist := congrArg String.toList h
  rw [String.toList_append, String.toList_append, List.append_cancel_left_eq, Nat.toList_repr, Nat.toList_repr] at hlist
  have hvalue := congrArg (Nat.ofDigitChars 10 · 0) hlist
  simp only [Nat.ofDigitChars_ten_toDigits] at hvalue
  exact hvalue

/--
The pieces end in a text that is no limit.
-/
def Unlimited (pieces : List Piece) : Prop :=
  ∃ s, pieces.getLast? = some (.sql s) ∧ s.toList.head? ≠ some 'L'

theorem Unlimited.last (pieces : List Piece) {s : String} (h : s.toList.head? ≠ some 'L') : Unlimited (pieces ++ [.sql s]) :=
  ⟨s, List.getLast?_concat, h⟩

theorem Unlimited.append {pieces pieces' : List Piece} (h : Unlimited pieces) (h' : pieces' = [] ∨ Unlimited pieces')
    : Unlimited (pieces ++ pieces') := by
  rcases h' with rfl | ⟨s, hlast, hhead⟩
  . rwa [List.append_nil]
  . refine ⟨s, ?_, hhead⟩
    rw [List.getLast?_append, hlast]
    rfl

theorem Unlimited.ne_limit {pieces : List Piece} (h : Unlimited pieces) (n : Nat)
    : pieces.getLast? ≠ some (.sql ("LIMIT " ++ Nat.repr n)) := by
  obtain ⟨s, hlast, hhead⟩ := h
  rw [hlast]
  intro heq
  cases heq
  apply hhead
  rw [String.toList_append]
  rfl

theorem limited_iff {pieces : List Piece} {most : Nat} (h : Unlimited pieces)
    : (∃ n ≤ most, (pieces ++ limitClause req).getLast? = some (.sql ("LIMIT " ++ Nat.repr n)))
        ↔
      ∃ limit, req.limit = some limit ∧ limit.toNat ≤ most := by
  unfold limitClause
  cases req.limit with
  | none =>
    rw [List.append_nil]
    constructor
    . rintro ⟨n, _, hlast⟩
      exact absurd hlast (h.ne_limit n)
    . nofun
  | some limit =>
    rw [List.getLast?_concat]
    constructor
    . rintro ⟨n, hle, heq⟩
      have hsql := Option.some.inj heq
      rw [Piece.sql.injEq] at hsql
      rw [← limitText_inj hsql] at hle
      exact ⟨limit, rfl, hle⟩
    . rintro ⟨_, heq, hle⟩
      cases heq
      exact ⟨limit.toNat, hle, rfl⟩

theorem unlimited_scope (before join : String) {after : String} (hafter : after.toList.head? ≠ some 'L')
    : Unlimited (scopeClause req start stop c before join after).1 := by
  refine ⟨after, ?_, hafter⟩
  simp [scopeClause, SqlCompiler.withParam]

theorem unlimited_customFilter {before after : String} {pieces : List Piece} {c' : SqlCompiler}
    (hafter : after.toList.head? ≠ some 'L') (h : compileCustomFilter req c before after = .ok (pieces, c'))
    : pieces = [] ∨ Unlimited pieces := by
  unfold compileCustomFilter at h
  cases hfilter : req.filter with
  | none =>
    rw [hfilter] at h
    cases h
    exact .inl rfl
  | some filter =>
    rw [hfilter, bind_eq_ok] at h
    obtain ⟨⟨pieces, c⟩, _, hret⟩ := h
    cases hret
    exact .inr (.last (.sql before :: pieces) hafter)

theorem Unlimited.cons {pieces : List Piece} (h : Unlimited pieces) (piece : Piece) : Unlimited (piece :: pieces) := by
  obtain ⟨s, hlast, hhead⟩ := h
  refine ⟨s, ?_, hhead⟩
  rw [List.getLast?_cons, hlast]
  rfl

theorem Unlimited.prepend {pieces : List Piece} (h : Unlimited pieces) (before : List Piece) : Unlimited (before ++ pieces) := by
  induction before with
  | nil => exact h
  | cons piece before ih => exact ih.cons piece

theorem events_rows {sql : List Piece} (h : compileEvents env req start stop {} = .ok (sql, c))
    : ∃ n ≤ env.config.queryMaxRows.toNat, sql.getLast? = some (.sql ("LIMIT " ++ Nat.repr n)) := by
  unfold compileEvents at h
  dsimp only at h
  obtain ⟨⟨filter, c'⟩, _, hret⟩ := bind_eq_ok.mp h
  cases hret
  refine ⟨(min (req.limit.getD 1000) env.config.queryMaxRows.toUInt32).toNat, ?_, ?_⟩
  . have hle : min (req.limit.getD 1000) env.config.queryMaxRows.toUInt32 ≤ env.config.queryMaxRows.toUInt32 := by
      show (if _ ≤ _ then _ else _) ≤ _
      split
      . assumption
      . exact UInt32.le_refl _
    have htrunc : env.config.queryMaxRows.toUInt32.toNat ≤ env.config.queryMaxRows.toNat := by
      rw [UInt64.toNat_toUInt32]
      apply Nat.mod_le
    exact Nat.le_trans (UInt32.le_iff_toNat_le.mp hle) htrunc
  . rw [List.getLast?_append]
    rfl

/--
The pieces of an aggregate behind its conditions, without the limit.
-/
theorem aggregateTail_eq
    : ∃ order, aggregateTail req = order ++ limitClause req ∧ (order = [] ∨ Unlimited order) := by
  refine ⟨_, rfl, ?_⟩
  have hgroup : (if groupCols req = [] then ([] : List Piece)
      else .sql "GROUP BY " :: joinPieces (groupCols req) ++ [.sql " "]) = []
      ∨ Unlimited (if groupCols req = [] then [] else .sql "GROUP BY " :: joinPieces (groupCols req) ++ [.sql " "]) := by
    split
    . exact .inl rfl
    . exact .inr (.last _ (by decide))
  have horder : (if req.timeBucket.isSome then [Piece.sql "ORDER BY time_bucket ASC "]
      else if req.groupBy.isEmpty then [] else [.sql "ORDER BY value DESC "]) = []
      ∨ Unlimited (if req.timeBucket.isSome then [Piece.sql "ORDER BY time_bucket ASC "]
        else if req.groupBy.isEmpty then [] else [.sql "ORDER BY value DESC "]) := by
    split
    . exact .inr (.last [] (by decide))
    . split
      . exact .inl rfl
      . exact .inr (.last [] (by decide))
  rcases hgroup with heq | hgroup
  . rw [heq, List.nil_append]
    exact horder
  . exact .inr (hgroup.append horder)

theorem aggregate_rows {sql : List Piece} {most : Nat} (h : compileAggregate req start stop {} = .ok (sql, c))
    : (∃ n ≤ most, sql.getLast? = some (.sql ("LIMIT " ++ Nat.repr n)))
        ↔
      ∃ limit, req.limit = some limit ∧ limit.toNat ≤ most := by
  unfold compileAggregate at h
  dsimp only at h
  obtain ⟨⟨filter, c'⟩, hfilter, hret⟩ := bind_eq_ok.mp h
  cases hret
  obtain ⟨order, htail, horder⟩ := @aggregateTail_eq req
  rw [htail, ← List.append_assoc]
  apply limited_iff
  apply Unlimited.append _ horder
  apply Unlimited.append _ (unlimited_customFilter (by decide) hfilter)
  exact (unlimited_scope _ _ (by decide)).prepend _

theorem path_rows {sql : List Piece} {most : Nat} (h : compilePath req start stop {} = .ok (sql, c))
    : (∃ n ≤ most, sql.getLast? = some (.sql ("LIMIT " ++ Nat.repr n)))
        ↔
      ∃ limit, req.limit = some limit ∧ limit.toNat ≤ most := by
  unfold compilePath at h
  dsimp only at h
  obtain ⟨⟨filter, c'⟩, hfilter, hret⟩ := bind_eq_ok.mp h
  cases hret
  apply limited_iff
  refine ⟨"ORDER BY transitions DESC\n", ?_, by decide⟩
  rw [List.getLast?_append]
  rfl

/--
The rows of a query that is compiled are bounded if and only if its kind and its limit bound them.
-/
theorem rows_iff {sql : List Piece} (h : compileKind env req start stop {} = .ok (sql, c))
    (hfunnel : req.kind ≠ .funnel) (hretention : req.kind ≠ .retention)
    : ((∃ n ≤ env.config.queryMaxRows.toNat, sql.getLast? = some (.sql ("LIMIT " ++ Nat.repr n)))
        ∨ (Single req ∧ 1 ≤ env.config.queryMaxRows.toNat))
        ↔
      RowsOk env req := by
  unfold compileKind at h
  unfold RowsOk Single
  cases hkind : req.kind with
  | funnel => exact absurd hkind hfunnel
  | retention => exact absurd hkind hretention
  | events =>
    rw [hkind] at h
    simp [events_rows h]
  | aggregate =>
    rw [hkind] at h
    simp only [aggregate_rows h, true_or, true_and]
  | breakdown =>
    rw [hkind] at h
    simp only [aggregate_rows h, or_true, true_and]
  | path =>
    rw [hkind] at h
    simp only [path_rows h, reduceCtorEq, or_self, false_and, or_false]

/--
The line in front of a query is no limit.
-/
theorem getLast?_setLine (timeout : String) (sql : List Piece) (n : Nat)
    : (.sql ("SET statement_timeout = '" ++ timeout) :: sql).getLast? = some (.sql ("LIMIT " ++ Nat.repr n))
        ↔
      sql.getLast? = some (.sql ("LIMIT " ++ Nat.repr n)) := by
  rw [List.getLast?_cons]
  cases sql.getLast? with
  | none =>
    have hne : Unlimited [.sql ("SET statement_timeout = '" ++ timeout)] := by
      refine ⟨_, rfl, ?_⟩
      rw [String.toList_append]
      simp
    constructor
    . intro heq
      exact absurd heq (hne.ne_limit n)
    . nofun
  | some piece => rfl

/-! The bounds -/

theorem Tame.bounded (h : Tame env req) : Bounded env req where
  total hpanic := by
    rcases compile_eq_panic.mp hpanic with hrange | ⟨start, stop, hrange, hdays, hkind⟩
    . obtain ⟨last, hlast, hcut | ⟨num, unit, secs, hreads, hsecs, hstart⟩⟩ := resolve_eq_panic.mp hrange
      . exact h.rangeWhole last hlast hcut
      . exact startOf_eq_none.mp hstart (h.rangeFits last num unit secs hlast hreads hsecs)
    . obtain ⟨hfunnel, hsteps, text, htext, hcut⟩ := compileKind_eq_panic.mp hkind
      exact h.windowWhole start stop text (between_of_resolve hrange) hdays hfunnel hsteps htext hcut
  inRange q hq hfunnel text num unit secs htext hreads hsecs := by
    obtain ⟨start, stop, hbetween, _, hdays, haccepted⟩ := of_compile hq
    have hsteps : HasSteps req := by
      unfold Accepted at haccepted
      rw [hfunnel] at haccepted
      exact haccepted.1
    exact h.windowFits start stop text num unit secs hbetween hdays hfunnel hsteps htext hreads hsecs
  covers q start stop hq hrange := by
    obtain ⟨start', stop', hbetween, hrange', hdays, haccepted⟩ := of_compile hq
    rw [hrange] at hrange'
    cases hrange'
    have hslips := h.range start stop hbetween haccepted
    rw [slips_iff] at hslips
    by_contra hcovers
    exact hslips ⟨hdays, hcovers⟩
  rows q hq hfunnel hretention := by
    obtain ⟨start, stop, sql, c, hrange, hdays, hkind, rfl⟩ := compile_eq_ok.mp hq
    simp only [String.append_assoc, getLast?_setLine]
    rw [rows_iff hkind hfunnel hretention]
    exact h.rows start stop (between_of_resolve hrange) hdays (compileKind_isOk.mp ⟨_, hkind⟩)

theorem Bounded.rangeFits (h : Bounded env req) {last : String} {num : Int64} {unit : Char} {secs : Int}
    (hlast : req.timeRange = .relative last) (hreads : Reads last num unit) (hsecs : rangeSecs unit = some secs)
    : (num.toInt * secs * 1000).natAbs ≤ 9223372036854775807
      ∧ minUtc ≤ env.now - num.toInt * secs * nanos ∧ env.now - num.toInt * secs * nanos ≤ maxUtc := by
  by_contra hfits
  apply h.total
  rw [compile_eq_panic]
  left
  rw [resolve_eq_panic]
  exact ⟨last, hlast, .inr ⟨num, unit, secs, hreads, hsecs, startOf_eq_none.mpr hfits⟩⟩

theorem Bounded.resolve (h : Bounded env req) (hbetween : Between env req start stop)
    : resolveTimeRange env req.timeRange = .ok (start, stop) := by
  unfold Between at hbetween
  cases hrange : req.timeRange with
  | absolute a b =>
    rw [hrange] at hbetween
    rw [hbetween.1, hbetween.2]
    rfl
  | relative last =>
    rw [hrange] at hbetween
    obtain ⟨rfl, num, unit, secs, hreads, hsecs, rfl⟩ := hbetween
    have hfits := h.rangeFits hrange hreads hsecs
    rw [resolveTimeRange, bind_eq_ok]
    refine ⟨_, ?_, rfl⟩
    rw [parseRelativeDuration_eq_ok]
    exact ⟨num, unit, secs, hreads, hsecs, startOf_eq_some.mpr ⟨hfits.1, hfits.2.1, hfits.2.2, rfl⟩⟩

theorem Bounded.tame (h : Bounded env req) : Tame env req where
  rangeWhole last hlast hcut := by
    apply h.total
    rw [compile_eq_panic]
    left
    rw [resolve_eq_panic]
    exact ⟨last, hlast, .inl hcut⟩
  rangeFits last num unit secs hlast hreads hsecs := h.rangeFits hlast hreads hsecs
  windowWhole start stop text hbetween hdays hfunnel hsteps htext hcut := by
    apply h.total
    rw [compile_eq_panic]
    right
    exact ⟨start, stop, h.resolve hbetween, hdays, compileKind_eq_panic.mpr ⟨hfunnel, hsteps, text, htext, hcut⟩⟩
  windowFits start stop text num unit secs hbetween hdays hfunnel hsteps htext hreads hsecs := by
    have haccepted : Accepted req := by
      unfold Accepted
      rw [hfunnel]
      refine ⟨hsteps, ?_⟩
      intro text' htext'
      rw [htext] at htext'
      cases htext'
      exact ⟨num, unit, hreads, by rw [hsecs]; rfl⟩
    obtain ⟨q, hq⟩ := compile_of_resolve (h.resolve hbetween) hdays haccepted
    exact h.inRange q hq hfunnel text num unit secs htext hreads hsecs
  range start stop hbetween haccepted hslips := by
    obtain ⟨hdays, hnot⟩ := slips_iff.mp hslips
    obtain ⟨q, hq⟩ := compile_of_resolve (h.resolve hbetween) hdays haccepted
    exact hnot (h.covers q start stop hq (h.resolve hbetween))
  rows start stop hbetween hdays haccepted := by
    obtain ⟨⟨sql, c⟩, hkind⟩ := compileKind_isOk.mpr haccepted
    have hq := compile_eq_ok.mpr ⟨start, stop, sql, c, h.resolve hbetween, hdays, hkind, rfl⟩
    by_cases hfunnel : req.kind = .funnel
    . unfold RowsOk
      rw [hfunnel]
      trivial
    . by_cases hretention : req.kind = .retention
      . unfold RowsOk
        rw [hretention]
        trivial
      . have hrows := h.rows _ hq hfunnel hretention
        simp only [String.append_assoc, getLast?_setLine] at hrows
        exact (rows_iff hkind hfunnel hretention).mp hrows

theorem bounded_iff (env : Env) (req : QueryRequest) : Bounded env req ↔ Tame env req :=
  ⟨Bounded.tame, Tame.bounded⟩

end Reactor.Analytics
