import ReactorCloud.Analytics.Funnel

/-!
This module contains the types of what a retention query selects. Two days differ by an interval, and there is
no cast from an interval to an integer, so the database refuses the query whatever the table contains.
-/

namespace Reactor.Analytics

open Rust (bind_eq_ok)

/-! ## Types -/

inductive SqlType where
  | text
  | timestamptz
  | interval
  | integer
  | bigint
  deriving DecidableEq, Repr

inductive SqlExpr where
  | column (name : String)
  | coalesce (a b : SqlExpr)
  | dateTrunc (field : String) (e : SqlExpr)
  | minus (a b : SqlExpr)
  | toInt (e : SqlExpr)
  | countDistinct (e : SqlExpr)

namespace SqlExpr

def text : SqlExpr → String
  | .column name => name
  | .coalesce a b => "COALESCE(" ++ a.text ++ ", " ++ b.text ++ ")"
  | .dateTrunc field e => "DATE_TRUNC('" ++ field ++ "', " ++ e.text ++ ")"
  | .minus a b => "(" ++ a.text ++ " - " ++ b.text ++ ")"
  | .toInt e => e.text ++ "::int"
  | .countDistinct e => "COUNT(DISTINCT " ++ e.text ++ ")"

def minusType : SqlType → SqlType → Option SqlType
  | .timestamptz, .timestamptz => some .interval
  | .timestamptz, .interval => some .timestamptz
  | .interval, .interval => some .interval
  | .integer, .integer => some .integer
  | .bigint, .bigint => some .bigint
  | _, _ => none

/--
What can be cast to an integer, a text is read as one.
-/
def intCast : SqlType → Bool
  | .text | .integer | .bigint => true
  | .timestamptz | .interval => false

/--
The type the database gives an expression, none if it refuses it.
-/
def typeOf (columns : List (String × SqlType)) : SqlExpr → Option SqlType
  | .column name => columns.lookup name
  | .coalesce a b => do
    let s ← a.typeOf columns
    let t ← b.typeOf columns
    if s = t then some s else none
  | .dateTrunc _ e => do
    let t ← e.typeOf columns
    if t = .timestamptz ∨ t = .interval then some t else none
  | .minus a b => do
    let s ← a.typeOf columns
    let t ← b.typeOf columns
    minusType s t
  | .toInt e => do
    let t ← e.typeOf columns
    if intCast t then some .integer else none
  | .countDistinct e => do
    let _ ← e.typeOf columns
    return .bigint

end SqlExpr

/-! ## The text of a retention query -/

/--
The columns of the events that the query reads.
-/
def eventColumns : List (String × SqlType) :=
  [("timestamp", .timestamptz), ("event", .text), ("anonymous_id", .text), ("user_id", .text)]

def userKeyExpr : SqlExpr :=
  .coalesce (.column "user_id") (.column "anonymous_id")

def dateExpr : SqlExpr :=
  .dateTrunc "day" (.column "timestamp")

/--
The columns of `cohorts c` and `returns r`.
-/
def joinedColumns : Option (List (String × SqlType)) := do
  let userKey ← userKeyExpr.typeOf eventColumns
  let date ← dateExpr.typeOf eventColumns
  return [("c.user_key", userKey), ("c.cohort_date", date), ("r.user_key", userKey), ("r.return_date", date)]

def cohortDate : SqlExpr :=
  .column "c.cohort_date"

def dayN : SqlExpr :=
  .toInt (.minus (.column "r.return_date") (.column "c.cohort_date"))

def cohortSize : SqlExpr :=
  .countDistinct (.column "c.user_key")

def retained : SqlExpr :=
  .countDistinct (.column "r.user_key")

def retentionText : String :=
  "WITH cohorts AS (\n"
    ++ ("  SELECT DISTINCT " ++ userKeyExpr.text ++ " as user_key,\n")
    ++ ("         " ++ dateExpr.text ++ " as cohort_date\n")
    ++ "  FROM _reactor_analytics.events\n"
    ++ "  WHERE project_id = " ++ placeholder 1 ++ "\n"
    ++ "    AND received_at >= " ++ placeholder 2 ++ "\n"
    ++ "    AND received_at < " ++ placeholder 3 ++ "\n"
    ++ "    AND event = " ++ placeholder 4 ++ "\n"
    ++ "),\n"
    ++ "returns AS (\n"
    ++ ("  SELECT " ++ userKeyExpr.text ++ " as user_key,\n")
    ++ ("         " ++ dateExpr.text ++ " as return_date\n")
    ++ "  FROM _reactor_analytics.events\n"
    ++ "  WHERE project_id = " ++ placeholder 5 ++ "\n"
    ++ "    AND received_at >= " ++ placeholder 6 ++ "\n"
    ++ "    AND received_at < " ++ placeholder 7 ++ "\n"
    ++ "    AND event = " ++ placeholder 8 ++ "\n"
    ++ ")\n"
    ++ ("SELECT " ++ cohortDate.text ++ ", " ++ dayN.text ++ " as day_n,\n")
    ++ ("       " ++ cohortSize.text ++ " as cohort_size,\n")
    ++ ("       " ++ retained.text ++ " as retained\n")
    ++ "FROM cohorts c\n"
    ++ "LEFT JOIN returns r ON c.user_key = r.user_key AND r.return_date >= c.cohort_date\n"
    ++ "GROUP BY c.cohort_date, day_n\n"
    ++ "ORDER BY c.cohort_date, day_n"

/--
The types of the columns of the answer, none if the database refuses the query.
-/
def retentionTypes : Option (List SqlType) := do
  let columns ← joinedColumns
  [cohortDate, dayN, cohortSize, retained].mapM (SqlExpr.typeOf columns)

theorem dayN_refused : retentionTypes = none := by
  rfl

theorem textOf_param (c : SqlCompiler) (p : QueryParam) (before after : String)
    : textOf (c.withParam before p after).1 = before ++ (placeholder c.paramIdx ++ after) := by
  simp only [SqlCompiler.withParam, SqlCompiler.nextParam, textOf_cons, textOf_nil, text_sql, placeholder,
    String.append_empty]

/--
The lines with expressions in them, as the compiler writes them.
-/
theorem retention_lines
    : "  SELECT DISTINCT " ++ userKeyExpr.text ++ " as user_key,\n"
        = "  SELECT DISTINCT COALESCE(user_id, anonymous_id) as user_key,\n"
      ∧ "         " ++ dateExpr.text ++ " as cohort_date\n" = "         DATE_TRUNC('day', timestamp) as cohort_date\n"
      ∧ "  SELECT " ++ userKeyExpr.text ++ " as user_key,\n" = "  SELECT COALESCE(user_id, anonymous_id) as user_key,\n"
      ∧ "         " ++ dateExpr.text ++ " as return_date\n" = "         DATE_TRUNC('day', timestamp) as return_date\n"
      ∧ "SELECT " ++ cohortDate.text ++ ", " ++ dayN.text ++ " as day_n,\n"
        = "SELECT c.cohort_date, (r.return_date - c.cohort_date)::int as day_n,\n"
      ∧ "       " ++ cohortSize.text ++ " as cohort_size,\n" = "       COUNT(DISTINCT c.user_key) as cohort_size,\n"
      ∧ "       " ++ retained.text ++ " as retained\n" = "       COUNT(DISTINCT r.user_key) as retained\n" := by
  decide

theorem textOf_compileRetention {req : QueryRequest} {start stop : Time} {sql : List Piece} {c : SqlCompiler}
    (h : compileRetention req start stop {} = .ok (sql, c)) : textOf sql = retentionText := by
  unfold compileRetention at h
  split at h
  . cases h
  . cases h
  . next cohort returnEvent _ _ =>
    have hscope := textOf_scope req start stop {}
    have hidx : (scopeClause req start stop {} "  WHERE " "    AND " "\n").2.paramIdx = 4 := rfl
    rcases hclause : scopeClause req start stop {} "  WHERE " "    AND " "\n" with ⟨scope, c₀⟩
    rw [hclause] at h hscope hidx
    dsimp only at h hscope hidx
    have hcohort := textOf_param c₀ (.string cohort.event) "    AND event = " "\n"
    have hidx' : (c₀.withParam "    AND event = " (.string cohort.event) "\n").2.paramIdx = 5 := by
      have : (c₀.withParam "    AND event = " (.string cohort.event) "\n").2.paramIdx = c₀.paramIdx + 1 := rfl
      rw [this, hidx]
    rcases hparam : c₀.withParam "    AND event = " (.string cohort.event) "\n" with ⟨cohortEvent, c₁⟩
    rw [hparam] at h hcohort hidx'
    dsimp only at h hcohort hidx'
    have hscope' := textOf_scope req start stop c₁
    have hidx'' : (scopeClause req start stop c₁ "  WHERE " "    AND " "\n").2.paramIdx = 8 := by
      rw [scopeClause_paramIdx, hidx']
    rcases hclause' : scopeClause req start stop c₁ "  WHERE " "    AND " "\n" with ⟨scope', c₂⟩
    rw [hclause'] at h hscope' hidx''
    dsimp only at h hscope' hidx''
    have hevent := textOf_param c₂ (.string returnEvent) "    AND event = " "\n"
    rcases hparam' : c₂.withParam "    AND event = " (.string returnEvent) "\n" with ⟨event, c₃⟩
    rw [hparam'] at h hevent
    dsimp only at h hevent
    obtain ⟨rfl, rfl⟩ := Prod.mk.inj (Except.ok.inj h)
    rw [hidx] at hcohort
    rw [hidx'] at hscope'
    rw [hidx''] at hevent
    have ⟨hcohortKey, hcohortDate, hreturnKey, hreturnDate, hdayN, hsize, hretained⟩ := retention_lines
    unfold retentionText
    rw [hcohortKey, hcohortDate, hreturnKey, hreturnDate, hdayN, hsize, hretained]
    simp only [textOf_append, textOf_cons, textOf_nil, text_sql, hscope, hcohort, hscope', hevent, Nat.reduceAdd,
      String.append_empty, String.append_assoc]

/-! ## Cohorts -/

structure RetentionRow where
  cohortDate : Int
  dayN : Option Int
  cohortSize : Nat
  retained : Nat

section

variable {α : Type} (satisfies : FilterExpr → Event α → Prop) (dayOf : Time → Int) (req : QueryRequest)
  (start stop : Time) (table : List (Event α))

/--
The users with a cohort event on a day.
-/
def cohortOn (d : Int) : Set String :=
  {key | ∃ cohort, req.cohort = some cohort ∧ ∃ e ∈ table, inRange req start stop e ∧ e.event = cohort.event
    ∧ (∀ filter, cohort.filter = some filter → satisfies filter e) ∧ dayOf e.timestamp = d ∧ e.userKey = key}

/--
The users with a return event on a day.
-/
def returnsOn (d : Int) : Set String :=
  {key | ∃ returnEvent, req.returnEvent = some returnEvent ∧ ∃ e ∈ table, inRange req start stop e
    ∧ e.event = returnEvent ∧ dayOf e.timestamp = d ∧ e.userKey = key}

structure RetentionExact (rows : List RetentionRow) : Prop where
  days : ∀ row ∈ rows, ∃ n : Nat, row.dayN = some (n : Int)
  sizes : ∀ row ∈ rows, row.cohortSize = (cohortOn satisfies dayOf req start stop table row.cohortDate).ncard
  retained : ∀ row ∈ rows, ∀ n, row.dayN = some n → row.retained
    = (cohortOn satisfies dayOf req start stop table row.cohortDate
      ∩ returnsOn dayOf req start stop table (row.cohortDate + n)).ncard
  bounded : ∀ row ∈ rows, row.retained ≤ row.cohortSize

/--
The database answers the query by rows that report the cohorts. `execute` is what the database does with a query
that it does not refuse.
-/
def RetentionReports (execute : String → List QueryParam → List (Event α) → Option (List RetentionRow))
    (sql : List Piece) (c : SqlCompiler) : Prop :=
  textOf sql = retentionText
    ∧ ∃ types rows, retentionTypes = some types ∧ execute (textOf sql) c.params table = some rows
      ∧ RetentionExact satisfies dayOf req start stop table rows

theorem not_retentionReports (execute : String → List QueryParam → List (Event α) → Option (List RetentionRow))
    {sql : List Piece} {c : SqlCompiler} (h : compileRetention req start stop {} = .ok (sql, c))
    : textOf sql = retentionText ∧ ¬ RetentionReports satisfies dayOf req start stop table execute sql c := by
  refine ⟨textOf_compileRetention h, ?_⟩
  rintro ⟨-, types, rows, htypes, -⟩
  rw [dayN_refused] at htypes
  cases htypes

end

/-! A cohort of one visitor that comes back on the next day -/

def signupRetention : QueryRequest where
  projectId := 0
  kind := .retention
  timeRange := .absolute 0 (2 * 86400 * nanos)
  cohort := some ⟨"signup", none⟩
  returnEvent := some "visit"

theorem signupRetention_refused
    : ∃ sql c, compileRetention signupRetention 0 1 {} = .ok (sql, c)
        ∧ ¬ RetentionReports (fun _ _ => True) id signupRetention 0 1 ([] : List (Event Unit)) (fun _ _ _ => some []) sql c :=
  ⟨_, _, rfl, (not_retentionReports (fun _ _ => True) id signupRetention 0 1 [] (fun _ _ _ => some []) rfl).2⟩

theorem visitor_not_reported
    : ∃ sql c, compileRetention signupRetention 0 (2 * 86400 * nanos) {} = .ok (sql, c)
        ∧ ¬ RetentionReports (fun _ _ => True) (fun t => t / (86400 * nanos)) signupRetention 0 (2 * 86400 * nanos)
            [visit "a" "signup" 1, visit "a" "visit" (86400 * nanos)] (fun _ _ _ => some [⟨0, some 1, 1, 1⟩]) sql c := by
  refine ⟨_, _, rfl, ?_⟩
  rintro ⟨-, types, rows, htypes, -⟩
  rw [dayN_refused] at htypes
  cases htypes

end Reactor.Analytics
