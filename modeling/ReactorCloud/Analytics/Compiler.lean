import ReactorCloud.Rust.Json
import ReactorCloud.Rust.Uuid
import ReactorCloud.Rust.Str

/-!
This module contains the requests of the query plane of the analytics service and the compiler from them
to SQL. A compiled text is a list of pieces, so that what a request brings along can be told from what the
compiler writes.
-/

namespace Reactor.Analytics

open Rust (Json Uuid)

/--
A `DateTime<Utc>`, in nanoseconds.
-/
abbrev Time := Int

inductive QueryKind where
  | events
  | aggregate
  | funnel
  | retention
  | breakdown
  | path
  deriving DecidableEq, Repr

inductive TimeRange where
  | absolute (start stop : Time)
  | relative (last : String)

inductive TimeBucket where
  | minute1
  | minute5
  | hour1
  | day1
  | week1
  | month1
  deriving DecidableEq, Repr

inductive Measure where
  | count
  | uniqueUsers
  | uniqueSessions
  | sum (prop : String)
  | avg (prop : String)
  | p50 (prop : String)
  | p95 (prop : String)
  | p99 (prop : String)

inductive StringOp where
  | eq (v : String)
  | neq (v : String)
  | contains (v : String)
  | startsWith (v : String)
  | endsWith (v : String)
  | oneOf (vals : List String)
  | notIn (vals : List String)

inductive ValueOp where
  | eq (v : Json)
  | neq (v : Json)
  | gt (v : Json)
  | gte (v : Json)
  | lt (v : Json)
  | lte (v : Json)
  | oneOf (vals : List Json)
  | notIn (vals : List Json)
  | isNull
  | isNotNull

inductive FilterExpr where
  | all (exprs : List FilterExpr)
  | any (exprs : List FilterExpr)
  | not (expr : FilterExpr)
  | event (op : StringOp)
  | prop (name : String) (op : ValueOp)
  | user (op : StringOp)
  | anon (op : StringOp)

inductive GroupKey where
  | prop (name : String)
  | event
  | user
  | anon

/--
The filters of steps and cohorts are not read by anything.
-/
structure FunnelStep where
  event : String
  filter : Option FilterExpr := none

structure CohortDef where
  event : String
  filter : Option FilterExpr := none

structure QueryRequest where
  projectId : Uuid
  kind : QueryKind
  timeRange : TimeRange
  filter : Option FilterExpr := none
  groupBy : List GroupKey := []
  timeBucket : Option TimeBucket := none
  measure : Option Measure := none
  steps : Option (List FunnelStep) := none
  conversionWindow : Option String := none
  cohort : Option CohortDef := none
  returnEvent : Option String := none
  limit : Option UInt32 := none

/-! The compiler -/

open Rust (F64 Json Uuid)

/--
Hot columns that exist directly on the events table.
-/
def hotColumns : List String :=
  ["event", "anonymous_id", "user_id", "session_id", "url", "path", "referrer_host", "utm_source", "country",
    "device_type", "library_name", "library_version"]

inductive QueryParam where
  | uuid (id : Uuid)
  | timestamp (t : Time)
  | string (s : String)
  | int (n : Int64)
  | float (x : F64)
  | bool (b : Bool)
  | json (v : Json)
  | stringArray (vals : List String)

/--
A text of the compiler or a string of the request.
-/
inductive Piece where
  | sql (text : String)
  | given (s : String)
  deriving DecidableEq, Repr

def Piece.text : Piece → String
  | .sql text => text
  | .given s => s

def textOf : List Piece → String
  | [] => ""
  | piece :: pieces => piece.text ++ textOf pieces

structure CompiledQuery where
  sql : List Piece
  params : List QueryParam
  estimatedCost : Nat

def CompiledQuery.text (q : CompiledQuery) : String :=
  textOf q.sql

structure AnalyticsConfig where
  queryTimeoutMs : UInt64 := 30000
  queryMaxRows : UInt64 := 100000
  queryRawRangeDays : UInt32 := 90

/--
A panic is an error as well.
-/
inductive AnalyticsError where
  | queryRangeTooWide (days limit : UInt32)
  | validation (message : String)
  | panic
  deriving DecidableEq, Repr

/-! Durations -/

def nanos : Int := 1000000000

/-- `DateTime::<Utc>::MIN_UTC` -/
def minUtc : Time := -8334601315200 * nanos

/-- `DateTime::<Utc>::MAX_UTC` -/
def maxUtc : Time := 8210266876799 * nanos + 999999999

/--
`chrono::Duration::minutes(num)` and its siblings, which panic on more than `i64::MAX` milliseconds.
-/
def durationOf (num : Int) (unitSecs : Int) : Option Int :=
  if (num * unitSecs * 1000).natAbs ≤ 9223372036854775807 then some (num * unitSecs * nanos) else none

/-- `from - duration` -/
def subtract (start : Time) (duration : Int) : Option Time :=
  if minUtc ≤ start - duration ∧ start - duration ≤ maxUtc then some (start - duration) else none

/--
`s.split_at(s.len() - 1)`, a panic inside of a character.
-/
def splitUnit (s : List Char) : Except AnalyticsError (List Char × Char) :=
  match s.getLast? with
  | none => .error .panic
  | some unit => if unit.utf8Size = 1 then .ok (s.dropLast, unit) else .error .panic

def splitDuration (text : String) : Except AnalyticsError (Int64 × Char) := do
  let s := Rust.Str.trim text
  if s = "" then
    throw (.validation "empty duration")
  let (numStr, unit) ← splitUnit s.toList
  match Rust.parseI64 numStr with
  | none => throw (.validation ("invalid duration: " ++ s))
  | some num => return (num, unit)

def invalidUnit (unit : Char) : AnalyticsError :=
  .validation ("invalid duration unit: " ++ String.singleton unit)

def parseRelativeDuration (text : String) (start : Time) : Except AnalyticsError Time := do
  let (num, unit) ← splitDuration text
  let unitSecs ←
    match unit with
    | 'm' => pure 60
    | 'h' => pure 3600
    | 'd' => pure 86400
    | 'w' => pure 604800
    | _ => throw (invalidUnit unit)
  match (durationOf num.toInt unitSecs).bind (subtract start) with
  | none => throw .panic
  | some t => return t

def parseDurationSecs (text : String) : Except AnalyticsError Int64 := do
  let (num, unit) ← splitDuration text
  match unit with
  | 's' => return num
  | 'm' => return num * 60
  | 'h' => return num * 3600
  | 'd' => return num * 86400
  | 'w' => return num * 86400 * 7
  | _ => throw (invalidUnit unit)

/--
What the compiler reads besides the request. `now` is the time of the call.
-/
structure Env where
  config : AnalyticsConfig
  now : Time

def resolveTimeRange (env : Env) : TimeRange → Except AnalyticsError (Time × Time)
  | .absolute start stop => .ok (start, stop)
  | .relative last => do
    let start ← parseRelativeDuration last env.now
    return (start, env.now)

/-! Parameters -/

/-- The parts of the compiler that change. -/
structure SqlCompiler where
  paramIdx : Nat := 1
  params : List QueryParam := []

namespace SqlCompiler

def nextParam (c : SqlCompiler) : Nat × SqlCompiler :=
  (c.paramIdx, { c with paramIdx := c.paramIdx + 1 })

def push (c : SqlCompiler) (p : QueryParam) : SqlCompiler :=
  { c with params := c.params ++ [p] }

/--
A text with the next parameter in it.
-/
def withParam (c : SqlCompiler) (before : String) (p : QueryParam) (after : String)
    : List Piece × SqlCompiler :=
  let (idx, c) := c.nextParam
  ([.sql before, .sql ("$" ++ Nat.repr idx), .sql after], c.push p)

end SqlCompiler

def valueToParam : Json → QueryParam
  | .string s => .string s
  | .number (.posInt n) => if n.toNat < 2 ^ 63 then .int (Int64.ofNat n.toNat) else .float (Rust.Number.posInt n).asF64
  | .number (.negInt n) => .int n
  | .number n => .float n.asF64
  | .bool b => .bool b
  | v => .json v

/-! Filters -/

/--
A column with an operator and a parameter.
-/
def operatorOn (c : SqlCompiler) (col : List Piece) (before : String) (p : QueryParam) (after : String)
    : List Piece × SqlCompiler :=
  let (pieces, c) := c.withParam before p after
  (col ++ pieces, c)

def compileStringOp (c : SqlCompiler) (col : String) : StringOp → List Piece × SqlCompiler
  | .eq v => operatorOn c [.sql col] " = " (.string v) ""
  | .neq v => operatorOn c [.sql col] " != " (.string v) ""
  | .contains v => operatorOn c [.sql col] " LIKE '%' || " (.string v) " || '%'"
  | .startsWith v => operatorOn c [.sql col] " LIKE " (.string v) " || '%'"
  | .endsWith v => operatorOn c [.sql col] " LIKE '%' || " (.string v) ""
  | .oneOf vals => operatorOn c [.sql col] " = ANY(" (.stringArray vals) ")"
  | .notIn vals => operatorOn c [.sql col] " != ALL(" (.stringArray vals) ")"

/-- The column is a name of the request. -/
def compileValueOp (c : SqlCompiler) (col : String) : ValueOp → List Piece × SqlCompiler
  | .eq v => operatorOn c [.given col] " = " (valueToParam v) ""
  | .neq v => operatorOn c [.given col] " != " (valueToParam v) ""
  | .gt v => operatorOn c [.given col] " > " (valueToParam v) ""
  | .gte v => operatorOn c [.given col] " >= " (valueToParam v) ""
  | .lt v => operatorOn c [.given col] " < " (valueToParam v) ""
  | .lte v => operatorOn c [.given col] " <= " (valueToParam v) ""
  | .oneOf vals => operatorOn c [.given col] " = ANY(" (.json (.array vals)) ")"
  | .notIn vals => operatorOn c [.given col] " != ALL(" (.json (.array vals)) ")"
  | .isNull => ([.given col, .sql " IS NULL"], c)
  | .isNotNull => ([.given col, .sql " IS NOT NULL"], c)

def compileValueOpJsonb (c : SqlCompiler) (jsonPath : String)
    : ValueOp → Except AnalyticsError (List Piece × SqlCompiler)
  | .eq v => .ok (operatorOn c [.sql ("(" ++ jsonPath)] ")::text = " (valueToParam v) "::text")
  | .neq v => .ok (operatorOn c [.sql ("(" ++ jsonPath)] ")::text != " (valueToParam v) "::text")
  | .gt v => .ok (operatorOn c [.sql ("(" ++ jsonPath)] ")::numeric > " (valueToParam v) "::numeric")
  | .gte v => .ok (operatorOn c [.sql ("(" ++ jsonPath)] ")::numeric >= " (valueToParam v) "::numeric")
  | .lt v => .ok (operatorOn c [.sql ("(" ++ jsonPath)] ")::numeric < " (valueToParam v) "::numeric")
  | .lte v => .ok (operatorOn c [.sql ("(" ++ jsonPath)] ")::numeric <= " (valueToParam v) "::numeric")
  | .oneOf _ => .error (.validation "IN operator not supported for jsonb properties")
  | .notIn _ => .error (.validation "NOT IN operator not supported for jsonb properties")
  | .isNull => .ok ([.sql ("(" ++ jsonPath), .sql ") IS NULL"], c)
  | .isNotNull => .ok ([.sql ("(" ++ jsonPath), .sql ") IS NOT NULL"], c)

mutual

def compileFilter (c : SqlCompiler) : FilterExpr → Except AnalyticsError (List Piece × SqlCompiler)
  | .all exprs => do
    let (pieces, c) ← compileFilters c " AND " exprs
    return (.sql "(" :: pieces ++ [.sql ")"], c)
  | .any exprs => do
    let (pieces, c) ← compileFilters c " OR " exprs
    return (.sql "(" :: pieces ++ [.sql ")"], c)
  | .not expr => do
    let (pieces, c) ← compileFilter c expr
    return (.sql "NOT " :: pieces, c)
  | .event op => return compileStringOp c "event" op
  | .user op => return compileStringOp c "user_id" op
  | .anon op => return compileStringOp c "anonymous_id" op
  | .prop name op =>
    if name ∈ hotColumns then
      return compileValueOp c name op
    else
      -- the number of the parameter, but not the parameter
      let (idx, c) := c.nextParam
      compileValueOpJsonb (c.push (.string name)) ("properties->>" ++ Nat.repr idx) op

/--
The loop of `all` and `any`, with the separator before all but the first one.
-/
def compileFilters (c : SqlCompiler) (sep : String) : List FilterExpr → Except AnalyticsError (List Piece × SqlCompiler)
  | [] => return ([], c)
  | [expr] => compileFilter c expr
  | expr :: exprs => do
    let (pieces, c) ← compileFilter c expr
    let (rest, c) ← compileFilters c sep exprs
    return (pieces ++ .sql sep :: rest, c)

end

/-! Columns -/

def groupKeyToColumn : GroupKey → List Piece
  | .prop name => if name ∈ hotColumns then [.given name] else [.sql "properties->>'", .given name, .sql "'"]
  | .event => [.sql "event"]
  | .user => [.sql "user_id"]
  | .anon => [.sql "anonymous_id"]

/--
A property as a number, inside of what `before` opens.
-/
def numericOf (before prop : String) : List Piece :=
  if prop ∈ hotColumns then
    [.sql before, .given prop, .sql "::numeric) as value"]
  else
    [.sql before, .sql "(properties->>'", .given prop, .sql "')::numeric) as value"]

def measureToSql : Measure → List Piece
  | .count => [.sql "COUNT(*) as value"]
  | .uniqueUsers => [.sql "COUNT(DISTINCT user_id) as value"]
  | .uniqueSessions => [.sql "COUNT(DISTINCT session_id) as value"]
  | .sum prop => numericOf "SUM(" prop
  | .avg prop => numericOf "AVG(" prop
  | .p50 prop => numericOf "PERCENTILE_CONT(0.5) WITHIN GROUP (ORDER BY " prop
  | .p95 prop => numericOf "PERCENTILE_CONT(0.95) WITHIN GROUP (ORDER BY " prop
  | .p99 prop => numericOf "PERCENTILE_CONT(0.99) WITHIN GROUP (ORDER BY " prop

def bucketToInterval : TimeBucket → String
  | .minute1 => "minute"
  | .minute5 => "minute"
  | .hour1 => "hour"
  | .day1 => "day"
  | .week1 => "week"
  | .month1 => "month"

/-! Queries -/

section

variable (env : Env) (req : QueryRequest) (start stop : Time)

/--
The conditions every query starts its filter with, each between two texts.
-/
def scopeClause (c : SqlCompiler) (before and after : String) : List Piece × SqlCompiler :=
  let (project, c) := c.withParam (before ++ "project_id = ") (.uuid req.projectId) after
  let (since, c) := c.withParam (and ++ "received_at >= ") (.timestamp start) after
  let (till, c) := c.withParam (and ++ "received_at < ") (.timestamp stop) after
  (project ++ since ++ till, c)

def compileCustomFilter (c : SqlCompiler) (before after : String)
    : Except AnalyticsError (List Piece × SqlCompiler) :=
  match req.filter with
  | none => return ([], c)
  | some filter => do
    let (pieces, c) ← compileFilter c filter
    return (.sql before :: pieces ++ [.sql after], c)

def limitClause : List Piece :=
  match req.limit with
  | none => []
  | some limit => [.sql ("LIMIT " ++ Nat.repr limit.toNat)]

def compileEvents (c : SqlCompiler) : Except AnalyticsError (List Piece × SqlCompiler) := do
  let (scope, c) := scopeClause req start stop c "" "AND " " "
  let (filter, c) ← compileCustomFilter req c "AND " ""
  let limit := min (req.limit.getD 1000) env.config.queryMaxRows.toUInt32
  return (.sql "SELECT * FROM _reactor_analytics.events WHERE " :: scope ++ filter
    ++ [.sql "ORDER BY received_at DESC ", .sql ("LIMIT " ++ Nat.repr limit.toNat)], c)

/--
The columns of `GROUP BY`.
-/
def groupCols : List (List Piece) :=
  (if req.timeBucket.isSome then [[.sql "time_bucket"]] else []) ++ req.groupBy.map groupKeyToColumn

/-- `group_cols.join(", ")` -/
def joinPieces : List (List Piece) → List Piece
  | [] => []
  | [pieces] => pieces
  | pieces :: rest => pieces ++ .sql ", " :: joinPieces rest

/--
The text up to the first condition.
-/
def aggregateHead : List Piece :=
  .sql "SELECT "
    :: (match req.timeBucket with
      | none => []
      | some bucket => [.sql ("date_trunc('" ++ bucketToInterval bucket ++ "', received_at) as time_bucket, ")])
    ++ req.groupBy.flatMap (fun key => groupKeyToColumn key ++ [.sql ", "])
    ++ measureToSql (req.measure.getD .count)
    ++ [.sql " FROM _reactor_analytics.events WHERE "]

/--
The text behind the filter.
-/
def aggregateTail : List Piece :=
  (if groupCols req = [] then [] else .sql "GROUP BY " :: joinPieces (groupCols req) ++ [.sql " "])
    ++ (if req.timeBucket.isSome then [.sql "ORDER BY time_bucket ASC "]
      else if req.groupBy.isEmpty then [] else [.sql "ORDER BY value DESC "])
    ++ limitClause req

def compileAggregate (c : SqlCompiler) : Except AnalyticsError (List Piece × SqlCompiler) := do
  let (scope, c) := scopeClause req start stop c "" "AND " " "
  let (filter, c) ← compileCustomFilter req c "AND " ""
  return (aggregateHead req ++ scope ++ filter ++ aggregateTail req, c)

def compileBreakdown (c : SqlCompiler) : Except AnalyticsError (List Piece × SqlCompiler) :=
  compileAggregate req start stop c

/-- The parameters of `event IN`. -/
def stepParams (c : SqlCompiler) (i : Nat) : List FunnelStep → List Piece × SqlCompiler
  | [] => ([], c)
  | step :: steps =>
    let (pieces, c) := c.withParam (if i > 0 then ", " else "") (.string step.event) ""
    let (rest, c) := stepParams c (i + 1) steps
    (pieces ++ rest, c)

def stepCounts (c : SqlCompiler) (i : Nat) : List FunnelStep → List Piece × SqlCompiler
  | [] => ([], c)
  | step :: steps =>
    let head := [.sql (if i > 0 then "  UNION ALL\n" else ""), .sql ("  SELECT " ++ Nat.repr (i + 1)),
      .sql " as step, COUNT(DISTINCT COALESCE(user_id, anonymous_id)) as users\n", .sql "  FROM user_events\n"]
    let (pieces, c) := c.withParam "  WHERE event = " (.string step.event) "\n"
    let (rest, c) := stepCounts c (i + 1) steps
    (head ++ pieces ++ rest, c)

/--
The conversion window is read and has no place in the text.
-/
def compileFunnel (c : SqlCompiler) : Except AnalyticsError (List Piece × SqlCompiler) := do
  match req.steps with
  | none => throw (.validation "funnel query requires steps")
  | some [] => throw (.validation "funnel requires at least one step")
  | some steps =>
    let _ ← (req.conversionWindow.map parseDurationSecs).getD (pure (86400 * 7))
    let (scope, c) := scopeClause req start stop c "  WHERE " "    AND " "\n"
    let (events, c) := stepParams c 0 steps
    let (counts, c) := stepCounts c 0 steps
    return ([.sql "WITH user_events AS (\n",
        .sql "  SELECT user_id, anonymous_id, event, timestamp,\n",
        .sql "         ROW_NUMBER() OVER (PARTITION BY COALESCE(user_id, anonymous_id) ORDER BY timestamp) as rn\n",
        .sql "  FROM _reactor_analytics.events\n"]
      ++ scope ++ .sql "    AND event IN (" :: events ++ [.sql ")\n", .sql "),\n", .sql "funnel_counts AS (\n"]
      ++ counts ++ [.sql ")\n", .sql "SELECT step, users FROM funnel_counts ORDER BY step"], c)

def compileRetention (c : SqlCompiler) : Except AnalyticsError (List Piece × SqlCompiler) := do
  match req.cohort, req.returnEvent with
  | none, _ => throw (.validation "retention query requires cohort")
  | some _, none => throw (.validation "retention query requires return_event")
  | some cohort, some returnEvent =>
    let (scope, c) := scopeClause req start stop c "  WHERE " "    AND " "\n"
    let (cohortEvent, c) := c.withParam "    AND event = " (.string cohort.event) "\n"
    let (scope', c) := scopeClause req start stop c "  WHERE " "    AND " "\n"
    let (event, c) := c.withParam "    AND event = " (.string returnEvent) "\n"
    return ([.sql "WITH cohorts AS (\n",
        .sql "  SELECT DISTINCT COALESCE(user_id, anonymous_id) as user_key,\n",
        .sql "         DATE_TRUNC('day', timestamp) as cohort_date\n",
        .sql "  FROM _reactor_analytics.events\n"]
      ++ scope ++ cohortEvent
      ++ [.sql "),\n", .sql "returns AS (\n",
        .sql "  SELECT COALESCE(user_id, anonymous_id) as user_key,\n",
        .sql "         DATE_TRUNC('day', timestamp) as return_date\n",
        .sql "  FROM _reactor_analytics.events\n"]
      ++ scope' ++ event
      ++ [.sql ")\n",
        .sql "SELECT c.cohort_date, (r.return_date - c.cohort_date)::int as day_n,\n",
        .sql "       COUNT(DISTINCT c.user_key) as cohort_size,\n",
        .sql "       COUNT(DISTINCT r.user_key) as retained\n",
        .sql "FROM cohorts c\n",
        .sql "LEFT JOIN returns r ON c.user_key = r.user_key AND r.return_date >= c.cohort_date\n",
        .sql "GROUP BY c.cohort_date, day_n\n",
        .sql "ORDER BY c.cohort_date, day_n"], c)

def compilePath (c : SqlCompiler) : Except AnalyticsError (List Piece × SqlCompiler) := do
  let (scope, c) := scopeClause req start stop c "  WHERE " "    AND " "\n"
  let (filter, c) ← compileCustomFilter req c "    AND " "\n"
  return ([.sql "WITH user_paths AS (\n",
      .sql "  SELECT COALESCE(user_id, anonymous_id) as user_key,\n",
      .sql "         event,\n",
      .sql "         LEAD(event) OVER (PARTITION BY COALESCE(user_id, anonymous_id) ORDER BY timestamp) as next_event\n",
      .sql "  FROM _reactor_analytics.events\n"]
    ++ scope ++ filter
    ++ [.sql ")\n",
      .sql "SELECT event as from_event, next_event as to_event, COUNT(*) as transitions\n",
      .sql "FROM user_paths\n",
      .sql "WHERE next_event IS NOT NULL\n",
      .sql "GROUP BY event, next_event\n",
      .sql "ORDER BY transitions DESC\n"]
    ++ limitClause req, c)

def compileKind (c : SqlCompiler) : Except AnalyticsError (List Piece × SqlCompiler) :=
  match req.kind with
  | .events => compileEvents env req start stop c
  | .aggregate => compileAggregate req start stop c
  | .breakdown => compileBreakdown req start stop c
  | .funnel => compileFunnel req start stop c
  | .retention => compileRetention req start stop c
  | .path => compilePath req start stop c

end

/-- `(to - from).num_days() as u32` -/
def daysBetween (start stop : Time) : UInt32 :=
  UInt32.ofInt (((stop - start).tdiv nanos).tdiv 86400)

/--
`SqlCompiler::new(config).compile(req)`, a compiler is made for each request.
-/
def compile (env : Env) (req : QueryRequest) : Except AnalyticsError CompiledQuery := do
  let (start, stop) ← resolveTimeRange env req.timeRange
  let days := daysBetween start stop
  if env.config.queryRawRangeDays < days then
    throw (.queryRangeTooWide days env.config.queryRawRangeDays)
  let (sql, c) ← compileKind env req start stop {}
  return {
    sql := .sql ("SET statement_timeout = '" ++ Nat.repr env.config.queryTimeoutMs.toNat ++ "ms';\n") :: sql,
    params := c.params,
    estimatedCost := days.toNat * 1000 }

end Reactor.Analytics
