import Mathlib
import ReactorCloud.Analytics.FilterText
import ReactorCloud.Analytics.Ranges

/-!
This module contains what a compiled funnel selects from a table of events, the conversions it should count,
and the tables of which it counts them.
-/

namespace Reactor.Analytics

open Rust (Uuid bind_eq_ok)

/-! ## The table -/

/--
A row of the table of the events, `other` are the columns that only filters read.
-/
structure Event (α : Type) where
  projectId : Uuid
  receivedAt : Time
  timestamp : Time
  event : String
  anonymousId : String
  userId : Option String := none
  other : α

/-- `COALESCE(user_id, anonymous_id)` -/
def Event.userKey {α : Type} (e : Event α) : String :=
  e.userId.getD e.anonymousId

/-! ## The text of a funnel -/

def placeholder (n : Nat) : String :=
  "$" ++ Nat.repr n

def stepList (p n : Nat) : String :=
  ", ".intercalate ((List.range' p n).map placeholder)

def stepQuery (p i : Nat) : String :=
  "  SELECT " ++ Nat.repr (i + 1)
    ++ " as step, COUNT(DISTINCT COALESCE(user_id, anonymous_id)) as users\n"
    ++ "  FROM user_events\n"
    ++ "  WHERE event = " ++ placeholder (p + i) ++ "\n"

def stepQueries (p i n : Nat) : String :=
  "  UNION ALL\n".intercalate ((List.range' i n).map (stepQuery p))

/--
The query of a funnel with `n` steps.
-/
def funnelText (n : Nat) : String :=
  "WITH user_events AS (\n"
    ++ "  SELECT user_id, anonymous_id, event, timestamp,\n"
    ++ "         ROW_NUMBER() OVER (PARTITION BY COALESCE(user_id, anonymous_id) ORDER BY timestamp) as rn\n"
    ++ "  FROM _reactor_analytics.events\n"
    ++ "  WHERE project_id = " ++ placeholder 1 ++ "\n"
    ++ "    AND received_at >= " ++ placeholder 2 ++ "\n"
    ++ "    AND received_at < " ++ placeholder 3 ++ "\n"
    ++ "    AND event IN (" ++ stepList 4 n ++ ")\n"
    ++ "),\n"
    ++ "funnel_counts AS (\n"
    ++ stepQueries (4 + n) 0 n
    ++ ")\n"
    ++ "SELECT step, users FROM funnel_counts ORDER BY step"

theorem intercalate_cons (sep s : String) (l : List String)
    : sep.intercalate (s :: l) = s ++ ((if l ≠ [] then sep else "") ++ sep.intercalate l) := by
  cases l with
  | nil => simp
  | cons t l => simp [String.append_assoc]

theorem stepList_succ (p n : Nat)
    : stepList p (n + 1) = placeholder p ++ ((if n ≠ 0 then ", " else "") ++ stepList (p + 1) n) := by
  unfold stepList
  rw [List.range'_succ, List.map_cons, intercalate_cons]
  simp

theorem stepQueries_succ (p i n : Nat)
    : stepQueries p i (n + 1)
        = stepQuery p i ++ ((if n ≠ 0 then "  UNION ALL\n" else "") ++ stepQueries p (i + 1) n) := by
  unfold stepQueries
  rw [List.range'_succ, List.map_cons, intercalate_cons]
  simp

theorem textOf_stepParams (c : SqlCompiler) (i : Nat) (steps : List FunnelStep)
    : textOf (stepParams c i steps).1
        = (if i > 0 ∧ steps.length ≠ 0 then ", " else "") ++ stepList c.paramIdx steps.length := by
  induction steps generalizing c i with
  | nil => simp [stepParams, stepList]
  | cons step steps ih =>
    have hrest := ih (c.withParam (if i > 0 then ", " else "") (.string step.event) "").2 (i + 1)
    unfold stepParams
    dsimp only
    rw [textOf_append, hrest, List.length_cons, stepList_succ]
    simp [SqlCompiler.withParam, SqlCompiler.nextParam, SqlCompiler.push, placeholder, String.append_assoc]

theorem textOf_stepCounts {p : Nat} (c : SqlCompiler) (i : Nat) (steps : List FunnelStep) (hidx : c.paramIdx = p + i)
    : textOf (stepCounts c i steps).1
        = (if i > 0 ∧ steps.length ≠ 0 then "  UNION ALL\n" else "") ++ stepQueries p i steps.length := by
  induction steps generalizing c i with
  | nil => simp [stepCounts, stepQueries]
  | cons step steps ih =>
    have hrest := ih (c.withParam "  WHERE event = " (.string step.event) "\n").2 (i + 1)
      (by simp [SqlCompiler.withParam, SqlCompiler.nextParam, SqlCompiler.push, hidx, Nat.add_assoc])
    unfold stepCounts
    dsimp only
    rw [textOf_append, textOf_append, hrest, List.length_cons, stepQueries_succ, stepQuery]
    simp [-String.reduceAppend, SqlCompiler.withParam, SqlCompiler.nextParam, placeholder, hidx, String.append_assoc]

theorem stepParams_params (c : SqlCompiler) (i : Nat) (steps : List FunnelStep)
    : (stepParams c i steps).2.params = c.params ++ steps.map (fun step => .string step.event)
      ∧ (stepParams c i steps).2.paramIdx = c.paramIdx + steps.length := by
  induction steps generalizing c i with
  | nil => simp [stepParams]
  | cons step steps ih =>
    unfold stepParams
    dsimp only
    have := ih (c.withParam (if i > 0 then ", " else "") (.string step.event) "").2 (i + 1)
    rw [this.1, this.2]
    simp [SqlCompiler.withParam, SqlCompiler.nextParam, SqlCompiler.push]
    omega

theorem stepCounts_params (c : SqlCompiler) (i : Nat) (steps : List FunnelStep)
    : (stepCounts c i steps).2.params = c.params ++ steps.map (fun step => .string step.event) := by
  induction steps generalizing c i with
  | nil => simp [stepCounts]
  | cons step steps ih =>
    unfold stepCounts
    dsimp only
    rw [ih]
    simp [SqlCompiler.withParam, SqlCompiler.nextParam, SqlCompiler.push]

theorem textOf_scope (req : QueryRequest) (start stop : Time) (c : SqlCompiler)
    : textOf (scopeClause req start stop c "  WHERE " "    AND " "\n").1
        = "  WHERE project_id = " ++ placeholder c.paramIdx ++ "\n"
          ++ "    AND received_at >= " ++ placeholder (c.paramIdx + 1) ++ "\n"
          ++ "    AND received_at < " ++ placeholder (c.paramIdx + 2) ++ "\n" := by
  have hproject : "  WHERE " ++ "project_id = " = "  WHERE project_id = " := by decide
  have hsince : "    AND " ++ "received_at >= " = "    AND received_at >= " := by decide
  have htill : "    AND " ++ "received_at < " = "    AND received_at < " := by decide
  simp only [scopeClause, SqlCompiler.withParam, SqlCompiler.nextParam, SqlCompiler.push, hproject, hsince, htill,
    textOf_append, textOf_cons, textOf_nil, text_sql, placeholder, String.append_empty, String.append_assoc]

/--
The values of the placeholders, those of the project and the range come first.
-/
def funnelParams (req : QueryRequest) (start stop : Time) (steps : List FunnelStep) : List QueryParam :=
  [.uuid req.projectId, .timestamp start, .timestamp stop]
    ++ steps.map (fun step => .string step.event) ++ steps.map (fun step => .string step.event)

theorem compileFunnel_ok {req : QueryRequest} {start stop : Time} {sql : List Piece} {c : SqlCompiler}
    (h : compileFunnel req start stop {} = .ok (sql, c))
    : ∃ steps, req.steps = some steps ∧ steps ≠ [] ∧ textOf sql = funnelText steps.length
        ∧ c.params = funnelParams req start stop steps := by
  unfold compileFunnel at h
  split at h
  . cases h
  . cases h
  . next steps hne hsteps =>
    refine ⟨steps, hsteps, hne, ?_⟩
    rw [bind_eq_ok] at h
    obtain ⟨secs, -, h⟩ := h
    have hscope := textOf_scope req start stop {}
    have hscopeParams := @scopeClause_params req start stop {} "  WHERE " "    AND " "\n"
    have hscopeIdx : (scopeClause req start stop {} "  WHERE " "    AND " "\n").2.paramIdx = 4 := rfl
    rcases hclause : scopeClause req start stop {} "  WHERE " "    AND " "\n" with ⟨scope, c₀⟩
    rw [hclause] at h hscope hscopeParams hscopeIdx
    dsimp only at h hscope hscopeParams hscopeIdx
    have hlist := textOf_stepParams c₀ 0 steps
    have ⟨hlistParams, hlistIdx⟩ := stepParams_params c₀ 0 steps
    rcases hevents : stepParams c₀ 0 steps with ⟨events, c₁⟩
    rw [hevents] at h hlist hlistParams hlistIdx
    dsimp only at h hlist hlistParams hlistIdx
    have hcounts := @textOf_stepCounts (4 + steps.length) c₁ 0 steps (by rw [hlistIdx, hscopeIdx, Nat.add_zero])
    have hcountsParams := stepCounts_params c₁ 0 steps
    rcases hqueries : stepCounts c₁ 0 steps with ⟨counts, c₂⟩
    rw [hqueries] at h hcounts hcountsParams
    obtain ⟨rfl, rfl⟩ := Prod.mk.inj (Except.ok.inj h)
    refine ⟨?_, ?_⟩
    . simp only [textOf_append, textOf_cons, textOf_nil, text_sql, hscope, hlist, hcounts, hscopeIdx]
      unfold funnelText
      simp only [Nat.lt_irrefl, gt_iff_lt, false_and, if_false, String.empty_append, String.append_empty,
        String.append_assoc]
    . rw [hcountsParams, hlistParams, hscopeParams]
      rfl

/-! ## The answer to a funnel -/

section

variable {α : Type}

def uuidAt (params : List QueryParam) (n : Nat) : Option Uuid :=
  match params[n - 1]? with
  | some (.uuid id) => some id
  | _ => none

def timestampAt (params : List QueryParam) (n : Nat) : Option Time :=
  match params[n - 1]? with
  | some (.timestamp t) => some t
  | _ => none

def stringAt (params : List QueryParam) (n : Nat) : Option String :=
  match params[n - 1]? with
  | some (.string s) => some s
  | _ => none

/--
The rows of `user_events`.
-/
def userEvents (project : Uuid) (since till : Time) (names : List String) (table : List (Event α)) : List (Event α) :=
  table.filter (fun e => e.projectId = project ∧ since ≤ e.receivedAt ∧ e.receivedAt < till ∧ e.event ∈ names)

/--
`COUNT(DISTINCT COALESCE(user_id, anonymous_id))` over the rows of one event.
-/
def countUsers (name : String) (events : List (Event α)) : Nat :=
  ((events.filter (fun e => e.event = name)).map Event.userKey).dedup.length

/--
The rows of the query with `n` steps, in the order of the steps. No column of the answer depends on `rn`.
-/
def funnelRows (n : Nat) (params : List QueryParam) (table : List (Event α)) : Option (List (Nat × Nat)) := do
  let project ← uuidAt params 1
  let since ← timestampAt params 2
  let till ← timestampAt params 3
  let names ← (List.range' 4 n).mapM (stringAt params)
  let counted ← (List.range' (4 + n) n).mapM (stringAt params)
  let events := userEvents project since till names table
  return counted.mapIdx (fun i name => (i + 1, countUsers name events))

/--
The database answers a text by these rows, there is a value for each of its placeholders.
-/
def Answers (text : String) (params : List QueryParam) (table : List (Event α)) (rows : List (Nat × Nat)) : Prop :=
  ∃ n, params.length = 2 * n + 3 ∧ text = funnelText n ∧ funnelRows n params table = some rows

theorem mapM_stringAt (names : List String) (front back : List QueryParam)
    : (List.range' (front.length + 1) names.length).mapM (stringAt (front ++ names.map .string ++ back)) = some names := by
  induction names generalizing front with
  | nil => simp
  | cons name names ih =>
    have hrest := ih (front ++ [.string name])
    have hhead : stringAt (front ++ (name :: names).map .string ++ back) (front.length + 1) = some name := by
      simp [stringAt]
    rw [List.length_cons, List.range'_succ, List.mapM_cons, hhead]
    rw [List.length_append, List.length_singleton, List.append_assoc front, List.singleton_append] at hrest
    rw [List.map_cons, hrest]
    rfl

/--
The rows the range selects.
-/
def inRange (req : QueryRequest) (start stop : Time) (e : Event α) : Prop :=
  e.projectId = req.projectId ∧ start ≤ e.receivedAt ∧ e.receivedAt < stop

instance (req : QueryRequest) (start stop : Time) (e : Event α) : Decidable (inRange req start stop e) :=
  inferInstanceAs (Decidable (_ ∧ _))

theorem mem_userEvents {name : String} {names : List String} (hname : name ∈ names) {req : QueryRequest}
    {start stop : Time} {table : List (Event α)} {key : String}
    : key ∈ ((userEvents req.projectId start stop names table).filter (fun e => e.event = name)).map Event.userKey
        ↔
      ∃ e ∈ table, inRange req start stop e ∧ e.event = name ∧ e.userKey = key := by
  simp only [List.mem_map, List.mem_filter, userEvents, inRange, decide_eq_true_eq]
  constructor
  . rintro ⟨e, ⟨⟨hmem, hproject, hsince, htill, -⟩, hevent⟩, hkey⟩
    exact ⟨e, hmem, ⟨hproject, hsince, htill⟩, hevent, hkey⟩
  . rintro ⟨e, hmem, ⟨hproject, hsince, htill⟩, hevent, hkey⟩
    exact ⟨e, ⟨⟨hmem, hproject, hsince, htill, hevent ▸ hname⟩, hevent⟩, hkey⟩

/--
The users a row counts.
-/
def counted (req : QueryRequest) (start stop : Time) (table : List (Event α)) (name : String) : Set String :=
  {key | ∃ e ∈ table, inRange req start stop e ∧ e.event = name ∧ e.userKey = key}

theorem finite_counted (req : QueryRequest) (start stop : Time) (table : List (Event α)) (name : String)
    : (counted req start stop table name).Finite := by
  refine (List.finite_toSet (table.map Event.userKey)).subset ?_
  rintro key ⟨e, hmem, -, -, rfl⟩
  exact List.mem_map_of_mem hmem

theorem countUsers_eq {name : String} {names : List String} (hname : name ∈ names) (req : QueryRequest)
    (start stop : Time) (table : List (Event α))
    : countUsers name (userEvents req.projectId start stop names table)
        = (counted req start stop table name).ncard := by
  have hset : counted req start stop table name
      = (((userEvents req.projectId start stop names table).filter (fun e => e.event = name)).map Event.userKey).toFinset := by
    ext key
    rw [List.coe_toFinset]
    exact (mem_userEvents hname).symm
  rw [hset, Set.ncard_coe_finset, List.card_toFinset]
  rfl

theorem funnelRows_params (req : QueryRequest) (start stop : Time) (steps : List FunnelStep) (table : List (Event α))
    : funnelRows steps.length (funnelParams req start stop steps) table
        = some (steps.mapIdx (fun i step => (i + 1, (counted req start stop table step.event).ncard))) := by
  have hnames := mapM_stringAt (steps.map FunnelStep.event) [.uuid req.projectId, .timestamp start, .timestamp stop]
    (steps.map (fun step => .string step.event))
  have hcounted := mapM_stringAt (steps.map FunnelStep.event) ([.uuid req.projectId, .timestamp start, .timestamp stop]
    ++ steps.map (fun step => .string step.event)) []
  have hlength : ([QueryParam.uuid req.projectId, .timestamp start, .timestamp stop]
      ++ steps.map (fun step => QueryParam.string step.event)).length + 1 = 4 + steps.length := by
    rw [List.length_append, List.length_map, List.length_cons, List.length_cons, List.length_singleton]
    omega
  rw [hlength] at hcounted
  simp only [List.map_map, List.length_map, List.append_nil, Function.comp_def] at hnames hcounted
  unfold funnelRows
  have hproject : uuidAt (funnelParams req start stop steps) 1 = some req.projectId := rfl
  have hsince : timestampAt (funnelParams req start stop steps) 2 = some start := rfl
  have htill : timestampAt (funnelParams req start stop steps) 3 = some stop := rfl
  have hnames' : (List.range' 4 steps.length).mapM (stringAt (funnelParams req start stop steps)) = _ := hnames
  have hcounted' : (List.range' (4 + steps.length) steps.length).mapM (stringAt (funnelParams req start stop steps)) = _ :=
    hcounted
  rw [hproject, hsince, htill, hnames', hcounted']
  refine congrArg some (List.ext_getElem? fun i => ?_)
  rw [List.getElem?_mapIdx, List.getElem?_mapIdx, List.getElem?_map]
  cases hstep : steps[i]? with
  | none => rfl
  | some step =>
    have hname : step.event ∈ steps.map FunnelStep.event := List.mem_map_of_mem (List.mem_of_getElem? hstep)
    rw [Option.map_some, Option.map_some, Option.map_some, countUsers_eq hname]

theorem answers_iff {req : QueryRequest} {start stop : Time} {sql : List Piece} {c : SqlCompiler}
    (h : compileFunnel req start stop {} = .ok (sql, c)) (table : List (Event α)) (rows : List (Nat × Nat))
    : Answers (textOf sql) c.params table rows
        ↔
      rows = (req.steps.getD []).mapIdx (fun i step => (i + 1, (counted req start stop table step.event).ncard)) := by
  obtain ⟨steps, hsteps, -, htext, hparams⟩ := compileFunnel_ok h
  have hlength : c.params.length = 2 * steps.length + 3 := by
    rw [hparams]
    simp [funnelParams]
    omega
  have hrows : funnelRows steps.length c.params table
      = some (steps.mapIdx (fun i step => (i + 1, (counted req start stop table step.event).ncard))) := by
    rw [hparams, funnelRows_params]
  rw [hsteps, Option.getD_some]
  constructor
  . rintro ⟨n, hn, -, hanswer⟩
    have : n = steps.length := by omega
    rw [this, hrows] at hanswer
    exact (Option.some.inj hanswer).symm
  . rintro rfl
    exact ⟨steps.length, hlength, htext, hrows⟩

end

/-! ## Conversions -/

/--
In nanoseconds, seven days if the request has no window.
-/
def windowOf (req : QueryRequest) : Int :=
  match req.conversionWindow with
  | none => 604800 * nanos
  | some text =>
    match splitDuration text with
    | .ok (num, unit) => num.toInt * (windowSecs unit).getD 0 * nanos
    | .error _ => 0

section

variable {α : Type} (satisfies : FilterExpr → Event α → Prop) (req : QueryRequest) (start stop : Time)
  (table : List (Event α))

structure Matches (step : FunnelStep) (e : Event α) : Prop where
  stored : e ∈ table
  range : inRange req start stop e
  named : e.event = step.event
  filtered : ∀ filter, step.filter = some filter → satisfies filter e
  requested : ∀ filter, req.filter = some filter → satisfies filter e

/--
The events take a user through the steps, one after the other and within the window.
-/
structure Converts (steps : List FunnelStep) (key : String) (es : List (Event α)) : Prop where
  stepwise : List.Forall₂ (Matches satisfies req start stop table) steps es
  user : ∀ e ∈ es, e.userKey = key
  ordered : es.Pairwise (fun e e' => e.timestamp ≤ e'.timestamp)
  within : ∀ first last, es.head? = some first → es.getLast? = some last
    → last.timestamp ≤ first.timestamp + windowOf req

/--
The users that get through the first `k` steps.
-/
def converted (k : Nat) : Set String :=
  {key | ∃ es, Converts satisfies req start stop table ((req.steps.getD []).take k) key es}

/--
The rows of a funnel, no step has more users than the one before it.
-/
structure FunnelExact (rows : List (Nat × Nat)) : Prop where
  length : rows.length = (req.steps.getD []).length
  counts : ∀ i < rows.length, rows[i]? = some (i + 1, (converted satisfies req start stop table (i + 1)).ncard)
  decreasing : rows.Pairwise (fun row row' => row'.2 ≤ row.2)

/--
The database answers the query by the rows of a funnel.
-/
def FunnelCounts (sql : List Piece) (c : SqlCompiler) : Prop :=
  ∃ rows, Answers (textOf sql) c.params table rows ∧ FunnelExact satisfies req start stop table rows

/--
Who has the event of a step has got there through the steps before it.
-/
def Converting : Prop :=
  ∀ i step, (req.steps.getD [])[i]? = some step
    → ∀ e ∈ table, inRange req start stop e → e.event = step.event
    → ∃ es, Converts satisfies req start stop table ((req.steps.getD []).take (i + 1)) e.userKey es

end

section

variable {α : Type} {satisfies : FilterExpr → Event α → Prop} {req : QueryRequest} {start stop : Time}
  {table : List (Event α)}

theorem le_getLast {es : List (Event α)} (h : es.Pairwise (fun e e' => e.timestamp ≤ e'.timestamp)) {e last : Event α}
    (he : e ∈ es) (hlast : es.getLast? = some last) : e.timestamp ≤ last.timestamp := by
  obtain ⟨front, rfl⟩ := List.getLast?_eq_some_iff.mp hlast
  rw [List.pairwise_append] at h
  rcases List.mem_append.mp he with hfront | hself
  . exact h.2.2 e hfront last List.mem_cons_self
  . rw [List.mem_singleton.mp hself]

/--
The first events take the user through the first steps.
-/
theorem Converts.take {steps : List FunnelStep} {key : String} {es : List (Event α)}
    (h : Converts satisfies req start stop table steps key es) (k : Nat)
    : Converts satisfies req start stop table (steps.take k) key (es.take k) where
  stepwise := List.forall₂_take k h.stepwise
  user e he := h.user e (List.mem_of_mem_take he)
  ordered := h.ordered.sublist (List.take_sublist k es)
  within first last hfirst hlast := by
    have hne : es ≠ [] := by
      rintro rfl
      simp at hfirst
    have hhead : es.head? = some first := by
      rw [List.head?_take] at hfirst
      split at hfirst
      . cases hfirst
      . exact hfirst
    have hmem : last ∈ es := List.mem_of_mem_take (List.mem_of_getLast? hlast)
    have hle := le_getLast h.ordered hmem (List.getLast?_eq_some_getLast hne)
    exact Int.le_trans hle (h.within first _ hhead (List.getLast?_eq_some_getLast hne))

theorem converted_anti {i j : Nat} (hij : i ≤ j)
    : converted satisfies req start stop table j ⊆ converted satisfies req start stop table i := by
  rintro key ⟨es, hes⟩
  have := hes.take i
  rw [List.take_take, Nat.min_eq_left hij] at this
  exact ⟨es.take i, this⟩

theorem exists_of_forall₂ {β γ : Type} {R : β → γ → Prop} {l : List β} {l' : List γ} (h : List.Forall₂ R l l') {i : Nat}
    {b : β} (hb : l[i]? = some b) : ∃ c ∈ l', R b c := by
  induction h generalizing i with
  | nil => simp at hb
  | cons hR _ ih =>
    cases i with
    | zero =>
      cases hb
      exact ⟨_, List.mem_cons_self, hR⟩
    | succ i =>
      obtain ⟨c, hc, hRc⟩ := ih hb
      exact ⟨c, List.mem_cons_of_mem _ hc, hRc⟩

theorem converted_subset {i : Nat} {step : FunnelStep} (hstep : (req.steps.getD [])[i]? = some step)
    : converted satisfies req start stop table (i + 1) ⊆ counted req start stop table step.event := by
  rintro key ⟨es, hes⟩
  have hstep' : ((req.steps.getD []).take (i + 1))[i]? = some step := by
    rw [List.getElem?_take_of_lt (Nat.lt_succ_self i), hstep]
  obtain ⟨e, he, hmatch⟩ := exists_of_forall₂ hes.stepwise hstep'
  exact ⟨e, hmatch.stored, hmatch.range, hmatch.named, hes.user e he⟩

theorem funnelCounts_iff {sql : List Piece} {c : SqlCompiler} (h : compileFunnel req start stop {} = .ok (sql, c))
    : FunnelCounts satisfies req start stop table sql c ↔ Converting satisfies req start stop table := by
  constructor
  . rintro ⟨rows, hanswer, hexact⟩ i step hstep e he hrange hevent
    rw [answers_iff h] at hanswer
    have hi : i < rows.length := by
      rw [hexact.length]
      exact (List.getElem?_eq_some_iff.mp hstep).1
    have hrow := hexact.counts i hi
    rw [hanswer, List.getElem?_mapIdx, hstep, Option.map_some, Option.some.injEq, Prod.mk.injEq] at hrow
    -- fewer users would be converted if one of them had skipped a step
    have hall := Set.eq_of_subset_of_ncard_le (converted_subset hstep) (Nat.le_of_eq hrow.2)
      (finite_counted req start stop table step.event)
    have hkey : e.userKey ∈ counted req start stop table step.event := ⟨e, he, hrange, hevent, rfl⟩
    rw [← hall] at hkey
    exact hkey
  . intro hconv
    have hsame {i : Nat} {step : FunnelStep} (hstep : (req.steps.getD [])[i]? = some step)
        : counted req start stop table step.event = converted satisfies req start stop table (i + 1) := by
      apply Set.Subset.antisymm _ (converted_subset hstep)
      rintro key ⟨e, he, hrange, hevent, rfl⟩
      exact hconv i step hstep e he hrange hevent
    refine ⟨_, (answers_iff h table _).mpr rfl, ?_, ?_, ?_⟩
    . rw [List.length_mapIdx]
    . intro i hi
      rw [List.length_mapIdx] at hi
      have hstep := List.getElem?_eq_getElem hi
      rw [List.getElem?_mapIdx, hstep, Option.map_some, hsame hstep]
    . rw [List.pairwise_iff_getElem]
      intro i j hi hj hij
      rw [List.length_mapIdx] at hi hj
      rw [List.getElem_mapIdx, List.getElem_mapIdx, hsame (List.getElem?_eq_getElem hi),
        hsame (List.getElem?_eq_getElem hj)]
      refine Set.ncard_le_ncard (converted_anti (Nat.succ_le_succ (Nat.le_of_lt hij))) ?_
      rw [← hsame (List.getElem?_eq_getElem hi)]
      exact finite_counted _ _ _ _ _

end

/-! A visitor that signs up and buys, and one that buys without signing up -/

local instance neZero_two_pow : NeZero (2 ^ 128) := inferInstance

def signupFunnel : QueryRequest where
  projectId := ⟨0⟩
  kind := .funnel
  timeRange := .absolute 0 1000
  steps := some [⟨"signup", none⟩, ⟨"purchase", none⟩]

def visit (anonymousId event : String) (at' : Time) : Event Unit where
  projectId := ⟨0⟩
  receivedAt := at'
  timestamp := at'
  event
  anonymousId
  other := ()

theorem signup_counted
    : ∃ sql c, compileFunnel signupFunnel 0 1000 {} = .ok (sql, c)
        ∧ FunnelCounts (fun _ _ => True) signupFunnel 0 1000 [visit "a" "signup" 1, visit "a" "purchase" 2] sql c := by
  refine ⟨_, _, rfl, (funnelCounts_iff rfl).mpr ?_⟩
  have hsignup : Matches (fun _ _ => True) signupFunnel 0 1000 [visit "a" "signup" 1, visit "a" "purchase" 2]
      ⟨"signup", none⟩ (visit "a" "signup" 1) :=
    ⟨by simp, by decide, rfl, fun _ _ => trivial, fun _ _ => trivial⟩
  have hpurchase : Matches (fun _ _ => True) signupFunnel 0 1000 [visit "a" "signup" 1, visit "a" "purchase" 2]
      ⟨"purchase", none⟩ (visit "a" "purchase" 2) :=
    ⟨by simp, by decide, rfl, fun _ _ => trivial, fun _ _ => trivial⟩
  intro i step hstep e he _ _
  have hkey : e.userKey = "a" := by
    rw [List.mem_pair] at he
    rcases he with rfl | rfl <;> rfl
  rw [hkey]
  match i with
  | 0 =>
    refine ⟨[visit "a" "signup" 1], .cons hsignup .nil, by simp [visit, Event.userKey], by simp, ?_⟩
    rintro _ _ ⟨⟩ ⟨⟩
    decide
  | 1 =>
    refine ⟨[visit "a" "signup" 1, visit "a" "purchase" 2], .cons hsignup (.cons hpurchase .nil),
      by simp [visit, Event.userKey], by simp [visit], ?_⟩
    rintro _ _ ⟨⟩ ⟨⟩
    decide
  | i + 2 => simp [signupFunnel] at hstep

theorem not_funnelCounts
    : ∃ sql c, compileFunnel signupFunnel 0 1000 {} = .ok (sql, c)
        ∧ ¬ FunnelCounts (fun _ _ => True) signupFunnel 0 1000 [visit "b" "purchase" 2] sql c := by
  refine ⟨_, _, rfl, ?_⟩
  rintro ⟨rows, ⟨n, hn, -, hrows⟩, hexact⟩
  have : n = 2 := by
    have hlength : 7 = 2 * n + 3 := hn
    omega
  rw [this] at hrows
  have hanswer : some [(1, 0), (2, 1)] = some rows := hrows
  cases hanswer
  have hdecreasing := hexact.decreasing
  revert hdecreasing
  decide

end Reactor.Analytics
