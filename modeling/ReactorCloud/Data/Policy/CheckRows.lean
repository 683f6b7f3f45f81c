import ReactorCloud.Data.Policy.Compile
import ReactorCloud.Policy.Decided
import ReactorCloud.Policy.Semantics

/-!
This module proves which inserts the CHECK policies stop: only those that constants refute. A
comparison is never decided, not even if the row has both of its sides.
-/

namespace Reactor.Data

open Rust (Json)
open Policy
open Sql (Truth Value Interp)

def columnDecided (rowData : Json) (name : String) : Truth :=
  match rowData.get name with
  | some (.bool b) => some b
  | _ => none

/--
What constants decide if the boolean columns of a row count as constants. This does not reach through
NOT, IS NULL and the functions.
-/
def decidedWithRow (ctx : DataCtx) (rowData : Json) : PolicyExpr → Truth
  | .column name => columnDecided rowData name
  | .qualifiedColumn _ column => columnDecided rowData column
  | .binaryOp op left right =>
    op.decided (decidedWithRow ctx rowData left) (decidedWithRow ctx rowData right)
  | e => e.decided ctx

section

variable (floatText : Rat → String) (ctx : DataCtx) (rowData : Json)

theorem decided_columnResult (name : String)
    : (columnResult floatText rowData name).decided = columnDecided rowData name := by
  unfold columnResult columnDecided
  cases rowData.get name with
  | none => rfl
  | some value => cases value <;> rfl

theorem decided_resultToLiteralExpr (result : EvalResult)
    : (evaluate (resultToLiteralExpr result) ctx).decided = result.decided := by
  cases result <;> simp [resultToLiteralExpr, PolicyExpr.boolLiteral, PolicyExpr.stringLiteral,
    evaluate, evalLiteral]

theorem decided_evaluateWithRow (e : PolicyExpr)
    : (evaluateWithRow floatText e ctx rowData).decided = decidedWithRow ctx rowData e := by
  induction e using decidedWithRow.induct with
  | case1 name => simp only [evaluateWithRow, decidedWithRow, decided_columnResult]
  | case2 table name => simp only [evaluateWithRow, decidedWithRow, decided_columnResult]
  | case3 op left right ihl ihr =>
    simp only [evaluateWithRow, decidedWithRow, evaluate, decided_evalBinaryOp,
      decided_resultToLiteralExpr, ihl, ihr]
  | case4 e hcolumn hqualified hbinary =>
    cases e with
    | column name => exact (hcolumn name rfl).elim
    | qualifiedColumn table name => exact (hqualified table name rfl).elim
    | binaryOp op left right => exact (hbinary op left right rfl).elim
    | _ => simp only [evaluateWithRow, decidedWithRow, decided_evaluate]

/--
A row only adds to what is decided.
-/
theorem decided_agrees (e : PolicyExpr) : (e.decided ctx).Agrees (decidedWithRow ctx rowData e) := by
  induction e using decidedWithRow.induct with
  | case1 name => exact Truth.none_agrees _
  | case2 table name => exact Truth.none_agrees _
  | case3 op left right ihl ihr =>
    simp only [PolicyExpr.decided, decidedWithRow]
    cases op with
    | and => exact ihl.and ihr
    | or => exact ihl.or ihr
    | _ => exact Truth.none_agrees _
  | case4 e hcolumn hqualified hbinary =>
    have : decidedWithRow ctx rowData e = e.decided ctx := by
      unfold decidedWithRow
      split <;> simp_all
    rw [this]
    exact fun _ h => h

theorem checksPass_eq_false (policies : List StoredPolicy)
    : checksPass floatText policies ctx rowData = false
        ↔
      ∃ policy ∈ policies, ∃ e, policy.checkExpr = some e ∧ decidedWithRow ctx rowData e = some false := by
  induction policies with
  | nil => simp [checksPass]
  | cons policy policies ih =>
    unfold checksPass
    simp only [List.exists_mem_cons_iff]
    cases hcheck : policy.checkExpr with
    | none => simpa using ih
    | some e =>
      have hdecided := decided_evaluateWithRow floatText ctx rowData e
      dsimp only
      rcases heval : evaluateWithRow floatText e ctx rowData with (_ | _) | sql
      . rw [heval] at hdecided
        simp [← hdecided]
      . rw [heval] at hdecided
        simp [← hdecided, ih]
      . rw [heval] at hdecided
        simp [← hdecided, ih]

end

section

variable (I : Interp) (ctx : DataCtx) (rowData : Json)

mutual

/--
An expression of literals, auth builtins and columns that the row has.
-/
def Closed : PolicyExpr → Prop
  | .column name => (rowData.get name).isSome
  | .qualifiedColumn _ name => (rowData.get name).isSome
  | .literal _ => True
  | .binaryOp _ left right => Closed left ∧ Closed right
  | .unaryOp _ e => Closed e
  | .authBuiltin _ args => ClosedList args
  | .domainBuiltin .. => False
  | .isNull e _ => Closed e
  | .inList e list _ => Closed e ∧ ClosedList list
  | .subquery _ => False

def ClosedList : List PolicyExpr → Prop
  | [] => True
  | e :: es => Closed e ∧ ClosedList es

end

/--
The meaning of a closed expression for a row that is to be inserted. What is not closed is NULL.
-/
def rowMeaning (infinity : Value) : Meaning where
  column name := (rowData.get name).elim .null Sql.valueOfJson
  qualified _ name := (rowData.get name).elim .null Sql.valueOfJson
  auth := authValue I ctx
  domain _ _ _ := .null
  subquery _ := .null
  float n :=
    match n with
    | .finite value _ => .num value
    | .infinite => infinity

end

section

variable (floatText : Rat → String) (store : List StoredPolicy) (table : String) (ctx : DataCtx)
  (rows : List Json)

/--
Constants decide that the policies allow no row, or that one of the rows fails a check.
-/
def Refuted : Prop :=
  formula (·.decided ctx) ((PolicyStore.getForScope store ctx.schema table .insert).map StoredPolicy.compiled)
      = some false
    ∨
  ∃ row ∈ rows, ∃ policy ∈ PolicyStore.getForScope store ctx.schema table .insert,
    ∃ e, policy.checkExpr = some e ∧ decidedWithRow ctx row e = some false

/--
Every closed check is TRUE of every row.
-/
def ChecksHold (I : Interp) (infinity : Value) : Prop :=
  ∀ row ∈ rows, ∀ policy ∈ PolicyStore.getForScope store ctx.schema table .insert,
    ∀ e, policy.checkExpr = some e → Closed row e → e.Holds I (rowMeaning I ctx row infinity)

variable {floatText store table ctx rows}

theorem decided_compileForScope (h : ctx.hasPermission "*" = false) (scope : PolicyScope)
    : (compileForScope store table scope ctx).decided
        =
      formula (·.decided ctx) ((PolicyStore.getForScope store ctx.schema table scope).map StoredPolicy.compiled) := by
  unfold compileForScope
  rw [if_neg (by simp [h])]
  dsimp only
  split
  . next hempty =>
    rw [List.isEmpty_iff.mp hempty]
    rfl
  . exact decided_compilePolicies _ ctx

theorem checkRowsBatch_denied (h : ctx.hasPermission "*" = false) (scope : PolicyScope)
    : (checkRowsBatch floatText store table scope ctx rows).denied = []
        ↔
      ∀ row ∈ rows, ¬ ∃ policy ∈ PolicyStore.getForScope store ctx.schema table scope,
        ∃ e, policy.checkExpr = some e ∧ decidedWithRow ctx row e = some false := by
  have hcheck (row : Json) : (!checkRow floatText store table scope ctx row) = true
      ↔ ∃ policy ∈ PolicyStore.getForScope store ctx.schema table scope,
        ∃ e, policy.checkExpr = some e ∧ decidedWithRow ctx row e = some false := by
    unfold checkRow
    rw [if_neg (by simp [h]), Bool.not_eq_true', checksPass_eq_false]
  unfold checkRowsBatch
  simp only [List.partition_eq_filter_filter, List.map_eq_nil_iff, List.filter_eq_nil_iff,
    Function.comp_apply, hcheck]
  have hrows := List.zipIdx_map_fst 0 rows
  constructor
  . intro hall row hrow
    rw [← hrows] at hrow
    have ⟨pair, hpair, heq⟩ := List.mem_map.mp hrow
    rw [← heq]
    exact hall pair hpair
  . intro hall pair hpair
    exact hall pair.1 (hrows ▸ List.mem_map_of_mem hpair)

/--
The phase stops exactly what constants refute.
-/
theorem insertPolicyPhase_eq_ok (h : ctx.hasPermission "*" = false)
    : insertPolicyPhase floatText store table ctx rows = .ok () ↔ ¬ Refuted store table ctx rows := by
  have hdecided := @decided_compileForScope store table ctx h .insert
  unfold insertPolicyPhase Refuted
  cases hdecision : compileForScope store table .insert ctx with
  | alwaysDeny reason =>
    rw [hdecision] at hdecided
    simp [← hdecided, PolicyDecision.decided]
  | alwaysAllow =>
    rw [hdecision] at hdecided
    simp only [← hdecided, PolicyDecision.decided, true_iff, not_or]
    refine ⟨by simp, ?_⟩
    intro hrefuted
    have ⟨row, _, policy, hpolicy, e, hcheck, hfalse⟩ := hrefuted
    -- Every check is constantly true, with and without the row.
    have hall : (Truth.all ((((PolicyStore.getForScope store ctx.schema table .insert).map
        StoredPolicy.compiled).filterMap CompiledPolicy.checkExpr).map (·.decided ctx))).Holds := by
      have : (formula (·.decided ctx) ((PolicyStore.getForScope store ctx.schema table .insert).map
          StoredPolicy.compiled)).Holds := hdecided.symm
      exact ((Truth.and_holds _ _).mp this).2
    have htrue : e.decided ctx = some true := by
      apply (Truth.all_holds _).mp hall
      apply List.mem_map_of_mem
      rw [List.mem_filterMap]
      exact ⟨policy.compiled, List.mem_map_of_mem hpolicy, hcheck⟩
    have := decided_agrees ctx row e true htrue
    simp [this] at hfalse
  | conditional sql =>
    rw [hdecision] at hdecided
    simp only [← hdecided, PolicyDecision.decided, reduceCtorEq, false_or]
    have hdenied := @checkRowsBatch_denied floatText store table ctx rows h .insert
    cases hbatch : (checkRowsBatch floatText store table .insert ctx rows).denied with
    | nil => simpa [hbatch] using hdenied
    | cons first rest => simpa [hbatch] using hdenied

end

/--
`policy tenant on todos for insert check (org_id = auth.org_id())`
-/
def tenantPolicy : StoredPolicy where
  schemaName := "public"
  tableName := "todos"
  name := "tenant"
  scopes := [.insert]
  usingExpr := none
  checkExpr := some (.binaryOp .eq (.column "org_id") (.authBuiltin "org_id" []))
  migrationName := "0001_todos"

def memberCtx : DataCtx where
  auth := { userId := some 5#128, activeOrg := some 7#128, email := none, permissions := [] }
  schema := "public"

def todoOf (org : String) : Json :=
  .object [("org_id", .string org)]

end Reactor.Data
