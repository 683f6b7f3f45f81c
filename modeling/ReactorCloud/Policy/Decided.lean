import ReactorCloud.Policy.Compile
import ReactorCloud.Policy.Semantics
import ReactorCloud.Rust.Result

/-!
This module contains what constants alone decide about a policy. If every fragment that is left to
the database counts as UNKNOWN, then evaluation is three-valued logic and a decision is the value of
the formula that the policies stand for.
-/

namespace Reactor.Policy

open Sql (Truth Value Interp)
open PolicyEvalContext

/--
The formula of a list of policies: one of the USING expressions and all of the CHECK expressions.
-/
def formula (f : PolicyExpr → Truth) (policies : List CompiledPolicy) : Truth :=
  let usings := policies.filterMap CompiledPolicy.usingExpr
  let checks := policies.filterMap CompiledPolicy.checkExpr
  .and (if usings.isEmpty then some true else .any (usings.map f)) (.all (checks.map f))

/--
Agreement about the expressions is agreement about the formula.
-/
theorem formula_agrees {f g : PolicyExpr → Truth} {policies : List CompiledPolicy}
    (husing : ∀ policy ∈ policies, ∀ e, policy.usingExpr = some e → (f e).Agrees (g e))
    (hcheck : ∀ policy ∈ policies, ∀ e, policy.checkExpr = some e → (f e).Agrees (g e))
    : (formula f policies).Agrees (formula g policies) := by
  unfold formula
  apply Truth.Agrees.and
  . split
    . simp
    . apply Truth.Agrees.any
      intro e he
      have ⟨policy, hpolicy, heq⟩ := List.mem_filterMap.mp he
      exact husing policy hpolicy e heq
  . apply Truth.Agrees.all
    intro e he
    have ⟨policy, hpolicy, heq⟩ := List.mem_filterMap.mp he
    exact hcheck policy hpolicy e heq

def EvalResult.decided : EvalResult → Truth
  | .const b => some b
  | .residual _ => none

@[simp]
theorem EvalResult.decided_const (b : Bool) : (EvalResult.const b).decided = some b := rfl

@[simp]
theorem EvalResult.decided_residual (sql : String) : (EvalResult.residual sql).decided = none := rfl

def PolicyDecision.decided : PolicyDecision → Truth
  | .alwaysAllow => some true
  | .alwaysDeny _ => some false
  | .conditional _ => none

def PolicyBinaryOp.decided : PolicyBinaryOp → Truth → Truth → Truth
  | .and => .and
  | .or => .or
  | _ => fun _ _ => none

@[simp]
theorem decided_quotedOrNull (s : Option String) : (quotedOrNull s).decided = none := by
  cases s <;> rfl

theorem decided_evalBinaryOp (op : PolicyBinaryOp) (left right : EvalResult)
    : (evalBinaryOp op left right).decided = op.decided left.decided right.decided := by
  cases op with
  | and | or =>
    cases left with
    | const b =>
      cases right with
      | const c => cases b <;> cases c <;> rfl
      | residual s => cases b <;> rfl
    | residual s =>
      cases right with
      | const c => cases c <;> rfl
      | residual t => rfl
  | _ => rfl

section

variable {C : Type} [PolicyEvalContext C]

/--
`in_org` is false for a constant and without an organization.
-/
def decidedInOrg (org : Option ReactorId) : Truth → Truth
  | some _ => some false
  | none => if org.isNone then some false else none

namespace PolicyExpr

/--
The truth value of an expression as far as constants decide it.
-/
def decided (ctx : C) : PolicyExpr → Truth
  | .literal (.bool b) => some b
  | .binaryOp op left right => op.decided (decided ctx left) (decided ctx right)
  | .unaryOp .not operand => .not (decided ctx operand)
  | .isNull operand negated => (decided ctx operand).map (fun _ => negated)
  | .authBuiltin name args =>
    match name with
    | "has_permission" =>
      match args with
      | .literal (.string permission) :: _ => some (hasPermission ctx permission)
      | _ => none
    | "in_org" =>
      match args with
      | [] => some false
      | arg :: _ => decidedInOrg (orgId ctx) (decided ctx arg)
    | "is_authenticated" => some (isAuthenticated ctx)
    | _ => none
  | _ => none

end PolicyExpr

theorem decided_evaluate (e : PolicyExpr) (ctx : C) : (evaluate e ctx).decided = e.decided ctx := by
  induction e using PolicyExpr.decided.induct with
  | case2 op left right ihl ihr =>
    simp only [evaluate, PolicyExpr.decided, decided_evalBinaryOp, ihl, ihr]
  | case3 operand ih =>
    simp only [evaluate, PolicyExpr.decided, ← ih]
    cases evaluate operand ctx <;> rfl
  | case4 operand negated ih =>
    simp only [evaluate, PolicyExpr.decided, ← ih]
    cases evaluate operand ctx with
    | const b => rfl
    | residual s => cases negated <;> rfl
  | case6 args h =>
    simp only [evaluate, evalAuthBuiltin, PolicyExpr.decided]
    rfl
  | case8 arg args ih =>
    simp only [evaluate, evalAuthBuiltin, PolicyExpr.decided, ← ih]
    cases evaluate arg ctx with
    | const b => rfl
    | residual s => cases orgId ctx <;> rfl
  | case10 name args h h' h'' =>
    simp only [evaluate, PolicyExpr.decided]
    unfold evalAuthBuiltin
    split <;> simp_all
  | case11 e hbool hbinary hnot hnull hauth =>
    cases e with
    | literal lit =>
      cases lit with
      | bool b => exact (hbool b rfl).elim
      | _ => rfl
    | binaryOp op left right => exact (hbinary op left right rfl).elim
    | unaryOp op operand =>
      cases op with
      | not => exact (hnot operand rfl).elim
      | minus =>
        simp only [evaluate, PolicyExpr.decided]
        cases evaluate operand ctx <;> rfl
    | authBuiltin name args => exact (hauth name args rfl).elim
    | isNull operand negated => exact (hnull operand negated rfl).elim
    | inList operand list negated => cases negated <;> rfl
    | _ => rfl
  | _ => simp [evaluate, evalAuthBuiltin, evalLiteral, PolicyExpr.decided]

def EvalResult.fragment : EvalResult → Option String
  | .const _ => none
  | .residual sql => some sql

theorem EvalResult.fragments_eq_nil {results : List EvalResult}
    : results.filterMap fragment = [] ↔ none ∉ results.map decided := by
  simp only [List.filterMap_eq_nil_iff, List.mem_map, not_exists, not_and]
  apply forall₂_congr
  intro result _
  cases result <;> simp [fragment]

theorem EvalResult.mem_decided {results : List EvalResult} {b : Bool}
    : some b ∈ results.map decided ↔ .const b ∈ results := by
  simp only [List.mem_map]
  constructor
  . intro h
    have ⟨result, hmem, hresult⟩ := h
    cases result with
    | const c => simpa [← Option.some.inj hresult] using hmem
    | residual sql => cases hresult
  . intro h
    exact ⟨_, h, rfl⟩

def usingResults (policies : List CompiledPolicy) (ctx : C) : List EvalResult :=
  (policies.filterMap CompiledPolicy.usingExpr).map (evaluate · ctx)

def checkResults (policies : List CompiledPolicy) (ctx : C) : List EvalResult :=
  (policies.filterMap CompiledPolicy.checkExpr).map (evaluate · ctx)

theorem collectUsing_eq (policies : List CompiledPolicy) (ctx : C)
    : collectUsing policies ctx
        =
      if .const true ∈ usingResults policies ctx then
        none
      else
        some ((usingResults policies ctx).filterMap EvalResult.fragment) := by
  unfold usingResults
  induction policies with
  | nil => rfl
  | cons policy policies ih =>
    unfold collectUsing
    cases husing : policy.usingExpr with
    | none =>
      rw [List.filterMap_cons_none husing]
      exact ih
    | some e =>
      rw [List.filterMap_cons_some husing, List.map_cons, ih]
      dsimp only
      rcases evaluate e ctx with (_ | _) | sql
      . simp only [List.mem_cons, EvalResult.const.injEq, Bool.true_eq_false, false_or,
          List.filterMap_cons, EvalResult.fragment]
      . simp
      . simp only [List.mem_cons, reduceCtorEq, false_or, List.filterMap_cons, EvalResult.fragment]
        split <;> rfl

theorem collectCheck_eq (policies : List CompiledPolicy) (ctx : C)
    : (collectCheck policies ctx).toOption
        =
      if .const false ∈ checkResults policies ctx then
        none
      else
        some ((checkResults policies ctx).filterMap EvalResult.fragment) := by
  unfold checkResults
  induction policies with
  | nil => rfl
  | cons policy policies ih =>
    unfold collectCheck
    cases hcheck : policy.checkExpr with
    | none =>
      rw [List.filterMap_cons_none hcheck]
      exact ih
    | some e =>
      rw [List.filterMap_cons_some hcheck, List.map_cons]
      dsimp only
      rcases evaluate e ctx with (_ | _) | sql
      . simp [Except.toOption]
      . simp only [List.mem_cons, EvalResult.const.injEq, Bool.false_eq_true, false_or,
          List.filterMap_cons, EvalResult.fragment, ih]
      . simp only [List.mem_cons, reduceCtorEq, false_or, List.filterMap_cons, EvalResult.fragment]
        have hmap (x : Except String (List String))
            : (x.map (sql :: ·)).toOption = x.toOption.map (sql :: ·) := by
          cases x <;> rfl
        rw [hmap, ih]
        split <;> rfl

theorem decided_compileUsing (policies : List CompiledPolicy) (ctx : C)
    : (compileUsingPolicies policies ctx).decided
        =
      .any ((usingResults policies ctx).map EvalResult.decided) := by
  unfold compileUsingPolicies
  simp only [collectUsing_eq, Truth.any_eq, EvalResult.mem_decided]
  by_cases htrue : .const true ∈ usingResults policies ctx
  . simp only [if_pos htrue]
    rfl
  . simp only [if_neg htrue]
    by_cases hnone : none ∈ (usingResults policies ctx).map EvalResult.decided
    . rw [if_pos hnone]
      cases hfragments : (usingResults policies ctx).filterMap EvalResult.fragment with
      | nil => exact absurd hnone (EvalResult.fragments_eq_nil.mp hfragments)
      | cons => rfl
    . rw [if_neg hnone, EvalResult.fragments_eq_nil.mpr hnone]
      rfl

theorem decided_compileCheck (policies : List CompiledPolicy) (ctx : C)
    : (compileCheckPolicies policies ctx).decided
        =
      .all ((checkResults policies ctx).map EvalResult.decided) := by
  have hcollect := collectCheck_eq policies ctx
  unfold compileCheckPolicies
  simp only [Truth.all_eq, EvalResult.mem_decided]
  by_cases hfalse : .const false ∈ checkResults policies ctx
  . rw [if_pos hfalse] at hcollect ⊢
    cases h : collectCheck policies ctx with
    | error reason => rfl
    | ok residuals => simp [h, Except.toOption] at hcollect
  . rw [if_neg hfalse] at hcollect ⊢
    rw [Rust.toOption_eq_some.mp hcollect]
    by_cases hnone : none ∈ (checkResults policies ctx).map EvalResult.decided
    . rw [if_pos hnone]
      cases hfragments : (checkResults policies ctx).filterMap EvalResult.fragment with
      | nil => exact absurd hnone (EvalResult.fragments_eq_nil.mp hfragments)
      | cons => rfl
    . rw [if_neg hnone, EvalResult.fragments_eq_nil.mpr hnone]
      rfl

theorem decided_combineDecisions (usingDecision checkDecision : PolicyDecision)
    : (combineDecisions usingDecision checkDecision).decided
        =
      .and usingDecision.decided checkDecision.decided := by
  cases usingDecision <;> cases checkDecision <;> rfl

theorem collectUsing_filter (policies : List CompiledPolicy) (ctx : C)
    : collectUsing (policies.filter (·.usingExpr.isSome)) ctx = collectUsing policies ctx := by
  induction policies with
  | nil => rfl
  | cons policy policies ih =>
    cases husing : policy.usingExpr with
    | none => simp [husing, collectUsing, ih]
    | some e => simp [husing, collectUsing, ih]

theorem collectCheck_filter (policies : List CompiledPolicy) (ctx : C)
    : collectCheck (policies.filter (·.checkExpr.isSome)) ctx = collectCheck policies ctx := by
  induction policies with
  | nil => rfl
  | cons policy policies ih =>
    cases hcheck : policy.checkExpr with
    | none => simp [hcheck, collectCheck, ih]
    | some e => simp [hcheck, collectCheck, ih]

/--
The separation of the policies is only needed for those without a USING expression.
-/
theorem compilePolicies_eq {policies : List CompiledPolicy} (ctx : C) (h : policies ≠ [])
    : compilePolicies policies ctx false
        =
      combineDecisions
        (if usingResults policies ctx = [] then .alwaysAllow else compileUsingPolicies policies ctx)
        (compileCheckPolicies policies ctx) := by
  unfold compilePolicies compileUsingPolicies compileCheckPolicies usingResults
  simp only [Bool.false_and, Bool.false_eq_true, if_false, List.isEmpty_iff, h, collectUsing_filter,
    collectCheck_filter, List.map_eq_nil_iff, List.filterMap_eq_nil_iff, List.filter_eq_nil_iff,
    Option.not_isSome_iff_eq_none]
  congr 1
  split
  . next hchecks =>
    rw [← collectCheck_filter, List.filter_eq_nil_iff.mpr (by simpa using hchecks)]
    rfl
  . rfl

/--
What constants decide about the policies is the decision about them.
-/
theorem decided_compilePolicies (policies : List CompiledPolicy) (ctx : C)
    : (compilePolicies policies ctx false).decided = formula (·.decided ctx) policies := by
  by_cases h : policies = []
  . rw [h]
    rfl
  . rw [compilePolicies_eq ctx h, decided_combineDecisions, decided_compileCheck]
    have hresults (es : List PolicyExpr)
        : es.map (·.decided ctx) = (es.map (evaluate · ctx)).map EvalResult.decided := by
      simp [decided_evaluate]
    unfold formula
    simp only [hresults]
    congr 1
    by_cases husing : usingResults policies ctx = []
    . rw [if_pos husing, if_pos (by simpa [usingResults] using husing)]
      rfl
    . rw [if_neg husing, if_neg (by simpa [usingResults] using husing), decided_compileUsing]
      rfl

namespace PolicyExpr

/--
Whether the value is a boolean by the shape of the expression.
-/
def isCondition : PolicyExpr → Bool
  | .literal (.bool _) | .binaryOp .. | .unaryOp .not _ | .isNull .. | .inList .. => true
  | .authBuiltin name _ => name ∈ ["has_permission", "in_org", "is_authenticated"]
  | _ => false

/--
No condition is asked for its organization.
-/
def Typed : PolicyExpr → Prop
  | .binaryOp _ left right => Typed left ∧ Typed right
  | .unaryOp _ operand => Typed operand
  | .isNull operand _ => Typed operand
  | .authBuiltin "in_org" (arg :: _) => arg.isCondition = false
  | _ => True

theorem decided_of_not_condition {e : PolicyExpr} (h : e.isCondition = false) (ctx : C) : e.decided ctx = none := by
  unfold decided
  split <;> simp_all [isCondition]

/--
What constants decide is the truth value, whatever the row and the operators of the database are.
-/
theorem decided_value (I : Interp) (M : Meaning) {ctx : C} (hauth : M.auth = authValue I ctx) (e : PolicyExpr)
    (h : e.Typed) : (e.decided ctx).Agrees (e.value I M).truth := by
  induction e using decided.induct with
  | case1 b => exact fun _ => id
  | case2 op left right ihl ihr =>
    obtain ⟨hl, hr⟩ := h
    cases op with
    | and =>
      simp only [decided, PolicyBinaryOp.decided, value, PolicyBinaryOp.value, Sql.evalAnd, Value.truth_ofTruth]
      exact (ihl hl).and (ihr hr)
    | or =>
      simp only [decided, PolicyBinaryOp.decided, value, PolicyBinaryOp.value, Sql.evalOr, Value.truth_ofTruth]
      exact (ihl hl).or (ihr hr)
    | _ => exact fun _ => nofun
  | case3 operand ih =>
    simp only [decided, value, PolicyUnaryOp.value, Sql.evalNot, Value.truth_ofTruth]
    exact (ih h).not
  | case4 operand negated ih =>
    intro b hb
    obtain ⟨c, hc, rfl⟩ := Option.map_eq_some_iff.mp hb
    have hvalue := ih h c hc
    have hne : (operand.value I M == .null) = false := by
      apply beq_false_of_ne
      intro heq
      rw [heq] at hvalue
      cases hvalue
    simp [value, Sql.evalIsNull, hne]
  | case8 arg args ih =>
    intro b hb
    rw [decided, decided_of_not_condition h] at hb
    cases horg : orgId ctx with
    | none =>
      rw [horg] at hb
      cases hb
      simp [value, values, hauth, authValue, horg]
    | some org =>
      rw [horg] at hb
      cases hb
  | case10 name args h h' h'' =>
    unfold decided
    split <;> simp_all
  | case11 e hbool hbinary hnot hnull hauth =>
    unfold decided
    split <;> simp_all
  | _ => simp_all [decided, value, values, authValue, PolicyLiteral.value]

end PolicyExpr

/--
A policy that asks `in_org` of no condition.
-/
abbrev TypedPolicy :=
  { policy : CompiledPolicy // ∀ e, policy.usingExpr = some e ∨ policy.checkExpr = some e → e.Typed }

/--
A decision without the row is the truth value of the formula for every row.
-/
theorem compilePolicies_agrees (I : Interp) (M : Meaning) (ctx : C) (policies : List TypedPolicy)
    : (compilePolicies (policies.map (·.val)) ctx false).decided.Agrees
        (formula (fun e => (e.value I { M with auth := authValue I ctx }).truth) (policies.map (·.val))) := by
  have htyped : ∀ policy ∈ policies.map (·.val), ∀ e,
      policy.usingExpr = some e ∨ policy.checkExpr = some e → e.Typed := by
    intro policy hpolicy
    obtain ⟨typed, -, rfl⟩ := List.mem_map.mp hpolicy
    exact typed.property
  rw [decided_compilePolicies]
  apply formula_agrees
  . intro policy hpolicy e he
    exact e.decided_value I _ rfl (htyped policy hpolicy e (.inl he))
  . intro policy hpolicy e he
    exact e.decided_value I _ rfl (htyped policy hpolicy e (.inr he))

end

end Reactor.Policy
