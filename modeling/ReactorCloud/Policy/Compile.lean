import ReactorCloud.Policy.Eval

/-!
This module contains the compilation of several policies into one decision.
-/

namespace Reactor.Policy

open PolicyEvalContext

inductive PolicyDecision where
  | alwaysAllow
  | alwaysDeny (reason : String)
  | conditional (sqlFragment : String)
  deriving DecidableEq, Repr

structure CompiledPolicy where
  name : String
  usingExpr : Option PolicyExpr
  checkExpr : Option PolicyExpr

/--
The condition for at least one fragment, `op` includes the spaces.
-/
def joinResiduals (op : String) : List String → String
  | [sql] => sql
  | residuals => "(" ++ Rust.Str.joinWith op residuals ++ ")"

section

variable {C : Type} [PolicyEvalContext C]

/--
The loop over the USING policies, which ends at the first one that is constantly true. The fragments
of the others are collected.
-/
def collectUsing (policies : List CompiledPolicy) (ctx : C) : Option (List String) :=
  match policies with
  | [] => some []
  | policy :: policies =>
    match policy.usingExpr with
    | none => collectUsing policies ctx
    | some usingExpr =>
      match evaluate usingExpr ctx with
      | .const true => none
      | .const false => collectUsing policies ctx
      | .residual sql => (collectUsing policies ctx).map (sql :: ·)

def compileUsingPolicies (policies : List CompiledPolicy) (ctx : C) : PolicyDecision :=
  match collectUsing policies ctx with
  | none => .alwaysAllow
  | some [] => .alwaysDeny "no matching policy"
  | some residuals => .conditional (joinResiduals " OR " residuals)

/--
The loop over the CHECK policies, which ends at the first one that is constantly false.
-/
def collectCheck (policies : List CompiledPolicy) (ctx : C) : Except String (List String) :=
  match policies with
  | [] => .ok []
  | policy :: policies =>
    match policy.checkExpr with
    | none => collectCheck policies ctx
    | some checkExpr =>
      match evaluate checkExpr ctx with
      | .const true => collectCheck policies ctx
      | .const false => .error ("check policy '" ++ policy.name ++ "' failed")
      | .residual sql => (collectCheck policies ctx).map (sql :: ·)

def compileCheckPolicies (policies : List CompiledPolicy) (ctx : C) : PolicyDecision :=
  match collectCheck policies ctx with
  | .error reason => .alwaysDeny reason
  | .ok [] => .alwaysAllow
  | .ok residuals => .conditional (joinResiduals " AND " residuals)

def combineDecisions (usingDecision checkDecision : PolicyDecision) : PolicyDecision :=
  match usingDecision, checkDecision with
  | .alwaysDeny reason, _ => .alwaysDeny reason
  | _, .alwaysDeny reason => .alwaysDeny reason
  | .alwaysAllow, .alwaysAllow => .alwaysAllow
  | .alwaysAllow, .conditional sql => .conditional sql
  | .conditional sql, .alwaysAllow => .conditional sql
  | .conditional usingSql, .conditional checkSql =>
    .conditional ("(" ++ usingSql ++ " AND " ++ checkSql ++ ")")

def compilePolicies (policies : List CompiledPolicy) (ctx : C) (hasSuperuserBypass : Bool)
    : PolicyDecision :=
  if hasSuperuserBypass && hasPermission ctx "*" then
    .alwaysAllow
  else if policies.isEmpty then
    .alwaysAllow
  else
    let usingPolicies := policies.filter (·.usingExpr.isSome)
    let checkPolicies := policies.filter (·.checkExpr.isSome)
    let usingDecision :=
      if usingPolicies.isEmpty then .alwaysAllow else compileUsingPolicies usingPolicies ctx
    let checkDecision :=
      if checkPolicies.isEmpty then .alwaysAllow else compileCheckPolicies checkPolicies ctx
    combineDecisions usingDecision checkDecision

end

end Reactor.Policy
