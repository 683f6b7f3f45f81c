import ReactorCloud.Policy.Eval
import ReactorCloud.Sql.Expr

/-!
This module contains what policy expressions mean in three-valued logic, independent of any of the
evaluators. A `Meaning` gives the values of the parts that depend on the row, the object or the
request.
-/

namespace Reactor.Policy

open Sql (Value Interp evalAnd evalOr evalNot evalNotIf)
open PolicyEvalContext

structure Meaning where
  column : String → Value
  qualified : String → String → Value
  auth : String → List Value → Value
  domain : String → String → List Value → Value
  subquery : String → Value
  float : Rust.F64 → Value

def PolicyLiteral.value (M : Meaning) : PolicyLiteral → Value
  | .null => .null
  | .bool b => .bool b
  | .int n => .num n.toInt
  | .float n => M.float n
  | .string s => .text s

def PolicyBinaryOp.value (I : Interp) (op : PolicyBinaryOp) (left right : Value) : Value :=
  match op with
  | .eq => I.evalCmp .eq left right
  | .notEq => I.evalCmp .ne left right
  | .lt => I.evalCmp .lt left right
  | .ltEq => I.evalCmp .le left right
  | .gt => I.evalCmp .gt left right
  | .gtEq => I.evalCmp .ge left right
  | .and => evalAnd left right
  | .or => evalOr left right
  | .like => I.evalLike false left right
  | .iLike => I.evalLike true left right

def PolicyUnaryOp.value (I : Interp) (op : PolicyUnaryOp) (operand : Value) : Value :=
  match op with
  | .not => evalNot operand
  | .minus => I.evalNeg operand

namespace PolicyExpr

mutual

def value (I : Interp) (M : Meaning) : PolicyExpr → Value
  | .column name => M.column name
  | .qualifiedColumn table name => M.qualified table name
  | .literal lit => lit.value M
  | .binaryOp op left right => op.value I (value I M left) (value I M right)
  | .unaryOp op expr => op.value I (value I M expr)
  | .authBuiltin name args => M.auth name (values I M args)
  | .domainBuiltin domain name args => M.domain domain name (values I M args)
  | .isNull expr negated => Sql.evalIsNull negated (value I M expr)
  | .inList expr list negated => evalNotIf negated (I.evalIn (value I M expr) (values I M list))
  | .subquery sql => M.subquery sql

def values (I : Interp) (M : Meaning) : List PolicyExpr → List Value
  | [] => []
  | e :: es => value I M e :: values I M es

end

theorem values_eq_map (I : Interp) (M : Meaning) (es : List PolicyExpr)
    : values I M es = es.map (value I M) := by
  induction es with
  | nil => rfl
  | cons e es ih => simp [values, ih]

/--
Whether the expression is TRUE.
-/
def Holds (I : Interp) (M : Meaning) (e : PolicyExpr) : Prop :=
  (e.value I M).truth.Holds

instance (I : Interp) (M : Meaning) (e : PolicyExpr) : Decidable (e.Holds I M) :=
  inferInstanceAs (Decidable (Sql.Truth.Holds _))

end PolicyExpr

section

variable {C : Type} [PolicyEvalContext C]

def textOrNull : Option String → Value
  | some s => .text s
  | none => .null

/--
The values of the auth builtins for a request. A function that is none of them is NULL.
-/
def authValue (I : Interp) (ctx : C) (name : String) (args : List Value) : Value :=
  match name with
  | "user_id" => textOrNull ((userId ctx).map Rust.Uuid.hyphenated)
  | "org_id" => textOrNull ((orgId ctx).map Rust.Uuid.hyphenated)
  | "email" => textOrNull (email ctx)
  | "session_id" => textOrNull (sessionId ctx)
  | "has_permission" =>
    match args with
    | .text permission :: _ => .bool (hasPermission ctx permission)
    | _ => .bool false
  | "in_org" =>
    match args, orgId ctx with
    | arg :: _, some org => I.evalCmp .eq arg (.text org.hyphenated)
    | _, _ => .bool false
  | "is_authenticated" => .bool (isAuthenticated ctx)
  | _ => .null

end

end Reactor.Policy
