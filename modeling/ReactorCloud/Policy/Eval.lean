import ReactorCloud.Rust.Str
import ReactorCloud.Rust.Uuid
import ReactorCloud.Policy.Ast

/-!
This module contains the interface through which policies see a request, and the evaluation of policy
expressions into constants and SQL fragments.
-/

namespace Reactor

open Rust (Uuid)

abbrev ReactorId := Uuid

namespace Permissions

/--
The loop over the segments of a granted permission. A `*` in the last segment matches everything
that remains.
-/
def matchParts : List String → List String → Bool
  | [], requested => requested.isEmpty
  | granted :: rest, requested =>
    if granted = "*" then
      rest.isEmpty || matchParts rest requested.tail
    else
      match requested with
      | [] => false
      | part :: parts => granted = part && matchParts rest parts

def permMatches (granted requested : String) : Bool :=
  if granted = "*" then
    true
  else
    let grantedParts := Rust.Str.splitOnChar ':' granted
    let requestedParts := Rust.Str.splitOnChar ':' requested
    if grantedParts.length > requestedParts.length then
      false
    else
      matchParts grantedParts requestedParts

def matchesAny (granted : List String) (requested : String) : Bool :=
  granted.any (fun g => permMatches g requested)

end Permissions

/--
The authentication context of a request. The user id is the one its claims parse to.
-/
structure AuthCtx where
  userId : Option ReactorId
  activeOrg : Option ReactorId
  email : Option String
  permissions : List String

def AuthCtx.hasPermission (auth : AuthCtx) (permission : String) : Bool :=
  Permissions.matchesAny auth.permissions permission

namespace Policy

class PolicyEvalContext (C : Type) where
  userId : C → Option ReactorId
  orgId : C → Option ReactorId
  hasPermission : C → String → Bool
  email : C → Option String
  sessionId : C → Option String

namespace PolicyEvalContext

variable {C : Type} [PolicyEvalContext C]

/--
A default method that no implementation overrides.
-/
def isAuthenticated (ctx : C) : Bool :=
  (userId ctx).isSome

end PolicyEvalContext

end Policy
end Reactor

/-! Evaluation -/

namespace Reactor.Policy

open PolicyEvalContext

inductive EvalResult where
  | const (b : Bool)
  | residual (sql : String)
  deriving DecidableEq, Repr

namespace EvalResult

def isAlwaysTrue : EvalResult → Bool
  | .const true => true
  | _ => false

def isAlwaysFalse : EvalResult → Bool
  | .const false => true
  | _ => false

/--
The text of a result as an operand of a fragment.
-/
def operandSql : EvalResult → String
  | .const true => "TRUE"
  | .const false => "FALSE"
  | .residual s => s

end EvalResult

/--
`'{s}'`
-/
def quoted (s : String) : String :=
  "'" ++ s ++ "'"

def evalLiteral : PolicyLiteral → EvalResult
  | .bool b => .const b
  | .null => .residual "NULL"
  | .string s => .residual (quoted (Rust.Str.doubled '\'' s))
  | .int n => .residual (toString n.toInt)
  | .float n => .residual n.toString

/--
The part of a binary operation that the constants among its operands decide.
-/
def shortCircuit (op : PolicyBinaryOp) (left right : EvalResult) : Option EvalResult :=
  match op with
  | .and =>
    if left.isAlwaysFalse then some (.const false)
    else if right.isAlwaysFalse then some (.const false)
    else if left.isAlwaysTrue && right.isAlwaysTrue then some (.const true)
    else if left.isAlwaysTrue then some right
    else if right.isAlwaysTrue then some left
    else none
  | .or =>
    if left.isAlwaysTrue then some (.const true)
    else if right.isAlwaysTrue then some (.const true)
    else if left.isAlwaysFalse && right.isAlwaysFalse then some (.const false)
    else if left.isAlwaysFalse then some right
    else if right.isAlwaysFalse then some left
    else none
  | _ => none

def evalBinaryOp (op : PolicyBinaryOp) (left right : EvalResult) : EvalResult :=
  match shortCircuit op left right with
  | some result => result
  | none =>
    .residual ("(" ++ left.operandSql ++ " " ++ op.asSql ++ " " ++ right.operandSql ++ ")")

def evalUnaryOp (op : PolicyUnaryOp) (operand : EvalResult) : EvalResult :=
  match op, operand with
  | .not, .const b => .const !b
  | .not, .residual s => .residual ("(NOT " ++ s ++ ")")
  | .minus, .const _ => .residual "-"
  | .minus, .residual s => .residual ("(-" ++ s ++ ")")

def evalIsNull (operand : EvalResult) (negated : Bool) : EvalResult :=
  match operand with
  | .residual s =>
    if negated then
      .residual ("(" ++ s ++ " IS NOT NULL)")
    else
      .residual ("(" ++ s ++ " IS NULL)")
  | .const _ => .const negated

def evalInList (operand : EvalResult) (list : List EvalResult) (negated : Bool) : EvalResult :=
  let listJoined := Rust.Str.joinWith ", " (list.map EvalResult.operandSql)
  if negated then
    .residual ("(" ++ operand.operandSql ++ " NOT IN (" ++ listJoined ++ "))")
  else
    .residual ("(" ++ operand.operandSql ++ " IN (" ++ listJoined ++ "))")

section

variable {C : Type} [PolicyEvalContext C]

/--
`Some(x)` as a quoted text and `None` as `NULL`.
-/
def quotedOrNull : Option String → EvalResult
  | some s => .residual (quoted s)
  | none => .residual "NULL"

mutual

def evaluate (expr : PolicyExpr) (ctx : C) : EvalResult :=
  match expr with
  | .literal lit => evalLiteral lit
  | .column name => .residual ("\"" ++ name ++ "\"")
  | .qualifiedColumn table column => .residual ("\"" ++ table ++ "\".\"" ++ column ++ "\"")
  | .authBuiltin name args => evalAuthBuiltin name args ctx
  | .domainBuiltin domain name _ => .residual (domain ++ "." ++ name)
  | .binaryOp op left right => evalBinaryOp op (evaluate left ctx) (evaluate right ctx)
  | .unaryOp op operand => evalUnaryOp op (evaluate operand ctx)
  | .isNull operand negated => evalIsNull (evaluate operand ctx) negated
  | .inList operand list negated =>
    evalInList (evaluate operand ctx) (evaluateList list ctx) negated
  | .subquery sql => .residual ("(" ++ sql ++ ")")

def evaluateList (list : List PolicyExpr) (ctx : C) : List EvalResult :=
  match list with
  | [] => []
  | e :: es => evaluate e ctx :: evaluateList es ctx

def evalAuthBuiltin (name : String) (args : List PolicyExpr) (ctx : C) : EvalResult :=
  match name with
  | "user_id" => quotedOrNull ((userId ctx).map Rust.Uuid.hyphenated)
  | "org_id" => quotedOrNull ((orgId ctx).map Rust.Uuid.hyphenated)
  | "role" => .residual "NULL"
  | "has_permission" =>
    match args with
    | .literal (.string permission) :: _ => .const (hasPermission ctx permission)
    | _ => .residual "false"
  | "in_org" =>
    match args with
    | [] => .const false
    | arg :: _ =>
      match evaluate arg ctx with
      | .residual sql =>
        match orgId ctx with
        | some org => .residual ("(" ++ sql ++ " = " ++ quoted org.hyphenated ++ ")")
        | none => .const false
      | .const _ => .const false
  | "email" => quotedOrNull ((email ctx).map (Rust.Str.doubled '\''))
  | "session_id" => quotedOrNull (sessionId ctx)
  | "is_authenticated" => .const (isAuthenticated ctx)
  | _ => .residual "NULL"

end

end

end Reactor.Policy
