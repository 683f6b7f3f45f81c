import ReactorCloud.Policy.Eval
import ReactorCloud.Rust.Json

/-!
This module contains the evaluation of policy expressions of `reactor-storage`, which decides about
an object from a few facts instead of leaving the rest to a database. A residual carries no text, the
source only has one for debugging.
-/

namespace Reactor.Storage

open Rust (Json Number)
open Policy PolicyEvalContext

structure StorageCtx where
  auth : Option AuthCtx

instance : PolicyEvalContext StorageCtx where
  userId ctx := ctx.auth.bind AuthCtx.userId
  orgId ctx := ctx.auth.bind AuthCtx.activeOrg
  hasPermission ctx permission := (ctx.auth.map (·.hasPermission permission)).getD false
  email ctx := ctx.auth.bind AuthCtx.email
  sessionId _ := none

structure ObjectFacts where
  key : String
  bucket : String
  contentType : Option String
  ownerId : Option Rust.Uuid
  metadata : Json

inductive StorageEvalResult where
  | const (b : Bool)
  | value (v : Json)
  | residual
  deriving DecidableEq

/--
`json!(n)` for a double. There is no JSON for infinity.
-/
def jsonFloat : Rust.F64 → Json
  | .finite value h => .number (.float value h)
  | .infinite => .null

def jsonOption : Option String → Json
  | some s => .string s
  | none => .null

/--
Simple `LIKE` matching, `%` is only a wildcard at the ends of the pattern.
-/
def likeMatch (s pattern : List Char) : Bool :=
  if pattern = ['%'] then
    true
  else if '%' ∉ pattern then
    s = pattern
  else if pattern.head? = some '%' ∧ pattern.getLast? = some '%' then
    s.tails.any (pattern.tail.dropLast).isPrefixOf
  else if pattern.head? = some '%' then
    pattern.tail.isSuffixOf s
  else if pattern.getLast? = some '%' then
    pattern.dropLast.isPrefixOf s
  else
    s = pattern

def evalLiteral : PolicyLiteral → StorageEvalResult
  | .bool b => .const b
  | .null => .value .null
  | .string s => .value (.string s)
  | .int n => .value (.number (.ofI64 n))
  | .float n => .value (jsonFloat n)

def evalDomainBuiltin (domain field : String) (facts : ObjectFacts) : StorageEvalResult :=
  match domain, field with
  | "object", "key" => .value (.string facts.key)
  | "object", "content_type" => .value (jsonOption facts.contentType)
  | "object", "owner_id" => .value (jsonOption (facts.ownerId.map Rust.Uuid.hyphenated))
  | "object", "metadata" => .value facts.metadata
  | "bucket", "name" => .value (.string facts.bucket)
  | _, _ => .residual

/--
A comparison of numbers as doubles, other values stay undecided.
-/
def evalLess (l r : Json) : StorageEvalResult :=
  match l.asF64, r.asF64 with
  | some l, some r => .const (l.lt r)
  | _, _ => .residual

def evalBinaryOpStorage (op : PolicyBinaryOp) (left right : StorageEvalResult) : StorageEvalResult :=
  match op, left, right with
  | .and, .const false, _ => .const false
  | .and, _, .const false => .const false
  | .and, .const true, other => other
  | .and, other, .const true => other
  | .or, .const true, _ => .const true
  | .or, _, .const true => .const true
  | .or, .const false, other => other
  | .or, other, .const false => other
  | .eq, .value l, .value r => .const (l = r)
  | .notEq, .value l, .value r => .const (l ≠ r)
  | .like, .value (.string s), .value (.string p) => .const (likeMatch s.toList p.toList)
  | .lt, .value l, .value r => evalLess l r
  | .gt, .value l, .value r => evalLess r l
  | _, _, _ => .residual

def evalUnaryOpStorage (op : PolicyUnaryOp) (operand : StorageEvalResult) : StorageEvalResult :=
  match op, operand with
  | .not, .const b => .const !b
  | _, _ => .residual

def evalIsNullStorage (operand : StorageEvalResult) (negated : Bool) : StorageEvalResult :=
  match operand with
  | .value v => if v.isNull then .const !negated else .const negated
  | .const b => .const b
  | .residual => .residual

def evalInListStorage (operand : StorageEvalResult) (list : List StorageEvalResult)
    (negated : Bool) : StorageEvalResult :=
  match operand with
  | .value v =>
    let found := list.any (· = .value v)
    .const (if negated then !found else found)
  | _ => .residual

section

variable {C : Type} [PolicyEvalContext C]

mutual

def evaluateStorage (expr : PolicyExpr) (ctx : C) (facts : ObjectFacts) : StorageEvalResult :=
  match expr with
  | .literal lit => evalLiteral lit
  | .column _ => .residual
  | .qualifiedColumn _ _ => .residual
  | .authBuiltin name args => evalAuthBuiltinStorage name args ctx facts
  | .domainBuiltin domain name _ => evalDomainBuiltin domain name facts
  | .binaryOp op left right =>
    evalBinaryOpStorage op (evaluateStorage left ctx facts) (evaluateStorage right ctx facts)
  | .unaryOp op operand => evalUnaryOpStorage op (evaluateStorage operand ctx facts)
  | .isNull operand negated => evalIsNullStorage (evaluateStorage operand ctx facts) negated
  | .inList operand list negated =>
    evalInListStorage (evaluateStorage operand ctx facts) (evaluateStorageList list ctx facts)
      negated
  | .subquery _ => .residual

def evaluateStorageList (list : List PolicyExpr) (ctx : C) (facts : ObjectFacts)
    : List StorageEvalResult :=
  match list with
  | [] => []
  | e :: es => evaluateStorage e ctx facts :: evaluateStorageList es ctx facts

def evalAuthBuiltinStorage (name : String) (args : List PolicyExpr) (ctx : C)
    (facts : ObjectFacts) : StorageEvalResult :=
  match name with
  | "user_id" => .value (jsonOption ((userId ctx).map Rust.Uuid.hyphenated))
  | "org_id" => .value (jsonOption ((orgId ctx).map Rust.Uuid.hyphenated))
  | "has_permission" =>
    match args with
    | [] => .const false
    | arg :: _ =>
      match evaluateStorage arg ctx facts with
      | .value (.string perm) => .const (hasPermission ctx perm)
      | _ => .const false
  | "is_authenticated" => .const (userId ctx).isSome
  | _ => .residual

end

end

def checkPolicy (expr : PolicyExpr) (ctx : StorageCtx) (facts : ObjectFacts) : Bool :=
  match evaluateStorage expr ctx facts with
  | .const b => b
  | .value v => v.asBool.getD false
  | .residual => false

end Reactor.Storage
