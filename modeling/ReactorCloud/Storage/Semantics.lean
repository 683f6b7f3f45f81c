import ReactorCloud.Policy.Semantics
import ReactorCloud.Storage.Eval

/-!
This module contains the meaning of a policy expression for an object, and when the evaluation of
`reactor-storage` is faithful to it.
-/

namespace Reactor.Storage

open Rust (Json Number)
open Policy PolicyEvalContext
open Sql (valueOfJson Value Interp Like.isMatch Like.Literal)

/--
The parts of an expression that neither the request nor the object determine.
-/
structure Unknown where
  column : String → Value
  qualified : String → String → Value
  auth : String → List Value → Value
  domain : String → String → List Value → Value
  subquery : String → Value
  infinity : Value

section

variable {C : Type} [PolicyEvalContext C] (ctx : C) (facts : ObjectFacts)

/--
The meaning that the request and the object leave open only where the unknown parts fill in.
-/
def Unknown.meaning (U : Unknown) : Meaning where
  column := U.column
  qualified := U.qualified
  auth name args :=
    match name with
    | "user_id" => textOrNull ((userId ctx).map Rust.Uuid.hyphenated)
    | "org_id" => textOrNull ((orgId ctx).map Rust.Uuid.hyphenated)
    | "has_permission" =>
      match args with
      | .text perm :: _ => .bool (hasPermission ctx perm)
      | _ => U.auth name args
    | "is_authenticated" => .bool (userId ctx).isSome
    | _ => U.auth name args
  domain name field args :=
    match name, field with
    | "object", "key" => .text facts.key
    | "object", "content_type" => textOrNull facts.contentType
    | "object", "owner_id" => textOrNull (facts.ownerId.map Rust.Uuid.hyphenated)
    | "object", "metadata" => valueOfJson facts.metadata
    | "bucket", "name" => .text facts.bucket
    | _, _ => U.domain name field args
  subquery := U.subquery
  float n :=
    match n with
    | .finite value _ => .num value
    | .infinite => U.infinity

theorem Unknown.meaning_hasPermission (U : Unknown) (perm : String) (args : List Value)
    : (U.meaning ctx facts).auth "has_permission" (.text perm :: args)
        =
      .bool (hasPermission ctx perm) := rfl

theorem Unknown.meaning_isAuthenticated (U : Unknown) (args : List Value)
    : (U.meaning ctx facts).auth "is_authenticated" args = .bool (userId ctx).isSome := rfl

/--
The value of an expression that is a literal or a fact about the request or the object.
-/
def factOf : PolicyExpr → Option Json
  | .literal .null => some .null
  | .literal (.string s) => some (.string s)
  | .literal (.int n) => some (.number (.ofI64 n))
  | .literal (.float n) => some (jsonFloat n)
  | .authBuiltin "user_id" _ => some (jsonOption ((userId ctx).map Rust.Uuid.hyphenated))
  | .authBuiltin "org_id" _ => some (jsonOption ((orgId ctx).map Rust.Uuid.hyphenated))
  | .domainBuiltin "object" "key" _ => some (.string facts.key)
  | .domainBuiltin "object" "content_type" _ => some (jsonOption facts.contentType)
  | .domainBuiltin "object" "owner_id" _ =>
    some (jsonOption (facts.ownerId.map Rust.Uuid.hyphenated))
  | .domainBuiltin "object" "metadata" _ => some facts.metadata
  | .domainBuiltin "bucket" "name" _ => some (.string facts.bucket)
  | _ => none

/--
No operand of the outermost conjunctions and disjunctions is a bare fact.
-/
def BoolOperands : PolicyExpr → Prop
  | .binaryOp .and left right | .binaryOp .or left right =>
    factOf ctx facts left = none ∧ factOf ctx facts right = none
      ∧ BoolOperands left ∧ BoolOperands right
  | _ => True

/--
Two values of one type that are different in SQL as well. Neither is NULL, and numbers are not just
written differently.
-/
def Apart : Json → Json → Prop
  | .string s, .string t => s ≠ t
  | .bool b, .bool c => b ≠ c
  | .number m, .number n => m.toRat ≠ n.toRat
  | _, _ => False

/--
A pattern with no wildcard but a `%` at either end.
-/
def SimplePattern (pattern : List Char) : Prop :=
  '_' ∉ pattern ∧ ∀ before after, pattern = before ++ '%' :: after → before = [] ∨ after = []

/--
Whether a comparison of two facts that comes out as `b` also does in SQL.
-/
def FaithfulOp (op : PolicyBinaryOp) (b : Bool) (v w : Json) : Prop :=
  match op, b with
  | .eq, true | .notEq, false => v = w → v ≠ .null
  | .eq, false | .notEq, true => v ≠ w → Apart v w
  | .lt, false | .gt, false =>
    ∀ m n, v = .number m → w = .number n → m.asF64 = n.asF64 → m.toRat = n.toRat
  | .like, false => ∀ s p, v = .string s → w = .string p → SimplePattern p.toList
  | _, _ => True

/--
An expression no part of which the evaluation decides.
-/
def Undecided : PolicyExpr → Prop
  | .literal (.bool _) => False
  | .authBuiltin "has_permission" _ | .authBuiltin "is_authenticated" _ => False
  | .binaryOp .and left right | .binaryOp .or left right => Undecided left ∧ Undecided right
  | .binaryOp _ left right =>
    factOf ctx facts left = none ∧ BoolOperands ctx facts left
      ∨ factOf ctx facts right = none ∧ BoolOperands ctx facts right
  | .unaryOp .not expr => Undecided expr
  | .unaryOp .minus _ => True
  | .isNull expr _ => Undecided expr
  | .inList expr _ _ => factOf ctx facts expr = none ∧ BoolOperands ctx facts expr
  | e => factOf ctx facts e = none

/--
Whether the evaluation only comes out as the constant `b` where SQL does, for an expression at whose
root nothing but `b` matters.
-/
def Faithful (b : Bool) : PolicyExpr → Prop
  | .binaryOp .and left right | .binaryOp .or left right => Faithful b left ∧ Faithful b right
  | .binaryOp op left right =>
    BoolOperands ctx facts left ∧ BoolOperands ctx facts right
      ∧ ∀ v w, factOf ctx facts left = some v → factOf ctx facts right = some w →
          FaithfulOp op b v w
  | .unaryOp .not expr => Faithful (!b) expr
  | .authBuiltin "has_permission" (arg :: _) =>
    BoolOperands ctx facts arg ∧ (b = false → ∃ perm, factOf ctx facts arg = some (.string perm))
  | .authBuiltin "has_permission" [] => b = true
  | .isNull expr _ =>
    (BoolOperands ctx facts expr ∧ (factOf ctx facts expr).isSome
        ∧ expr ≠ .literal (.float .infinite))
      ∨ Undecided ctx facts expr
  | .inList expr list negated =>
    BoolOperands ctx facts expr ∧ (∀ item ∈ list, BoolOperands ctx facts item)
      ∧ ∀ v, factOf ctx facts expr = some v →
          if b = negated then
            (∀ item ∈ list, factOf ctx facts item ≠ some v) →
              ∀ item ∈ list, ∃ w, factOf ctx facts item = some w ∧ Apart v w
          else
            (∃ item ∈ list, factOf ctx facts item = some v) → v ≠ .null
  | _ => True

end

end Reactor.Storage
