import ReactorCloud.Rust.F64

/-!
This module contains the AST of policy expressions of `reactor-policy`.
-/

namespace Reactor.Policy

open Rust (F64)

/--
The operation that a policy is about.
-/
inductive PolicyScope where
  | select
  | insert
  | update
  | delete
  | read
  | write
  deriving DecidableEq, Repr

inductive PolicyLiteral where
  | null
  | bool (b : Bool)
  | int (n : Int64)
  | float (n : F64)
  | string (s : String)
  deriving DecidableEq

inductive PolicyBinaryOp where
  | eq
  | notEq
  | lt
  | ltEq
  | gt
  | gtEq
  | and
  | or
  | like
  | iLike
  deriving DecidableEq, Repr

namespace PolicyBinaryOp

def asSql : PolicyBinaryOp → String
  | .eq => "="
  | .notEq => "<>"
  | .lt => "<"
  | .ltEq => "<="
  | .gt => ">"
  | .gtEq => ">="
  | .and => "AND"
  | .or => "OR"
  | .like => "LIKE"
  | .iLike => "ILIKE"

end PolicyBinaryOp

inductive PolicyUnaryOp where
  | not
  | minus
  deriving DecidableEq, Repr

/--
An expression of a `using` or a `check` clause. The source wraps each of these in a record with the
single field `kind`.
-/
inductive PolicyExpr where
  | column (name : String)
  | qualifiedColumn (table column : String)
  | literal (lit : PolicyLiteral)
  | binaryOp (op : PolicyBinaryOp) (left right : PolicyExpr)
  | unaryOp (op : PolicyUnaryOp) (expr : PolicyExpr)
  | authBuiltin (name : String) (args : List PolicyExpr)
  | domainBuiltin (domain name : String) (args : List PolicyExpr)
  | isNull (expr : PolicyExpr) (negated : Bool)
  | inList (expr : PolicyExpr) (list : List PolicyExpr) (negated : Bool)
  | subquery (sql : String)

namespace PolicyExpr

mutual

/--
The derived `PartialEq`.
-/
def beq : PolicyExpr → PolicyExpr → Bool
  | .column l, .column r => l == r
  | .qualifiedColumn l l', .qualifiedColumn r r' => l == r && l' == r'
  | .literal l, .literal r => l == r
  | .binaryOp op l l', .binaryOp op' r r' => op == op' && beq l r && beq l' r'
  | .unaryOp op l, .unaryOp op' r => op == op' && beq l r
  | .authBuiltin name l, .authBuiltin name' r => name == name' && beqList l r
  | .domainBuiltin domain name l, .domainBuiltin domain' name' r =>
    domain == domain' && name == name' && beqList l r
  | .isNull l negated, .isNull r negated' => beq l r && negated == negated'
  | .inList l ls negated, .inList r rs negated' => beq l r && beqList ls rs && negated == negated'
  | .subquery l, .subquery r => l == r
  | _, _ => false

def beqList : List PolicyExpr → List PolicyExpr → Bool
  | [], [] => true
  | l :: ls, r :: rs => beq l r && beqList ls rs
  | _, _ => false

end

theorem beq_iff (l r : PolicyExpr) : beq l r = true ↔ l = r := by
  induction l, r using beq.induct
    (motive_2 := fun ls rs => beqList ls rs = true ↔ ls = rs) with
  | case11 l r => cases l <;> cases r <;> grind [beq]
  | case14 ls rs _ h =>
    cases ls with
    | nil => cases rs <;> simp_all [beqList]
    | cons l ls =>
      cases rs with
      | nil => simp [beqList]
      | cons r rs => exact (h l ls r rs rfl rfl).elim
  | _ => simp_all [beq, beqList, and_assoc]

instance : DecidableEq PolicyExpr := fun l r =>
  decidable_of_iff (beq l r = true) (beq_iff l r)

def boolLiteral (b : Bool) : PolicyExpr :=
  .literal (.bool b)

def stringLiteral (s : String) : PolicyExpr :=
  .literal (.string s)

end PolicyExpr

end Reactor.Policy
