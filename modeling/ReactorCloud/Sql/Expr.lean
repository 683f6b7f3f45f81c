import ReactorCloud.Rust.Json
import ReactorCloud.Sql.Truth

/-!
This module contains the values and the expressions of SQL and their meaning under three-valued
logic. How two non-null values compare depends on their types and on the collation of the database,
an `Interp` stands for these choices.
-/

namespace Sql

open Rust (Json)

inductive Value where
  | null
  | bool (b : Bool)
  | num (q : Rat)
  | text (s : String)
  | doc (j : Json)
  deriving DecidableEq

namespace Value

def ofTruth : Truth → Value
  | some b => .bool b
  | none => .null

/--
The truth value of a value in the place of a condition.
-/
def truth : Value → Truth
  | .bool b => some b
  | _ => none

@[simp]
theorem truth_ofTruth (t : Truth) : (ofTruth t).truth = t := by
  rcases t with _ | _ <;> rfl

@[simp]
theorem truth_bool (b : Bool) : (bool b).truth = some b := rfl

@[simp]
theorem truth_null : null.truth = none := rfl

end Value

/--
A JSON value as a value of the type it is closest to.
-/
def valueOfJson : Json → Value
  | .null => .null
  | .bool b => .bool b
  | .number n => .num n.toRat
  | .string s => .text s
  | j => .doc j

inductive CmpOp where
  | eq
  | ne
  | lt
  | le
  | gt
  | ge
  deriving DecidableEq, Repr

def CmpOp.test : CmpOp → Rat → Rat → Bool
  | .eq, p, q => p == q
  | .ne, p, q => p != q
  | .lt, p, q => p < q
  | .le, p, q => p ≤ q
  | .gt, p, q => q < p
  | .ge, p, q => q ≤ p

/--
The operators of a database on non-null values. The boolean of `like` tells whether case is ignored
and `other` are the operators that SQL does not know by name. All of them are strict. What is common
to all databases is stated by the laws.
-/
structure Interp where
  cmp : CmpOp → Value → Value → Truth
  like : Bool → Value → Value → Truth
  neg : Value → Value
  other : String → Value → Value → Value
  cmp_self : ∀ v, v ≠ .null → cmp .eq v v = some true
  cmp_ne : ∀ v w, cmp .ne v w = .not (cmp .eq v w)
  cmp_bool : ∀ b c, cmp .eq (.bool b) (.bool c) = some (b == c)
  cmp_num : ∀ op p q, cmp op (.num p) (.num q) = some (op.test p q)
  cmp_text : ∀ s t, cmp .eq (.text s) (.text t) = some (s == t)
  like_text : ∀ s p, like false (.text s) (.text p) = some (Like.isMatch p.toList s.toList)

namespace Interp

-- Values of different types do not compare, texts are ordered by their characters.
def standardEq : Value → Value → Truth
  | .bool b, .bool c => some (b == c)
  | .num p, .num q => some (p == q)
  | .text s, .text t => some (s == t)
  | .doc j, .doc k => some (j == k)
  | _, _ => none

def standardCmp : CmpOp → Value → Value → Truth
  | .eq, v, w => standardEq v w
  | .ne, v, w => .not (standardEq v w)
  | op, .num p, .num q => some (op.test p q)
  | .lt, .text s, .text t => some (s < t)
  | .le, .text s, .text t => some (s ≤ t)
  | .gt, .text s, .text t => some (t < s)
  | .ge, .text s, .text t => some (t ≤ s)
  | _, _, _ => none

def standardLike (ci : Bool) : Value → Value → Truth
  | .text s, .text p =>
    if ci then
      some (Like.isMatch (p.toList.map Char.toLower) (s.toList.map Char.toLower))
    else
      some (Like.isMatch p.toList s.toList)
  | _, _ => none

def standardNeg : Value → Value
  | .num q => .num (-q)
  | _ => .null

def standard : Interp where
  cmp := standardCmp
  like := standardLike
  neg := standardNeg
  other := fun _ _ _ => .null
  cmp_self := by
    intro v hv
    cases v with
    | null => contradiction
    | doc j => simp [standardCmp, standardEq, (Rust.Json.beq_iff j j).mpr rfl, BEq.beq]
    | _ => simp [standardCmp, standardEq]
  cmp_ne := by
    intro v w
    rfl
  cmp_bool := by
    intro b c
    rfl
  cmp_num := by
    intro op p q
    cases op <;> simp [standardCmp, standardEq, CmpOp.test, bne]
  cmp_text := by
    intro s t
    rfl
  like_text := by
    intro s p
    rfl

variable (I : Interp)

def strict (f : Value → Value → Value) (lhs rhs : Value) : Value :=
  match lhs, rhs with
  | .null, _ => .null
  | _, .null => .null
  | lhs, rhs => f lhs rhs

def evalCmp (op : CmpOp) (lhs rhs : Value) : Value :=
  strict (fun l r => .ofTruth (I.cmp op l r)) lhs rhs

def evalLike (ci : Bool) (lhs rhs : Value) : Value :=
  strict (fun l r => .ofTruth (I.like ci l r)) lhs rhs

def evalNeg : Value → Value
  | .null => .null
  | v => I.neg v

/--
`v IN (vs)`, the disjunction of the equalities.
-/
def evalIn (v : Value) (vs : List Value) : Value :=
  .ofTruth (.any (vs.map (fun w => (I.evalCmp .eq v w).truth)))

theorem evalCmp_of_ne_null {v w : Value} (hv : v ≠ .null) (hw : w ≠ .null) (op : CmpOp)
    : I.evalCmp op v w = .ofTruth (I.cmp op v w) := by
  unfold evalCmp strict
  split <;> simp_all

end Interp

def evalAnd (lhs rhs : Value) : Value := .ofTruth (.and lhs.truth rhs.truth)

def evalOr (lhs rhs : Value) : Value := .ofTruth (.or lhs.truth rhs.truth)

def evalNot (v : Value) : Value := .ofTruth (.not v.truth)

def evalNotIf (negated : Bool) (v : Value) : Value :=
  if negated then evalNot v else v

def evalIsNull (negated : Bool) (v : Value) : Value :=
  .bool ((v == .null) != negated)

/--
`v IS [NOT] TRUE` and `v IS [NOT] FALSE`.
-/
def evalIsBool (b negated : Bool) (v : Value) : Value :=
  .bool ((v.truth == some b) != negated)

/--
A column is referenced by its name and the names it is qualified with.
-/
structure ColRef where
  qual : List String
  name : String
  deriving DecidableEq, Repr

inductive Expr where
  | lit (v : Value)
  | col (c : ColRef)
  | param (i : Nat)
  | and (lhs rhs : Expr)
  | or (lhs rhs : Expr)
  | not (e : Expr)
  | cmp (op : CmpOp) (lhs rhs : Expr)
  | like (ci negated : Bool) (lhs rhs : Expr)
  | neg (e : Expr)
  | other (op : String) (lhs rhs : Expr)
  | isNull (negated : Bool) (e : Expr)
  | isBool (b negated : Bool) (e : Expr)
  | inList (negated : Bool) (e : Expr) (list : List Expr)

/--
What the columns and the parameters of an expression stand for.
-/
structure Env where
  col : ColRef → Value
  param : Nat → Value

namespace Expr

mutual

def eval (I : Interp) (env : Env) : Expr → Value
  | .lit v => v
  | .col c => env.col c
  | .param i => env.param i
  | .and lhs rhs => evalAnd (eval I env lhs) (eval I env rhs)
  | .or lhs rhs => evalOr (eval I env lhs) (eval I env rhs)
  | .not e => evalNot (eval I env e)
  | .cmp op lhs rhs => I.evalCmp op (eval I env lhs) (eval I env rhs)
  | .like ci negated lhs rhs => evalNotIf negated (I.evalLike ci (eval I env lhs) (eval I env rhs))
  | .neg e => I.evalNeg (eval I env e)
  | .other op lhs rhs => Interp.strict (I.other op) (eval I env lhs) (eval I env rhs)
  | .isNull negated e => evalIsNull negated (eval I env e)
  | .isBool b negated e => evalIsBool b negated (eval I env e)
  | .inList negated e list => evalNotIf negated (I.evalIn (eval I env e) (evalList I env list))

def evalList (I : Interp) (env : Env) : List Expr → List Value
  | [] => []
  | e :: es => eval I env e :: evalList I env es

end

/--
A condition selects a row if it is TRUE there.
-/
def Holds (I : Interp) (env : Env) (e : Expr) : Prop := (e.eval I env).truth.Holds

instance (I : Interp) (env : Env) (e : Expr) : Decidable (e.Holds I env) :=
  inferInstanceAs (Decidable (Truth.Holds _))

mutual

/--
The columns an expression reads.
-/
def cols : Expr → List ColRef
  | .lit _ => []
  | .col c => [c]
  | .param _ => []
  | .and lhs rhs => cols lhs ++ cols rhs
  | .or lhs rhs => cols lhs ++ cols rhs
  | .not e => cols e
  | .cmp _ lhs rhs => cols lhs ++ cols rhs
  | .like _ _ lhs rhs => cols lhs ++ cols rhs
  | .neg e => cols e
  | .other _ lhs rhs => cols lhs ++ cols rhs
  | .isNull _ e => cols e
  | .isBool _ _ e => cols e
  | .inList _ e list => cols e ++ colsList list

def colsList : List Expr → List ColRef
  | [] => []
  | e :: es => cols e ++ colsList es

end

end Expr
end Sql
