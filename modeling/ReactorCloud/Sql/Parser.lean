import ReactorCloud.Sql.Expr
import ReactorCloud.Sql.Lexer

/-!
This module contains the parser of SQL expressions. It climbs the precedences of Postgres: `OR` binds
weakest, then `AND`, `NOT`, `IS`, the comparisons, `IN` and `LIKE`, the operators without a level of
their own, and arithmetic. Texts with calls, casts and subqueries are not read.
-/

namespace Sql

/--
An operator behind its left operand.
-/
inductive InfixOp where
  | or
  | and
  | isNull (negated : Bool)
  | isBool (b negated : Bool)
  | cmp (op : CmpOp)
  | inList (negated : Bool)
  | like (ci negated : Bool)
  | other (op : String)
  deriving DecidableEq, Repr

namespace InfixOp

def level : InfixOp → Nat
  | .or => 1
  | .and => 2
  | .isNull .. | .isBool .. => 4
  | .cmp .. => 5
  | .inList .. | .like .. => 6
  | .other op =>
    if op = "^" then 10
    else if op ∈ ["*", "/", "%"] then 9
    else if op ∈ ["+", "-"] then 8
    else 7

/--
Operators that do not associate with an operator of the same level on their right.
-/
def nonAssoc : InfixOp → Bool
  | .cmp .. | .like .. => true
  | _ => false

/--
The level of `NOT`, between `AND` and `IS`.
-/
def notLevel : Nat := 3

/--
The level of the operands of a sign.
-/
def signLevel : Nat := 11

end InfixOp

/--
What follows the left operand of an operator.
-/
inductive Operand where
  | nothing (mk : Expr → Expr)
  | list (mk : Expr → List Expr → Expr)
  | expr (mk : Expr → Expr → Expr)

def InfixOp.operand : InfixOp → Operand
  | .or => .expr .or
  | .and => .expr .and
  | .isNull negated => .nothing (.isNull negated)
  | .isBool b negated => .nothing (.isBool b negated)
  | .cmp op => .expr (.cmp op)
  | .inList negated => .list (.inList negated)
  | .like ci negated => .expr (.like ci negated)
  | .other op => .expr (.other op)

namespace Parser

def opOf : String → InfixOp
  | "=" => .cmp .eq
  | "<>" => .cmp .ne
  | "!=" => .cmp .ne
  | "<" => .cmp .lt
  | "<=" => .cmp .le
  | ">" => .cmp .gt
  | ">=" => .cmp .ge
  | op => .other op

/--
The operator a list of tokens starts with.
-/
def infixOp : List Token → Option (InfixOp × List Token)
  | .op s :: toks => some (opOf s, toks)
  | .word "or" :: toks => some (.or, toks)
  | .word "and" :: toks => some (.and, toks)
  | .word "is" :: .word "not" :: .word "null" :: toks => some (.isNull true, toks)
  | .word "is" :: .word "not" :: .word "true" :: toks => some (.isBool true true, toks)
  | .word "is" :: .word "not" :: .word "false" :: toks => some (.isBool false true, toks)
  | .word "is" :: .word "null" :: toks => some (.isNull false, toks)
  | .word "is" :: .word "true" :: toks => some (.isBool true false, toks)
  | .word "is" :: .word "false" :: toks => some (.isBool false false, toks)
  | .word "not" :: .word "in" :: toks => some (.inList true, toks)
  | .word "not" :: .word "like" :: toks => some (.like false true, toks)
  | .word "not" :: .word "ilike" :: toks => some (.like true true, toks)
  | .word "in" :: toks => some (.inList false, toks)
  | .word "like" :: toks => some (.like false false, toks)
  | .word "ilike" :: toks => some (.like true false, toks)
  | _ => none

/--
The name a token stands for.
-/
def nameOf : Token → Option String
  | .word w => if w ∈ reservedWords then none else some w
  | .ident raw => some (unescaped '"' raw)
  | _ => none

/--
A column with the names it is qualified with.
-/
def parseColRef : List Token → Option (ColRef × List Token)
  | tok :: .punct '.' :: toks => do
    let name ← nameOf tok
    let (col, rest) ← parseColRef toks
    some (⟨name :: col.qual, col.name⟩, rest)
  | tok :: toks => do
    let name ← nameOf tok
    some (⟨[], name⟩, toks)
  | [] => none

def parsePrimary : List Token → Option (Expr × List Token)
  | .str raw :: toks => some (.lit (.text (unescaped '\'' raw)), toks)
  | .num s :: toks => (Rust.parseDecimal s.toList).map (fun d => (.lit (.num d.value), toks))
  | .param s :: toks => (Rust.parseNat s.toList).map (fun i => (.param i, toks))
  | .word "null" :: toks => some (.lit .null, toks)
  | .word "true" :: toks => some (.lit (.bool true), toks)
  | .word "false" :: toks => some (.lit (.bool false), toks)
  | toks => (parseColRef toks).map (fun (col, rest) => (.col col, rest))

mutual

/--
An expression whose operators have at least the level `prec`.
-/
def parseExpr (fuel prec : Nat) (toks : List Token) : Option (Expr × List Token) :=
  match fuel with
  | 0 => none
  | fuel + 1 =>
    match parsePrefix fuel toks with
    | none => none
    | some (lhs, rest) => parseInfix fuel prec 0 lhs rest

def parsePrefix (fuel : Nat) (toks : List Token) : Option (Expr × List Token) :=
  match fuel with
  | 0 => none
  | fuel + 1 =>
    match toks with
    | .punct '(' :: toks =>
      match parseExpr fuel 0 toks with
      | some (e, .punct ')' :: rest) => some (e, rest)
      | _ => none
    | .word "not" :: toks =>
      (parseExpr fuel InfixOp.notLevel toks).map (fun (e, rest) => (.not e, rest))
    | .op "-" :: toks =>
      (parseExpr fuel InfixOp.signLevel toks).map (fun (e, rest) => (.neg e, rest))
    | toks => parsePrimary toks

/--
The operators behind `lhs`, whose last operator has the level `last` if it does not associate.
-/
def parseInfix (fuel prec last : Nat) (lhs : Expr) (toks : List Token)
    : Option (Expr × List Token) :=
  match fuel with
  | 0 => none
  | fuel + 1 =>
    match infixOp toks with
    | none => some (lhs, toks)
    | some (op, rest) =>
      if op.level < prec then
        some (lhs, toks)
      else if op.level = last then
        none
      else
        match op.operand with
        | .nothing mk => parseInfix fuel prec 0 (mk lhs) rest
        | .list mk =>
          match parseList fuel rest with
          | none => none
          | some (list, rest) => parseInfix fuel prec 0 (mk lhs list) rest
        | .expr mk =>
          match parseExpr fuel (op.level + 1) rest with
          | none => none
          | some (rhs, rest) =>
            parseInfix fuel prec (if op.nonAssoc then op.level else 0) (mk lhs rhs) rest

/--
The parenthesized list of `IN`, which is not empty.
-/
def parseList (fuel : Nat) (toks : List Token) : Option (List Expr × List Token) :=
  match fuel with
  | 0 => none
  | fuel + 1 =>
    match toks with
    | .punct '(' :: toks => parseItems fuel toks
    | _ => none

def parseItems (fuel : Nat) (toks : List Token) : Option (List Expr × List Token) :=
  match fuel with
  | 0 => none
  | fuel + 1 =>
    match parseExpr fuel 0 toks with
    | some (e, .punct ')' :: rest) => some ([e], rest)
    | some (e, .punct ',' :: rest) =>
      match parseItems fuel rest with
      | none => none
      | some (es, rest) => some (e :: es, rest)
    | _ => none

end

/--
Every step of the parser that does not consume a token is followed by one that does.
-/
def fuelFor (toks : List Token) : Nat :=
  3 * toks.length + 1

def parseCond (toks : List Token) : Option (Expr × List Token) :=
  parseExpr (fuelFor toks) 0 toks

end Parser

/--
The expression that tokens stand for.
-/
def readTokens (toks : List Token) : Option Expr :=
  match Parser.parseCond toks with
  | some (e, []) => some e
  | _ => none

def readExpr (text : String) : Option Expr :=
  (lex text).bind readTokens

end Sql
