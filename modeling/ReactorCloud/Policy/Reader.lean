import Mathlib.Computability.StateTransition
import ReactorCloud.Policy.Grammar

/-!
This module contains how a policy is read from left to right: a machine with a stack of what is open,
which says where a keyword is looked for and which calls are closed. It builds no expressions.
-/

open StateTransition (Reaches)

section

variable {σ : Type} (f : σ → Option σ) (P : σ → Prop)

/--
`P` holds wherever a deterministic machine gets to.
-/
def Always : Option σ → Prop
  | some a => ∀ b, Reaches f a b → P b
  | none => True

variable {f P}

theorem always_some {a : σ} : Always f P (some a) ↔ P a ∧ Always f P (f a) := by
  constructor
  . intro h
    refine ⟨h a .refl, ?_⟩
    cases hnext : f a with
    | none => trivial
    | some b =>
      intro c hc
      exact h c (.head hnext hc)
  . intro ⟨ha, hnext⟩ c hc
    cases hc.cases_head with
    | inl heq => rwa [← heq]
    | inr hstep =>
      have ⟨b, hb, hbc⟩ := hstep
      rw [Option.mem_def.mp hb] at hnext
      exact hnext c hbc

end

namespace Reactor.Policy

/--
The name is one of an auth builtin, and there are as many arguments as it takes.
-/
def KnownCall (name : String) (count : Nat) : Prop :=
  ∃ builtin, AuthBuiltin.fromName name = some builtin ∧ count = builtin.arity

mutual

/--
Every call of an auth builtin in the expression is a known one.
-/
def PolicyExpr.Known : PolicyExpr → Prop
  | .authBuiltin name args => KnownCall name args.length ∧ AllKnown args
  | .domainBuiltin _ _ args => AllKnown args
  | .binaryOp _ left right => left.Known ∧ right.Known
  | .unaryOp _ expr => expr.Known
  | .isNull expr _ => expr.Known
  | .inList expr list _ => expr.Known ∧ AllKnown list
  | _ => True

def AllKnown : List PolicyExpr → Prop
  | [] => True
  | expr :: exprs => expr.Known ∧ AllKnown exprs

end

namespace Grammar

/--
Where an operand stands: on its own or to the left of an operator, to the right of one, or in a list.
-/
inductive Place where
  | left
  | right
  | item
  deriving DecidableEq, Repr

inductive Callee where
  | auth (name : String)
  | domain
  | plain (name : String)
  deriving DecidableEq, Repr

inductive Mode where
  | expr
  | operand (place : Place)
  /-- `(` has been read. -/
  | args (callee : Callee) (place : Place)
  | afterLeft
  | afterIs
  | null
  | afterNot
  | list
  | andLoop
  | orLoop
  | close
  deriving DecidableEq, Repr

/--
What `)` closes.
-/
inductive Frame where
  | group (place : Place)
  | args (callee : Callee) (count : Nat) (place : Place)
  | list
  deriving DecidableEq, Repr

structure Reader where
  mode : Mode
  stack : List Frame
  rest : List Char
  deriving DecidableEq, Repr

def Place.after : Place → Mode
  | .left => .afterLeft
  | .right => .andLoop
  | .item => .close

/--
The text after a keyword, where a character counts as one whatever its bytes are.
-/
def word (keyword : String) (rest : List Char) : Option (List Char) :=
  let len := keyword.toList.length
  if (rest.take len).map Char.toLower = keyword.toList.map Char.toLower
      ∧ ((rest.drop len).head?.map isIdentChar).getD false = false then
    some (rest.drop len)
  else
    none

def firstWord : List String → List Char → Option (List Char)
  | [], _ => none
  | keyword :: keywords, rest => (word keyword rest).or (firstWord keywords rest)

/--
The text after `=`, `<>` and the like.
-/
def symbol (rest : List Char) : Option (List Char) :=
  [['<', '='], ['>', '='], ['<', '>'], ['!', '='], ['='], ['<'], ['>']].findSome? (matchStr · rest)

namespace Reader

/--
The arguments of a call are read. Only the calls of `auth` are checked.
-/
def called (callee : Callee) (count : Nat) (place : Place) (stack : List Frame) (rest : List Char)
    : Option Reader :=
  match callee with
  | .auth name =>
    match validateBuiltinCall name count with
    | .ok _ => some ⟨place.after, stack, rest⟩
    | .error _ => none
  | _ => some ⟨place.after, stack, rest⟩

def afterField (place : Place) (stack : List Frame) (first second : String) (rest : List Char) : Option Reader :=
  if first.toList.map Char.toLower = "auth".toList then
    match matchChar '(' rest with
    | some rest => some ⟨.args (.auth second) place, stack, rest⟩
    | none => none
  else if isDomainBuiltin first then
    match matchChar '(' rest with
    | some rest => some ⟨.args .domain place, stack, rest⟩
    | none => some ⟨place.after, stack, rest⟩
  else
    match rest with
    | '.' :: rest => do
      let (_, rest) ← (parseIdentifier rest).toOption
      some ⟨place.after, stack, rest⟩
    | rest => some ⟨place.after, stack, rest⟩

def afterName (place : Place) (stack : List Frame) (first : String) : List Char → Option Reader
  | '.' :: rest => do
    let (second, rest) ← (parseIdentifier rest).toOption
    afterField place stack first second (skipWhitespace rest)
  | '(' :: rest => some ⟨.args (.plain first) place, stack, rest⟩
  | rest => some ⟨place.after, stack, rest⟩

def name (place : Place) (stack : List Frame) (rest : List Char) : Option Reader := do
  let (first, rest) ← (parseIdentifier rest).toOption
  afterName place stack first (skipWhitespace rest)

def token (place : Place) (stack : List Frame) (rest : List Char) : Option Reader :=
  if (rest.head?.map Char.isDigit).getD false then do
    let (_, rest) ← (parseNumber rest).toOption
    some ⟨place.after, stack, rest⟩
  else
    match firstWord ["TRUE", "FALSE", "NULL"] rest with
    | some rest => some ⟨place.after, stack, rest⟩
    | none => name place stack rest

def operand (place : Place) (stack : List Frame) : List Char → Option Reader
  | '(' :: rest => some ⟨.expr, .group place :: stack, rest⟩
  | '-' :: rest => some ⟨.operand place, stack, rest⟩
  | '\'' :: rest => do
    let (_, rest) ← (stringBody rest).toOption
    some ⟨place.after, stack, rest⟩
  | rest => token place stack rest

def afterLeft (stack : List Frame) (rest : List Char) : Option Reader :=
  match word "IS" rest with
  | some rest => some ⟨.afterIs, stack, rest⟩
  | none =>
    match word "NOT" rest with
    | some rest => some ⟨.afterNot, stack, rest⟩
    | none =>
      match word "IN" rest with
      | some rest => some ⟨.list, stack, rest⟩
      | none =>
        match (symbol rest).or (firstWord ["LIKE", "ILIKE"] rest) with
        | some rest => some ⟨.operand .right, stack, rest⟩
        | none => some ⟨.andLoop, stack, rest⟩

def close (stack : List Frame) (rest : List Char) : Option Reader :=
  match stack, rest with
  | .group place :: stack, ')' :: rest => some ⟨place.after, stack, rest⟩
  | .args callee count place :: stack, ')' :: rest => called callee (count + 1) place stack rest
  | .args callee count place :: stack, ',' :: rest =>
    some ⟨.expr, .args callee (count + 1) place :: stack, rest⟩
  | .list :: stack, ')' :: rest => some ⟨.andLoop, stack, rest⟩
  | .list :: stack, ',' :: rest => some ⟨.operand .item, .list :: stack, rest⟩
  | _, _ => none

/--
What is read next, `none` at the end and where the text is refused.
-/
def next (r : Reader) : Option Reader :=
  let rest := skipWhitespace r.rest
  match r.mode with
  | .expr =>
    match word "NOT" rest with
    | some rest => some ⟨.expr, r.stack, rest⟩
    | none => some ⟨.operand .left, r.stack, rest⟩
  | .operand place => operand place r.stack rest
  | .args callee place =>
    match rest with
    | ')' :: rest => called callee 0 place r.stack rest
    | rest => some ⟨.expr, .args callee 0 place :: r.stack, rest⟩
  | .afterLeft => afterLeft r.stack rest
  | .afterIs => some ⟨.null, r.stack, (word "NOT" rest).getD rest⟩
  | .null => (word "NULL" rest).map (fun rest => ⟨.andLoop, r.stack, rest⟩)
  | .afterNot => (word "IN" rest).map (fun rest => ⟨.list, r.stack, rest⟩)
  | .list =>
    match rest with
    | '(' :: rest =>
      match skipWhitespace rest with
      | ')' :: rest => some ⟨.andLoop, r.stack, rest⟩
      | rest => some ⟨.operand .item, .list :: r.stack, rest⟩
    | _ => none
  | .andLoop =>
    match word "AND" rest with
    | some rest => some ⟨.expr, r.stack, rest⟩
    | none => some ⟨.orLoop, r.stack, rest⟩
  | .orLoop =>
    match word "OR" rest with
    | some rest => some ⟨.expr, r.stack, rest⟩
    | none => some ⟨.close, r.stack, rest⟩
  | .close => close r.stack rest

/--
The keywords that are looked for, one after the other until one is there.
-/
def keywords (r : Reader) : List String :=
  let rest := skipWhitespace r.rest
  match r.mode with
  | .expr | .afterIs => ["NOT"]
  | .operand _ =>
    match rest with
    | '(' :: _ | '-' :: _ | '\'' :: _ => []
    | _ => if (rest.head?.map Char.isDigit).getD false then [] else ["TRUE", "FALSE", "NULL"]
  | .afterLeft => if (symbol rest).isSome then ["IS", "NOT", "IN"] else ["IS", "NOT", "IN", "LIKE", "ILIKE"]
  | .null => ["NULL"]
  | .afterNot => ["IN"]
  | .andLoop => ["AND"]
  | .orLoop => ["OR"]
  | _ => []

/--
The call without a qualifier that is closed here, with the number of its arguments.
-/
def plainCall (r : Reader) : Option (String × Nat) :=
  match r.mode, r.stack, skipWhitespace r.rest with
  | .args (.plain name) _, _, ')' :: _ => some (name, 0)
  | .close, .args (.plain name) count _ :: _, ')' :: _ => some (name, count + 1)
  | _, _, _ => none

end Reader

/--
The text is shorter than the bytes, or they end between two of its characters.
-/
def Whole (bytes : Nat) (rest : List Char) : Prop :=
  utf8Len rest < bytes ∨ splitBytes bytes rest ≠ none

instance (bytes : Nat) (rest : List Char) : Decidable (Whole bytes rest) :=
  inferInstanceAs (Decidable (_ ∨ _))

def WholeWords : List String → List Char → Prop
  | [], _ => True
  | keyword :: keywords, rest =>
    Whole keyword.toList.length rest ∧ (word keyword rest = none → WholeWords keywords rest)

/--
The keywords that are looked for here end between two characters.
-/
def Reader.Clear (r : Reader) : Prop :=
  WholeWords r.keywords (skipWhitespace r.rest)

def Reader.CallKnown (r : Reader) : Prop :=
  ∀ call, r.plainCall = some call → KnownCall call.1 call.2

def start (input : String) : Reader :=
  ⟨.expr, [], input.toList⟩

/--
No keyword that is looked for ends inside of a character.
-/
def Clear (input : String) : Prop :=
  ∀ r, Reaches Reader.next (start input) r → r.Clear

/--
Every call without a qualifier is one of an auth builtin with as many arguments as it has.
-/
def CallsKnown (input : String) : Prop :=
  ∀ r, Reaches Reader.next (start input) r → r.CallKnown

end Grammar

end Reactor.Policy
