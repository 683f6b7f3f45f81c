import ReactorCloud.Policy.Ast
import ReactorCloud.Rust.Str

/-!
This module contains the auth builtins and the parser of policy expressions. The parser works on the
characters after its position. Its recursion is bounded by fuel, and the slices it takes may fall
inside of a character, where Rust panics.
-/

namespace Reactor.Policy

open Rust.Str (isWhitespace)

inductive AuthBuiltin where
  | userId
  | orgId
  | role
  | hasPermission
  | inOrg
  | email
  | sessionId
  | isAuthenticated
  deriving DecidableEq, Repr

namespace AuthBuiltin

def fromName : String → Option AuthBuiltin
  | "user_id" => some .userId
  | "org_id" => some .orgId
  | "role" => some .role
  | "has_permission" => some .hasPermission
  | "in_org" => some .inOrg
  | "email" => some .email
  | "session_id" => some .sessionId
  | "is_authenticated" => some .isAuthenticated
  | _ => none

def arity : AuthBuiltin → Nat
  | .hasPermission | .inOrg => 1
  | _ => 0

end AuthBuiltin

inductive BuiltinError where
  | unknownBuiltin (name : String)
  | arityMismatch (name : String) (expected got : Nat)
  deriving DecidableEq, Repr

def BuiltinError.toString : BuiltinError → String
  | .unknownBuiltin name => "unknown auth builtin: " ++ name
  | .arityMismatch name expected got =>
    "auth." ++ name ++ " expects " ++ Nat.repr expected ++ " arguments, got " ++ Nat.repr got

def validateBuiltinCall (name : String) (argCount : Nat) : Except BuiltinError AuthBuiltin :=
  match AuthBuiltin.fromName name with
  | none => .error (.unknownBuiltin name)
  | some builtin =>
    if argCount ≠ builtin.arity then
      .error (.arityMismatch name builtin.arity argCount)
    else
      .ok builtin

inductive PolicyParseError where
  | unexpectedToken (token : String)
  | invalidNumber (text : String)
  | unclosedParen
  | unclosedString
  | invalidBuiltin (message : String)
  deriving DecidableEq, Repr

/--
How parsing can fail to return an expression.
-/
inductive ParseFailure where
  | error (e : PolicyParseError)
  | sliced
  | outOfFuel
  deriving DecidableEq, Repr

def unexpected {α : Type} (token : String) : Except ParseFailure α :=
  .error (.error (.unexpectedToken token))

namespace Grammar

def utf8Len (cs : List Char) : Nat :=
  (cs.map Char.utf8Size).sum

/--
Split after a number of bytes, `none` inside of a character.
-/
def splitBytes : Nat → List Char → Option (List Char × List Char)
  | 0, cs => some ([], cs)
  | _, [] => none
  | n, c :: cs =>
    if c.utf8Size ≤ n then
      (splitBytes (n - c.utf8Size) cs).map (fun (before, after) => (c :: before, after))
    else
      none

def skipWhitespace (rest : List Char) : List Char :=
  rest.dropWhile isWhitespace

def isIdentStart (c : Char) : Bool :=
  c.isAlpha || c == '_'

def isIdentChar (c : Char) : Bool :=
  c.isAlphanum || c == '_'

def matchChar (c : Char) : List Char → Option (List Char)
  | d :: rest => if d = c then some rest else none
  | [] => none

def matchStr (s rest : List Char) : Option (List Char) :=
  if s.isPrefixOf rest then some (rest.drop s.length) else none

/--
The characters after a keyword in any case, if it stands here as a word of its own.
-/
def matchKeyword (keyword : String) (rest : List Char) : Except ParseFailure (Option (List Char)) :=
  let len := keyword.toList.length
  if utf8Len rest < len then
    .ok none
  else
    match splitBytes len rest with
    | none => .error .sliced
    | some (potential, after) =>
      if potential.map Char.toLower ≠ keyword.toList.map Char.toLower then
        .ok none
      else if (after.head?.map isIdentChar).getD false then
        .ok none
      else
        .ok (some after)

def tryParseComparisonOp (rest : List Char)
    : Except ParseFailure (Option PolicyBinaryOp × List Char) := do
  let rest := skipWhitespace rest
  if let some rest := matchStr ['<', '='] rest then
    return (some .ltEq, rest)
  if let some rest := matchStr ['>', '='] rest then
    return (some .gtEq, rest)
  if let some rest := matchStr ['<', '>'] rest then
    return (some .notEq, rest)
  if let some rest := matchStr ['!', '='] rest then
    return (some .notEq, rest)
  if let some rest := matchChar '=' rest then
    return (some .eq, rest)
  if let some rest := matchChar '<' rest then
    return (some .lt, rest)
  if let some rest := matchChar '>' rest then
    return (some .gt, rest)
  if let some rest ← matchKeyword "LIKE" rest then
    return (some .like, rest)
  if let some rest ← matchKeyword "ILIKE" rest then
    return (some .iLike, rest)
  return (none, rest)

/--
The rest of a string literal, a doubled quote stands for one.
-/
def stringBody : List Char → Except ParseFailure (List Char × List Char)
  | [] => .error (.error .unclosedString)
  | ['\''] => .ok ([], [])
  | '\'' :: c :: rest =>
    if c = '\'' then
      (stringBody rest).map (fun (value, rest) => ('\'' :: value, rest))
    else
      .ok ([], c :: rest)
  | c :: rest => (stringBody rest).map (fun (value, rest) => (c :: value, rest))

/--
The digits of a number with at most one point, and whether there is one.
-/
def numberBody (hasDot : Bool) : List Char → List Char × Bool × List Char
  | [] => ([], hasDot, [])
  | c :: rest =>
    if c.isDigit then
      let (digits, dot, rest) := numberBody hasDot rest
      (c :: digits, dot, rest)
    else if c = '.' ∧ !hasDot then
      let (digits, dot, rest) := numberBody true rest
      (c :: digits, dot, rest)
    else
      ([], hasDot, c :: rest)

def parseNumber (rest : List Char) : Except ParseFailure (PolicyExpr × List Char) :=
  let (digits, hasDot, rest) := numberBody false rest
  let invalid := .error (.error (.invalidNumber (String.ofList digits)))
  if hasDot then
    match Rust.parseF64 digits with
    | some value => .ok (.literal (.float value), rest)
    | none => invalid
  else
    match Rust.parseI64 digits with
    | some value => .ok (.literal (.int value), rest)
    | none => invalid

def parseIdentifier (rest : List Char) : Except ParseFailure (String × List Char) :=
  match skipWhitespace rest with
  | c :: rest =>
    if isIdentStart c then
      .ok (String.ofList (c :: rest.takeWhile isIdentChar), rest.dropWhile isIdentChar)
    else
      unexpected "expected identifier"
  | [] => unexpected "expected identifier"

def isDomainBuiltin (domain : String) : Bool :=
  String.ofList (domain.toList.map Char.toLower) ∈ ["object", "bucket", "row", "table", "connect"]

-- `IS` has been read.
def parseIsNull (left : PolicyExpr) (rest : List Char)
    : Except ParseFailure (PolicyExpr × List Char) := do
  let (negated, rest) ←
    match ← matchKeyword "NOT" rest with
    | some rest => Except.ok (true, skipWhitespace rest)
    | none => Except.ok (false, rest)
  match ← matchKeyword "NULL" rest with
  | some rest => .ok (.isNull left negated, rest)
  | none => unexpected "expected NULL"

mutual

def parseOrExpr (fuel : Nat) (rest : List Char)
    : Except ParseFailure (PolicyExpr × List Char) :=
  match fuel with
  | 0 => .error .outOfFuel
  | fuel + 1 => do
    let (left, rest) ← parseAndExpr fuel rest
    parseOrLoop fuel left rest

def parseOrLoop (fuel : Nat) (left : PolicyExpr) (rest : List Char)
    : Except ParseFailure (PolicyExpr × List Char) :=
  match fuel with
  | 0 => .error .outOfFuel
  | fuel + 1 => do
    let rest := skipWhitespace rest
    match ← matchKeyword "OR" rest with
    | some rest =>
      let (right, rest) ← parseAndExpr fuel rest
      parseOrLoop fuel (.binaryOp .or left right) rest
    | none => .ok (left, rest)

def parseAndExpr (fuel : Nat) (rest : List Char)
    : Except ParseFailure (PolicyExpr × List Char) :=
  match fuel with
  | 0 => .error .outOfFuel
  | fuel + 1 => do
    let (left, rest) ← parseNotExpr fuel rest
    parseAndLoop fuel left rest

def parseAndLoop (fuel : Nat) (left : PolicyExpr) (rest : List Char)
    : Except ParseFailure (PolicyExpr × List Char) :=
  match fuel with
  | 0 => .error .outOfFuel
  | fuel + 1 => do
    let rest := skipWhitespace rest
    match ← matchKeyword "AND" rest with
    | some rest =>
      let (right, rest) ← parseNotExpr fuel rest
      parseAndLoop fuel (.binaryOp .and left right) rest
    | none => .ok (left, rest)

def parseNotExpr (fuel : Nat) (rest : List Char)
    : Except ParseFailure (PolicyExpr × List Char) :=
  match fuel with
  | 0 => .error .outOfFuel
  | fuel + 1 => do
    let rest := skipWhitespace rest
    match ← matchKeyword "NOT" rest with
    | some rest =>
      let (expr, rest) ← parseNotExpr fuel rest
      .ok (.unaryOp .not expr, rest)
    | none => parseComparison fuel rest

def parseComparison (fuel : Nat) (rest : List Char)
    : Except ParseFailure (PolicyExpr × List Char) :=
  match fuel with
  | 0 => .error .outOfFuel
  | fuel + 1 => do
    let (left, rest) ← parsePrimary fuel rest
    let rest := skipWhitespace rest
    match ← matchKeyword "IS" rest with
    | some rest => parseIsNull left (skipWhitespace rest)
    | none =>
      match ← matchKeyword "NOT" rest with
      | some rest =>
        match ← matchKeyword "IN" (skipWhitespace rest) with
        | some rest =>
          let (list, rest) ← parseList fuel rest
          .ok (.inList left list true, rest)
        | none => unexpected "expected IN after NOT"
      | none =>
        match ← matchKeyword "IN" rest with
        | some rest =>
          let (list, rest) ← parseList fuel rest
          .ok (.inList left list false, rest)
        | none =>
          match ← tryParseComparisonOp rest with
          | (some op, rest) =>
            let (right, rest) ← parsePrimary fuel rest
            .ok (.binaryOp op left right, rest)
          | (none, rest) => .ok (left, rest)

def parsePrimary (fuel : Nat) (rest : List Char)
    : Except ParseFailure (PolicyExpr × List Char) :=
  match fuel with
  | 0 => .error .outOfFuel
  | fuel + 1 => do
    let rest := skipWhitespace rest
    match rest with
    | '(' :: rest =>
      let (expr, rest) ← parseOrExpr fuel rest
      match matchChar ')' (skipWhitespace rest) with
      | some rest => .ok (expr, rest)
      | none => .error (.error .unclosedParen)
    | '-' :: rest =>
      let (expr, rest) ← parsePrimary fuel rest
      .ok (.unaryOp .minus expr, rest)
    | '\'' :: rest =>
      let (value, rest) ← stringBody rest
      .ok (.stringLiteral (String.ofList value), rest)
    | _ =>
      if (rest.head?.map Char.isDigit).getD false then
        parseNumber rest
      else
        match ← matchKeyword "TRUE" rest with
        | some rest => .ok (.boolLiteral true, rest)
        | none =>
          match ← matchKeyword "FALSE" rest with
          | some rest => .ok (.boolLiteral false, rest)
          | none =>
            match ← matchKeyword "NULL" rest with
            | some rest => .ok (.literal .null, rest)
            | none => parseIdentifierOrCall fuel rest

def parseIdentifierOrCall (fuel : Nat) (rest : List Char)
    : Except ParseFailure (PolicyExpr × List Char) :=
  match fuel with
  | 0 => .error .outOfFuel
  | fuel + 1 => do
    let (firstIdent, rest) ← parseIdentifier rest
    match skipWhitespace rest with
    | '.' :: rest =>
      let (secondIdent, rest) ← parseIdentifier rest
      let rest := skipWhitespace rest
      if firstIdent.toList.map Char.toLower = "auth".toList then
        match matchChar '(' rest with
        | none => unexpected "expected ( for auth builtin"
        | some rest =>
          let (args, rest) ← parseArgs fuel rest
          match validateBuiltinCall secondIdent args.length with
          | .error e => .error (.error (.invalidBuiltin e.toString))
          | .ok _ => .ok (.authBuiltin secondIdent args, rest)
      else if isDomainBuiltin firstIdent then
        match matchChar '(' rest with
        | some rest =>
          let (args, rest) ← parseArgs fuel rest
          .ok (.domainBuiltin firstIdent secondIdent args, rest)
        | none => .ok (.domainBuiltin firstIdent secondIdent [], rest)
      else
        match rest with
        | '.' :: rest =>
          -- A third name is read and ignored.
          let (_, rest) ← parseIdentifier rest
          .ok (.qualifiedColumn firstIdent secondIdent, rest)
        | rest => .ok (.qualifiedColumn firstIdent secondIdent, rest)
    | '(' :: rest =>
      -- A call that is not qualified becomes an auth builtin of any name.
      let (args, rest) ← parseArgs fuel rest
      .ok (.authBuiltin firstIdent args, rest)
    | rest => .ok (.column firstIdent, rest)

def parseArgs (fuel : Nat) (rest : List Char)
    : Except ParseFailure (List PolicyExpr × List Char) :=
  match fuel with
  | 0 => .error .outOfFuel
  | fuel + 1 =>
    match skipWhitespace rest with
    | ')' :: rest => .ok ([], rest)
    | rest => parseArgsLoop fuel rest

def parseArgsLoop (fuel : Nat) (rest : List Char)
    : Except ParseFailure (List PolicyExpr × List Char) :=
  match fuel with
  | 0 => .error .outOfFuel
  | fuel + 1 => do
    let (arg, rest) ← parseOrExpr fuel rest
    match skipWhitespace rest with
    | ')' :: rest => .ok ([arg], rest)
    | ',' :: rest =>
      let (args, rest) ← parseArgsLoop fuel rest
      .ok (arg :: args, rest)
    | _ => unexpected "expected , or )"

def parseList (fuel : Nat) (rest : List Char)
    : Except ParseFailure (List PolicyExpr × List Char) :=
  match fuel with
  | 0 => .error .outOfFuel
  | fuel + 1 =>
    match matchChar '(' (skipWhitespace rest) with
    | none => unexpected "expected ( for IN list"
    | some rest =>
      match skipWhitespace rest with
      | ')' :: rest => .ok ([], rest)
      | rest => parseListLoop fuel rest

def parseListLoop (fuel : Nat) (rest : List Char)
    : Except ParseFailure (List PolicyExpr × List Char) :=
  match fuel with
  | 0 => .error .outOfFuel
  | fuel + 1 => do
    let (item, rest) ← parsePrimary fuel rest
    match skipWhitespace rest with
    | ')' :: rest => .ok ([item], rest)
    | ',' :: rest =>
      let (items, rest) ← parseListLoop fuel rest
      .ok (item :: items, rest)
    | _ => unexpected "expected , or )"

end

end Grammar

/--
At most eight calls in a row read no character.
-/
def parsePolicyExpr (input : String) : Except ParseFailure PolicyExpr := do
  let text := input.toList
  let (expr, rest) ← Grammar.parseOrExpr (8 * text.length + 16) text
  match Grammar.skipWhitespace rest with
  | [] => .ok expr
  | rest => unexpected (String.ofList (rest.take 20))

end Reactor.Policy
