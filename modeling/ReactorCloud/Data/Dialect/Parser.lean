import ReactorCloud.Data.Dialect.Convert

/-!
This module contains the parsing of a migration into its ordinary statements, which `sqlparser`
reads, and its policy statements, which a scanner of its own takes out before, and the lint pass over them.
-/

namespace Reactor.Data.Dialect

open Rust.Str (trimStart trimEnd isWhitespace)

/--
The character classes of Unicode that Rust has and Lean lacks.
-/
structure Unicode where
  isAlphabetic : Char → Bool
  isNumeric : Char → Bool
  alphabetic_ascii : ∀ c : Char, c.toNat < 128 → isAlphabetic c = c.isAlpha
  numeric_ascii : ∀ c : Char, c.toNat < 128 → isNumeric c = c.isDigit
  alphabetic_whitespace : ∀ c, isWhitespace c = true → isAlphabetic c = false
  numeric_whitespace : ∀ c, isWhitespace c = true → isNumeric c = false

/--
The classes without the characters outside of ASCII.
-/
def Unicode.ascii : Unicode where
  isAlphabetic := Char.isAlpha
  isNumeric := Char.isDigit
  alphabetic_ascii _ _ := rfl
  numeric_ascii _ _ := rfl
  alphabetic_whitespace c h := by
    simp only [isWhitespace, Bool.or_eq_true, Bool.and_eq_true, decide_eq_true_eq, beq_iff_eq] at h
    rw [← Bool.not_eq_true, Rust.isAlpha_iff]
    omega
  numeric_whitespace c h := by
    simp only [isWhitespace, Bool.or_eq_true, Bool.and_eq_true, decide_eq_true_eq, beq_iff_eq,
      Char.toNat] at h
    rw [← Bool.not_eq_true, Char.isDigit_iff_toNat]
    have h0 : '0'.toNat = 48 := rfl
    have h9 : '9'.toNat = 57 := rfl
    simp only [Char.toNat] at *
    omega

/--
How parsing can fail, with an error or by slicing a text inside of a character.
-/
inductive Failure where
  | error (e : ParseError)
  | sliced
  | outOfFuel
  deriving DecidableEq, Repr

def invalidSyntax {α : Type} (message : String) : Except Failure α :=
  .error (.error (.invalidSyntax message))

def trimChars (s : List Char) : List Char :=
  trimEnd (trimStart s)

/--
The lower case form of a character. Apart from the ASCII letters only the Kelvin sign has one that is
an ASCII letter, and the others never match a keyword.
-/
def lowerChar (c : Char) : Char :=
  if c = '\u212a' then 'k' else c.toLower

def startsWithLower (keyword : String) (s : List Char) : Bool :=
  keyword.toList.isPrefixOf (s.map lowerChar)

/--
`&s[n..]`
-/
def dropBytes : Nat → List Char → Except Failure (List Char)
  | 0, cs => .ok cs
  | _, [] => .error .sliced
  | n, c :: cs => if c.utf8Size ≤ n then dropBytes (n - c.utf8Size) cs else .error .sliced

/--
`&s[..n]`
-/
def takeBytes : Nat → List Char → Except Failure (List Char)
  | 0, _ => .ok []
  | _, [] => .error .sliced
  | n, c :: cs =>
    if c.utf8Size ≤ n then
      (takeBytes (n - c.utf8Size) cs).map (c :: ·)
    else
      .error .sliced

section

variable (U : Unicode)

def isIdentChar (c : Char) : Bool :=
  U.isAlphabetic c || U.isNumeric c || c == '_'

def parseIdentifier (s : List Char) : Except Failure (List Char × List Char) :=
  let s := trimChars s
  let ident := s.takeWhile (isIdentChar U)
  if ident.isEmpty then
    invalidSyntax "expected identifier"
  else
    .ok (ident, s.dropWhile (isIdentChar U))

def scopeOfWord (word : List Char) : Except Failure PolicyScope :=
  match String.ofList (word.map lowerChar) with
  | "select" => .ok .select
  | "insert" => .ok .insert
  | "update" => .ok .update
  | "delete" => .ok .delete
  | other => invalidSyntax ("unknown scope: " ++ other)

def parseScopes (fuel : Nat) (rest : List Char) : Except Failure (List PolicyScope × List Char) :=
  match fuel with
  | 0 => .error .outOfFuel
  | fuel + 1 => do
    let (word, after) ← parseIdentifier U rest
    let scope ← scopeOfWord word
    match trimChars after with
    | ',' :: rest =>
      let (scopes, rest) ← parseScopes fuel (trimChars rest)
      .ok (scope :: scopes, rest)
    | rest => .ok ([scope], rest)

/--
The index of the character that closes the first parenthesis.
-/
def closingIndex (depth index : Nat) : List Char → Option Nat
  | [] => none
  | '(' :: cs => closingIndex (depth + 1) (index + 1) cs
  | ')' :: cs => if depth = 1 then some index else closingIndex (depth - 1) (index + 1) cs
  | _ :: cs => closingIndex depth (index + 1) cs

-- The index counts characters and is used to slice bytes.
def extractParens (s : List Char) : Except Failure (List Char × List Char) :=
  match s with
  | '(' :: _ =>
    match closingIndex 0 0 s with
    | none => invalidSyntax "unmatched parentheses"
    | some endIdx => do
      let content ← takeBytes (endIdx - 1) (s.drop 1)
      let rest ← dropBytes (endIdx + 1) s
      .ok (content, rest)
  | _ => invalidSyntax "expected '('"

def parseExpr (s : List Char) : Expr :=
  .raw (String.ofList (trimChars s))

/--
An optional `keyword (...)`, the two blocks of `parse_using_check`.
-/
def parseClause (keyword : String) (rest : List Char) : Except Failure (Option Expr × List Char) :=
  if startsWithLower keyword rest then do
    let rest ← dropBytes 5 rest
    let rest := trimChars rest
    if rest.head? ≠ some '(' then
      invalidSyntax ("expected '(' after " ++ keyword)
    else
      let (content, after) ← extractParens rest
      .ok (some (parseExpr content), trimChars after)
  else
    .ok (none, rest)

def parseUsingCheck (s : List Char) : Except Failure (Option Expr × Option Expr × List Char) := do
  let (usingExpr, rest) ← parseClause "using" (trimChars s)
  let (checkExpr, rest) ← parseClause "check" rest
  .ok (usingExpr, checkExpr, rest)

/--
`text.splitn(2, char::is_whitespace)`, where the second part is missing without a white space.
-/
def splitWord (text : List Char) : List Char × List Char :=
  let isWord := fun c => !isWhitespace c
  (text.takeWhile isWord, (text.dropWhile isWord).drop 1)

def trimEndSemicolons (s : List Char) : List Char :=
  (s.reverse.dropWhile (· = ';')).reverse

def isPolicyWord (word : List Char) : Bool :=
  word.map lowerChar = "policy".toList

/--
Read `keyword`, which ends with a space.
-/
def expectWord (keyword message : String) (rest : List Char) : Except Failure (List Char) :=
  let rest := trimChars rest
  if startsWithLower keyword rest then
    (dropBytes keyword.length rest).map trimChars
  else
    invalidSyntax message

def parsePolicyStmt (text : List Char) : Except Failure PolicyStmt := do
  let text := trimChars (trimEndSemicolons (trimChars text))
  let (word, rest) := splitWord text
  if !isPolicyWord word then
    invalidSyntax "expected 'policy'"
  else
    let (name, rest) ← parseIdentifier U (trimChars rest)
    let rest ← expectWord "on " "expected 'on'" rest
    let (table, rest) ← parseIdentifier U rest
    let rest ← expectWord "for " "expected 'for'" rest
    let (scopes, rest) ← parseScopes U (rest.length + 1) (trimChars rest)
    -- What follows the clauses is not looked at.
    let (usingExpr, checkExpr, _) ← parseUsingCheck rest
    .ok {
      name := String.ofList name
      table := String.ofList table
      scopes, usingExpr, checkExpr
    }

/--
What the scanner is reading. The source reads a word in an inner loop.
-/
inductive ScanMode where
  | sql
  | word (text : List Char)
  | policy (text : List Char)

/--
The text without the policy statements, and these. The end of the text ends every mode.
-/
def scanPolicies (mode : ScanMode) : List Char → Except Failure (List Char × List PolicyStmt)
  | [] =>
    match mode with
    | .sql => .ok ([], [])
    | .word word => .ok (if isPolicyWord word then [] else word, [])
    | .policy _ => .ok ([], [])
  | c :: cs =>
    match mode with
    | .sql =>
      if U.isAlphabetic c then
        scanPolicies (.word [c]) cs
      else do
        let (sql, policies) ← scanPolicies .sql cs
        .ok (c :: sql, policies)
    | .word word =>
      if isIdentChar U c then
        scanPolicies (.word (word ++ [c])) cs
      else if isPolicyWord word then
        if c = ';' then do
          let policy ← parsePolicyStmt U (word ++ [c])
          let (sql, policies) ← scanPolicies .sql cs
          .ok (sql, policy :: policies)
        else
          scanPolicies (.policy (word ++ [c])) cs
      else do
        let (sql, policies) ← scanPolicies .sql cs
        .ok (word ++ c :: sql, policies)
    | .policy text =>
      if c = ';' then do
        let policy ← parsePolicyStmt U (text ++ [c])
        let (sql, policies) ← scanPolicies .sql cs
        .ok (sql, policy :: policies)
      else
        scanPolicies (.policy (text ++ [c])) cs

def extractPolicies (sql : List Char) : Except Failure (List Char × List PolicyStmt) :=
  scanPolicies U .sql sql

/--
The parser of `sqlparser` is a parameter, its error is the text of the message.
-/
def parseMigration (parseSql : String → Except String (List SqlParser.Statement)) (sql : String)
    : Except Failure Migration := do
  let (sqlWithoutPolicies, policies) ← extractPolicies U sql.toList
  match parseSql (String.ofList sqlWithoutPolicies) with
  | .error message => .error (.error (.sql message))
  | .ok spStatements =>
    match convertStatements spStatements with
    | .error e => .error (.error e)
    | .ok statements => .ok ⟨statements ++ policies.map Statement.policy⟩

end

/-! ## The lint pass -/

inductive LintError where
  | crossSchemaReference (name : String)
  | withRecursive
  deriving DecidableEq, Repr

def lintRawSql (sql : String) : Except LintError Unit :=
  if (sql.toList.map lowerChar).tails.any ("with recursive".toList).isPrefixOf then
    .error .withRecursive
  else
    .ok ()

mutual

def lintExpr : Expr → Except LintError Unit
  | .binaryOp left _ right => do
    lintExpr left
    lintExpr right
  | .unaryOp _ expr => lintExpr expr
  | .functionCall _ args => lintExprs args
  | .isNull expr _ => lintExpr expr
  | .inList expr list _ => do
    lintExpr expr
    lintExprs list
  | .subquery sql => lintRawSql sql
  | .raw sql => lintRawSql sql
  | _ => .ok ()

def lintExprs : List Expr → Except LintError Unit
  | [] => .ok ()
  | e :: es => do
    lintExpr e
    lintExprs es

end

def lintOption : Option Expr → Except LintError Unit
  | some expr => lintExpr expr
  | none => .ok ()

def lintColumnConstraint : ColumnConstraint → Except LintError Unit
  | .check expr => lintExpr expr
  | _ => .ok ()

def lintColumnDef (col : ColumnDef) : Except LintError Unit := do
  lintOption col.default
  col.constraints.forM lintColumnConstraint

def lintCreateTable (ct : CreateTable) : Except LintError Unit := do
  match Rust.Str.splitOnChar '.' ct.name with
  | [schemaName, _] => if schemaName ≠ "public" then throw (.crossSchemaReference ct.name)
  | _ => pure ()
  ct.columns.forM lintColumnDef

-- All data types are valid, only the body of a function is checked.
def lintFunction (f : CreateFunction) : Except LintError Unit :=
  lintRawSql f.body

def lintPolicy (p : PolicyStmt) : Except LintError Unit := do
  lintOption p.usingExpr
  lintOption p.checkExpr

def lintStatement : Statement → Except LintError Unit
  | .createTable ct => lintCreateTable ct
  | .createIndex ci => lintOption ci.whereClause
  | .alterTableAddColumn _ column => lintColumnDef column
  | .createFunction f => lintFunction f
  | .policy p => lintPolicy p
  | _ => .ok ()

end Reactor.Data.Dialect
