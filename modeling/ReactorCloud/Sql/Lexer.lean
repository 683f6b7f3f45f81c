/-!
This module contains the tokens of SQL and the lexer, an automaton that reads a text character by
character. Quoted tokens keep the text between their quotes as it stands, quotes inside are doubled. Names
are what words and quoted identifiers stand for.
-/

namespace Sql

inductive Token where
  | word (s : String)
  | ident (raw : String)
  | str (raw : String)
  | num (s : String)
  | param (digits : String)
  | op (s : String)
  | punct (c : Char)
  deriving DecidableEq, Repr

inductive LexState where
  | start
  | word (acc : List Char)
  | num (acc : List Char) (dot : Bool)
  | dollar
  | param (acc : List Char)
  | ident (acc : List Char)
  | identQuote (acc : List Char)
  | str (acc : List Char)
  | strQuote (acc : List Char)
  | op (acc : List Char)
  | lineComment
  | blockComment (depth : Nat)
  | blockStar (depth : Nat)
  | blockSlash (depth : Nat)
  deriving DecidableEq, Repr

namespace Lexer

abbrev Step := Option (List Token × LexState)

def isSpace (c : Char) : Bool :=
  c ∈ [' ', '\t', '\n', '\r', '\x0b', '\x0c']

def isWordStart (c : Char) : Bool :=
  c.isAlpha || c == '_' || 128 ≤ c.toNat

def isWordChar (c : Char) : Bool :=
  isWordStart c || c.isDigit || c == '$'

def isPunct (c : Char) : Bool :=
  c ∈ ['(', ')', ',', ';', '.', '[', ']', ':']

def isOpChar (c : Char) : Bool :=
  c ∈ ['+', '-', '*', '/', '<', '>', '=', '~', '!', '@', '#', '%', '^', '&', '|', '?']

def textOf (acc : List Char) : String :=
  String.ofList acc.reverse

def wordOf (acc : List Char) : Token :=
  .word (String.ofList (acc.reverse.map Char.toLower))

/--
A trailing `+` or `-` only belongs to an operator of more than one character if that has one of the
characters which no standard operator has.
-/
def splitOp : List Char → List Token
  | [] => []
  | [c] => [.op (String.ofList [c])]
  | c :: acc =>
    if (c == '+' || c == '-') && !acc.any (· ∈ ['~', '!', '@', '#', '%', '^', '&', '|', '?']) then
      splitOp acc ++ [.op (String.ofList [c])]
    else
      [.op (textOf (c :: acc))]

def startStep (c : Char) : Step :=
  if isSpace c then some ([], .start)
  else if c == '"' then some ([], .ident [])
  else if c == '\'' then some ([], .str [])
  else if isWordStart c then some ([], .word [c])
  else if c.isDigit then some ([], .num [c] false)
  else if c == '$' then some ([], .dollar)
  else if isPunct c then some ([.punct c], .start)
  else if isOpChar c then some ([], .op [c])
  else none

/--
The tokens a state stands for if the text is cut here, `none` inside of a token or comment.
-/
def flush : LexState → Option (List Token)
  | .start => some []
  | .word acc => some [wordOf acc]
  | .num acc _ => some [.num (textOf acc)]
  | .param acc => some [.param (textOf acc)]
  | .identQuote acc => some [.ident (textOf acc)]
  | .strQuote acc => some [.str (textOf acc)]
  | .op acc => some (splitOp acc)
  | _ => none

def emit (toks : List Token) (next : Step) : Step :=
  next.map (fun (out, state) => (toks ++ out, state))

local instance lawfulBEq_chars : LawfulBEq (List Char) := inferInstance

-- A string literal that follows one of these words directly has escapes of its own.
def isStringPrefix (acc : List Char) : Bool :=
  acc ∈ [['e'], ['E'], ['b'], ['B'], ['x'], ['X'], ['n'], ['N']]

def step (state : LexState) (c : Char) : Step :=
  match state with
  | .start => startStep c
  | .word acc =>
    if isWordChar c then some ([], .word (c :: acc))
    else if c == '\'' && isStringPrefix acc then none
    else emit [wordOf acc] (startStep c)
  | .num acc dot =>
    if c.isDigit then some ([], .num (c :: acc) dot)
    else if c == '.' && !dot then some ([], .num (c :: acc) true)
    else if isWordStart c then none
    else emit [.num (textOf acc)] (startStep c)
  | .dollar => if c.isDigit then some ([], .param [c]) else none
  | .param acc =>
    if c.isDigit then some ([], .param (c :: acc))
    else if isWordStart c then none
    else emit [.param (textOf acc)] (startStep c)
  | .ident acc => if c == '"' then some ([], .identQuote acc) else some ([], .ident (c :: acc))
  | .identQuote acc =>
    if c == '"' then some ([], .ident (c :: '"' :: acc))
    else emit [.ident (textOf acc)] (startStep c)
  | .str acc => if c == '\'' then some ([], .strQuote acc) else some ([], .str (c :: acc))
  | .strQuote acc =>
    if c == '\'' then some ([], .str (c :: '\'' :: acc))
    else emit [.str (textOf acc)] (startStep c)
  | .op acc =>
    if acc.head? == some '-' && c == '-' then some (splitOp acc.tail, .lineComment)
    else if acc.head? == some '/' && c == '*' then some (splitOp acc.tail, .blockComment 0)
    else if isOpChar c then some ([], .op (c :: acc))
    else emit (splitOp acc) (startStep c)
  | .lineComment => some ([], if c == '\n' || c == '\r' then .start else .lineComment)
  | .blockComment depth =>
    if c == '*' then some ([], .blockStar depth)
    else if c == '/' then some ([], .blockSlash depth)
    else some ([], .blockComment depth)
  | .blockStar depth =>
    if c == '/' then some ([], if depth = 0 then .start else .blockComment (depth - 1))
    else if c == '*' then some ([], .blockStar depth)
    else some ([], .blockComment depth)
  | .blockSlash depth =>
    if c == '*' then some ([], .blockComment (depth + 1))
    else if c == '/' then some ([], .blockSlash depth)
    else some ([], .blockComment depth)

def run (state : LexState) : List Char → Step
  | [] => some ([], state)
  | c :: cs =>
    match step state c with
    | none => none
    | some (toks, state) => emit toks (run state cs)

end Lexer

open Lexer

/--
The tokens of a text. A line comment may end with the text, everything else has to be complete.
-/
def lex (text : String) : Option (List Token) :=
  match run .start text.toList with
  | none => none
  | some (toks, .lineComment) => some toks
  | some (toks, state) => (flush state).map (toks ++ ·)

/-! Names -/

/--
The words of Postgres that are not the name of a column unless they are quoted.
-/
def reservedWords : List String :=
  ["all", "analyse", "analyze", "and", "any", "array", "as", "asc", "asymmetric", "authorization",
    "binary", "both", "case", "cast", "check", "collate", "collation", "column", "concurrently",
    "constraint", "create", "cross", "current_catalog", "current_date", "current_role",
    "current_schema", "current_time", "current_timestamp", "current_user", "default", "deferrable",
    "desc", "distinct", "do", "else", "end", "except", "false", "fetch", "for", "foreign", "freeze",
    "from", "full", "grant", "group", "having", "ilike", "in", "initially", "inner", "intersect",
    "into", "is", "isnull", "join", "lateral", "leading", "left", "like", "limit", "localtime",
    "localtimestamp", "natural", "not", "notnull", "null", "offset", "on", "only", "or", "order",
    "outer", "overlaps", "placing", "primary", "references", "returning", "right", "select",
    "session_user", "similar", "some", "symmetric", "system_user", "table", "tablesample", "then",
    "to", "trailing", "true", "union", "unique", "user", "using", "variadic", "verbose", "when",
    "where", "window", "with"]

/--
The text between two quotes with its doubled quotes made single.
-/
def unescape (q : Char) : List Char → List Char
  | [] => []
  | [c] => [c]
  | c :: d :: cs => if c = q ∧ d = q then q :: unescape q cs else c :: unescape q (d :: cs)

def unescaped (q : Char) (raw : String) : String :=
  String.ofList (unescape q raw.toList)

/--
The name a text stands for if it is a single identifier.
-/
def readIdent (text : String) : Option String :=
  match lex text with
  | some [.word w] => if w ∈ reservedWords then none else some w
  | some [.ident raw] => some (unescaped '"' raw)
  | _ => none

end Sql
