import ReactorCloud.Data.Policy.Compile
import ReactorCloud.Data.Dialect.Parser
import ReactorCloud.Rust.Double

/-!
This module contains the filters of a query, as in `col=eq.value` or `col=in.(a,b,c)`.
-/

namespace Reactor.Data.Query

open Dialect (lowerChar trimChars)
open Rust (Float64)

inductive FilterOp where
  | eq
  | neq
  | gt
  | gte
  | lt
  | lte
  | like
  | iLike
  | in
  | is
  | cs
  | cd
  | ov
  | fts
  deriving DecidableEq, Repr

namespace FilterOp

def parse (word : List Char) : Option FilterOp :=
  match String.ofList (word.map lowerChar) with
  | "eq" => some .eq
  | "neq" => some .neq
  | "gt" => some .gt
  | "gte" => some .gte
  | "lt" => some .lt
  | "lte" => some .lte
  | "like" => some .like
  | "ilike" => some .iLike
  | "in" => some .in
  | "is" => some .is
  | "cs" => some .cs
  | "cd" => some .cd
  | "ov" => some .ov
  | "fts" => some .fts
  | _ => none

def toSql : FilterOp → String
  | .eq => "="
  | .neq => "<>"
  | .gt => ">"
  | .gte => ">="
  | .lt => "<"
  | .lte => "<="
  | .like => "LIKE"
  | .iLike => "ILIKE"
  | .in => "IN"
  | .is => "IS"
  | .cs => "@>"
  | .cd => "<@"
  | .ov => "&&"
  | .fts => "@@"

end FilterOp

inductive FilterValue where
  | null
  | bool (b : Bool)
  | int (i : Int64)
  | float (x : Float64)
  | string (s : String)
  | list (items : List FilterValue)

structure FilterExpr where
  column : String
  op : FilterOp
  value : FilterValue
  negated : Bool

/--
`s.eq_ignore_ascii_case(word)` for a word in lower case.
-/
def eqIgnoreAsciiCase (s : List Char) (word : String) : Bool :=
  s.map Char.toLower = word.toList

def isWrapped (trimmed : List Char) : Bool :=
  trimmed.head? = some '(' && trimmed.getLast? = some ')'

/--
The items between the parentheses.
-/
def listItems (trimmed : List Char) : List (List Char) :=
  let inner := trimmed.tail.dropLast
  if inner.isEmpty then [] else (inner.splitOn ',').map trimChars

namespace FilterValue

def parse (s : List Char) : FilterValue :=
  if eqIgnoreAsciiCase s "null" then
    .null
  else if eqIgnoreAsciiCase s "true" then
    .bool true
  else if eqIgnoreAsciiCase s "false" then
    .bool false
  else
    match Rust.parseI64 s with
    | some i => .int i
    | none =>
      match Float64.parse s with
      | some x => .float x
      | none => .string (String.ofList s)

def parseList (s : List Char) : Except DataError FilterValue :=
  let trimmed := trimChars s
  if isWrapped trimmed then
    .ok (.list ((listItems trimmed).map parse))
  else
    .error (.invalidFilter "list values must be wrapped in parentheses")

def parseIs (s : List Char) : Except DataError FilterValue :=
  match String.ofList (s.map lowerChar) with
  | "null" => .ok .null
  | "true" => .ok (.bool true)
  | "false" => .ok (.bool false)
  | _ =>
    .error (.invalidFilter
      ("IS operator only accepts null, true, or false, got: " ++ String.ofList s))

end FilterValue

def FilterOp.parseValue (op : FilterOp) (s : List Char) : Except DataError FilterValue :=
  match op with
  | .in => FilterValue.parseList s
  | .is => FilterValue.parseIs s
  | .cs => FilterValue.parseList s
  | .cd => FilterValue.parseList s
  | .ov => FilterValue.parseList s
  | _ => .ok (FilterValue.parse s)

def stripNot (value : List Char) : Bool × List Char :=
  if "not.".toList.isPrefixOf value then (true, value.drop 4) else (false, value)

def parseFilter (column : String) (value : List Char) : Except DataError FilterExpr :=
  let (negated, rest) := stripNot value
  match rest.dropWhile (· ≠ '.') with
  | [] =>
    .error (.invalidFilter ("missing operator in filter: " ++ column ++ "=" ++ String.ofList value))
  | _ :: valueStr =>
    let opStr := rest.takeWhile (· ≠ '.')
    match FilterOp.parse opStr with
    | none => .error (.invalidFilter ("unknown filter operator: " ++ String.ofList opStr))
    | some op => do
      let filterValue ← op.parseValue valueStr
      .ok {
        column, op
        value := filterValue
        negated
      }

end Reactor.Data.Query
