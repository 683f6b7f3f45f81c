import ReactorCloud.Policy.Compile
import ReactorCloud.Rust.Json

/-!
This module contains the request context of `reactor-data`, its errors, the policies as they are stored in
`_reactor_data.policies`, their compilation and the check of the rows of an insert against them. The text of a
JSON number with a fraction comes from a library and is a parameter.
-/

namespace Reactor.Data

inductive DataError where
  | tableNotFound (table : String)
  | columnNotFound (column : String)
  | policyDenied (reason : String)
  | invalidFilter (message : String)
  | invalidQuery (message : String)
  | ambiguousEmbed (name : String) (hints : List String)
  deriving DecidableEq, Repr

structure DataCtx where
  auth : AuthCtx
  schema : String

def DataCtx.hasPermission (ctx : DataCtx) (permission : String) : Bool :=
  ctx.auth.hasPermission permission

instance : Policy.PolicyEvalContext DataCtx where
  userId ctx := ctx.auth.userId
  orgId ctx := ctx.auth.activeOrg
  hasPermission := DataCtx.hasPermission
  email ctx := ctx.auth.email
  sessionId _ := none

/-! Policies -/

open Policy (PolicyExpr PolicyScope)

structure StoredPolicy where
  schemaName : String
  tableName : String
  name : String
  scopes : List PolicyScope
  usingExpr : Option PolicyExpr
  checkExpr : Option PolicyExpr
  migrationName : String

/--
Whether a row has the key of a policy. The key is unique.
-/
def StoredPolicy.sameKey (row row' : StoredPolicy) : Bool :=
  row.schemaName = row'.schemaName ∧ row.tableName = row'.tableName ∧ row.name = row'.name

namespace PolicyStore

def getForTable (rows : List StoredPolicy) (schemaName tableName : String) : List StoredPolicy :=
  rows.filter (fun row => row.schemaName = schemaName ∧ row.tableName = tableName)

def getForScope (rows : List StoredPolicy) (schemaName tableName : String) (scope : PolicyScope)
    : List StoredPolicy :=
  (getForTable rows schemaName tableName).filter (fun row => scope ∈ row.scopes)

end PolicyStore
end Reactor.Data

/-! ## Compilation -/

namespace Reactor.Data

open Rust (Json Number)
open Policy

def StoredPolicy.compiled (policy : StoredPolicy) : CompiledPolicy where
  name := policy.name
  usingExpr := policy.usingExpr
  checkExpr := policy.checkExpr

def compileForScope (store : List StoredPolicy) (table : String) (scope : PolicyScope) (ctx : DataCtx)
    : PolicyDecision :=
  if ctx.hasPermission "*" then
    .alwaysAllow
  else
    let policies := PolicyStore.getForScope store ctx.schema table scope
    if policies.isEmpty then
      .alwaysAllow
    else
      compilePolicies (policies.map StoredPolicy.compiled) ctx false

section

variable (floatText : Rat → String)

def numberToString : Number → String
  | .posInt n => Nat.repr n.toNat
  | .negInt n => toString n.toInt
  | .float value _ => floatText value

def valueToEvalResult : Json → EvalResult
  | .null => .residual "NULL"
  | .bool b => .const b
  | .number n => .residual (numberToString floatText n)
  | .string s => .residual (quoted (Rust.Str.doubled '\'' s))
  | _ => .residual "NULL"

-- A fragment becomes a string literal.
def resultToLiteralExpr : EvalResult → PolicyExpr
  | .const b => .boolLiteral b
  | .residual s => .stringLiteral s

def columnResult (rowData : Json) (name : String) : EvalResult :=
  match rowData.get name with
  | some value => valueToEvalResult floatText value
  | none => .residual ("\"" ++ name ++ "\"")

def evaluateWithRow (expr : PolicyExpr) (ctx : DataCtx) (rowData : Json) : EvalResult :=
  match expr with
  | .column name => columnResult floatText rowData name
  | .qualifiedColumn _ column => columnResult floatText rowData column
  | .binaryOp op left right =>
    let leftResult := evaluateWithRow left ctx rowData
    let rightResult := evaluateWithRow right ctx rowData
    evaluate (.binaryOp op (resultToLiteralExpr leftResult) (resultToLiteralExpr rightResult)) ctx
  | expr => evaluate expr ctx

/--
The loop over the policies. An undecided check counts as passed.
-/
def checksPass (policies : List StoredPolicy) (ctx : DataCtx) (rowData : Json) : Bool :=
  match policies with
  | [] => true
  | policy :: policies =>
    match policy.checkExpr with
    | none => checksPass policies ctx rowData
    | some checkExpr =>
      match evaluateWithRow floatText checkExpr ctx rowData with
      | .const true => checksPass policies ctx rowData
      | .const false => false
      | .residual _ => checksPass policies ctx rowData

def checkRow (store : List StoredPolicy) (table : String) (scope : PolicyScope) (ctx : DataCtx)
    (rowData : Json) : Bool :=
  if ctx.hasPermission "*" then
    true
  else
    checksPass floatText (PolicyStore.getForScope store ctx.schema table scope) ctx rowData

structure BatchCheckResult where
  allowedIndices : List Nat
  denied : List (Nat × String)

def checkRowsBatch (store : List StoredPolicy) (table : String) (scope : PolicyScope) (ctx : DataCtx)
    (rows : List Json) : BatchCheckResult :=
  let (allowed, denied) := rows.zipIdx.partition (fun (row, _) => checkRow floatText store table scope ctx row)
  {
    allowedIndices := allowed.map Prod.snd
    denied := denied.map (fun (_, idx) => (idx, "check policy failed"))
  }

/--
The policy phase of `execute_insert`.
-/
def insertPolicyPhase (store : List StoredPolicy) (table : String) (ctx : DataCtx) (rows : List Json)
    : Except DataError Unit :=
  match compileForScope store table .insert ctx with
  | .alwaysDeny reason => .error (.policyDenied reason)
  | .alwaysAllow => .ok ()
  | .conditional _ =>
    match (checkRowsBatch floatText store table .insert ctx rows).denied with
    | [] => .ok ()
    | (idx, reason) :: _ =>
      .error (.policyDenied ("row " ++ Nat.repr idx ++ " failed check policy: " ++ reason))

end

end Reactor.Data
