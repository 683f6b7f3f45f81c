import ReactorCloud.Data.Query.Filter

/-!
This module contains the builder of the SQL statements of a query and their parameters.
-/

namespace Reactor.Data.Execute

open Query (FilterExpr FilterOp FilterValue)
open Policy (PolicyDecision)
open Rust (Float64 Json Number Uuid)
open Rust.Str (joinWith)

inductive SqlValue where
  | null
  | bool (b : Bool)
  | int (i : Int64)
  | float (x : Float64)
  | text (s : String)
  | uuid (id : Uuid)
  | json (value : Json)

inductive BuildError where
  | data (e : DataError)
  -- a foreign key without columns
  | panicked

structure EmbedSpec (Column : Type) where
  name : String
  fkHint : Option String
  columns : List Column
  aliasName : Option String

inductive SelectColumn where
  | all
  | column (name : String)
  | aliased (aliasName column : String)
  | embed (spec : EmbedSpec SelectColumn)

inductive OrderDirection where
  | asc
  | desc

def OrderDirection.asSql : OrderDirection → String
  | .asc => "ASC"
  | .desc => "DESC"

inductive NullsPosition where
  | first
  | last

def NullsPosition.asSql : NullsPosition → String
  | .first => "NULLS FIRST"
  | .last => "NULLS LAST"

structure OrderColumn where
  column : String
  direction : OrderDirection
  nulls : Option NullsPosition

structure Pagination where
  limit : UInt32
  offset : UInt32

structure QueryPlan where
  select : List SelectColumn
  filters : List FilterExpr
  order : List OrderColumn
  pagination : Pagination
  policyPredicate : Option String

inductive ReturnMode where
  | representation
  | minimal
  | headersOnly
  deriving DecidableEq

inductive Resolution where
  | mergeDuplicates
  | ignoreDuplicates
  deriving DecidableEq

structure Prefer where
  returnMode : ReturnMode
  resolution : Resolution

structure ForeignKeyInfo where
  name : String
  columns : List String
  refTable : String
  refColumns : List String

structure TableSnapshot where
  schema : String
  name : String
  columns : List String
  primaryKey : List String
  foreignKeys : List ForeignKeyInfo

inductive EmbedDirection where
  | toOne
  | toMany

structure ResolvedEmbed where
  spec : EmbedSpec SelectColumn
  fk : ForeignKeyInfo
  refTable : TableSnapshot
  direction : EmbedDirection
  nested : List ResolvedEmbed
  sqlAlias : String

/-! Values -/

def Number.asI64 : Number → Option Int64
  | .posInt n => if n.toNat < 2 ^ 63 then some n.toInt64 else none
  | .negInt n => some n
  | .float .. => none

def textToSql (s : String) : SqlValue :=
  match Uuid.parseStr s with
  | some id => .uuid id
  | none => .text s

def jsonToSqlValue : Option Json → SqlValue
  | none => .null
  | some .null => .null
  | some (.bool b) => .bool b
  | some (.number n) =>
    match Number.asI64 n with
    | some i => .int i
    | none => .float (.of (.of n.asF64))
  | some (.string s) => textToSql s
  | some value => .json value

def filterValueToSql : FilterValue → SqlValue
  | .null => .null
  | .bool b => .bool b
  | .int i => .int i
  | .float x => .float x
  | .string s => textToSql s
  -- lists other than those of `IN` also end here
  | .list _ => .null

/-! Parts of a statement, whose columns may have the alias of a table before them -/

def quoted (name : String) : String :=
  "\"" ++ name ++ "\""

def aliasPrefix (aliasName : String) : String :=
  quoted aliasName ++ "."

def placeholder (n : Nat) : String :=
  "$" ++ Nat.repr n

def isExpr (col : String) (negated : Bool) (value : String) : String :=
  col ++ (if negated then " IS NOT " else " IS ") ++ value

def buildFilterExprWith (pre : String) (filter : FilterExpr) (paramOffset : Nat)
    : Except BuildError (String × List SqlValue) :=
  let col := pre ++ quoted filter.column
  match filter.op with
  | .is =>
    match filter.value with
    | .null => .ok (isExpr col filter.negated "NULL", [])
    | .bool true => .ok (isExpr col filter.negated "TRUE", [])
    | .bool false => .ok (isExpr col filter.negated "FALSE", [])
    | _ => .error (.data (.invalidFilter "IS requires null/true/false"))
  | .in =>
    match filter.value with
    | .list items =>
      let placeholders := (List.range items.length).map (fun i => placeholder (paramOffset + (i + 1)))
      let op := if filter.negated then " NOT IN (" else " IN ("
      .ok (col ++ op ++ joinWith ", " placeholders ++ ")", items.map filterValueToSql)
    | _ => .error (.data (.invalidFilter "IN requires a list"))
  | op =>
    let expr := col ++ " " ++ op.toSql ++ " " ++ placeholder (paramOffset + 1)
    .ok (if filter.negated then "NOT (" ++ expr ++ ")" else expr, [filterValueToSql filter.value])

def buildFilterExpr : FilterExpr → Nat → Except BuildError (String × List SqlValue) :=
  buildFilterExprWith ""

def buildFilterExprAliased (filter : FilterExpr) (paramOffset : Nat) (aliasName : String)
    : Except BuildError (String × List SqlValue) :=
  buildFilterExprWith (aliasPrefix aliasName) filter paramOffset

def whereParts (pre : String)
    : List FilterExpr → Nat → Except BuildError (List String × List SqlValue)
  | [], _ => .ok ([], [])
  | filter :: filters, paramOffset => do
    let (expr, filterParams) ← buildFilterExprWith pre filter paramOffset
    let (parts, params) ← whereParts pre filters (paramOffset + filterParams.length)
    .ok (expr :: parts, filterParams ++ params)

def buildWhereWith (pre : String) (filters : List FilterExpr) (paramOffset : Nat)
    : Except BuildError (String × List SqlValue) := do
  let (parts, params) ← whereParts pre filters paramOffset
  .ok (joinWith " AND " parts, params)

/--
The `WHERE` clause of the filters and the policy predicate.
-/
def whereClause (pre : String) (plan : QueryPlan) (paramOffset : Nat)
    : Except BuildError (String × List SqlValue) :=
  let policy := plan.policyPredicate.toList.map (fun policy => "(" ++ policy ++ ")")
  match plan.filters, policy with
  | [], [] => .ok ("", [])
  | [], policy => .ok (" WHERE " ++ joinWith " AND " policy, [])
  | filters, policy => do
    let (clause, params) ← buildWhereWith pre filters paramOffset
    .ok (" WHERE " ++ joinWith " AND " (clause :: policy), params)

def orderPart (pre : String) (o : OrderColumn) : String :=
  let part := pre ++ quoted o.column ++ " " ++ o.direction.asSql
  match o.nulls with
  | some nulls => part ++ " " ++ nulls.asSql
  | none => part

def orderClause (pre : String) (order : List OrderColumn) : String :=
  if order.isEmpty then "" else " ORDER BY " ++ joinWith ", " (order.map (orderPart pre))

def limitClause (pagination : Pagination) : String :=
  " LIMIT " ++ Nat.repr pagination.limit.toNat
    ++ (if 0 < pagination.offset then " OFFSET " ++ Nat.repr pagination.offset.toNat else "")

def SelectColumn.isAll : SelectColumn → Bool
  | .all => true
  | _ => false

def SelectColumn.isEmbed : SelectColumn → Bool
  | .embed _ => true
  | _ => false

-- Embeds are left out before.
def selectColumnText (pre : String) : SelectColumn → String
  | .all => pre ++ "*"
  | .column name => pre ++ quoted name
  | .aliased aliasName column => pre ++ quoted column ++ " AS " ++ quoted aliasName
  | .embed _ => ""

def buildSelectColumnsWith (pre : String) (columns : List SelectColumn) : String :=
  let nonEmbedColumns := columns.filter (!·.isEmbed)
  if columns.any SelectColumn.isAll || nonEmbedColumns.isEmpty then
    pre ++ "*"
  else
    joinWith ", " (nonEmbedColumns.map (selectColumnText pre))

def buildSelectColumns : List SelectColumn → String :=
  buildSelectColumnsWith ""

def buildSelectColumnsAliased (columns : List SelectColumn) (aliasName : String) : String :=
  buildSelectColumnsWith (aliasPrefix aliasName) columns

def returningClause (prefer : Prefer) (plan : QueryPlan) : String :=
  if prefer.returnMode = .representation then " RETURNING " ++ buildSelectColumns plan.select else ""

/-! Embedded resources -/

def embedColumnJson : SelectColumn → Option String
  | .all => none
  | .column name => some ("'" ++ name ++ "', " ++ quoted name)
  | .aliased aliasName column => some ("'" ++ aliasName ++ "', " ++ quoted column)
  | .embed _ => none

def buildEmbedColumnsJson (columns : List SelectColumn) : String :=
  match columns.filterMap embedColumnJson with
  | [] => "'*', to_jsonb(*)"
  | parts => joinWith ", " parts

def joinCondition (embed : ResolvedEmbed) (parentAlias : String) : Except BuildError String :=
  match embed.fk.columns, embed.fk.refColumns with
  | fkCol :: _, refCol :: _ =>
    let table := quoted embed.refTable.schema ++ "." ++ quoted embed.refTable.name ++ "."
    let parent := " = " ++ quoted parentAlias ++ "."
    match embed.direction with
    | .toOne => .ok (table ++ quoted refCol ++ parent ++ quoted fkCol)
    | .toMany => .ok (table ++ quoted fkCol ++ parent ++ quoted refCol)
  | _, _ => .error .panicked

def embedClosing (embed : ResolvedEmbed) : String :=
  ") AS " ++ quoted embed.sqlAlias ++ " ON true"

/--
The subquery of an embed with the conditions of its policy.
-/
def embedSubquery (embed : ResolvedEmbed) (parentAlias : String) (policy : List String)
    : Except BuildError String := do
  let condition ← joinCondition embed parentAlias
  let columnsJson := buildEmbedColumnsJson embed.spec.columns
  let source := " FROM " ++ quoted embed.refTable.schema ++ "." ++ quoted embed.refTable.name
    ++ " WHERE " ++ joinWith " AND " (condition :: policy)
  match embed.direction with
  | .toOne =>
    .ok ("LEFT JOIN LATERAL (SELECT jsonb_build_object(" ++ columnsJson ++ ") AS data" ++ source
      ++ " LIMIT 1" ++ embedClosing embed)
  | .toMany =>
    .ok ("LEFT JOIN LATERAL (SELECT COALESCE(jsonb_agg(jsonb_build_object(" ++ columnsJson
      ++ ")), '[]'::jsonb) AS data" ++ source ++ embedClosing embed)

/--
The decision about the embedded table is compiled before.
-/
def buildEmbedLateral (embed : ResolvedEmbed) (parentAlias : String) (decision : PolicyDecision)
    : Except BuildError String :=
  match decision with
  | .alwaysDeny reason =>
    .ok ("LEFT JOIN LATERAL (SELECT NULL::jsonb AS data WHERE false" ++ embedClosing embed
      ++ " /* policy denied: " ++ reason ++ " */")
  | .alwaysAllow => embedSubquery embed parentAlias []
  | .conditional sqlFragment => embedSubquery embed parentAlias ["(" ++ sqlFragment ++ ")"]

def embedColumn (embed : ResolvedEmbed) : String :=
  ", " ++ quoted embed.sqlAlias ++ ".data AS " ++ quoted (embed.spec.aliasName.getD embed.spec.name)

/-! Statements -/

structure SqlBuilder where
  schema : String
  table : String

namespace SqlBuilder

variable (b : SqlBuilder)

def qualifiedTable : String :=
  quoted b.schema ++ "." ++ quoted b.table

def buildSelect (plan : QueryPlan) : Except BuildError (String × List SqlValue) := do
  let (clause, params) ← whereClause "" plan 0
  .ok ("SELECT " ++ buildSelectColumns plan.select ++ " FROM " ++ b.qualifiedTable ++ clause
    ++ orderClause "" plan.order ++ limitClause plan.pagination, params)

def embedLaterals (decide : String → Except DataError PolicyDecision)
    : List ResolvedEmbed → Except BuildError String
  | [] => .ok ""
  | embed :: embeds => do
    let decision ← (decide embed.refTable.name).mapError BuildError.data
    let lateral ← buildEmbedLateral embed "base" decision
    let laterals ← embedLaterals decide embeds
    .ok (" " ++ lateral ++ laterals)

/--
The policy of an embedded table comes from the store and is a parameter.
-/
def buildSelectWithEmbeds (plan : QueryPlan) (embeds : List ResolvedEmbed)
    (decide : String → Except DataError PolicyDecision) : Except BuildError (String × List SqlValue) := do
  let laterals ← embedLaterals decide embeds
  let (clause, params) ← whereClause (aliasPrefix "base") plan 0
  .ok ("SELECT " ++ buildSelectColumnsAliased plan.select "base" ++ joinWith "" (embeds.map embedColumn)
    ++ " FROM " ++ b.qualifiedTable ++ " AS " ++ quoted "base" ++ laterals ++ clause
    ++ orderClause (aliasPrefix "base") plan.order ++ limitClause plan.pagination, params)

def buildCount (plan : QueryPlan) : Except BuildError (String × List SqlValue) := do
  let (clause, params) ← whereClause "" plan 0
  .ok ("SELECT COUNT(*) as count FROM " ++ b.qualifiedTable ++ clause, params)

/--
The keys that are not known yet, which have to be columns of the table.
-/
def collectKeys (table : TableSnapshot) : List String → List String → Except BuildError (List String)
  | known, [] => .ok known
  | known, key :: keys =>
    if key ∈ known then
      collectKeys table known keys
    else if key ∈ table.columns then
      collectKeys table (known ++ [key]) keys
    else
      .error (.data (.columnNotFound key))

def collectColumns (table : TableSnapshot) : List String → List Json → Except BuildError (List String)
  | known, [] => .ok known
  | known, .object members :: rows => do
    let known ← collectKeys table known (members.map Prod.fst)
    collectColumns table known rows
  | known, _ :: rows => collectColumns table known rows

def valueGroup (columns : List String) (paramOffset : Nat) : String :=
  "(" ++ joinWith ", "
    ((List.range columns.length).map (fun i => placeholder (paramOffset + (i + 1)))) ++ ")"

def valueGroups (columns : List String) : List Json → Nat → List String × List SqlValue
  | [], _ => ([], [])
  | .object members :: rows, paramOffset =>
    let (groups, params) := valueGroups columns rows (paramOffset + columns.length)
    (valueGroup columns paramOffset :: groups,
      columns.map (fun col => jsonToSqlValue ((Json.object members).get col)) ++ params)
  | _ :: rows, paramOffset => valueGroups columns rows paramOffset

def conflictClause (columns : List String) (table : TableSnapshot) (prefer : Prefer) : String :=
  match prefer.resolution with
  | .ignoreDuplicates => " ON CONFLICT DO NOTHING"
  | .mergeDuplicates =>
    let updateCols := columns.filter (· ∉ table.primaryKey)
    if table.primaryKey.isEmpty || updateCols.isEmpty then
      ""
    else
      " ON CONFLICT (" ++ joinWith ", " (table.primaryKey.map quoted) ++ ") DO UPDATE SET "
        ++ joinWith ", " (updateCols.map (fun c => quoted c ++ " = EXCLUDED." ++ quoted c))

def buildInsert (rows : List Json) (table : TableSnapshot) (prefer : Prefer) (plan : QueryPlan)
    : Except BuildError (String × List SqlValue) :=
  if rows.isEmpty then
    .error (.data (.invalidQuery "no rows to insert"))
  else do
    let columns ← collectColumns table [] rows
    let (groups, params) := valueGroups columns rows 0
    .ok ("INSERT INTO " ++ b.qualifiedTable ++ " (" ++ joinWith ", " (columns.map quoted) ++ ") VALUES "
      ++ joinWith ", " groups ++ conflictClause columns table prefer ++ returningClause prefer plan, params)

def setParts (table : TableSnapshot)
    : List (String × Json) → Nat → Except BuildError (List String × List SqlValue)
  | [], _ => .ok ([], [])
  | (col, val) :: updates, paramOffset =>
    if col ∈ table.columns then do
      let (parts, params) ← setParts table updates (paramOffset + 1)
      .ok ((quoted col ++ " = " ++ placeholder (paramOffset + 1)) :: parts,
        jsonToSqlValue (some val) :: params)
    else
      .error (.data (.columnNotFound col))

def buildUpdate (updates : List (String × Json)) (table : TableSnapshot) (prefer : Prefer)
    (plan : QueryPlan) : Except BuildError (String × List SqlValue) := do
  let (parts, setParams) ← setParts table updates 0
  let (clause, params) ← whereClause "" plan setParams.length
  .ok ("UPDATE " ++ b.qualifiedTable ++ " SET " ++ joinWith ", " parts ++ clause
    ++ returningClause prefer plan, setParams ++ params)

def buildDelete (prefer : Prefer) (plan : QueryPlan) : Except BuildError (String × List SqlValue) := do
  let (clause, params) ← whereClause "" plan 0
  .ok ("DELETE FROM " ++ b.qualifiedTable ++ clause ++ returningClause prefer plan, params)

end SqlBuilder

end Reactor.Data.Execute
