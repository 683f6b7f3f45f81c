import ReactorCloud.Data.Dialect.SqlParser

/-!
This module contains the conversion of the statements `sqlparser` accepts.
-/

namespace Reactor.Data.Dialect

open SqlParser (Ident ObjectName)

def convertValue : SqlParser.SqlValue → Except ParseError Literal
  | .null => .ok .null
  | .boolean b => .ok (.bool b)
  | .number n =>
    if '.' ∈ n.toList then
      match Rust.parseF64 n.toList with
      | some value => .ok (.float value)
      | none => .error (.invalidSyntax ("invalid float: " ++ n))
    else
      match Rust.parseI64 n.toList with
      | some value => .ok (.int value)
      | none => .error (.invalidSyntax ("invalid int: " ++ n))
  | .singleQuotedString s => .ok (.string s)
  | .doubleQuotedString s => .ok (.string s)
  | .other debug => .error (.invalidSyntax ("unsupported value: " ++ debug))

def convertBinaryOp : SqlParser.BinaryOperator → Except ParseError BinaryOperator
  | .eq => .ok .eq
  | .notEq => .ok .notEq
  | .lt => .ok .lt
  | .ltEq => .ok .ltEq
  | .gt => .ok .gt
  | .gtEq => .ok .gtEq
  | .and => .ok .and
  | .or => .ok .or
  | .other debug => .error (.invalidSyntax ("unsupported operator: " ++ debug))

def convertUnaryOp : SqlParser.UnaryOperator → Except ParseError UnaryOperator
  | .not => .ok .not
  | .minus => .ok .minus
  | .other debug => .error (.invalidSyntax ("unsupported operator: " ++ debug))

mutual

def convertExpr : SqlParser.Expr → Except ParseError Expr
  | .identifier ident => .ok (.column ident.value)
  | .compoundIdentifier [table, column] _ => .ok (.qualifiedColumn table.value column.value)
  | .compoundIdentifier _ text => .ok (.raw text)
  | .value v => do
    let lit ← convertValue v
    .ok (.literal lit)
  | .binaryOp left op right => do
    let left ← convertExpr left
    let op ← convertBinaryOp op
    let right ← convertExpr right
    .ok (.binaryOp left op right)
  | .unaryOp op expr => do
    let op ← convertUnaryOp op
    let expr ← convertExpr expr
    .ok (.unaryOp op expr)
  | .function name args => do
    let args ← convertArguments args
    .ok (.functionCall name.toString args)
  | .isNull e => do
    let e ← convertExpr e
    .ok (.isNull e false)
  | .isNotNull e => do
    let e ← convertExpr e
    .ok (.isNull e true)
  | .inList expr list negated => do
    let expr ← convertExpr expr
    let list ← convertExprs list
    .ok (.inList expr list negated)
  | .other text => .ok (.raw text)

def convertExprs : List SqlParser.Expr → Except ParseError (List Expr)
  | [] => .ok []
  | e :: es => do
    let e ← convertExpr e
    let es ← convertExprs es
    .ok (e :: es)

def convertArguments : SqlParser.FunctionArguments → Except ParseError (List Expr)
  | .list args => convertArgs args
  | .other => .ok []

-- Arguments that are not plain expressions are filtered out.
def convertArgs : List SqlParser.FunctionArg → Except ParseError (List Expr)
  | [] => .ok []
  | arg :: args => do
    match arg with
    | .unnamedExpr e =>
      let e ← convertExpr e
      let es ← convertArgs args
      .ok (e :: es)
    | .other => convertArgs args

end

def convertDataType (text : String) : Except ParseError DataType :=
  match DataType.fromSql text with
  | some ty => .ok ty
  | none => .error (.unsupportedType text)

def convertReferentialAction : SqlParser.ReferentialAction → ReferentialAction
  | .cascade => .cascade
  | .setNull => .setNull
  | .setDefault => .setDefault
  | .restrict => .restrict
  | .noAction => .noAction

/--
One round of the loop over the options of a column.
-/
def convertColumnOption (col : ColumnDef) : SqlParser.ColumnOption → Except ParseError ColumnDef
  | .notNull => .ok { col with nullable := false, constraints := col.constraints ++ [.notNull] }
  | .null => .ok { col with nullable := true }
  | .default expr => do
    let expr ← convertExpr expr
    .ok { col with default := some expr }
  | .unique isPrimary =>
    let constraint := if isPrimary then .primaryKey else .unique
    .ok { col with constraints := col.constraints ++ [constraint] }
  | .foreignKey foreignTable referredColumns onDelete onUpdate =>
    let fk := {
      table := foreignTable.toString
      columns := referredColumns.map (·.value)
      onDelete := onDelete.map convertReferentialAction
      onUpdate := onUpdate.map convertReferentialAction
    }
    .ok { col with constraints := col.constraints ++ [.references fk] }
  | .check expr => do
    let expr ← convertExpr expr
    .ok { col with constraints := col.constraints ++ [.check expr] }
  | .other => .ok col

def convertColumnDef (col : SqlParser.ColumnDef) : Except ParseError ColumnDef := do
  let dataType ← convertDataType col.dataType
  let start := {
    name := col.name.value, dataType, nullable := true, default := none, constraints := []
  }
  col.options.foldlM convertColumnOption start

def convertTableConstraint : SqlParser.TableConstraint → Except ParseError TableConstraint
  | .primaryKey name columns => .ok (.primaryKey (name.map (·.value)) (columns.map (·.value)))
  | .unique name columns => .ok (.unique (name.map (·.value)) (columns.map (·.value)))
  | .foreignKey name columns foreignTable referredColumns onDelete onUpdate =>
    .ok (.foreignKey (name.map (·.value)) (columns.map (·.value)) {
      table := foreignTable.toString
      columns := referredColumns.map (·.value)
      onDelete := onDelete.map convertReferentialAction
      onUpdate := onUpdate.map convertReferentialAction
    })
  | .check name expr => do
    let expr ← convertExpr expr
    .ok (.check (name.map (·.value)) expr)
  | .other => .error (.invalidSyntax "unsupported constraint")

def convertCreateTable (ct : SqlParser.CreateTable) : Except ParseError Statement := do
  let columns ← ct.columns.mapM convertColumnDef
  let constraints ← ct.constraints.mapM convertTableConstraint
  .ok (.createTable {
    name := ct.name.toString, columns, constraints, ifNotExists := ct.ifNotExists
  })

def convertIndexColumn (col : SqlParser.OrderByExpr) : IndexColumn where
  name := col.expr
  order := col.asc.map (fun asc => if asc then .asc else .desc)
  nulls := col.nullsFirst.map (fun first => if first then .first else .last)

/--
`predicate.map(|e| convert_expr(&e)).transpose()?`
-/
def convertPredicate : Option SqlParser.Expr → Except ParseError (Option Expr)
  | none => .ok none
  | some e => (convertExpr e).map some

def convertCreateIndex (ci : SqlParser.CreateIndex) : Except ParseError Statement := do
  let whereClause ← convertPredicate ci.predicate
  .ok (.createIndex {
    name := (ci.name.map ObjectName.toString).getD ""
    table := ci.tableName.toString
    columns := ci.columns.map convertIndexColumn
    unique := ci.unique
    ifNotExists := ci.ifNotExists
    whereClause
  })

/--
The debug text of the operations that have no case of their own.
-/
def debugOperation : SqlParser.AlterTableOperation → String
  | .other debug => debug
  | _ => ""

/--
The loop over the operations, which returns at the first one that has a case.
-/
def convertOperations (table : String)
    : List SqlParser.AlterTableOperation → Except ParseError (Option Statement)
  | [] => .ok none
  | .addColumn columnDef :: _ => do
    let column ← convertColumnDef columnDef
    .ok (some (.alterTableAddColumn table column))
  | .dropColumn columnName ifExists :: _ =>
    .ok (some (.alterTableDropColumn table columnName.value ifExists))
  | .renameTable tableName :: _ => .ok (some (.alterTableRename table tableName.toString))
  | .renameColumn oldColumnName newColumnName :: _ =>
    .ok (some (.alterColumnRename table oldColumnName.value newColumnName.value))
  | .other _ :: operations => convertOperations table operations

def convertAlterTable (name : ObjectName) (operations : List SqlParser.AlterTableOperation)
    : Except ParseError (Option Statement) := do
  match ← convertOperations name.toString operations with
  | some stmt => .ok (some stmt)
  | none =>
    let debug := "[" ++ Rust.Str.joinWith ", " (operations.map debugOperation) ++ "]"
    .error (.unsupportedStatement ("ALTER TABLE " ++ debug))

def convertDrop (objectType : SqlParser.ObjectType) (ifExists : Bool) (names : List ObjectName)
    : Except ParseError (Option Statement) :=
  match names with
  | [] => .ok none
  | name :: _ =>
    match objectType with
    | .table => .ok (some (.dropTable name.toString ifExists))
    | .index => .ok (some (.dropIndex name.toString ifExists))
    | .other debug => .error (.unsupportedStatement ("DROP " ++ debug))

def convertStatement : SqlParser.Statement → Except ParseError (Option Statement)
  | .createTable ct => (convertCreateTable ct).map some
  | .createIndex ci => (convertCreateIndex ci).map some
  | .alterTable name operations => convertAlterTable name operations
  | .drop objectType ifExists names => convertDrop objectType ifExists names
  | .createFunction => .ok none
  | .other debug => .error (.unsupportedStatement debug)

/--
The loop of `parse_migration` over the statements.
-/
def convertStatements : List SqlParser.Statement → Except ParseError (List Statement)
  | [] => .ok []
  | stmt :: stmts => do
    let converted ← convertStatement stmt
    let rest ← convertStatements stmts
    .ok (converted.toList ++ rest)

end Reactor.Data.Dialect
