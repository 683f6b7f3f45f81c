import ReactorCloud.Data.Dialect.Ast

/-!
This module contains the emission of migrations as DDL of Postgres.
-/

namespace Reactor.Data.Dialect

open Rust.Str (joinWith)

def postgresType : DataType → String
  | .reactorId => "UUID"
  | .text => "TEXT"
  | .bool => "BOOLEAN"
  | .int => "INTEGER"
  | .bigInt => "BIGINT"
  | .float => "DOUBLE PRECISION"
  | .timestampTz => "TIMESTAMPTZ"
  | .jsonb => "JSONB"
  | .bytea => "BYTEA"

def emitLiteral : Literal → String
  | .null => "NULL"
  | .bool b => if b then "TRUE" else "FALSE"
  | .int n => toString n.toInt
  | .float f => f.toString
  | .string s => "'" ++ Rust.Str.doubled '\'' s ++ "'"

def emitBinaryOp : BinaryOperator → String
  | .eq => "="
  | .notEq => "<>"
  | .lt => "<"
  | .ltEq => "<="
  | .gt => ">"
  | .gtEq => ">="
  | .and => "AND"
  | .or => "OR"
  | .like => "LIKE"
  | .iLike => "ILIKE"

def emitUnaryOp : UnaryOperator → String
  | .not => "NOT"
  | .minus => "-"

mutual

def emitExpr : Expr → String
  | .column name => name
  | .qualifiedColumn table column => table ++ "." ++ column
  | .literal lit => emitLiteral lit
  | .binaryOp left op right =>
    "(" ++ emitExpr left ++ " " ++ emitBinaryOp op ++ " " ++ emitExpr right ++ ")"
  | .unaryOp op expr => emitUnaryOp op ++ " " ++ emitExpr expr
  | .functionCall name args => name ++ "(" ++ joinWith ", " (emitExprs args) ++ ")"
  | .isNull expr negated => emitExpr expr ++ (if negated then " IS NOT NULL" else " IS NULL")
  | .inList expr list negated =>
    let op := if negated then "NOT IN" else "IN"
    emitExpr expr ++ " " ++ op ++ " (" ++ joinWith ", " (emitExprs list) ++ ")"
  | .subquery sql => "(" ++ sql ++ ")"
  | .raw sql => sql

def emitExprs : List Expr → List String
  | [] => []
  | e :: es => emitExpr e :: emitExprs es

end

def emitReferentialAction : ReferentialAction → String
  | .cascade => "CASCADE"
  | .setNull => "SET NULL"
  | .setDefault => "SET DEFAULT"
  | .restrict => "RESTRICT"
  | .noAction => "NO ACTION"

def emitActions (onDelete onUpdate : Option ReferentialAction) : String :=
  (match onDelete with
    | some action => " ON DELETE " ++ emitReferentialAction action
    | none => "")
  ++ match onUpdate with
    | some action => " ON UPDATE " ++ emitReferentialAction action
    | none => ""

/--
The parts a column constraint adds to the definition of a column.
-/
def emitColumnConstraint : ColumnConstraint → List String
  | .primaryKey => ["PRIMARY KEY"]
  | .unique => ["UNIQUE"]
  | .notNull => []
  | .check expr => ["CHECK (" ++ emitExpr expr ++ ")"]
  | .references fk =>
    let columns := if fk.columns.isEmpty then "" else " (" ++ joinWith ", " fk.columns ++ ")"
    ["REFERENCES " ++ fk.table ++ columns ++ emitActions fk.onDelete fk.onUpdate]

/--
The parts of the definition of a column after its name.
-/
def columnParts (col : ColumnDef) : List String :=
  postgresType col.dataType
    :: (if col.nullable then [] else ["NOT NULL"])
    ++ (col.default.map (fun expr => "DEFAULT " ++ emitExpr expr)).toList
    ++ col.constraints.flatMap emitColumnConstraint

def emitColumnDef (col : ColumnDef) : String :=
  joinWith " " (("    " ++ col.name) :: columnParts col)

def emitConstraintName : Option String → String
  | some name => "CONSTRAINT " ++ name ++ " "
  | none => ""

def emitTableConstraint : TableConstraint → String
  | .primaryKey name columns =>
    "    " ++ emitConstraintName name ++ "PRIMARY KEY (" ++ joinWith ", " columns ++ ")"
  | .unique name columns =>
    "    " ++ emitConstraintName name ++ "UNIQUE (" ++ joinWith ", " columns ++ ")"
  | .foreignKey name columns references =>
    "    " ++ emitConstraintName name ++ "FOREIGN KEY (" ++ joinWith ", " columns ++ ") REFERENCES "
      ++ references.table ++ " (" ++ joinWith ", " references.columns ++ ")"
      ++ emitActions references.onDelete references.onUpdate
  | .check name expr => "    " ++ emitConstraintName name ++ "CHECK (" ++ emitExpr expr ++ ")"

def emitCreateTable (ct : CreateTable) : String :=
  "CREATE TABLE " ++ (if ct.ifNotExists then "IF NOT EXISTS " else "") ++ ct.name ++ " (\n"
    ++ joinWith ",\n" (ct.columns.map emitColumnDef)
    ++ (if ct.constraints.isEmpty then ""
        else ",\n" ++ joinWith ",\n" (ct.constraints.map emitTableConstraint))
    ++ "\n)"

def emitIndexColumn (col : IndexColumn) : String :=
  col.name
    ++ (match col.order with
        | some .asc => " ASC"
        | some .desc => " DESC"
        | none => "")
    ++ match col.nulls with
        | some .first => " NULLS FIRST"
        | some .last => " NULLS LAST"
        | none => ""

def emitCreateIndex (ci : CreateIndex) : String :=
  "CREATE " ++ (if ci.unique then "UNIQUE " else "") ++ "INDEX "
    ++ (if ci.ifNotExists then "IF NOT EXISTS " else "") ++ ci.name ++ " ON " ++ ci.table
    ++ " (" ++ joinWith ", " (ci.columns.map emitIndexColumn) ++ ")"
    ++ match ci.whereClause with
        | some expr => " WHERE " ++ emitExpr expr
        | none => ""

def emitIfExists (ifExists : Bool) : String :=
  if ifExists then "IF EXISTS " else ""

def emitFunctionParam (p : FunctionParam) : String :=
  p.name ++ " " ++ postgresType p.dataType
    ++ match p.default with
        | some expr => " DEFAULT " ++ emitExpr expr
        | none => ""

def emitFunctionReturn : FunctionReturn → String
  | .scalar dataType => postgresType dataType
  | .setOf dataType => "SETOF " ++ postgresType dataType
  | .table columns =>
    "TABLE (" ++ joinWith ", " (columns.map (fun (name, ty) => name ++ " " ++ postgresType ty)) ++ ")"
  | .void => "VOID"

def emitVolatility : Volatility → String
  | .volatile => ""
  | .stable => " STABLE"
  | .immutable => " IMMUTABLE"

def emitSecurity : SecurityMode → String
  | .definer => " SECURITY DEFINER"
  | .invoker => " SECURITY INVOKER"

def emitCreateFunction (f : CreateFunction) : String :=
  "CREATE OR REPLACE FUNCTION " ++ f.name ++ "(" ++ joinWith ", " (f.params.map emitFunctionParam)
    ++ ") RETURNS " ++ emitFunctionReturn f.returns ++ "\nLANGUAGE sql" ++ emitVolatility f.volatility
    ++ emitSecurity f.security ++ "\nAS $$\n" ++ f.body ++ "\n$$"

def emitStatement : Statement → String
  | .createTable ct => emitCreateTable ct
  | .createIndex ci => emitCreateIndex ci
  | .alterTableAddColumn table column =>
    "ALTER TABLE " ++ table ++ " ADD COLUMN " ++ Rust.Str.trim (emitColumnDef column)
  | .alterTableDropColumn table column ifExists =>
    "ALTER TABLE " ++ table ++ " DROP COLUMN " ++ emitIfExists ifExists ++ column
  | .alterTableRename oldName newName => "ALTER TABLE " ++ oldName ++ " RENAME TO " ++ newName
  | .alterColumnRename table oldName newName =>
    "ALTER TABLE " ++ table ++ " RENAME COLUMN " ++ oldName ++ " TO " ++ newName
  | .dropTable name ifExists => "DROP TABLE " ++ emitIfExists ifExists ++ name
  | .dropIndex name ifExists => "DROP INDEX " ++ emitIfExists ifExists ++ name
  | .createFunction f => emitCreateFunction f
  | .policy _ => "-- Policy stored in _reactor_data.policies"

def emitPostgres (migration : Migration) : String :=
  String.join (migration.statements.map (fun stmt => emitStatement stmt ++ ";\n\n"))

end Reactor.Data.Dialect
