import ReactorCloud.Rust.F64
import ReactorCloud.Rust.Str

/-!
This module contains the AST of migrations, what parsing results in and what is emitted.
-/

namespace Reactor.Data.Dialect

inductive Literal where
  | null
  | bool (b : Bool)
  | int (n : Int64)
  | float (n : Rust.F64)
  | string (s : String)
  deriving DecidableEq

inductive BinaryOperator where
  | eq
  | notEq
  | lt
  | ltEq
  | gt
  | gtEq
  | and
  | or
  | like
  | iLike
  deriving DecidableEq, Repr

inductive UnaryOperator where
  | not
  | minus
  deriving DecidableEq, Repr

inductive Expr where
  | column (name : String)
  | qualifiedColumn (table column : String)
  | literal (lit : Literal)
  | binaryOp (left : Expr) (op : BinaryOperator) (right : Expr)
  | unaryOp (op : UnaryOperator) (expr : Expr)
  | functionCall (name : String) (args : List Expr)
  | isNull (expr : Expr) (negated : Bool)
  | inList (expr : Expr) (list : List Expr) (negated : Bool)
  | subquery (sql : String)
  | raw (sql : String)

inductive DataType where
  | reactorId
  | text
  | bool
  | int
  | bigInt
  | float
  | timestampTz
  | jsonb
  | bytea
  deriving DecidableEq, Repr

/--
The match is on the lower case text. No character outside of ASCII has a lower case form that is one
of the letters here.
-/
def DataType.fromSql (s : String) : Option DataType :=
  match String.ofList (s.toList.map Char.toLower) with
  | "reactor_id" | "reactorid" => some .reactorId
  | "text" | "varchar" | "character varying" => some .text
  | "bool" | "boolean" => some .bool
  | "int" | "int4" | "integer" => some .int
  | "bigint" | "int8" => some .bigInt
  | "float" | "float8" | "double precision" | "real" | "float4" => some .float
  | "timestamptz" | "timestamp with time zone" => some .timestampTz
  | "jsonb" | "json" => some .jsonb
  | "bytea" | "blob" => some .bytea
  | _ => none

inductive ReferentialAction where
  | cascade
  | setNull
  | setDefault
  | restrict
  | noAction
  deriving DecidableEq, Repr

structure ForeignKeyRef where
  table : String
  columns : List String
  onDelete : Option ReferentialAction
  onUpdate : Option ReferentialAction

inductive ColumnConstraint where
  | primaryKey
  | unique
  | notNull
  | check (expr : Expr)
  | references (fk : ForeignKeyRef)

inductive TableConstraint where
  | primaryKey (name : Option String) (columns : List String)
  | unique (name : Option String) (columns : List String)
  | foreignKey (name : Option String) (columns : List String) (references : ForeignKeyRef)
  | check (name : Option String) (expr : Expr)

structure ColumnDef where
  name : String
  dataType : DataType
  nullable : Bool
  default : Option Expr
  constraints : List ColumnConstraint

structure CreateTable where
  name : String
  columns : List ColumnDef
  constraints : List TableConstraint
  ifNotExists : Bool

inductive SortOrder where
  | asc
  | desc

inductive NullsOrder where
  | first
  | last

structure IndexColumn where
  name : String
  order : Option SortOrder
  nulls : Option NullsOrder

structure CreateIndex where
  name : String
  table : String
  columns : List IndexColumn
  unique : Bool
  ifNotExists : Bool
  whereClause : Option Expr

structure FunctionParam where
  name : String
  dataType : DataType
  default : Option Expr

inductive FunctionReturn where
  | scalar (dataType : DataType)
  | table (columns : List (String × DataType))
  | setOf (dataType : DataType)
  | void

inductive SecurityMode where
  | definer
  | invoker

inductive Volatility where
  | volatile
  | stable
  | immutable

structure CreateFunction where
  name : String
  params : List FunctionParam
  returns : FunctionReturn
  body : String
  security : SecurityMode
  volatility : Volatility

inductive PolicyScope where
  | select
  | insert
  | update
  | delete
  deriving DecidableEq, Repr

structure PolicyStmt where
  name : String
  table : String
  scopes : List PolicyScope
  usingExpr : Option Expr
  checkExpr : Option Expr

/--
The fields of the small statements are those of the structs of the same name.
-/
inductive Statement where
  | createTable (ct : CreateTable)
  | createIndex (ci : CreateIndex)
  | alterTableAddColumn (table : String) (column : ColumnDef)
  | alterTableDropColumn (table column : String) (ifExists : Bool)
  | alterTableRename (oldName newName : String)
  | alterColumnRename (table oldName newName : String)
  | dropTable (name : String) (ifExists : Bool)
  | dropIndex (name : String) (ifExists : Bool)
  | createFunction (f : CreateFunction)
  | policy (p : PolicyStmt)

structure Migration where
  statements : List Statement

inductive ParseError where
  | sql (message : String)
  | unsupportedStatement (text : String)
  | unsupportedType (text : String)
  | invalidSyntax (message : String)
  deriving DecidableEq, Repr

end Reactor.Data.Dialect
