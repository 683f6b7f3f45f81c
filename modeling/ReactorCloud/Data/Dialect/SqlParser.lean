import ReactorCloud.Data.Dialect.Ast

/-!
This module contains the part of the AST of `sqlparser` that the conversion looks at. What it only
prints is represented by the printed text, a constructor it has no case for by its debug text.
-/

namespace Reactor.Data.Dialect.SqlParser

structure Ident where
  value : String
  quoteStyle : Option Char

/--
The `Display` text, a quote inside of a quoted identifier is doubled.
-/
def Ident.toString (ident : Ident) : String :=
  match ident.quoteStyle with
  | none => ident.value
  | some q =>
    let close := if q = '[' then ']' else q
    String.singleton q ++ Rust.Str.doubled q ident.value ++ String.singleton close

structure ObjectName where
  parts : List Ident

def ObjectName.toString (name : ObjectName) : String :=
  Rust.Str.joinWith "." (name.parts.map Ident.toString)

inductive SqlValue where
  | null
  | boolean (b : Bool)
  | number (digits : String)
  | singleQuotedString (s : String)
  | doubleQuotedString (s : String)
  | other (debug : String)

inductive BinaryOperator where
  | eq
  | notEq
  | lt
  | ltEq
  | gt
  | gtEq
  | and
  | or
  | other (debug : String)

inductive UnaryOperator where
  | not
  | minus
  | other (debug : String)

mutual

inductive Expr where
  | identifier (ident : Ident)
  | compoundIdentifier (parts : List Ident) (text : String)
  | value (v : SqlValue)
  | binaryOp (left : Expr) (op : BinaryOperator) (right : Expr)
  | unaryOp (op : UnaryOperator) (expr : Expr)
  | function (name : ObjectName) (args : FunctionArguments)
  | isNull (expr : Expr)
  | isNotNull (expr : Expr)
  | inList (expr : Expr) (list : List Expr) (negated : Bool)
  | other (text : String)

inductive FunctionArg where
  | unnamedExpr (expr : Expr)
  | other

inductive FunctionArguments where
  | list (args : List FunctionArg)
  | other

end

inductive ReferentialAction where
  | cascade
  | setNull
  | setDefault
  | restrict
  | noAction

inductive ColumnOption where
  | notNull
  | null
  | default (expr : Expr)
  | unique (isPrimary : Bool)
  | foreignKey (foreignTable : ObjectName) (referredColumns : List Ident)
      (onDelete onUpdate : Option ReferentialAction)
  | check (expr : Expr)
  | other

structure ColumnDef where
  name : Ident
  dataType : String
  options : List ColumnOption

inductive TableConstraint where
  | primaryKey (name : Option Ident) (columns : List Ident)
  | unique (name : Option Ident) (columns : List Ident)
  | foreignKey (name : Option Ident) (columns : List Ident) (foreignTable : ObjectName)
      (referredColumns : List Ident) (onDelete onUpdate : Option ReferentialAction)
  | check (name : Option Ident) (expr : Expr)
  | other

structure CreateTable where
  name : ObjectName
  columns : List ColumnDef
  constraints : List TableConstraint
  ifNotExists : Bool

structure OrderByExpr where
  expr : String
  asc : Option Bool
  nullsFirst : Option Bool

structure CreateIndex where
  name : Option ObjectName
  tableName : ObjectName
  columns : List OrderByExpr
  unique : Bool
  ifNotExists : Bool
  predicate : Option Expr

inductive AlterTableOperation where
  | addColumn (columnDef : ColumnDef)
  | dropColumn (columnName : Ident) (ifExists : Bool)
  | renameTable (tableName : ObjectName)
  | renameColumn (oldColumnName newColumnName : Ident)
  | other (debug : String)

inductive ObjectType where
  | table
  | index
  | other (debug : String)

inductive Statement where
  | createTable (ct : CreateTable)
  | createIndex (ci : CreateIndex)
  | alterTable (name : ObjectName) (operations : List AlterTableOperation)
  | drop (objectType : ObjectType) (ifExists : Bool) (names : List ObjectName)
  | createFunction
  | other (debug : String)

end Reactor.Data.Dialect.SqlParser
