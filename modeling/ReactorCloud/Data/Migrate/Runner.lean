import ReactorCloud.Data.Dialect.EmitPostgres
import ReactorCloud.Data.Dialect.Parser
import ReactorCloud.Data.Policy.Compile
import ReactorCloud.Policy.Grammar

/-!
This module contains the migration runner. Every step that leaves the process may fail, a `Faults`
says which of them do.
-/

namespace Reactor.Data.Migrate

open Dialect (Migration Statement PolicyStmt ParseError LintError Unicode)
open Policy (PolicyExpr PolicyParseError PolicyScope)

structure MigrationFile where
  name : String
  content : String
  checksum : String

inductive MigrationError where
  | drift (name expected actual : String)
  | parse (name : String) (source : ParseError)
  | lint (name : String) (source : LintError)
  | policyParse (name : String) (source : PolicyParseError)
  | database (message : String)
  | io (message : String)
  | store (message : String)
  | policyStore (message : String)
  | panicked

/--
The database as the runner changes it: the DDL that is in effect, the names and checksums of the
migrations table and the policies. The snapshot of the schema is left out.
-/
structure Db where
  ddl : List String
  migrations : List (String × String)
  policies : List StoredPolicy

/--
What the transaction of a migration changes.
-/
def Db.record (db : Db) (file : MigrationFile) (migration : Migration) : Db where
  ddl := db.ddl ++ [Dialect.emitPostgres migration]
  migrations := db.migrations ++ [(file.name, file.checksum)]
  policies := db.policies

/--
The steps of one migration that fail and with which message. A failed commit has no effect.
-/
structure Faults where
  begin : Option String
  executeDdl : Option String
  recordMigration : Option String
  commit : Option String
  insertPolicy : String → Option String
  refreshTables : Option String

/--
The database is asked to do something.
-/
def attempted (fault : Option String) : Except MigrationError Unit :=
  match fault with
  | some message => .error (.database message)
  | none => .ok ()

structure MigrationRunner where
  unicode : Unicode
  parseSql : String → Except String (List Dialect.SqlParser.Statement)
  source : List MigrationFile
  userSchema : String
  -- The files of one directory have different names.
  source_nodup : (source.map MigrationFile.name).Nodup

mutual

def exprToRawSql : Dialect.Expr → String
  | .column name => name
  | .qualifiedColumn table column => table ++ "." ++ column
  | .literal lit => Dialect.emitLiteral lit
  | .binaryOp left op right =>
    "(" ++ exprToRawSql left ++ " " ++ Dialect.emitBinaryOp op ++ " " ++ exprToRawSql right ++ ")"
  | .unaryOp .not expr => "NOT " ++ exprToRawSql expr
  | .unaryOp .minus expr => "-" ++ exprToRawSql expr
  | .functionCall name args => name ++ "(" ++ Rust.Str.joinWith ", " (exprsToRawSql args) ++ ")"
  | .isNull expr negated => exprToRawSql expr ++ (if negated then " IS NOT NULL" else " IS NULL")
  | .inList expr list negated =>
    let op := if negated then "NOT IN" else "IN"
    exprToRawSql expr ++ " " ++ op ++ " (" ++ Rust.Str.joinWith ", " (exprsToRawSql list) ++ ")"
  | .subquery sql => "(" ++ sql ++ ")"
  | .raw sql => sql

def exprsToRawSql : List Dialect.Expr → List String
  | [] => []
  | e :: es => exprToRawSql e :: exprsToRawSql es

end

/--
The policy expression of a clause, if there is one.
-/
def parseClauseExpr (migrationName : String)
    : Option Dialect.Expr → Except MigrationError (Option PolicyExpr)
  | none => .ok none
  | some expr =>
    match Policy.parsePolicyExpr (exprToRawSql expr) with
    | .ok e => .ok (some e)
    | .error (.error source) => .error (.policyParse migrationName source)
    | .error _ => .error .panicked

def policiesOf (migration : Migration) : List PolicyStmt :=
  migration.statements.filterMap (fun
    | .policy p => some p
    | _ => none)

def convertScope : Dialect.PolicyScope → PolicyScope
  | .select => .select
  | .insert => .insert
  | .update => .update
  | .delete => .delete

def insertPolicy (fault : Option String) (row : StoredPolicy) (rows : List StoredPolicy)
    : Except MigrationError (List StoredPolicy) :=
  match fault with
  | some message => .error (.policyStore message)
  | none =>
    if rows.any row.sameKey then
      .error (.policyStore "duplicate key value violates unique constraint")
    else
      .ok (rows ++ [row])

namespace MigrationRunner

variable (runner : MigrationRunner)

/--
The row a policy statement is stored as.
-/
def policyRow (migrationName : String) (policy : PolicyStmt) : Except MigrationError StoredPolicy := do
  let usingExpr ← parseClauseExpr migrationName policy.usingExpr
  let checkExpr ← parseClauseExpr migrationName policy.checkExpr
  .ok {
    schemaName := runner.userSchema
    tableName := policy.table
    name := policy.name
    scopes := policy.scopes.map convertScope
    usingExpr, checkExpr, migrationName
  }

/--
Each policy is inserted on its own, those before a failure stay.
-/
def storePolicies (faults : Faults) (migrationName : String)
    : List PolicyStmt → List StoredPolicy → Except MigrationError Unit × List StoredPolicy
  | [], rows => (.ok (), rows)
  | policy :: policies, rows =>
    match runner.policyRow migrationName policy with
    | .error e => (.error e, rows)
    | .ok row =>
      match insertPolicy (faults.insertPolicy policy.name) row rows with
      | .error e => (.error e, rows)
      | .ok rows => storePolicies faults migrationName policies rows

/--
The part of a migration before anything is executed.
-/
def prepare (file : MigrationFile) : Except MigrationError Migration :=
  match Dialect.parseMigration runner.unicode runner.parseSql file.content with
  | .error (.error source) => .error (.parse file.name source)
  | .error _ => .error .panicked
  | .ok migration =>
    match migration.statements.forM Dialect.lintStatement with
    | .error source => .error (.lint file.name source)
    | .ok () => .ok migration

/--
The transaction, which leaves nothing behind if one of its steps fails. The name of a recorded
migration is unique.
-/
def transact (faults : Faults) (file : MigrationFile) (migration : Migration) (db : Db)
    : Except MigrationError Db :=
  if db.migrations.any (·.1 = file.name) then do
    attempted faults.begin
    attempted faults.executeDdl
    attempted faults.recordMigration
    .error (.database "duplicate key value violates unique constraint")
  else do
    attempted faults.begin
    attempted faults.executeDdl
    attempted faults.recordMigration
    attempted faults.commit
    .ok (db.record file migration)

def applySingle (faults : Faults) (file : MigrationFile) (db : Db) : Except MigrationError Unit × Db :=
  match runner.prepare file with
  | .error e => (.error e, db)
  | .ok migration =>
    match transact faults file migration db with
    | .error e => (.error e, db)
    | .ok db =>
      let (stored, rows) := runner.storePolicies faults file.name (policiesOf migration) db.policies
      let db := { db with policies := rows }
      match stored with
      | .error e => (.error e, db)
      | .ok () => (attempted faults.refreshTables, db)

/--
The migrations that are not recorded. A recorded one whose file has changed is an error.
-/
def pendingMigrations (applied : List (String × String))
    : List MigrationFile → Except MigrationError (List MigrationFile)
  | [] => .ok []
  | file :: files =>
    match applied.lookup file.name with
    | some expected =>
      if expected ≠ file.checksum then
        .error (.drift file.name expected file.checksum)
      else
        pendingMigrations applied files
    | none => do
      let pending ← pendingMigrations applied files
      .ok (file :: pending)

/--
What can go wrong in one call of `run`.
-/
structure RunFaults where
  readApplied : Option String
  discover : Option String
  apply : String → Faults

/--
A call of `apply_single` and what it did.
-/
structure Attempt where
  before : Db
  file : MigrationFile
  faults : Faults
  result : Except MigrationError Unit
  after : Db

structure RunOutcome where
  attempts : List Attempt
  result : Except MigrationError Nat
  db : Db

def attempt (faults : Faults) (file : MigrationFile) (db : Db) : Attempt :=
  let (result, after) := runner.applySingle faults file db
  { before := db, file, faults, result, after }

def applyPending (faults : RunFaults) (count : Nat) (db : Db) : List MigrationFile → RunOutcome
  | [] => { attempts := [], result := .ok count, db }
  | file :: files =>
    let attempt := runner.attempt (faults.apply file.name) file db
    match attempt.result with
    | .error e => { attempts := [attempt], result := .error e, db := attempt.after }
    | .ok () =>
      let outcome := applyPending faults (count + 1) attempt.after files
      { outcome with attempts := attempt :: outcome.attempts }

def pending (faults : RunFaults) (db : Db) : Except MigrationError (List MigrationFile) :=
  match faults.discover with
  | some message => do
    attempted faults.readApplied
    .error (.io message)
  | none => do
    attempted faults.readApplied
    pendingMigrations db.migrations runner.source

def run (faults : RunFaults) (db : Db) : RunOutcome :=
  match runner.pending faults db with
  | .error e => { attempts := [], result := .error e, db }
  | .ok files => runner.applyPending faults 0 db files

/--
The migrations that a sequence of calls of `run` attempts to apply.
-/
def runs (db : Db) : List RunFaults → List Attempt
  | [] => []
  | faults :: rest =>
    let outcome := runner.run faults db
    outcome.attempts ++ runs outcome.db rest

end MigrationRunner
end Reactor.Data.Migrate
