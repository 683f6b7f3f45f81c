import Mathlib.Logic.Function.Basic
import ReactorCloud.Interleave.Machine
import ReactorCloud.Rust.Json
import ReactorCloud.Rust.Uuid

/-!
This module contains the sink of sandbox runs: a schema of its own for a run, a table for every stream
and a worker that drops the schemas whose time is over. Every statement is one step.
-/

namespace Reactor.Connect.Sandbox

open Interleave (Machine)
open Rust (Json Uuid)

/--
The time to live is in milliseconds.
-/
structure EphemeralSinkConfig where
  ttl : Nat := 86400000
  maxRecordsPerStream : UInt64 := 10000
  maxTotalRecords : UInt64 := 100000

/--
The configuration of the sinks and `char::is_alphanumeric`.
-/
structure Env where
  config : EphemeralSinkConfig
  isAlphanumeric : Char → Bool

/-! Names -/

/--
The first eight characters of the id and the seconds of the time.
-/
def generateSchemaName (connectionId : Uuid) (now : Nat) : String :=
  "_sandbox_" ++ String.ofList (connectionId.hyphenated.toList.take 8) ++ "_" ++ toString (now / 1000)

def sanitizeTableName (env : Env) (stream : String) : String :=
  String.ofList (stream.toList.map (fun c => if env.isAlphanumeric c || c == '_' then c else '_'))

/--
The characters that fit into a number of bytes.
-/
def clip : Nat → List Char → List Char
  | _, [] => []
  | room, c :: cs => if c.utf8Size ≤ room then c :: clip (room - c.utf8Size) cs else []

/--
The table Postgres takes for the stream, an identifier keeps 63 bytes.
-/
def tableName (env : Env) (stream : String) : String :=
  String.ofList (clip 63 (sanitizeTableName env stream).toList)

/-! The database -/

/--
A stored record, with the run and the stream it comes from.
-/
structure Row where
  schema : String
  table : String
  data : Json
  run : Nat
  stream : String

/--
A row of `_reactor_connect.sandbox_schemas`.
-/
structure SchemaRow where
  connectionId : Uuid
  schemaName : String
  expiresAt : Nat
  promoted : Bool

structure Db where
  schemas : List String
  tables : List (String × String)
  rows : List Row
  sandboxSchemas : List SchemaRow

namespace Db

def empty : Db :=
  ⟨[], [], [], []⟩

/-- `CREATE SCHEMA IF NOT EXISTS` -/
def createSchema (db : Db) (name : String) : Db :=
  if name ∈ db.schemas then db else { db with schemas := name :: db.schemas }

/-- `CREATE TABLE IF NOT EXISTS`, which needs a schema and a name. -/
def createTable (db : Db) (schema table : String) : Option Db :=
  if schema ∉ db.schemas ∨ table = "" then none
  else if (schema, table) ∈ db.tables then some db
  else some { db with tables := (schema, table) :: db.tables }

def insert (db : Db) (row : Row) : Option Db :=
  if (row.schema, row.table) ∈ db.tables then some { db with rows := row :: db.rows } else none

/-- `DROP SCHEMA IF EXISTS` with `CASCADE` -/
def dropSchema (db : Db) (name : String) : Db :=
  { db with
    schemas := db.schemas.filter (· ≠ name),
    tables := db.tables.filter (·.1 ≠ name),
    rows := db.rows.filter (·.schema ≠ name) }

/-- `ON CONFLICT` of the name only the end of its time changes. -/
def recordSchema (db : Db) (row : SchemaRow) : Db :=
  if db.sandboxSchemas.any (·.schemaName = row.schemaName) then
    { db with
      sandboxSchemas := db.sandboxSchemas.map
        (fun r => if r.schemaName = row.schemaName then { r with expiresAt := row.expiresAt } else r) }
  else
    { db with sandboxSchemas := row :: db.sandboxSchemas }

def forgetSchema (db : Db) (name : String) : Db :=
  { db with sandboxSchemas := db.sandboxSchemas.filter (·.schemaName ≠ name) }

def expired (db : Db) (now : Nat) : List String :=
  (db.sandboxSchemas.filter (fun r => decide (r.expiresAt < now) && !r.promoted)).map (·.schemaName)

end Db

/-! Runs -/

/--
The sink of a run, when it was started and the streams it was given up to now.
-/
structure Run where
  connectionId : Uuid
  startedAt : Nat
  streams : List String
  schemaName : Option String
  totalRecords : UInt64

def Run.name (run : Run) : String :=
  generateSchemaName run.connectionId run.startedAt

/--
The operation a call comes to next.
-/
inductive Task where
  /-- `init` -/
  | createSchema (r : Nat) (name : String) (streams : List String)
  | setSchema (r : Nat) (name : String) (streams : List String)
  | createTables (r : Nat) (name : String) (streams : List String)
  | resetStats (r : Nat) (name : String)
  | recordSchema (r : Nat) (name : String)
  /-- `write_batch` -/
  | check (r : Nat) (stream : String) (records : List Json)
  | ensureTable (r : Nat) (stream : String) (records : List Json)
  | insert (r : Nat) (schema stream : String) (records : List Json) (written : Nat)
  | count (r : Nat) (written : Nat)
  /-- `abort` -/
  | dropSchema (r : Nat) (name : String)
  | forgetSchema (name : String)
  /-- `cleanup_expired_schemas` -/
  | select
  | dropExpired (names : List String)
  | forgetExpired (name : String) (names : List String)

inductive Event where
  | quiet
  | failed
  | returned
  /-- A schema is dropped, by the abort of a run or by the worker. -/
  | dropped (aborted : Option Nat) (name : String)
deriving DecidableEq

/--
The numbers from `nextRun` and `nextTask` on are not in use.
-/
structure State where
  db : Db
  runs : Nat → Option Run
  nextRun : Nat
  tasks : Nat → Option Task
  nextTask : Nat
  now : Nat

/--
What becomes of a statement: it can fail, and its answer can be lost.
-/
inductive Outcome where
  | done
  | fails
  | lost
deriving DecidableEq

inductive Move where
  | init (connectionId : Uuid) (streams : List String)
  | writeBatch (r : Nat) (stream : String) (records : List Json)
  | abort (r : Nat)
  | cleanup
  | run (t : Nat) (outcome : Outcome)
  | hangUp (t : Nat)
  | wait (d : Nat)

namespace State

def init : State :=
  ⟨.empty, fun _ => none, 0, fun _ => none, 0, 0⟩

def spawn (st : State) (task : Task) : State :=
  { st with tasks := Function.update st.tasks st.nextTask (some task), nextTask := st.nextTask + 1 }

def goTo (st : State) (t : Nat) (task : Option Task) : State :=
  { st with tasks := Function.update st.tasks t task }

def setRun (st : State) (r : Nat) (run : Run) : State :=
  { st with runs := Function.update st.runs r (some run) }

end State

/--
A statement with the database after it, or none when Postgres refuses it. The call goes on when the
answer comes back.
-/
def statement (st : State) (outcome : Outcome) (db : Option Db) (next : Option Task)
    : Event × Option Task × State :=
  match outcome, db with
  | .done, some db =>
    match next with
    | some task => (.quiet, some task, { st with db := db })
    | none => (.returned, none, { st with db := db })
  | .lost, some db => (.failed, none, { st with db := db })
  | _, _ => (.failed, none, st)

/--
A statement whose result is not looked at.
-/
def ignoring (st : State) (outcome : Outcome) (db : Db) : State :=
  match outcome with
  | .fails => st
  | .done | .lost => { st with db := db }

def operate (env : Env) (task : Task) (outcome : Outcome) (st : State)
    : Event × Option Task × State :=
  match task with
  | .createSchema r name streams =>
    statement st outcome (some (st.db.createSchema name)) (some (.setSchema r name streams))
  | .setSchema r name streams =>
    match st.runs r with
    | some run =>
      (.quiet, some (.createTables r name streams), st.setRun r { run with schemaName := some name })
    | none => (.failed, none, st)
  | .createTables r name [] => (.quiet, some (.resetStats r name), st)
  | .createTables r name (stream :: streams) =>
    statement st outcome (st.db.createTable name (tableName env stream))
      (some (.createTables r name streams))
  | .resetStats r name =>
    match st.runs r with
    | some run => (.quiet, some (.recordSchema r name), st.setRun r { run with totalRecords := 0 })
    | none => (.failed, none, st)
  | .recordSchema r name =>
    match st.runs r with
    | some run =>
      statement st outcome
        (some (st.db.recordSchema ⟨run.connectionId, name, st.now + env.config.ttl, false⟩)) none
    | none => (.failed, none, st)
  | .check r stream records =>
    match st.runs r with
    | some run =>
      if records.isEmpty then
        (.returned, none, st)
      else if run.totalRecords ≥ env.config.maxTotalRecords then
        (.failed, none, st)
      else
        (.quiet, some (.ensureTable r stream records), st)
    | none => (.failed, none, st)
  | .ensureTable r stream records =>
    match (st.runs r).bind (·.schemaName) with
    | some schema =>
      statement st outcome (st.db.createTable schema (tableName env stream))
        (some (.insert r schema stream records 0))
    | none => (.failed, none, st)
  | .insert r _ _ [] written => (.quiet, some (.count r written), st)
  | .insert r schema stream (data :: records) written =>
    statement st outcome (st.db.insert ⟨schema, tableName env stream, data, r, stream⟩)
      (some (.insert r schema stream records (written + 1)))
  | .count r written =>
    match st.runs r with
    | some run =>
      (.returned, none,
        st.setRun r { run with totalRecords := run.totalRecords + UInt64.ofNat written })
    | none => (.failed, none, st)
  | .dropSchema r name =>
    (.dropped (some r) name, some (.forgetSchema name), ignoring st outcome (st.db.dropSchema name))
  | .forgetSchema name => (.returned, none, ignoring st outcome (st.db.forgetSchema name))
  | .select =>
    -- the table of the migrations has no column `promoted`, there the query fails
    match outcome with
    | .done => (.quiet, some (.dropExpired (st.db.expired st.now)), st)
    | _ => (.failed, none, st)
  | .dropExpired [] => (.returned, none, st)
  | .dropExpired (name :: names) =>
    (.dropped none name,
      some (if outcome = .done then .forgetExpired name names else .dropExpired names),
      ignoring st outcome (st.db.dropSchema name))
  | .forgetExpired name names =>
    (.quiet, some (.dropExpired names), ignoring st outcome (st.db.forgetSchema name))

def runTask (env : Env) (t : Nat) (task : Task) (outcome : Outcome) (st : State) : Event × State :=
  let (e, next, st) := operate env task outcome st
  (e, st.goTo t next)

def step (env : Env) : Move → State → Option (Event × State)
  | .init connectionId streams, st =>
    let run : Run := ⟨connectionId, st.now, streams, none, 0⟩
    let st' := { st.setRun st.nextRun run with nextRun := st.nextRun + 1 }
    some (.quiet, st'.spawn (.createSchema st.nextRun run.name streams))
  | .writeBatch r stream records, st =>
    (st.runs r).map (fun run =>
      (.quiet, (st.setRun r { run with streams := stream :: run.streams }).spawn
        (.check r stream records)))
  | .abort r, st =>
    (st.runs r).map (fun run =>
      match run.schemaName with
      | some name => (.quiet, st.spawn (.dropSchema r name))
      | none => (.returned, st))
  | .cleanup, st => some (.quiet, st.spawn .select)
  | .run t outcome, st => (st.tasks t).map (fun task => runTask env t task outcome st)
  | .hangUp t, st => some (.quiet, st.goTo t none)
  | .wait d, st => some (.quiet, { st with now := st.now + d })

def machine (env : Env) : Machine State Move Event :=
  ⟨.init, step env⟩

end Reactor.Connect.Sandbox
