import Mathlib.Data.List.Basic
import ReactorCloud.Connect.EphemeralSink

/-!
This module contains what the sink of sandbox runs owes to them: their records stay apart, the end of a
run takes nothing from another one and no run stores more than the limits allow.
-/

namespace Reactor.Connect.Sandbox

open Interleave Interleave.Machine

abbrev World : Type :=
  Machine.World State Event

/--
The table of a stream of a run.
-/
def State.Owns (env : Env) (st : State) (r : Nat) (stream schema table : String) : Prop :=
  ∃ run, st.runs r = some run ∧ run.schemaName = some schema ∧ stream ∈ run.streams
    ∧ tableName env stream = table

/--
What Postgres has under the name of a schema.
-/
def Db.contents (db : Db) (name : String) : Bool × List (String × String) × List Row :=
  (decide (name ∈ db.schemas), db.tables.filter (·.1 = name), db.rows.filter (·.schema = name))

def Db.stored (db : Db) (r : Nat) : Nat :=
  db.rows.countP (·.run = r)

def Db.storedIn (db : Db) (r : Nat) (stream : String) : Nat :=
  db.rows.countP (fun row => row.run = r ∧ row.stream = stream)

structure SandboxSafe (env : Env) (ok : World → Move → Prop) : Prop where
  /-- A table has no record of another run or of another stream than its own. -/
  isolated : ∀ w, (machine env).Reached ok w → ∀ row ∈ w.state.db.rows, ∀ r stream,
    w.state.Owns env r stream row.schema row.table → row.run = r ∧ row.stream = stream
  /-- The end of a run leaves the tables of all others as they are. -/
  dropsOwn : ∀ w, (machine env).Reached ok w → ∀ m w' aborted name, ok w m →
    (machine env).next m w = some w' → w'.trace.head? = some (.dropped aborted name) →
    ∃ r, (∀ r' ∈ aborted, r' = r) ∧ ∀ r' run' name', r' ≠ r → w.state.runs r' = some run' →
      run'.schemaName = some name' → w'.state.db.contents name' = w.state.db.contents name'
  capped : ∀ w, (machine env).Reached ok w → ∀ r,
    w.state.db.stored r ≤ env.config.maxTotalRecords.toNat
      ∧ ∀ stream, w.state.db.storedIn r stream ≤ env.config.maxRecordsPerStream.toNat

/--
Two streams of a run whose names only differ in a character that no table name keeps.
-/
theorem not_sandboxSafe : ¬ ∀ env, SandboxSafe env (fun _ _ => True) := by
  intro h
  let env : Env := ⟨{}, Char.isAlphanum⟩
  let go (t : Nat) : Move := .run t .done
  let ms : List Move := [.init 7 ["a-b", "a_b"], go 0, go 0, go 0, go 0, go 0, go 0, go 0,
    .writeBatch 0 "a-b" [.null], go 1, go 1, go 1]
  have hrun : ((machine env).run ms (machine env).first).any
      (fun w => w.state.db.rows.map (fun row => (row.schema, row.table, row.stream))
          = [("_sandbox_00000000_0", "a_b", "a-b")]
        ∧ (w.state.runs 0).map (fun run => (run.schemaName, run.streams))
          = some (some "_sandbox_00000000_0", ["a-b", "a-b", "a_b"])) = true := by
    decide
  obtain ⟨w, hw, hend⟩ := reached_of_any hrun
  obtain ⟨hrows, hruns⟩ := of_decide_eq_true hend
  rw [List.map_eq_singleton_iff] at hrows
  rw [Option.map_eq_some_iff] at hruns
  obtain ⟨row, hrows, hrow⟩ := hrows
  obtain ⟨run, hrun, hfields⟩ := hruns
  simp only [Prod.mk.injEq] at hrow hfields
  have hmem : row ∈ w.state.db.rows := by
    rw [hrows]
    exact List.mem_singleton_self row
  have htable : tableName env "a_b" = "a_b" := by decide
  have := (h env).isolated w hw row hmem 0 "a_b"
    ⟨run, hrun, by rw [hfields.1, hrow.1], by simp [hfields.2], by rw [htable, hrow.2.1]⟩
  rw [hrow.2.2] at this
  exact absurd this.2 (by decide)

/-! The condition -/

/--
The task is a batch of the run that was let in.
-/
def Task.writes (task : Task) (r : Nat) : Prop :=
  match task with
  | .ensureTable q _ _ | .insert q _ _ _ _ => q = r
  | _ => False

/--
There is room for more records of a stream of a run.
-/
def Room (env : Env) (db : Db) (r : Nat) (stream : String) (n : Nat) : Prop :=
  db.stored r + n ≤ env.config.maxTotalRecords.toNat
    ∧ db.storedIn r stream + n ≤ env.config.maxRecordsPerStream.toNat

/--
The streams of a run have tables of their own, no two runs are started in one second with the same start of
their ids, and a batch that is let in fits into both limits while no other batch of its run is
under way.
-/
def Separate (env : Env) (w : World) (m : Move) : Prop :=
  match m with
  | .init connectionId streams =>
    (∀ r run, w.state.runs r = some run →
      run.name ≠ generateSchemaName connectionId w.state.now)
      ∧ ∀ s ∈ streams, ∀ s' ∈ streams, tableName env s = tableName env s' → s = s'
  | .writeBatch r stream _ =>
    ∀ run, w.state.runs r = some run → ∀ s ∈ run.streams,
      tableName env s = tableName env stream → s = stream
  | .run t _ =>
    match w.state.tasks t with
    | some (.check r stream records) =>
      records = [] ∨ (∀ run, w.state.runs r = some run →
          env.config.maxTotalRecords ≤ run.totalRecords)
        ∨ (Room env w.state.db r stream records.length
          ∧ ∀ t' task, w.state.tasks t' = some task → ¬ task.writes r)
    | _ => True
  | _ => True

/-! The invariant -/

structure Sound (env : Env) (st : State) : Prop where
  fresh : ∀ r run, st.runs r = some run → r < st.nextRun
  apart : ∀ r r' run run', st.runs r = some run → st.runs r' = some run' → run.name = run'.name →
    r = r'
  streams : ∀ r run, st.runs r = some run → ∀ s ∈ run.streams, ∀ s' ∈ run.streams,
    tableName env s = tableName env s' → s = s'
  named : ∀ r run name, st.runs r = some run → run.schemaName = some name → name = run.name
  rows : ∀ row ∈ st.db.rows, ∃ run, st.runs row.run = some run ∧ row.schema = run.name
    ∧ row.table = tableName env row.stream ∧ row.stream ∈ run.streams
  capped : ∀ r, st.db.stored r ≤ env.config.maxTotalRecords.toNat
    ∧ ∀ stream, st.db.storedIn r stream ≤ env.config.maxRecordsPerStream.toNat

def TaskOk (env : Env) (st : State) : Task → Prop
  | .createSchema r name _ | .setSchema r name _ | .dropSchema r name =>
    ∃ run, st.runs r = some run ∧ run.name = name
  | .check r stream _ => ∃ run, st.runs r = some run ∧ stream ∈ run.streams
  | .ensureTable r stream records =>
    (∃ run, st.runs r = some run ∧ stream ∈ run.streams) ∧ Room env st.db r stream records.length
  | .insert r schema stream records _ =>
    (∃ run, st.runs r = some run ∧ run.name = schema ∧ stream ∈ run.streams)
      ∧ Room env st.db r stream records.length
  | _ => True

structure Inv (env : Env) (st : State) : Prop where
  sound : Sound env st
  tasks : ∀ t task, st.tasks t = some task → TaskOk env st task
  /-- A run has at most one batch that was let in. -/
  alone : ∀ t t' task task' r, st.tasks t = some task → st.tasks t' = some task' →
    task.writes r → task'.writes r → t = t'

variable {env : Env} {st st' : State}

theorem Sound.init (env : Env) : Sound env .init :=
  ⟨nofun, nofun, nofun, nofun, nofun, fun _ => ⟨Nat.zero_le _, fun _ => Nat.zero_le _⟩⟩

theorem Room.mono {db db' : Db} {r n : Nat} {stream : String} (h : Room env db r stream n)
    (hrows : db'.rows.Sublist db.rows) : Room env db' r stream n := by
  obtain ⟨htotal, hstream⟩ := h
  have : db'.stored r ≤ db.stored r := hrows.countP_le
  have : db'.storedIn r stream ≤ db.storedIn r stream := hrows.countP_le
  constructor <;> omega

/--
A task stays in order while its run keeps its name and its streams and nothing is stored.
-/
theorem TaskOk.mono {task : Task} (h : TaskOk env st task)
    (hkept : ∀ r run, st.runs r = some run → ∃ run', st'.runs r = some run' ∧ run'.name = run.name
      ∧ run.streams ⊆ run'.streams)
    (hrows : st'.db.rows.Sublist st.db.rows) : TaskOk env st' task := by
  cases task with
  | createSchema r name streams | setSchema r name streams | dropSchema r name =>
    obtain ⟨run, hrun, hname⟩ := h
    obtain ⟨run', hrun', hname', _⟩ := hkept r run hrun
    exact ⟨run', hrun', by rw [hname', hname]⟩
  | check r stream records =>
    obtain ⟨run, hrun, hstream⟩ := h
    obtain ⟨run', hrun', _, hstreams⟩ := hkept r run hrun
    exact ⟨run', hrun', hstreams hstream⟩
  | ensureTable r stream records =>
    obtain ⟨⟨run, hrun, hstream⟩, hroom⟩ := h
    obtain ⟨run', hrun', _, hstreams⟩ := hkept r run hrun
    exact ⟨⟨run', hrun', hstreams hstream⟩, hroom.mono hrows⟩
  | insert r schema stream records written =>
    obtain ⟨⟨run, hrun, hname, hstream⟩, hroom⟩ := h
    obtain ⟨run', hrun', hname', hstreams⟩ := hkept r run hrun
    exact ⟨⟨run', hrun', by rw [hname', hname], hstreams hstream⟩, hroom.mono hrows⟩
  | createTables | resetStats | recordSchema | count | forgetSchema | select | dropExpired
    | forgetExpired => trivial

/--
A step that keeps the runs, but perhaps for a schema name or a counter, and stores nothing.
-/
structure Tame (st st' : State) : Prop where
  runs : ∀ r run', st'.runs r = some run' → ∃ run, st.runs r = some run ∧ run'.name = run.name
    ∧ run'.streams = run.streams
    ∧ ∀ name, run'.schemaName = some name → name = run.name ∨ run.schemaName = some name
  kept : ∀ r run, st.runs r = some run → ∃ run', st'.runs r = some run' ∧ run'.name = run.name
    ∧ run'.streams = run.streams
  rows : st'.db.rows.Sublist st.db.rows
  tasks : st'.tasks = st.tasks
  nextRun : st'.nextRun = st.nextRun

namespace Tame

theorem withDb (st : State) {db : Db} (h : db.rows.Sublist st.db.rows)
    : Tame st { st with db := db } :=
  ⟨fun _ run hr => ⟨run, hr, rfl, rfl, fun _ => .inr⟩, fun _ run hr => ⟨run, hr, rfl, rfl⟩, h, rfl, rfl⟩

theorem refl (st : State) : Tame st st :=
  withDb st (.refl _)

theorem setRun {r : Nat} {run run' : Run} (hrun : st.runs r = some run)
    (hname : run'.name = run.name) (hstreams : run'.streams = run.streams)
    (hschema : ∀ name, run'.schemaName = some name → name = run.name ∨ run.schemaName = some name)
    : Tame st (st.setRun r run') := by
  refine ⟨?_, ?_, .refl _, rfl, rfl⟩
  . intro q run₁ hq
    simp only [State.setRun, Function.update_apply] at hq
    split at hq
    . next heq =>
      subst heq
      cases hq
      exact ⟨run, hrun, hname, hstreams, hschema⟩
    . exact ⟨run₁, hq, rfl, rfl, fun _ => .inr⟩
  . intro q run₁ hq
    simp only [State.setRun, Function.update_apply]
    split
    . next heq =>
      subst heq
      rw [hrun] at hq
      cases hq
      exact ⟨run', rfl, hname, hstreams⟩
    . exact ⟨run₁, hq, rfl, rfl⟩

theorem stored_le (h : Tame st st') (r : Nat) : st'.db.stored r ≤ st.db.stored r :=
  h.rows.countP_le

theorem storedIn_le (h : Tame st st') (r : Nat) (stream : String)
    : st'.db.storedIn r stream ≤ st.db.storedIn r stream :=
  h.rows.countP_le

theorem sound (h : Tame st st') (hsound : Sound env st) : Sound env st' := by
  constructor
  . intro r run' hr
    obtain ⟨run, hrun, _⟩ := h.runs r run' hr
    rw [h.nextRun]
    exact hsound.fresh r run hrun
  . intro r r' run₁ run₂ hr hr' heq
    obtain ⟨run, hrun, hname, _⟩ := h.runs r run₁ hr
    obtain ⟨run', hrun', hname', _⟩ := h.runs r' run₂ hr'
    apply hsound.apart r r' run run' hrun hrun'
    rw [← hname, ← hname', heq]
  . intro r run' hr
    obtain ⟨run, hrun, _, hstreams, _⟩ := h.runs r run' hr
    rw [hstreams]
    exact hsound.streams r run hrun
  . intro r run' name hr hschema
    obtain ⟨run, hrun, hname, _, hnamed⟩ := h.runs r run' hr
    rw [hname]
    cases hnamed name hschema with
    | inl heq => exact heq
    | inr hold => exact hsound.named r run name hrun hold
  . intro row hrow
    obtain ⟨run, hrun, hschema, htable, hstream⟩ := hsound.rows row (h.rows.subset hrow)
    obtain ⟨run', hrun', hname, hstreams⟩ := h.kept row.run run hrun
    exact ⟨run', hrun', by rw [hname, hschema], htable, by rw [hstreams]; exact hstream⟩
  . intro r
    constructor
    . exact Nat.le_trans (h.stored_le r) (hsound.capped r).1
    . intro stream
      exact Nat.le_trans (h.storedIn_le r stream) ((hsound.capped r).2 stream)

theorem taskOk (h : Tame st st') {task : Task} (htask : TaskOk env st task)
    : TaskOk env st' task := by
  apply htask.mono _ h.rows
  intro r run hrun
  obtain ⟨run', hrun', hname, hstreams⟩ := h.kept r run hrun
  exact ⟨run', hrun', hname, by rw [hstreams]; exact List.Subset.refl _⟩

end Tame

/-! Statements -/

theorem rows_createTable {db db' : Db} {schema table : String}
    (h : db.createTable schema table = some db') : db'.rows = db.rows := by
  simp only [Db.createTable] at h
  split at h
  . cases h
  . split at h <;> cases h <;> rfl

theorem rows_createSchema (db : Db) (name : String) : (db.createSchema name).rows = db.rows := by
  simp only [Db.createSchema]
  split <;> rfl

theorem rows_recordSchema (db : Db) (row : SchemaRow) : (db.recordSchema row).rows = db.rows := by
  simp only [Db.recordSchema]
  split <;> rfl

/--
A statement has no effect and is the last of its call, or has its effect.
-/
theorem statement_cases {outcome : Outcome} {db : Option Db} {next next' : Option Task} {e : Event}
    (h : statement st outcome db next = (e, next', st'))
    : (∀ aborted name, e ≠ .dropped aborted name)
      ∧ ((st' = st ∧ next' = none)
        ∨ ∃ db', db = some db' ∧ st' = { st with db := db' } ∧ (next' = none ∨ next' = next)) := by
  simp only [statement] at h
  split at h
  . next db' =>
    split at h
    . cases h
      exact ⟨nofun, .inr ⟨db', rfl, rfl, .inr rfl⟩⟩
    . cases h
      exact ⟨nofun, .inr ⟨db', rfl, rfl, .inl rfl⟩⟩
  . next db' =>
    cases h
    exact ⟨nofun, .inr ⟨db', rfl, rfl, .inl rfl⟩⟩
  . cases h
    exact ⟨nofun, .inl ⟨rfl, rfl⟩⟩

theorem ignoring_cases (st : State) (outcome : Outcome) (db : Db)
    : ignoring st outcome db = st ∨ ignoring st outcome db = { st with db := db } := by
  cases outcome with
  | fails => exact .inl rfl
  | done | lost => exact .inr rfl

theorem Tame.ignoring (st : State) (outcome : Outcome) {db : Db}
    (h : db.rows.Sublist st.db.rows) : Tame st (ignoring st outcome db) := by
  cases ignoring_cases st outcome db with
  | inl heq =>
    rw [heq]
    exact .refl st
  | inr heq =>
    rw [heq]
    exact .withDb st h

theorem Tame.statement {outcome : Outcome} {db : Option Db} {next next' : Option Task} {e : Event}
    (h : statement st outcome db next = (e, next', st')) (hrows : ∀ db' ∈ db, db'.rows = st.db.rows)
    : Tame st st' := by
  obtain ⟨rfl, _⟩ | ⟨db', hdb, rfl, _⟩ := (statement_cases h).2
  . exact .refl _
  . apply Tame.withDb
    rw [hrows db' hdb]

theorem statement_next {outcome : Outcome} {db : Option Db} {next next' : Option Task} {e : Event}
    {task : Task} (h : statement st outcome db next = (e, next', st')) (htask : task ∈ next')
    : task ∈ next := by
  obtain ⟨_, rfl⟩ | ⟨_, _, _, rfl | rfl⟩ := (statement_cases h).2
  . cases htask
  . cases htask
  . exact htask

/-! Operations -/

/--
The operation stores a record.
-/
def Task.stores : Task → Bool
  | .insert _ _ _ (_ :: _) _ => true
  | _ => false

theorem operate_tame {task : Task} {outcome : Outcome} {e : Event} {next : Option Task}
    (htask : TaskOk env st task) (hstores : task.stores = false)
    (h : operate env task outcome st = (e, next, st')) : Tame st st' := by
  cases task with
  | createSchema r name streams =>
    simp only [operate] at h
    apply Tame.statement h
    rintro _ ⟨⟩
    exact rows_createSchema st.db name
  | setSchema r name streams =>
    obtain ⟨run, hrun, rfl⟩ := htask
    simp only [operate, hrun] at h
    cases h
    refine .setRun hrun rfl rfl ?_
    intro name hname
    cases hname
    exact .inl rfl
  | createTables r name streams =>
    cases streams with
    | nil =>
      cases h
      exact .refl _
    | cons stream streams =>
      simp only [operate] at h
      apply Tame.statement h
      intro db' hdb
      exact rows_createTable hdb
  | resetStats r name =>
    simp only [operate] at h
    split at h
    . next run hrun =>
      cases h
      exact .setRun hrun rfl rfl (fun _ => .inr)
    . cases h
      exact .refl _
  | recordSchema r name =>
    simp only [operate] at h
    split at h
    . apply Tame.statement h
      rintro _ ⟨⟩
      exact rows_recordSchema st.db _
    . cases h
      exact .refl _
  | check r stream records =>
    simp only [operate] at h
    split at h
    . split at h
      . cases h
        exact .refl _
      . split at h <;> cases h <;> exact .refl _
    . cases h
      exact .refl _
  | ensureTable r stream records =>
    simp only [operate] at h
    split at h
    . apply Tame.statement h
      intro db' hdb
      exact rows_createTable hdb
    . cases h
      exact .refl _
  | insert r schema stream records written =>
    cases records with
    | nil =>
      cases h
      exact .refl _
    | cons data records => cases hstores
  | count r written =>
    simp only [operate] at h
    split at h
    . next run hrun =>
      cases h
      exact .setRun hrun rfl rfl (fun _ => .inr)
    . cases h
      exact .refl _
  | dropSchema r name =>
    cases h
    exact .ignoring st outcome List.filter_sublist
  | forgetSchema name =>
    cases h
    exact .ignoring st outcome (.refl _)
  | select =>
    simp only [operate] at h
    split at h <;> cases h <;> exact .refl _
  | dropExpired names =>
    cases names with
    | nil =>
      cases h
      exact .refl _
    | cons name names =>
      cases h
      exact .ignoring st outcome List.filter_sublist
  | forgetExpired name names =>
    cases h
    exact .ignoring st outcome (.refl _)

/--
The batch is let in.
-/
def LetIn (env : Env) (st : State) (task : Task) (r : Nat) : Prop :=
  ∃ stream records run, task = .check r stream records ∧ records ≠ [] ∧ st.runs r = some run
    ∧ ¬ env.config.maxTotalRecords ≤ run.totalRecords

/--
What a call comes to next is in order, and it only writes when it did before or is let in.
-/
theorem operate_next {task task' : Task} {outcome : Outcome} {e : Event} {next : Option Task}
    (hsound : Sound env st) (htask : TaskOk env st task) (hstores : task.stores = false)
    (hroom : ∀ r stream records, task = .check r stream records → LetIn env st task r →
      Room env st.db r stream records.length)
    (h : operate env task outcome st = (e, next, st')) (hnext : task' ∈ next)
    : TaskOk env st task' ∧ ∀ r, task'.writes r → task.writes r ∨ LetIn env st task r := by
  cases task with
  | createSchema r name streams =>
    simp only [operate] at h
    cases statement_next h hnext
    exact ⟨htask, fun _ => False.elim⟩
  | setSchema r name streams =>
    obtain ⟨run, hrun, rfl⟩ := htask
    simp only [operate, hrun] at h
    cases h
    cases hnext
    exact ⟨trivial, fun _ => False.elim⟩
  | createTables r name streams =>
    cases streams with
    | nil =>
      cases h
      cases hnext
      exact ⟨trivial, fun _ => False.elim⟩
    | cons stream streams =>
      simp only [operate] at h
      cases statement_next h hnext
      exact ⟨trivial, fun _ => False.elim⟩
  | resetStats r name =>
    simp only [operate] at h
    split at h
    . cases h
      cases hnext
      exact ⟨trivial, fun _ => False.elim⟩
    . cases h
      cases hnext
  | recordSchema r name =>
    simp only [operate] at h
    split at h
    . cases statement_next h hnext
    . cases h
      cases hnext
  | check r stream records =>
    simp only [operate] at h
    split at h
    . next run hrun =>
      split at h
      . cases h
        cases hnext
      . next hne =>
        split at h
        . cases h
          cases hnext
        . next hlt =>
          cases h
          cases hnext
          have hlet : LetIn env st (.check r stream records) r :=
            ⟨stream, records, run, rfl, by simpa using hne, hrun, hlt⟩
          refine ⟨⟨htask, hroom r stream records rfl hlet⟩, ?_⟩
          rintro q rfl
          exact .inr hlet
    . cases h
      cases hnext
  | ensureTable r stream records =>
    obtain ⟨⟨run, hrun, hstream⟩, hroom'⟩ := htask
    simp only [operate, hrun, Option.bind_some] at h
    split at h
    . next schema hschema =>
      cases statement_next h hnext
      refine ⟨⟨⟨run, hrun, (hsound.named r run schema hrun hschema).symm, hstream⟩, hroom'⟩, ?_⟩
      rintro q rfl
      exact .inl rfl
    . cases h
      cases hnext
  | insert r schema stream records written =>
    cases records with
    | nil =>
      cases h
      cases hnext
      exact ⟨trivial, fun _ => False.elim⟩
    | cons data records => cases hstores
  | count r written =>
    simp only [operate] at h
    split at h <;> cases h <;> cases hnext
  | dropSchema r name =>
    cases h
    cases hnext
    exact ⟨trivial, fun _ => False.elim⟩
  | forgetSchema name =>
    cases h
    cases hnext
  | select =>
    simp only [operate] at h
    split at h
    . cases h
      cases hnext
      exact ⟨trivial, fun _ => False.elim⟩
    . cases h
      cases hnext
  | dropExpired names =>
    cases names with
    | nil =>
      cases h
      cases hnext
    | cons name names =>
      cases h
      cases hnext
      split <;> exact ⟨trivial, fun _ => False.elim⟩
  | forgetExpired name names =>
    cases h
    cases hnext
    exact ⟨trivial, fun _ => False.elim⟩

/-! A stored record -/

theorem rows_insert {db db' : Db} {row : Row} (h : db.insert row = some db')
    : db' = { db with rows := row :: db.rows } := by
  simp only [Db.insert] at h
  split at h <;> cases h
  rfl

theorem stored_cons (db : Db) (row : Row) (r : Nat)
    : Db.stored { db with rows := row :: db.rows } r
        = db.stored r + if row.run = r then 1 else 0 := by
  simp only [Db.stored, List.countP_cons, decide_eq_true_eq]

theorem storedIn_cons (db : Db) (row : Row) (r : Nat) (stream : String)
    : Db.storedIn { db with rows := row :: db.rows } r stream
        = db.storedIn r stream + if row.run = r ∧ row.stream = stream then 1 else 0 := by
  simp only [Db.storedIn, List.countP_cons, decide_eq_true_eq]

theorem Room.cons {db : Db} (row : Row) {n : Nat}
    (h : Room env db row.run row.stream (n + 1))
    : Room env { db with rows := row :: db.rows } row.run row.stream n := by
  obtain ⟨htotal, hstream⟩ := h
  constructor
  . rw [stored_cons, if_pos rfl]
    omega
  . rw [storedIn_cons, if_pos ⟨rfl, rfl⟩]
    omega

/--
A record takes no room from other runs.
-/
theorem Room.cons_of_ne {db : Db} {row : Row} {r n : Nat} {stream : String}
    (h : Room env db r stream n) (hne : row.run ≠ r)
    : Room env { db with rows := row :: db.rows } r stream n := by
  constructor
  . rw [stored_cons, if_neg hne]
    exact h.1
  . rw [storedIn_cons, if_neg (fun heq => hne heq.1)]
    exact h.2

theorem Sound.cons (row : Row) {run : Run} (h : Sound env st) (hrun : st.runs row.run = some run)
    (hschema : row.schema = run.name) (htable : row.table = tableName env row.stream)
    (hstream : row.stream ∈ run.streams) (hroom : Room env st.db row.run row.stream 1)
    : Sound env { st with db := { st.db with rows := row :: st.db.rows } } := by
  refine ⟨h.fresh, h.apart, h.streams, h.named, ?_, ?_⟩
  . intro row' hrow'
    cases hrow' with
    | head => exact ⟨run, hrun, hschema, htable, hstream⟩
    | tail _ hrow' => exact h.rows row' hrow'
  . intro r
    have hcapped := h.capped r
    constructor
    . simp only [stored_cons]
      split
      . next heq =>
        subst heq
        exact hroom.1
      . exact hcapped.1
    . intro stream
      simp only [storedIn_cons]
      split
      . next heq =>
        obtain ⟨rfl, rfl⟩ := heq
        exact hroom.2
      . exact hcapped.2 stream

theorem TaskOk.cons {row : Row} {task : Task} (h : TaskOk env st task)
    (hwrites : ¬ task.writes row.run)
    : TaskOk env { st with db := { st.db with rows := row :: st.db.rows } } task := by
  cases task with
  | ensureTable r stream records => exact ⟨h.1, h.2.cons_of_ne (Ne.symm hwrites)⟩
  | insert r schema stream records written => exact ⟨h.1, h.2.cons_of_ne (Ne.symm hwrites)⟩
  | createSchema | setSchema | dropSchema | check | createTables | resetStats | recordSchema | count
    | forgetSchema | select | dropExpired | forgetExpired => exact h

/-! Steps -/

/--
A step of the task `t` that leaves the other tasks in order.
-/
theorem Inv.goTo {t : Nat} {next : Option Task} (h : Inv env st) (hsound : Sound env st')
    (htasks : st'.tasks = st.tasks)
    (hothers : ∀ t' task, t' ≠ t → st.tasks t' = some task → TaskOk env st' task)
    (hnext : ∀ task ∈ next, TaskOk env st' task)
    (halone : ∀ task ∈ next, ∀ r, task.writes r →
      ∀ t' task', t' ≠ t → st.tasks t' = some task' → ¬ task'.writes r)
    : Inv env (st'.goTo t next) := by
  have hat : ∀ t' task, (st'.goTo t next).tasks t' = some task →
      (t' = t ∧ task ∈ next) ∨ (t' ≠ t ∧ st.tasks t' = some task) := by
    intro t' task ht
    simp only [State.goTo, Function.update_apply, htasks] at ht
    split at ht
    . next heq => exact .inl ⟨heq, ht⟩
    . next hne => exact .inr ⟨hne, ht⟩
  refine ⟨⟨hsound.fresh, hsound.apart, hsound.streams, hsound.named, hsound.rows, hsound.capped⟩, ?_, ?_⟩
  . intro t' task ht
    cases hat t' task ht with
    | inl hself => exact hnext task hself.2
    | inr hother => exact hothers t' task hother.1 hother.2
  . intro t₁ t₂ task₁ task₂ r h₁ h₂ hw₁ hw₂
    rcases hat t₁ task₁ h₁ with ⟨rfl, hn₁⟩ | ⟨hne₁, ho₁⟩
      <;> rcases hat t₂ task₂ h₂ with ⟨rfl, hn₂⟩ | ⟨hne₂, ho₂⟩
    . rfl
    . exact absurd hw₂ (halone task₁ hn₁ r hw₁ t₂ task₂ hne₂ ho₂)
    . exact absurd hw₁ (halone task₂ hn₂ r hw₂ t₁ task₁ hne₁ ho₁)
    . exact h.alone t₁ t₂ task₁ task₂ r ho₁ ho₂ hw₁ hw₂

theorem LetIn.separate {w : World} {t r : Nat} {task : Task} {outcome : Outcome}
    (htask : w.state.tasks t = some task) (hok : Separate env w (.run t outcome))
    (hlet : LetIn env w.state task r)
    : (∀ stream records, task = .check r stream records →
        Room env w.state.db r stream records.length)
      ∧ ∀ t' task', w.state.tasks t' = some task' → ¬ task'.writes r := by
  obtain ⟨stream, records, run, rfl, hne, hrun, hlt⟩ := hlet
  simp only [Separate, htask] at hok
  rcases hok with hnil | hfull | ⟨hroom, halone⟩
  . exact absurd hnil hne
  . exact absurd (hfull run hrun) hlt
  . refine ⟨?_, halone⟩
    rintro _ _ ⟨⟩
    exact hroom

theorem Inv.run {w : World} {t : Nat} {task : Task} {outcome : Outcome} {e : Event}
    {next : Option Task} {st' : State} (h : Inv env w.state) (htask : w.state.tasks t = some task)
    (hok : Separate env w (.run t outcome))
    (hop : operate env task outcome w.state = (e, next, st')) : Inv env (st'.goTo t next) := by
  have htaskOk := h.tasks t task htask
  cases hstores : task.stores with
  | false =>
    have htame := operate_tame htaskOk hstores hop
    have hnext : ∀ task' ∈ next, _ := fun task' hmem =>
      operate_next h.sound htaskOk hstores
        (fun r stream records heq hlet => (hlet.separate htask hok).1 stream records heq) hop hmem
    refine h.goTo (htame.sound h.sound) htame.tasks ?_ ?_ ?_
    . intro t' other _ ht'
      exact htame.taskOk (h.tasks t' other ht')
    . intro task' hmem
      exact htame.taskOk (hnext task' hmem).1
    . intro task' hmem r hwrites t' other hne ht' hother
      cases (hnext task' hmem).2 r hwrites with
      | inl hbefore => exact hne (h.alone t' t other task r ht' htask hother hbefore)
      | inr hlet => exact (hlet.separate htask hok).2 t' other ht' hother
  | true =>
    cases task with
    | insert r schema stream records written =>
      cases records with
      | nil => cases hstores
      | cons data records =>
        obtain ⟨⟨run, hrun, hname, hstream⟩, hroom⟩ := htaskOk
        have halone : ∀ t' other, t' ≠ t → w.state.tasks t' = some other → ¬ other.writes r :=
          fun t' other hne ht' hother => hne (h.alone t' t other _ r ht' htask hother rfl)
        simp only [operate] at hop
        obtain ⟨rfl, rfl⟩ | ⟨db', hdb, rfl, hnext⟩ := (statement_cases hop).2
        . exact h.goTo h.sound rfl (fun t' other _ ht' => h.tasks t' other ht') nofun nofun
        . cases rows_insert hdb
          have hroom' : Room env w.state.db r stream (records.length + 1) := hroom
          have hone : Room env w.state.db r stream 1 := by
            have := hroom'.1
            have := hroom'.2
            constructor <;> omega
          refine h.goTo (h.sound.cons ⟨schema, tableName env stream, data, r, stream⟩ hrun
            hname.symm rfl hstream hone) rfl ?_ ?_ ?_
          . intro t' other hne ht'
            exact (h.tasks t' other ht').cons (halone t' other hne ht')
          . intro task' hmem
            obtain rfl | rfl := hnext
            . cases hmem
            . cases hmem
              exact ⟨⟨run, hrun, hname, hstream⟩,
                Room.cons ⟨schema, tableName env stream, data, r, stream⟩ hroom'⟩
          . intro task' hmem q hwrites t' other hne ht'
            obtain rfl | rfl := hnext
            . cases hmem
            . cases hmem
              cases hwrites
              exact halone t' other hne ht'
    | createSchema | setSchema | createTables | resetStats | recordSchema | check | ensureTable | count
      | dropSchema | forgetSchema | select | dropExpired | forgetExpired => cases hstores

theorem Inv.spawn {task : Task} (h : Inv env st) (hsound : Sound env st')
    (htasks : st'.tasks = st.tasks)
    (hothers : ∀ t task, st.tasks t = some task → TaskOk env st' task)
    (htask : TaskOk env st' task) (hwrites : ∀ r, ¬ task.writes r) : Inv env (st'.spawn task) := by
  have hgo : Inv env (st'.goTo st'.nextTask (some task)) := by
    refine h.goTo hsound htasks (fun t other _ ht => hothers t other ht) ?_ ?_
    . rintro _ ⟨⟩
      exact htask
    . rintro _ ⟨⟩ r hr
      exact absurd hr (hwrites r)
  have hsound' := hgo.sound
  exact ⟨⟨hsound'.fresh, hsound'.apart, hsound'.streams, hsound'.named, hsound'.rows, hsound'.capped⟩,
    hgo.tasks, hgo.alone⟩

/--
The state in which a run begins.
-/
def State.begin (st : State) (run : Run) : State :=
  { st.setRun st.nextRun run with nextRun := st.nextRun + 1 }

theorem Sound.begin {run : Run} (h : Sound env st) (hschema : run.schemaName = none)
    (hname : ∀ r run', st.runs r = some run' → run'.name ≠ run.name)
    (hstreams : ∀ s ∈ run.streams, ∀ s' ∈ run.streams, tableName env s = tableName env s' → s = s')
    : Sound env (st.begin run) := by
  have hat : ∀ r run', (st.begin run).runs r = some run' →
      (r = st.nextRun ∧ run' = run) ∨ st.runs r = some run' := by
    intro r run' hr
    simp only [State.begin, State.setRun, Function.update_apply] at hr
    split at hr
    . next heq =>
      cases hr
      exact .inl ⟨heq, rfl⟩
    . exact .inr hr
  constructor
  . intro r run' hr
    rcases hat r run' hr with ⟨rfl, _⟩ | hold
    . exact Nat.lt_succ_self _
    . exact Nat.lt_succ_of_lt (h.fresh r run' hold)
  . intro r r' run₁ run₂ hr hr' heq
    rcases hat r run₁ hr with ⟨rfl, rfl⟩ | hold <;> rcases hat r' run₂ hr' with ⟨rfl, rfl⟩ | hold'
    . rfl
    . exact absurd heq.symm (hname r' run₂ hold')
    . exact absurd heq (hname r run₁ hold)
    . exact h.apart r r' run₁ run₂ hold hold' heq
  . intro r run' hr
    rcases hat r run' hr with ⟨_, rfl⟩ | hold
    . exact hstreams
    . exact h.streams r run' hold
  . intro r run' name hr hname'
    rcases hat r run' hr with ⟨_, rfl⟩ | hold
    . rw [hschema] at hname'
      cases hname'
    . exact h.named r run' name hold hname'
  . intro row hrow
    obtain ⟨run', hrun', hrest⟩ := h.rows row hrow
    have hne : row.run ≠ st.nextRun := Nat.ne_of_lt (h.fresh row.run run' hrun')
    exact ⟨run', by simp only [State.begin, State.setRun, Function.update_of_ne hne, hrun'], hrest⟩
  . exact h.capped

/--
A run is given one more stream.
-/
theorem Sound.addStream {r : Nat} {run : Run} {stream : String} (h : Sound env st)
    (hrun : st.runs r = some run)
    (hstream : ∀ s ∈ run.streams, tableName env s = tableName env stream → s = stream)
    : Sound env (st.setRun r { run with streams := stream :: run.streams }) := by
  have hat : ∀ q run', (st.setRun r { run with streams := stream :: run.streams }).runs q = some run' →
      ∃ run₁, st.runs q = some run₁ ∧ run'.name = run₁.name ∧ run'.schemaName = run₁.schemaName
        ∧ (run'.streams = run₁.streams ∨ (run₁ = run ∧ run'.streams = stream :: run.streams)) := by
    intro q run' hq
    simp only [State.setRun, Function.update_apply] at hq
    split at hq
    . next heq =>
      subst heq
      cases hq
      exact ⟨run, hrun, rfl, rfl, .inr ⟨rfl, rfl⟩⟩
    . exact ⟨run', hq, rfl, rfl, .inl rfl⟩
  constructor
  . intro q run' hq
    obtain ⟨run₁, hrun₁, _⟩ := hat q run' hq
    exact h.fresh q run₁ hrun₁
  . intro q q' run₁ run₂ hq hq' heq
    obtain ⟨run₁', h₁, hname₁, _⟩ := hat q run₁ hq
    obtain ⟨run₂', h₂, hname₂, _⟩ := hat q' run₂ hq'
    apply h.apart q q' run₁' run₂' h₁ h₂
    rw [← hname₁, ← hname₂, heq]
  . intro q run' hq s hs s' hs' heq
    obtain ⟨run₁, hrun₁, _, _, hsame | ⟨rfl, hmore⟩⟩ := hat q run' hq
    . rw [hsame] at hs hs'
      exact h.streams q run₁ hrun₁ s hs s' hs' heq
    . rw [hmore] at hs hs'
      cases hs with
      | head =>
        cases hs' with
        | head => rfl
        | tail _ hs' => exact (hstream s' hs' heq.symm).symm
      | tail _ hs =>
        cases hs' with
        | head => exact hstream s hs heq
        | tail _ hs' => exact h.streams q run₁ hrun₁ s hs s' hs' heq
  . intro q run' name hq hname
    obtain ⟨run₁, hrun₁, hname₁, hschema, _⟩ := hat q run' hq
    rw [hname₁]
    exact h.named q run₁ name hrun₁ (by rw [← hschema, hname])
  . intro row hrow
    obtain ⟨run₁, hrun₁, hschema, htable, hmem⟩ := h.rows row hrow
    by_cases heq : row.run = r
    . subst heq
      rw [hrun] at hrun₁
      cases hrun₁
      exact ⟨{ run with streams := stream :: run.streams },
        by simp only [State.setRun, Function.update_self], hschema, htable, List.mem_cons_of_mem _ hmem⟩
    . exact ⟨run₁, by simp only [State.setRun, Function.update_of_ne heq, hrun₁], hschema, htable, hmem⟩
  . exact h.capped

theorem Inv.step {m : Move} {w : World} {e : Event} {st' : State} (h : Inv env w.state)
    (hok : Separate env w m) (hstep : step env m w.state = some (e, st')) : Inv env st' := by
  cases m with
  | init connectionId streams =>
    cases hstep
    have hsound : Sound env (w.state.begin ⟨connectionId, w.state.now, streams, none, 0⟩) :=
      h.sound.begin rfl hok.1 hok.2
    refine h.spawn hsound rfl ?_ ?_ (fun _ => id)
    . intro t task ht
      refine TaskOk.mono (h.tasks t task ht) ?_ (List.Sublist.refl w.state.db.rows)
      intro r run hrun
      have hne : r ≠ w.state.nextRun := Nat.ne_of_lt (h.sound.fresh r run hrun)
      exact ⟨run, by simp only [State.setRun, Function.update_of_ne hne, hrun], rfl,
        List.Subset.refl _⟩
    . exact ⟨⟨connectionId, w.state.now, streams, none, 0⟩,
        by simp only [State.setRun, Function.update_self], rfl⟩
  | writeBatch r stream records =>
    simp only [Sandbox.step, Option.map_eq_some_iff] at hstep
    obtain ⟨run, hrun, heq⟩ := hstep
    cases heq
    refine h.spawn (h.sound.addStream hrun (hok run hrun)) rfl ?_ ?_ (fun _ => id)
    . intro t task ht
      refine TaskOk.mono (h.tasks t task ht) ?_ (List.Sublist.refl w.state.db.rows)
      intro q run' hq
      by_cases heq : q = r
      . subst heq
        rw [hrun] at hq
        cases hq
        exact ⟨{ run with streams := stream :: run.streams },
          by simp only [State.setRun, Function.update_self], rfl, List.subset_cons_self _ _⟩
      . exact ⟨run', by simp only [State.setRun, Function.update_of_ne heq, hq], rfl,
          List.Subset.refl _⟩
    . exact ⟨{ run with streams := stream :: run.streams },
        by simp only [State.setRun, Function.update_self], List.mem_cons_self⟩
  | abort r =>
    simp only [Sandbox.step, Option.map_eq_some_iff] at hstep
    obtain ⟨run, hrun, heq⟩ := hstep
    split at heq
    . next name hname =>
      cases heq
      refine h.spawn h.sound rfl h.tasks ?_ (fun _ => id)
      exact ⟨run, hrun, (h.sound.named r run name hrun hname).symm⟩
    . cases heq
      exact h
  | cleanup =>
    cases hstep
    exact h.spawn h.sound rfl h.tasks trivial (fun _ => id)
  | run t outcome =>
    simp only [Sandbox.step, Option.map_eq_some_iff] at hstep
    obtain ⟨task, htask, hrun⟩ := hstep
    simp only [runTask] at hrun
    cases hrun
    exact h.run htask hok rfl
  | hangUp t =>
    cases hstep
    refine h.goTo h.sound rfl (fun t' task _ ht' => h.tasks t' task ht') ?_ ?_ <;> rintro _ ⟨⟩
  | wait d =>
    cases hstep
    exact ⟨⟨h.sound.fresh, h.sound.apart, h.sound.streams, h.sound.named, h.sound.rows,
      h.sound.capped⟩, h.tasks, h.alone⟩

theorem Inv.of_reached {w : World} (h : (machine env).Reached (Separate env) w)
    : Inv env w.state := by
  apply h.invariant (P := fun w => Inv env w.state)
  . exact ⟨.init env, nofun, nofun⟩
  . intro m w e st hinv hok hstep
    exact hinv.step hok hstep

/-! Drops -/

theorem contents_dropSchema (db : Db) {name name' : String} (hne : name' ≠ name)
    : (db.dropSchema name).contents name' = db.contents name' := by
  simp only [Db.contents, Db.dropSchema, List.filter_filter, Prod.mk.injEq, List.mem_filter]
  refine ⟨by simp [hne], ?_, ?_⟩
  . apply List.filter_congr
    intro table _
    by_cases heq : table.1 = name' <;> simp [heq, hne]
  . apply List.filter_congr
    intro row _
    by_cases heq : row.schema = name' <;> simp [heq, hne]

/--
A schema is dropped by the abort of a run or by the worker, and that is all the step does.
-/
theorem operate_dropped {task : Task} {outcome : Outcome} {next : Option Task}
    {aborted : Option Nat} {name : String}
    (h : operate env task outcome st = (.dropped aborted name, next, st'))
    : st' = ignoring st outcome (st.db.dropSchema name)
      ∧ ∀ r ∈ aborted, task = .dropSchema r name := by
  cases task with
  | dropSchema r name' =>
    cases h
    exact ⟨rfl, by rintro _ ⟨⟩; rfl⟩
  | dropExpired names =>
    cases names with
    | nil => cases h
    | cons name' names =>
      cases h
      exact ⟨rfl, nofun⟩
  | createSchema r name' streams =>
    simp only [operate] at h
    exact absurd rfl ((statement_cases h).1 _ _)
  | createTables r name' streams =>
    cases streams with
    | nil => cases h
    | cons stream streams =>
      simp only [operate] at h
      exact absurd rfl ((statement_cases h).1 _ _)
  | recordSchema r name' =>
    simp only [operate] at h
    split at h
    . exact absurd rfl ((statement_cases h).1 _ _)
    . cases h
  | ensureTable r stream records =>
    simp only [operate] at h
    split at h
    . exact absurd rfl ((statement_cases h).1 _ _)
    . cases h
  | insert r schema stream records written =>
    cases records with
    | nil => cases h
    | cons data records =>
      simp only [operate] at h
      exact absurd rfl ((statement_cases h).1 _ _)
  | check r stream records =>
    simp only [operate] at h
    split at h
    . split at h
      . cases h
      . split at h <;> cases h
    . cases h
  | setSchema | resetStats | count | select =>
    simp only [operate] at h
    split at h <;> cases h
  | forgetSchema | forgetExpired => cases h

theorem step_dropped {m : Move} {aborted : Option Nat} {name : String}
    (h : step env m st = some (.dropped aborted name, st'))
    : ∃ t task outcome, m = .run t outcome ∧ st.tasks t = some task
      ∧ (∀ r ∈ aborted, task = .dropSchema r name)
      ∧ st'.db = (ignoring st outcome (st.db.dropSchema name)).db := by
  cases m with
  | run t outcome =>
    simp only [step, Option.map_eq_some_iff] at h
    obtain ⟨task, htask, hrun⟩ := h
    simp only [runTask, Prod.mk.injEq] at hrun
    cases hop : operate env task outcome st with
    | mk e rest =>
      obtain ⟨next, st₁⟩ := rest
      simp only [hop] at hrun
      obtain ⟨rfl, rfl⟩ := hrun
      have hdropped := operate_dropped hop
      refine ⟨t, task, outcome, rfl, htask, hdropped.2, ?_⟩
      rw [hdropped.1]
      rfl
  | abort r =>
    simp only [step, Option.map_eq_some_iff] at h
    obtain ⟨run, _, heq⟩ := h
    split at heq <;> cases heq
  | writeBatch r stream records =>
    simp only [step, Option.map_eq_some_iff] at h
    obtain ⟨run, _, heq⟩ := h
    cases heq
  | init | cleanup | hangUp | wait => cases h

/--
The schema that is dropped is the one of at most one run.
-/
theorem Inv.owner (h : Inv env st) (name : String) {t : Nat} {task : Task} {aborted : Option Nat}
    (htask : st.tasks t = some task) (haborted : ∀ r ∈ aborted, task = .dropSchema r name)
    : ∃ r, (∀ r' ∈ aborted, r' = r) ∧ ∀ r' run' name', r' ≠ r → st.runs r' = some run' →
        run'.schemaName = some name' → name' ≠ name := by
  cases aborted with
  | some r =>
    refine ⟨r, by rintro _ ⟨⟩; rfl, ?_⟩
    rintro r' run' name' hne hrun' hname' rfl
    have htaskOk := h.tasks t task htask
    rw [haborted r rfl] at htaskOk
    obtain ⟨run, hrun, hname⟩ := htaskOk
    apply hne
    apply h.sound.apart r' r run' run hrun' hrun
    rw [hname]
    exact (h.sound.named r' run' name' hrun' hname').symm
  | none =>
    by_cases hex : ∃ r run, st.runs r = some run ∧ run.schemaName = some name
    . obtain ⟨r, run, hrun, hname⟩ := hex
      refine ⟨r, nofun, ?_⟩
      rintro r' run' name' hne hrun' hname' rfl
      apply hne
      apply h.sound.apart r' r run' run hrun' hrun
      rw [← h.sound.named r' run' name' hrun' hname', ← h.sound.named r run name' hrun hname]
    . refine ⟨0, nofun, ?_⟩
      rintro r' run' name' _ hrun' hname' rfl
      exact hex ⟨r', run', hrun', hname'⟩

theorem sandboxSafe (env : Env) : SandboxSafe env (Separate env) := by
  constructor
  . intro w hw row hrow r stream howns
    have hinv := Inv.of_reached hw
    obtain ⟨run, hrun, hschema, hstream, htable⟩ := howns
    obtain ⟨run', hrun', hschema', htable', hstream'⟩ := hinv.sound.rows row hrow
    have hr : row.run = r := by
      apply hinv.sound.apart row.run r run' run hrun' hrun
      rw [← hschema']
      exact hinv.sound.named r run row.schema hrun hschema
    subst hr
    rw [hrun] at hrun'
    cases hrun'
    refine ⟨rfl, ?_⟩
    apply hinv.sound.streams row.run run hrun row.stream hstream' stream hstream
    rw [← htable', htable]
  . intro w hw m w' aborted name hok hnext hdropped
    rw [next_eq_some_iff] at hnext
    obtain ⟨e, st, hstep, rfl⟩ := hnext
    simp only [List.head?_cons, Option.some.injEq] at hdropped
    subst hdropped
    obtain ⟨t, task, outcome, rfl, htask, haborted, hdb⟩ := step_dropped hstep
    obtain ⟨r, hr, howner⟩ := (Inv.of_reached hw).owner name htask haborted
    refine ⟨r, hr, ?_⟩
    intro r' run' name' hne hrun' hname'
    have hne' := howner r' run' name' hne hrun' hname'
    rw [hdb]
    cases ignoring_cases w.state outcome (w.state.db.dropSchema name) with
    | inl heq => rw [heq]
    | inr heq =>
      rw [heq]
      exact contents_dropSchema w.state.db hne'
  . intro w hw
    exact (Inv.of_reached hw).sound.capped

end Reactor.Connect.Sandbox
