import ReactorCloud.Rust.HashMap

/-!
This module contains the loop of `SyncExecutor::execute`, which reads the messages of a connector, collects
their records and hands them to a sink, and proves when its totals account for what the sink was given. The
counters are numbers without a bound.
-/

namespace Reactor.Connect.Sync

open Rust (HashMap)

/-! ## Data -/

structure SyncOptions where
  batchSize : Nat := 1000
  batchBytes : Nat := 10 * 1024 * 1024
  maxDuration : Option Nat := none
  maxRecords : Option Nat := none
  checkpointInterval : Nat := 10000

/--
The data is its text in JSON.
-/
structure AirbyteRecordMessage where
  stream : String
  data : String
  deriving DecidableEq

def AirbyteRecordMessage.size (record : AirbyteRecordMessage) : Nat :=
  record.data.utf8ByteSize

structure AirbyteTraceError where
  failureType : String
  message : String
  stackTrace : Option String

inductive ConnectorMessage where
  | record (record : AirbyteRecordMessage)
  | state (state : String)
  | log
  | trace (error : Option AirbyteTraceError)
  | other

inductive ConnectError where
  | actionFailed (code cause : String) (suggestedFix : Option String)
  | other (text : String)

structure SinkWriteOutcome where
  recordsWritten : Nat
  bytesWritten : Nat

structure StreamSyncStats where
  recordsRead : Nat := 0
  recordsWritten : Nat := 0
  bytesWritten : Nat := 0

structure SyncError where
  code : String
  message : String
  suggestedFix : Option String

structure SyncOutcome where
  success : Bool
  recordsRead : Nat
  recordsWritten : Nat
  bytesWritten : Nat
  streamStats : HashMap StreamSyncStats
  error : Option SyncError

/--
A batch and what the sink said of it.
-/
structure Write where
  stream : String
  records : List AirbyteRecordMessage
  outcome : SinkWriteOutcome

/--
A sink that writes every record it is given. The number is that of the writes before.
-/
structure DestinationSink where
  writeBatch : Nat → String → List AirbyteRecordMessage → Except ConnectError SinkWriteOutcome
  checkpoint : Nat → String → Except ConnectError Unit
  finalize : Except ConnectError Unit
  writes_all : ∀ n stream records outcome,
    writeBatch n stream records = .ok outcome → outcome.recordsWritten = records.length

/--
What the run depends on. The map of a buffer drains in some order, and the time is that which has passed when
a message is read.
-/
structure Surroundings where
  options : SyncOptions
  messages : List (Except ConnectError ConnectorMessage)
  sink : DestinationSink
  persist : Nat → Except ConnectError Unit
  persistFinal : Except ConnectError Unit
  elapsed : Nat → Nat
  drain : Nat → List (Σ _ : String, List AirbyteRecordMessage) → List (Σ _ : String, List AirbyteRecordMessage)
  drain_perm : ∀ n entries, (drain n entries).Perm entries

structure RecordBuffer where
  streams : HashMap (List AirbyteRecordMessage)
  totalRecords : Nat
  totalBytes : Nat

namespace RecordBuffer

def new : RecordBuffer :=
  ⟨∅, 0, 0⟩

def push (buffer : RecordBuffer) (record : AirbyteRecordMessage) : RecordBuffer where
  streams := buffer.streams.insert record.stream ((buffer.streams.lookup record.stream).getD [] ++ [record])
  totalRecords := buffer.totalRecords + 1
  totalBytes := buffer.totalBytes + record.size

end RecordBuffer

/--
The variables of the run, and the batches that the sink has taken.
-/
structure Run where
  buffer : RecordBuffer := .new
  recordsRead : Nat := 0
  recordsWritten : Nat := 0
  bytesWritten : Nat := 0
  streamStats : HashMap StreamSyncStats := ∅
  recordsSinceCheckpoint : Nat := 0
  writes : List Write := []

/-! ## Flushes -/

def SinkWriteOutcome.zero : SinkWriteOutcome :=
  ⟨0, 0⟩

def SinkWriteOutcome.add (total outcome : SinkWriteOutcome) : SinkWriteOutcome :=
  ⟨total.recordsWritten + outcome.recordsWritten, total.bytesWritten + outcome.bytesWritten⟩

def StreamSyncStats.wrote (stats : StreamSyncStats) (outcome : SinkWriteOutcome) : StreamSyncStats :=
  { stats with
    recordsWritten := stats.recordsWritten + outcome.recordsWritten
    bytesWritten := stats.bytesWritten + outcome.bytesWritten }

def Run.wrote (run : Run) (w : Write) : Run :=
  { run with
    streamStats := run.streamStats.insert w.stream (((run.streamStats.lookup w.stream).getD {}).wrote w.outcome)
    writes := run.writes ++ [w] }

/--
The loop over the drained entries.
-/
def writeEntries (sink : DestinationSink) : List (Σ _ : String, List AirbyteRecordMessage) → SinkWriteOutcome → Run
    → Except ConnectError SinkWriteOutcome × Run
  | [], total, run => (.ok total, run)
  | ⟨stream, records⟩ :: entries, total, run =>
    if records.isEmpty then
      writeEntries sink entries total run
    else
      match sink.writeBatch run.writes.length stream records with
      | .error e => (.error e, run)
      | .ok outcome => writeEntries sink entries (total.add outcome) (run.wrote ⟨stream, records, outcome⟩)

def flushAndTrack (env : Surroundings) (run : Run) : Except ConnectError SinkWriteOutcome × Run :=
  match writeEntries env.sink (env.drain run.writes.length run.buffer.streams.entries) .zero
    { run with buffer := { run.buffer with streams := ∅ } } with
  | (.error e, run) => (.error e, run)
  | (.ok total, run) => (.ok total, { run with buffer := .new })

/-! ## The loop -/

def Run.count (run : Run) (total : SinkWriteOutcome) : Run :=
  { run with
    recordsWritten := run.recordsWritten + total.recordsWritten
    bytesWritten := run.bytesWritten + total.bytesWritten }

def Run.read (run : Run) (record : AirbyteRecordMessage) : Run :=
  let stats := (run.streamStats.lookup record.stream).getD {}
  { run with
    buffer := run.buffer.push record
    recordsRead := run.recordsRead + 1
    streamStats := run.streamStats.insert record.stream { stats with recordsRead := stats.recordsRead + 1 }
    recordsSinceCheckpoint := run.recordsSinceCheckpoint + 1 }

def Run.isFull (options : SyncOptions) (run : Run) : Bool :=
  run.buffer.totalRecords ≥ options.batchSize || run.buffer.totalBytes ≥ options.batchBytes

def flushIfFull (env : Surroundings) (run : Run) : Except ConnectError Unit × Run :=
  if run.isFull env.options then
    match flushAndTrack env run with
    | (.error e, run) => (.error e, run)
    | (.ok total, run) => (.ok (), run.count total)
  else
    (.ok (), run)

def checkpointIfDue (env : Surroundings) (run : Run) : Except ConnectError Unit × Run :=
  if run.recordsSinceCheckpoint ≥ env.options.checkpointInterval then
    match flushAndTrack env run with
    | (.error e, run) => (.error e, run)
    | (.ok _, run) =>
      match env.persist run.recordsRead with
      | .error e => (.error e, run)
      | .ok () => (.ok (), { run with recordsSinceCheckpoint := 0 })
  else
    (.ok (), run)

def takeRecord (env : Surroundings) (record : AirbyteRecordMessage) (run : Run) : Except ConnectError Unit × Run :=
  match flushIfFull env (run.read record) with
  | (.error e, run) => (.error e, run)
  | (.ok (), run) => checkpointIfDue env run

/--
The time of the run is over when the message is read.
-/
def Surroundings.late (env : Surroundings) (k : Nat) : Bool :=
  env.options.maxDuration.any (fun maxDuration => decide (env.elapsed k > maxDuration))

def SyncOptions.reached (options : SyncOptions) (recordsRead : Nat) : Bool :=
  options.maxRecords.any (fun maxRecords => decide (recordsRead ≥ maxRecords))

/--
The messages from the message `k` on.
-/
def processMessages (env : Surroundings) : Nat → List (Except ConnectError ConnectorMessage) → Run
    → Except ConnectError Unit × Run
  | _, [], run => (.ok (), run)
  | k, item :: items, run =>
    if env.late k then
      (.ok (), run)
    else
      match item with
      | .error e => (.error e, run)
      | .ok (.record record) =>
        match takeRecord env record run with
        | (.error e, run) => (.error e, run)
        | (.ok (), run) =>
          if env.options.reached run.recordsRead then (.ok (), run) else processMessages env (k + 1) items run
      | .ok (.state state) =>
        match env.sink.checkpoint k state with
        | .error e => (.error e, run)
        | .ok () => processMessages env (k + 1) items run
      | .ok (.trace (some error)) => (.error (.actionFailed error.failureType error.message error.stackTrace), run)
      | .ok (.trace none) => processMessages env (k + 1) items run
      | .ok .log => processMessages env (k + 1) items run
      | .ok .other => processMessages env (k + 1) items run

def finalFlush (env : Surroundings) (run : Run) : Except ConnectError Unit × Run :=
  if run.buffer.totalRecords = 0 then
    (.ok (), run)
  else
    match flushAndTrack env run with
    | (.error e, run) => (.error e, run)
    | (.ok total, run) => (.ok (), run.count total)

def process (env : Surroundings) : Except ConnectError Unit × Run :=
  match processMessages env 0 env.messages {} with
  | (.error e, run) => (.error e, run)
  | (.ok (), run) =>
    match finalFlush env run with
    | (.error e, run) => (.error e, run)
    | (.ok (), run) => (env.persistFinal >>= fun _ => env.sink.finalize, run)

def ConnectError.report : ConnectError → SyncError
  | .actionFailed code cause suggestedFix => ⟨code, cause, suggestedFix⟩
  | .other text => ⟨"SYNC_ERROR", text, none⟩

def Run.outcome (run : Run) (error : Option SyncError) : SyncOutcome :=
  ⟨error.isNone, run.recordsRead, run.recordsWritten, run.bytesWritten, run.streamStats, error⟩

/--
What the run answers and the batches it has handed to the sink.
-/
def execute (env : Surroundings) : SyncOutcome × List Write :=
  match process env with
  | (.ok (), run) => (run.outcome none, run.writes)
  | (.error e, run) => (run.outcome (some e.report), run.writes)

/-! ## Accounts -/

/--
The records that the run reads, from the message `k` on when it has read `n` of them.
-/
def recordsTaken (env : Surroundings) : Nat → Nat → List (Except ConnectError ConnectorMessage)
    → List AirbyteRecordMessage
  | _, _, [] => []
  | k, n, item :: items =>
    if env.late k then
      []
    else
      match item with
      | .error _ => []
      | .ok (.record record) =>
        record :: if env.options.reached (n + 1) then [] else recordsTaken env (k + 1) (n + 1) items
      | .ok (.trace (some _)) => []
      | .ok _ => recordsTaken env (k + 1) n items

def recordsRead (env : Surroundings) : List AirbyteRecordMessage :=
  recordsTaken env 0 0 env.messages

/--
What the sink has been given for a stream.
-/
def written (stream : String) (writes : List Write) : List AirbyteRecordMessage :=
  (writes.filter (·.stream == stream)).flatMap (·.records)

structure Balanced (env : Surroundings) (out : SyncOutcome) (writes : List Write) : Prop where
  once : ∀ stream, written stream writes = (recordsRead env).filter (·.stream == stream)
  read : out.recordsRead = (recordsRead env).length
  records : out.recordsWritten = out.recordsRead
  bytes : out.bytesWritten = (writes.map (·.outcome.bytesWritten)).sum
  statRecords : out.streamStats.sumOf (·.recordsWritten) = out.recordsWritten
  statBytes : out.streamStats.sumOf (·.bytesWritten) = out.bytesWritten
  limit : ∀ maxRecords ∈ env.options.maxRecords, out.recordsRead ≤ maxRecords

/--
The records and bytes in the buffer, and the records since the last checkpoint.
-/
structure Counters where
  records : Nat
  bytes : Nat
  sinceCheckpoint : Nat

def Counters.isFull (options : SyncOptions) (c : Counters) : Bool :=
  c.records ≥ options.batchSize || c.bytes ≥ options.batchBytes

/--
The counters after a record, and what a checkpoint finds in the buffer.
-/
def Counters.next (options : SyncOptions) (c : Counters) (record : AirbyteRecordMessage) : Counters × Nat :=
  let c : Counters := ⟨c.records + 1, c.bytes + record.size, c.sinceCheckpoint + 1⟩
  let c := if c.isFull options then ⟨0, 0, c.sinceCheckpoint⟩ else c
  if c.sinceCheckpoint ≥ options.checkpointInterval then (⟨0, 0, 0⟩, c.records) else (c, 0)

/--
Every checkpoint finds the buffer empty, as the batch has just been full.
-/
def InStep (options : SyncOptions) : Counters → List AirbyteRecordMessage → Prop
  | _, [] => True
  | c, record :: records => (c.next options record).2 = 0 ∧ InStep options (c.next options record).1 records

/-! ## Sums -/

def recordsOf (writes : List Write) : Nat :=
  (writes.map (·.outcome.recordsWritten)).sum

def bytesOf (writes : List Write) : Nat :=
  (writes.map (·.outcome.bytesWritten)).sum

theorem recordsOf_append (writes writes' : List Write)
    : recordsOf (writes ++ writes') = recordsOf writes + recordsOf writes' := by
  rw [recordsOf, List.map_append, List.sum_append]
  rfl

theorem bytesOf_append (writes writes' : List Write) : bytesOf (writes ++ writes') = bytesOf writes + bytesOf writes' := by
  rw [bytesOf, List.map_append, List.sum_append]
  rfl

theorem written_append (stream : String) (writes writes' : List Write)
    : written stream (writes ++ writes') = written stream writes ++ written stream writes' := by
  rw [written, List.filter_append, List.flatMap_append]
  rfl

theorem recordsOf_cons (w : Write) (writes : List Write)
    : recordsOf (w :: writes) = w.outcome.recordsWritten + recordsOf writes := rfl

theorem bytesOf_cons (w : Write) (writes : List Write)
    : bytesOf (w :: writes) = w.outcome.bytesWritten + bytesOf writes := rfl

theorem foldl_add (writes : List Write) (total : SinkWriteOutcome)
    : (writes.foldl (fun total w => total.add w.outcome) total).recordsWritten = total.recordsWritten + recordsOf writes
      ∧ (writes.foldl (fun total w => total.add w.outcome) total).bytesWritten = total.bytesWritten + bytesOf writes := by
  induction writes generalizing total with
  | nil => exact ⟨rfl, rfl⟩
  | cons w writes ih =>
    have ⟨hrecords, hbytes⟩ := ih (total.add w.outcome)
    rw [List.foldl_cons, hrecords, hbytes, recordsOf_cons, bytesOf_cons]
    unfold SinkWriteOutcome.add
    constructor
    . apply Nat.add_assoc
    . apply Nat.add_assoc

theorem sumOf_update {f : StreamSyncStats → Nat} {g : StreamSyncStats → StreamSyncStats} {n : Nat} (hzero : f {} = 0)
    (hadd : ∀ stats, f (g stats) = f stats + n) (m : HashMap StreamSyncStats) (stream : String)
    : HashMap.sumOf f (m.insert stream (g ((m.lookup stream).getD {}))) = m.sumOf f + n := by
  have hinsert := HashMap.sumOf_insert f m stream (g ((m.lookup stream).getD {}))
  rw [hadd] at hinsert
  cases hlookup : m.lookup stream with
  | none =>
    rw [hlookup, Option.elim_none, Option.getD_none, hzero] at hinsert
    rw [Option.getD_none]
    omega
  | some stats =>
    rw [hlookup, Option.elim_some, Option.getD_some] at hinsert
    rw [Option.getD_some]
    omega

/--
The batches are added to the statistics of their streams and nothing else changes.
-/
theorem foldl_wrote (writes : List Write) (run : Run)
    : ∃ stats, writes.foldl Run.wrote run = { run with streamStats := stats, writes := run.writes ++ writes }
      ∧ stats.sumOf (·.recordsWritten) = run.streamStats.sumOf (·.recordsWritten) + recordsOf writes
      ∧ stats.sumOf (·.bytesWritten) = run.streamStats.sumOf (·.bytesWritten) + bytesOf writes := by
  induction writes generalizing run with
  | nil => exact ⟨run.streamStats, by rw [List.append_nil]; rfl, rfl, rfl⟩
  | cons w writes ih =>
    have ⟨stats, hrun, hrecords, hbytes⟩ := ih (run.wrote w)
    have hr := @sumOf_update (·.recordsWritten) (·.wrote w.outcome) _ rfl (fun _ => rfl) run.streamStats w.stream
    have hb := @sumOf_update (·.bytesWritten) (·.wrote w.outcome) _ rfl (fun _ => rfl) run.streamStats w.stream
    refine ⟨stats, ?_, ?_, ?_⟩
    . rw [List.foldl_cons, hrun]
      unfold Run.wrote
      rw [List.append_assoc]
      rfl
    . rw [hrecords, recordsOf_cons, ← Nat.add_assoc]
      congr 1
    . rw [hbytes, bytesOf_cons, ← Nat.add_assoc]
      congr 1

/--
A loop that ends well has written the entries in their order, but for the empty ones.
-/
theorem writeEntries_ok {sink : DestinationSink} {entries : List (Σ _ : String, List AirbyteRecordMessage)}
    {total total' : SinkWriteOutcome} {run run' : Run} (h : writeEntries sink entries total run = (.ok total', run'))
    : ∃ writes : List Write, run' = writes.foldl Run.wrote run
      ∧ total' = writes.foldl (fun total w => total.add w.outcome) total
      ∧ writes.map (fun w => (⟨w.stream, w.records⟩ : Σ _ : String, List AirbyteRecordMessage))
        = entries.filter (fun e => !e.2.isEmpty)
      ∧ ∀ w ∈ writes, w.outcome.recordsWritten = w.records.length := by
  induction entries generalizing total run with
  | nil =>
    cases h
    exact ⟨[], rfl, rfl, rfl, nofun⟩
  | cons entry entries ih =>
    have ⟨stream, records⟩ := entry
    rw [writeEntries] at h
    split at h
    . next hempty =>
      have ⟨writes, hrun, htotal, hwrites, hall⟩ := ih h
      refine ⟨writes, hrun, htotal, ?_, hall⟩
      rw [List.filter_cons_of_neg (by simpa using hempty)]
      exact hwrites
    . next hempty =>
      split at h
      . cases h
      . next outcome houtcome =>
        have ⟨writes, hrun, htotal, hwrites, hall⟩ := ih h
        refine ⟨⟨stream, records, outcome⟩ :: writes, hrun, htotal, ?_, ?_⟩
        . rw [List.filter_cons_of_pos (by simpa using hempty), List.map_cons, hwrites]
        . exact List.forall_mem_cons.mpr ⟨sink.writes_all _ _ _ _ houtcome, hall⟩

theorem written_eq (stream : String) (writes : List Write)
    : written stream writes
        = ((writes.map (fun w => (⟨w.stream, w.records⟩ : Σ _ : String, List AirbyteRecordMessage))).filter
            (·.1 == stream)).flatMap (·.2) := by
  rw [List.filter_map, List.flatMap_map]
  rfl

theorem flatMap_nonempty {α : Type} (entries : List (Σ _ : String, List α))
    : (entries.filter (fun e => !e.2.isEmpty)).flatMap (·.2) = entries.flatMap (·.2) := by
  induction entries with
  | nil => rfl
  | cons e entries ih =>
    cases hempty : e.2 with
    | nil => simp [hempty, ih]
    | cons r rs => simp [hempty, ih]

theorem sum_nonempty {α : Type} (entries : List (Σ _ : String, List α))
    : ((entries.filter (fun e => !e.2.isEmpty)).map (·.2.length)).sum = (entries.map (·.2.length)).sum := by
  rw [← List.length_flatMap, flatMap_nonempty, List.length_flatMap]

/-! ## The invariant -/

/--
The records that were taken are those written and those in the buffer, of every stream in their order.
-/
structure Inv (taken : List AirbyteRecordMessage) (run : Run) : Prop where
  grouped : ∀ stream,
    written stream run.writes ++ (run.buffer.streams.lookup stream).getD [] = taken.filter (·.stream == stream)
  buffered : run.buffer.streams.sumOf List.length = run.buffer.totalRecords
  complete : recordsOf run.writes + run.buffer.totalRecords = taken.length
  read : run.recordsRead = taken.length
  statRecords : run.streamStats.sumOf (·.recordsWritten) = recordsOf run.writes
  statBytes : run.streamStats.sumOf (·.bytesWritten) = bytesOf run.writes

section

variable {env : Surroundings} {taken : List AirbyteRecordMessage} {run run' : Run} {total : SinkWriteOutcome}

theorem Inv.empty : Inv [] {} where
  grouped _ := rfl
  buffered := rfl
  complete := rfl
  read := rfl
  statRecords := rfl
  statBytes := rfl

/--
A flush that ends well writes the buffer and counts what it writes.
-/
structure Flushed (run run' : Run) (total : SinkWriteOutcome) : Prop where
  buffer : run'.buffer = .new
  recordsRead : run'.recordsRead = run.recordsRead
  recordsWritten : run'.recordsWritten = run.recordsWritten
  bytesWritten : run'.bytesWritten = run.bytesWritten
  sinceCheckpoint : run'.recordsSinceCheckpoint = run.recordsSinceCheckpoint
  records : total.recordsWritten = run.buffer.totalRecords
  bytes : bytesOf run'.writes = bytesOf run.writes + total.bytesWritten
  none : run.buffer.totalRecords = 0 → total.bytesWritten = 0

theorem Inv.flush (h : Inv taken run) (hflush : flushAndTrack env run = (.ok total, run'))
    : Flushed run run' total ∧ Inv taken run' := by
  unfold flushAndTrack at hflush
  split at hflush
  . cases hflush
  . next total' run₁ hentries =>
    cases hflush
    have ⟨writes, hrun, htotal, hwrites, hall⟩ := writeEntries_ok hentries
    have ⟨stats, hwrote, hrecords, hbytes⟩ := foldl_wrote writes { run with buffer := { run.buffer with streams := ∅ } }
    have ⟨hsum, hsumBytes⟩ := foldl_add writes .zero
    have hperm := env.drain_perm run.writes.length run.buffer.streams.entries
    have hcount : recordsOf writes = run.buffer.totalRecords := by
      rw [← h.buffered, recordsOf, List.map_congr_left hall, HashMap.sumOf, ← (hperm.map _).sum_nat, ← sum_nonempty,
        ← hwrites, List.map_map]
      rfl
    rw [hwrote] at hrun
    subst hrun htotal
    constructor
    . constructor
      . rfl
      . rfl
      . rfl
      . rfl
      . rfl
      . rw [hsum, hcount]
        exact Nat.zero_add _
      . rw [bytesOf_append, hsumBytes]
        congr 1
        exact (Nat.zero_add _).symm
      . intro hnone
        cases writes with
        | nil => rfl
        | cons w writes =>
          have hmem : (⟨w.stream, w.records⟩ : Σ _ : String, List AirbyteRecordMessage)
              ∈ (env.drain run.writes.length run.buffer.streams.entries).filter (fun e => !e.2.isEmpty) := by
            rw [← hwrites]
            exact List.mem_cons_self
          have hlength : w.records.length ≠ 0 := by
            simpa using (List.mem_filter.mp hmem).2
          rw [← hall w List.mem_cons_self] at hlength
          rw [hnone, recordsOf_cons] at hcount
          omega
    . constructor
      . intro stream
        have hnodup : (env.drain run.writes.length run.buffer.streams.entries).NodupKeys :=
          (List.perm_nodupKeys hperm).mpr run.buffer.streams.nodupKeys
        rw [← h.grouped stream, written_append, written_eq stream writes, hwrites, List.filter_comm, flatMap_nonempty,
          HashMap.flatMap_filter_key hnodup, List.perm_dlookup stream hnodup hperm,
          List.append_assoc]
        congr 1
        exact List.append_nil _
      . rfl
      . rw [recordsOf_append, hcount, ← h.complete]
        rfl
      . exact h.read
      . show stats.sumOf _ = _
        rw [hrecords, h.statRecords, recordsOf_append]
      . show stats.sumOf _ = _
        rw [hbytes, h.statBytes, bytesOf_append]

theorem Inv.readRecord (h : Inv taken run) (record : AirbyteRecordMessage) : Inv (taken ++ [record]) (run.read record) where
  grouped stream := by
    rw [List.filter_append, ← h.grouped stream, List.append_assoc]
    show written stream run.writes ++ ((AList.insert _ _ run.buffer.streams).lookup stream).getD [] = _
    congr 1
    by_cases hstream : stream = record.stream
    . subst hstream
      rw [AList.lookup_insert, Option.getD_some]
      simp
    . rw [AList.lookup_insert_ne hstream]
      simp [Ne.symm hstream]
  buffered := by
    have hinsert := HashMap.sumOf_insert List.length run.buffer.streams record.stream
      ((run.buffer.streams.lookup record.stream).getD [] ++ [record])
    have hbuffered := h.buffered
    unfold Run.read RecordBuffer.push
    rw [List.length_append, List.length_singleton] at hinsert
    show HashMap.sumOf List.length (AList.insert _ _ _) = run.buffer.totalRecords + 1
    cases hlookup : run.buffer.streams.lookup record.stream with
    | none =>
      rw [hlookup, Option.elim_none, Option.getD_none, List.length_nil] at hinsert
      rw [Option.getD_none]
      omega
    | some records =>
      rw [hlookup, Option.elim_some, Option.getD_some] at hinsert
      rw [Option.getD_some]
      omega
  complete := by
    rw [List.length_append, ← h.complete]
    rfl
  read := by
    rw [List.length_append, ← h.read]
    rfl
  statRecords := by
    rw [← show _ = recordsOf (run.read record).writes from h.statRecords]
    exact @sumOf_update (·.recordsWritten) (fun stats => { stats with recordsRead := stats.recordsRead + 1 }) 0 rfl
      (fun _ => rfl) run.streamStats record.stream
  statBytes := by
    rw [← show _ = bytesOf (run.read record).writes from h.statBytes]
    exact @sumOf_update (·.bytesWritten) (fun stats => { stats with recordsRead := stats.recordsRead + 1 }) 0 rfl
      (fun _ => rfl) run.streamStats record.stream

def Run.counters (run : Run) : Counters :=
  ⟨run.buffer.totalRecords, run.buffer.totalBytes, run.recordsSinceCheckpoint⟩

/--
Apart from `lost` the records of the buffer are counted when they are written, and so are the bytes when
nothing is lost.
-/
structure Counted (run run' : Run) (lost : Nat) : Prop where
  records : run'.recordsWritten + run'.buffer.totalRecords + lost = run.recordsWritten + run.buffer.totalRecords
  bytes : lost = 0 → run'.bytesWritten + bytesOf run.writes = run.bytesWritten + bytesOf run'.writes

theorem Inv.flushIfFull (h : Inv taken run) (hflush : flushIfFull env run = (.ok (), run'))
    : Inv taken run' ∧ Counted run run' 0 ∧ run'.recordsRead = run.recordsRead
      ∧ run'.counters = if run.isFull env.options then ⟨0, 0, run.recordsSinceCheckpoint⟩ else run.counters := by
  unfold Sync.flushIfFull at hflush
  split at hflush
  . next hfull =>
    split at hflush
    . cases hflush
    . next total run₁ htracked =>
      cases hflush
      have ⟨hflushed, hinv⟩ := h.flush htracked
      have hbuffer := hflushed.buffer
      refine ⟨⟨hinv.grouped, hinv.buffered, hinv.complete, hinv.read, hinv.statRecords, hinv.statBytes⟩, ⟨?_, ?_⟩,
        hflushed.recordsRead, ?_⟩
      . show run₁.recordsWritten + total.recordsWritten + run₁.buffer.totalRecords + 0 = _
        rw [hbuffer, hflushed.recordsWritten, hflushed.records]
        rfl
      . intro _
        show run₁.bytesWritten + total.bytesWritten + _ = run.bytesWritten + bytesOf run₁.writes
        rw [hflushed.bytesWritten, hflushed.bytes]
        omega
      . rw [if_pos hfull]
        show Counters.mk run₁.buffer.totalRecords run₁.buffer.totalBytes run₁.recordsSinceCheckpoint = _
        rw [hbuffer, hflushed.sinceCheckpoint]
        rfl
  . next hfull =>
    cases hflush
    exact ⟨h, ⟨rfl, fun _ => rfl⟩, rfl, by rw [if_neg hfull]⟩

theorem Inv.checkpointIfDue (h : Inv taken run) (hcheckpoint : checkpointIfDue env run = (.ok (), run'))
    : Inv taken run' ∧ run'.recordsRead = run.recordsRead
      ∧ if run.recordsSinceCheckpoint ≥ env.options.checkpointInterval then
          Counted run run' run.buffer.totalRecords ∧ run'.counters = ⟨0, 0, 0⟩
        else
          run' = run := by
  unfold Sync.checkpointIfDue at hcheckpoint
  split at hcheckpoint
  . next hdue =>
    split at hcheckpoint
    . cases hcheckpoint
    . next total run₁ htracked =>
      split at hcheckpoint
      . cases hcheckpoint
      . cases hcheckpoint
        have ⟨hflushed, hinv⟩ := h.flush htracked
        have hbuffer := hflushed.buffer
        refine ⟨⟨hinv.grouped, hinv.buffered, hinv.complete, hinv.read, hinv.statRecords, hinv.statBytes⟩, hflushed.recordsRead, ?_⟩
        rw [if_pos hdue]
        refine ⟨⟨?_, ?_⟩, ?_⟩
        . show run₁.recordsWritten + run₁.buffer.totalRecords + run.buffer.totalRecords = _
          rw [hbuffer, hflushed.recordsWritten]
          rfl
        . intro hnone
          show run₁.bytesWritten + _ = run.bytesWritten + bytesOf run₁.writes
          rw [hflushed.bytesWritten, hflushed.bytes, hflushed.none hnone]
          rfl
        . show Counters.mk run₁.buffer.totalRecords run₁.buffer.totalBytes 0 = _
          rw [hbuffer]
          rfl
  . next hdue =>
    cases hcheckpoint
    exact ⟨h, rfl, by rw [if_neg hdue]⟩

theorem Inv.takeRecord {record : AirbyteRecordMessage} (h : Inv taken run)
    (htake : takeRecord env record run = (.ok (), run'))
    : Inv (taken ++ [record]) run' ∧ run'.recordsRead = run.recordsRead + 1
      ∧ run'.counters = (run.counters.next env.options record).1
      ∧ run'.recordsWritten + run'.buffer.totalRecords + (run.counters.next env.options record).2
        = run.recordsWritten + run.buffer.totalRecords + 1
      ∧ ((run.counters.next env.options record).2 = 0 →
        run'.bytesWritten + bytesOf run.writes = run.bytesWritten + bytesOf run'.writes) := by
  unfold Sync.takeRecord at htake
  split at htake
  . cases htake
  . next run₁ hfull =>
    have ⟨hinv, hcounted, hread, hcounters⟩ := (h.readRecord record).flushIfFull hfull
    have ⟨hinv', hread', hcheckpoint⟩ := hinv.checkpointIfDue htake
    refine ⟨hinv', hread'.trans hread, ?_⟩
    have hrecords := hcounted.records
    have hnext : run.counters.next env.options record
        = if run₁.recordsSinceCheckpoint ≥ env.options.checkpointInterval then
            (⟨0, 0, 0⟩, run₁.buffer.totalRecords)
          else
            (run₁.counters, 0) := by
      have hsame : ∀ c, run₁.counters = c →
          (if c.sinceCheckpoint ≥ env.options.checkpointInterval then (⟨0, 0, 0⟩, c.records) else (c, 0))
            = if run₁.recordsSinceCheckpoint ≥ env.options.checkpointInterval then
                ((⟨0, 0, 0⟩ : Counters), run₁.buffer.totalRecords)
              else
                (run₁.counters, 0) := by
        intro c hc
        subst hc
        rfl
      exact hsame _ hcounters
    split at hcheckpoint
    . next hdue =>
      rw [hnext, if_pos hdue]
      have ⟨hcounted', hcounters'⟩ := hcheckpoint
      have hrecords' := hcounted'.records
      refine ⟨hcounters', ?_, ?_⟩
      . rw [hrecords']
        exact hrecords
      . intro hnone
        have hbytes := hcounted.bytes rfl
        have hbytes' := hcounted'.bytes hnone
        have hsame : bytesOf (run.read record).writes = bytesOf run.writes := rfl
        have hstart : (run.read record).bytesWritten = run.bytesWritten := rfl
        omega
    . next hdue =>
      rw [hnext, if_neg hdue]
      subst hcheckpoint
      refine ⟨rfl, hrecords, ?_⟩
      intro _
      exact hcounted.bytes rfl

/--
What all checkpoints together find in the buffer.
-/
def lost (options : SyncOptions) : Counters → List AirbyteRecordMessage → Nat
  | _, [] => 0
  | c, record :: records => (c.next options record).2 + lost options (c.next options record).1 records

theorem lost_eq_zero {options : SyncOptions} {c : Counters} {records : List AirbyteRecordMessage}
    : lost options c records = 0 ↔ InStep options c records := by
  induction records generalizing c with
  | nil => exact iff_of_true rfl trivial
  | cons record records ih =>
    rw [lost, InStep, Nat.add_eq_zero_iff]
    exact and_congr_right fun _ => ih

/--
What holds after the records `read`.
-/
structure Processed (options : SyncOptions) (taken read : List AirbyteRecordMessage) (run run' : Run) : Prop where
  inv : Inv (taken ++ read) run'
  records : run'.recordsWritten + run'.buffer.totalRecords + lost options run.counters read
    = run.recordsWritten + run.buffer.totalRecords + read.length
  bytes : lost options run.counters read = 0 →
    run'.bytesWritten + bytesOf run.writes = run.bytesWritten + bytesOf run'.writes

theorem Inv.stop (h : Inv taken run) : Processed env.options taken [] run run where
  inv := by rwa [List.append_nil]
  records := rfl
  bytes _ := rfl

theorem Inv.processMessages {k : Nat} {items : List (Except ConnectError ConnectorMessage)} (h : Inv taken run)
    (hprocess : processMessages env k items run = (.ok (), run'))
    : Processed env.options taken (recordsTaken env k run.recordsRead items) run run' := by
  induction items generalizing k taken run with
  | nil =>
    cases hprocess
    exact h.stop
  | cons item items ih =>
    unfold Sync.processMessages at hprocess
    unfold recordsTaken
    split at hprocess
    . next hlate =>
      cases hprocess
      rw [if_pos hlate]
      exact h.stop
    . next hlate =>
      rw [if_neg hlate]
      split at hprocess
      . cases hprocess
      . next record =>
        dsimp only
        split at hprocess
        . cases hprocess
        . next run₁ htake =>
          have ⟨hinv, hread, hcounters, hrecords, hbytes⟩ := h.takeRecord htake
          rw [hread] at hprocess
          split at hprocess
          . next hreached =>
            cases hprocess
            rw [if_pos hreached]
            refine ⟨hinv, hrecords, hbytes⟩
          . next hreached =>
            rw [if_neg hreached]
            have hrest := ih hinv hprocess
            rw [hread] at hrest
            have hinv' := hrest.inv
            have hrecords' := hrest.records
            rw [hcounters] at hrecords'
            refine ⟨by rwa [List.append_assoc] at hinv', ?_, ?_⟩
            . rw [lost, List.length_cons]
              omega
            . intro hnone
              rw [lost, Nat.add_eq_zero_iff] at hnone
              have hbytes' := hrest.bytes (by rw [hcounters]; exact hnone.2)
              have := hbytes hnone.1
              omega
      . split at hprocess
        . cases hprocess
        . exact ih h hprocess
      . cases hprocess
      . exact ih h hprocess
      . exact ih h hprocess
      . exact ih h hprocess

theorem Inv.finalFlush (h : Inv taken run) (hflush : finalFlush env run = (.ok (), run'))
    : Inv taken run' ∧ run'.buffer.totalRecords = 0 ∧ Counted run run' 0 := by
  unfold Sync.finalFlush at hflush
  split at hflush
  . next hnone =>
    cases hflush
    exact ⟨h, hnone, rfl, fun _ => rfl⟩
  . split at hflush
    . cases hflush
    . next total run₁ htracked =>
      cases hflush
      have ⟨hflushed, hinv⟩ := h.flush htracked
      have hbuffer := hflushed.buffer
      refine ⟨⟨hinv.grouped, hinv.buffered, hinv.complete, hinv.read, hinv.statRecords, hinv.statBytes⟩, ?_, ⟨?_, ?_⟩⟩
      . show run₁.buffer.totalRecords = 0
        rw [hbuffer]
        rfl
      . show run₁.recordsWritten + total.recordsWritten + run₁.buffer.totalRecords + 0 = _
        rw [hbuffer, hflushed.recordsWritten, hflushed.records]
        rfl
      . intro _
        show run₁.bytesWritten + total.bytesWritten + _ = run.bytesWritten + bytesOf run₁.writes
        rw [hflushed.bytesWritten, hflushed.bytes]
        omega

/--
A run that ends well has written all it has read.
-/
theorem process_ok (h : process env = (.ok (), run))
    : Inv (recordsRead env) run ∧ run.buffer.totalRecords = 0
      ∧ run.recordsWritten + lost env.options ⟨0, 0, 0⟩ (recordsRead env) = (recordsRead env).length
      ∧ (lost env.options ⟨0, 0, 0⟩ (recordsRead env) = 0 → run.bytesWritten = bytesOf run.writes) := by
  unfold process at h
  split at h
  . cases h
  . next run₁ hprocess =>
    split at h
    . cases h
    . next run₂ hfinal =>
      cases (Prod.mk.inj h).2
      have hprocessed := Inv.empty.processMessages hprocess
      have ⟨hinv, hnone, hcounted⟩ := hprocessed.inv.finalFlush hfinal
      have hrecords : run₁.recordsWritten + run₁.buffer.totalRecords + lost env.options ⟨0, 0, 0⟩ (recordsRead env)
          = 0 + 0 + (recordsRead env).length := hprocessed.records
      have hcount := hcounted.records
      refine ⟨hinv, hnone, by omega, ?_⟩
      intro hlost
      have hbytes : run₁.bytesWritten + 0 = 0 + bytesOf run₁.writes := hprocessed.bytes hlost
      have := hcounted.bytes rfl
      omega

theorem Inv.written_eq (h : Inv taken run) (hnone : run.buffer.totalRecords = 0) (stream : String)
    : written stream run.writes = taken.filter (·.stream == stream) := by
  rw [← h.grouped stream]
  have hbuffered := h.buffered
  rw [hnone] at hbuffered
  have hinsert := HashMap.sumOf_insert List.length run.buffer.streams stream []
  cases hlookup : run.buffer.streams.lookup stream with
  | none => exact (List.append_nil _).symm
  | some records =>
    rw [hlookup, Option.elim_some, List.length_nil] at hinsert
    have hempty : records = [] := List.length_eq_zero_iff.mp (by omega)
    rw [hempty]
    exact (List.append_nil _).symm

theorem recordsTaken_length {maxRecords : Nat} (hmax : env.options.maxRecords = some maxRecords) {k n : Nat}
    {items : List (Except ConnectError ConnectorMessage)} (h : n < maxRecords)
    : n + (recordsTaken env k n items).length ≤ maxRecords := by
  induction items generalizing k n with
  | nil => exact Nat.le_of_lt h
  | cons item items ih =>
    unfold recordsTaken
    split
    . exact Nat.le_of_lt h
    . split
      . exact Nat.le_of_lt h
      . next record =>
        rw [List.length_cons]
        split
        . exact h
        . next hreached =>
          have hlt : n + 1 < maxRecords := by
            unfold SyncOptions.reached at hreached
            rw [hmax] at hreached
            simpa using hreached
          have := @ih (k + 1) (n + 1) hlt
          omega
      . exact Nat.le_of_lt h
      . exact ih h

end

/--
The totals of a run that succeeds are right if and only if every checkpoint comes just after a full batch and
nothing is read under a limit of no records.
-/
theorem balanced_iff (env : Surroundings) (h : (execute env).1.success = true)
    : Balanced env (execute env).1 (execute env).2
      ↔ InStep env.options ⟨0, 0, 0⟩ (recordsRead env)
        ∧ (env.options.maxRecords = some 0 → recordsRead env = []) := by
  have hprocess : ∃ run, process env = (.ok (), run) ∧ execute env = (run.outcome none, run.writes) := by
    unfold execute at h ⊢
    split at h
    . next run heq => exact ⟨run, heq, rfl⟩
    . cases h
  have ⟨run, hprocess, hexecute⟩ := hprocess
  have ⟨hinv, hnone, hrecords, hbytes⟩ := process_ok hprocess
  rw [hexecute, ← lost_eq_zero]
  have hread : run.recordsRead = (recordsRead env).length := hinv.read
  have hcounted : run.streamStats.sumOf (·.recordsWritten) = (recordsRead env).length := by
    have hcomplete := hinv.complete
    rw [hinv.statRecords]
    omega
  constructor
  . intro hbalanced
    have hwritten : run.recordsWritten = run.recordsRead := hbalanced.records
    refine ⟨by omega, ?_⟩
    intro hmax
    have hlimit : run.recordsRead ≤ 0 := hbalanced.limit 0 hmax
    exact List.length_eq_zero_iff.mp (by omega)
  . intro ⟨hlost, hmax⟩
    have hwritten : run.recordsWritten = run.recordsRead := by omega
    refine ⟨hinv.written_eq hnone, hread, hwritten, hbytes hlost, ?_, ?_, ?_⟩
    . show run.streamStats.sumOf _ = run.recordsWritten
      omega
    . exact hinv.statBytes.trans (hbytes hlost).symm
    . intro maxRecords hsome
      show run.recordsRead ≤ maxRecords
      cases maxRecords with
      | zero =>
        rw [hread, hmax hsome]
        exact Nat.le_refl 0
      | succ n =>
        have := @recordsTaken_length env _ hsome 0 0 env.messages (Nat.succ_pos n)
        rw [hread]
        rw [Nat.zero_add] at this
        exact this

/--
A sink that takes everything.
-/
def plainSink : DestinationSink where
  writeBatch _ _ records := .ok ⟨records.length, (records.map (·.size)).sum⟩
  checkpoint _ _ := .ok ()
  finalize := .ok ()
  writes_all _ _ _ _ h := by
    cases h
    rfl

/--
Three records of two streams.
-/
def plainRun (options : SyncOptions) : Surroundings where
  options := options
  messages := [.ok (.record ⟨"contacts", "\x7b\x7d"⟩), .ok .log, .ok (.record ⟨"deals", "null"⟩),
    .ok (.record ⟨"contacts", "[1]"⟩)]
  sink := plainSink
  persist _ := .ok ()
  persistFinal := .ok ()
  elapsed _ := 0
  drain _ entries := entries
  drain_perm _ _ := List.Perm.refl _

theorem balanced_iff_default
    : Balanced (plainRun {}) (execute (plainRun {})).1 (execute (plainRun {})).2
      ↔ InStep {} ⟨0, 0, 0⟩ (recordsRead (plainRun {}))
        ∧ ((plainRun {}).options.maxRecords = some 0 → recordsRead (plainRun {}) = []) :=
  balanced_iff (plainRun {}) rfl

example : InStep {} ⟨0, 0, 0⟩ (recordsRead (plainRun {})) :=
  ⟨rfl, rfl, rfl, trivial⟩

/--
The first checkpoint writes two records that are not counted.
-/
theorem not_balanced : ¬ ∀ env, (execute env).1.success = true → Balanced env (execute env).1 (execute env).2 := by
  intro h
  have hbalanced := h (plainRun { checkpointInterval := 2 }) rfl
  have hwritten : (execute (plainRun { checkpointInterval := 2 })).1.recordsWritten = 1 := rfl
  have hread : (execute (plainRun { checkpointInterval := 2 })).1.recordsRead = 3 := rfl
  have heq := hbalanced.records
  rw [hwritten, hread] at heq
  cases heq

end Reactor.Connect.Sync
