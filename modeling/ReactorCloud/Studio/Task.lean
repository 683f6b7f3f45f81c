import ReactorCloud.Interleave.System
import ReactorCloud.Studio.Message

/-!
This module contains the tasks of `studio-task` and the store that keeps each of them in a record and one
file of messages for each phase.
-/

namespace Reactor.Studio

open Posix (Text Outcome IoError lines)
open Interleave (Interface Program System)
open Interleave.Program

/-! ## Tasks -/

inductive Phase where
  | alignment
  | planning
  | development
  | testing
  | uat
  | deployment
  deriving DecidableEq, Repr

namespace Phase

def all : Vector Phase 6 :=
  #v[alignment, planning, development, testing, uat, deployment]

def index : Phase → Nat
  | alignment => 0
  | planning => 1
  | development => 2
  | testing => 3
  | uat => 4
  | deployment => 5

theorem index_lt (p : Phase) : p.index < 6 := by
  cases p <;> decide

theorem index_inj {p q : Phase} (h : p.index = q.index) : p = q := by
  cases p <;> cases q <;> first | rfl | cases h

def next (p : Phase) : Option Phase :=
  all[p.index + 1]?

theorem index_of_next {p q : Phase} (h : p.next = some q) : q.index = p.index + 1 := by
  cases p <;> cases h <;> rfl

def name : Phase → String
  | alignment => "Alignment"
  | planning => "Planning"
  | development => "Development"
  | testing => "Testing"
  | uat => "UAT"
  | deployment => "Deployment"

end Phase

inductive PhaseStatus where
  | locked
  | active
  | completed
  | skipped
  deriving DecidableEq, Repr

structure PhaseState where
  phase : Phase
  status : PhaseStatus
  conversationId : Option String
  startedAt : Option Timestamp
  completedAt : Option Timestamp
  deriving DecidableEq

def PhaseState.new (phase : Phase) : PhaseState where
  phase
  status := if phase = .alignment then .active else .locked
  conversationId := none
  startedAt := none
  completedAt := none

inductive TaskState where
  | active
  | completed
  | abandoned
  deriving DecidableEq, Repr

structure TaskArtifacts where
  planPath : Option String
  testReportPath : Option String
  deploymentUrl : Option String
  deriving DecidableEq

structure Task where
  id : String
  title : String
  description : String
  state : TaskState
  currentPhase : Phase
  phases : Vector PhaseState 6
  createdAt : Timestamp
  updatedAt : Timestamp
  artifacts : TaskArtifacts
  deriving DecidableEq

namespace Task

def new (id title : String) (now : Timestamp) : Task where
  id
  title
  description := ""
  state := .active
  currentPhase := .alignment
  phases := Phase.all.map PhaseState.new
  createdAt := now
  updatedAt := now
  artifacts := ⟨none, none, none⟩

def phase (t : Task) (p : Phase) : PhaseState :=
  have := p.index_lt
  t.phases[p.index]

def currentPhaseState (t : Task) : PhaseState :=
  t.phase t.currentPhase

def setPhase (t : Task) (p : Phase) (s : PhaseState) : Task :=
  { t with phases := t.phases.set p.index s p.index_lt }

def canAdvance (t : Task) : Bool :=
  t.currentPhase.next.isSome && t.currentPhaseState.status = .active

theorem phase_setPhase (t : Task) (p q : Phase) (s : PhaseState)
    : (t.setPhase p s).phase q = if q = p then s else t.phase q := by
  unfold setPhase phase
  simp only [Vector.getElem_set]
  by_cases h : q = p
  . simp [h]
  . have hne : p.index ≠ q.index := fun heq => h (Phase.index_inj heq).symm
    simp [h, hne]

/--
The current phase is completed.
-/
def completePhase (t : Task) (now : Timestamp) : Task :=
  t.setPhase t.currentPhase { t.currentPhaseState with status := .completed, completedAt := some now }

/--
`clock` is what the clock shows the first, the second and every further time.
-/
def moveTo (t : Task) (next : Phase) (clock : Nat → Timestamp) : Task :=
  let t := t.completePhase (clock 0)
  let t := { t with currentPhase := next }
  let t := t.setPhase next { t.phase next with status := .active, startedAt := some (clock 1) }
  { t with updatedAt := clock 2 }

def finish (t : Task) (clock : Nat → Timestamp) : Task :=
  let t := { t with state := .completed }
  let t := t.completePhase (clock 0)
  { t with updatedAt := clock 1 }

end Task

/-! ## Files -/

/--
What is read from a record.
-/
inductive Content where
  | empty
  | whole (t : Task)
  | broken
  deriving DecidableEq

/--
The records with all that they have held, the latest first, and the files of messages.
-/
structure TaskFiles where
  made : String → Bool
  record : String → List Content
  messages : String → Phase → Option Text

def TaskFiles.start : TaskFiles where
  made _ := false
  record _ := []
  messages _ _ := none

namespace TaskFiles

def put (files : TaskFiles) (id : String) (content : Content) : TaskFiles :=
  { files with record := Function.update files.record id (content :: files.record id) }

def putMessages (files : TaskFiles) (id : String) (phase : Phase) (text : Text) : TaskFiles :=
  let ofTask := Function.update (files.messages id) phase (some text)
  { files with messages := Function.update files.messages id ofTask }

end TaskFiles

inductive TaskError where
  | io (e : IoError)
  | json
  | notFound (id : String)
  | phaseNotReady (phase : String)
  | invalidTransition (start target : String)
  deriving DecidableEq

inductive FileCall where
  | createDirAll (id : String)
  | recordExists (id : String)
  | readRecord (id : String)
  | truncateRecord (id : String)
  | writeRecord (id : String) (t : Task)
  | messagesExist (id : String) (phase : Phase)
  | createMessages (id : String) (phase : Phase)
  | openMessages (id : String) (phase : Phase)
  | writeMessage (id : String) (phase : Phase) (message : Message)
  | writeFeed (id : String) (phase : Phase)

def FileCall.Ret : FileCall → Type
  | .recordExists _ => Bool
  | .readRecord _ => Content
  | .messagesExist _ _ => Bool
  | _ => Unit

abbrev TaskInterface : Interface := ⟨FileCall, FileCall.Ret, TaskError⟩

/-! ## Operations -/

namespace TaskStore

def isThere : Except TaskError Bool → Bool
  | .ok found => found
  | .error _ => false

def get (id : String) : Program TaskInterface Task := do
  let found ← (request (I := TaskInterface) (.recordExists id)).attempt
  require (isThere found) (.notFound id)
  let content ← request (I := TaskInterface) (.readRecord id)
  match content with
  | .whole t => pure t
  | _ => fail .json

def saveTask (t : Task) : Program TaskInterface Unit := do
  request (I := TaskInterface) (.truncateRecord t.id)
  request (I := TaskInterface) (.writeRecord t.id t)

/--
`id` is made of the time in nanoseconds.
-/
def create (id title : String) (description : Option String) (now : Timestamp)
    : Program TaskInterface Task := do
  let t := { Task.new id title now with description := description.getD "" }
  request (I := TaskInterface) (.createDirAll t.id)
  saveTask t
  request (I := TaskInterface) (.createMessages t.id .alignment)
  pure t

def ensureMessages (id : String) (phase : Phase) : Program TaskInterface Unit := do
  let found ← (request (I := TaskInterface) (.messagesExist id phase)).attempt
  if isThere found then pure () else request (I := TaskInterface) (.createMessages id phase)

def advance (id : String) (clock : Nat → Timestamp) : Program TaskInterface Task := do
  let t ← get id
  require t.canAdvance (.phaseNotReady t.currentPhase.name)
  let next ← okOr t.currentPhase.next (.invalidTransition t.currentPhase.name "none")
  let t := t.moveTo next clock
  ensureMessages id next
  saveTask t
  pure t

def complete (id : String) (clock : Nat → Timestamp) : Program TaskInterface Task := do
  let t ← get id
  let t := t.finish clock
  saveTask t
  pure t

def appendMessage (id : String) (phase : Phase) (message : Message) (now : Timestamp)
    : Program TaskInterface Unit := do
  request (I := TaskInterface) (.openMessages id phase)
  request (I := TaskInterface) (.writeMessage id phase message)
  request (I := TaskInterface) (.writeFeed id phase)
  let t ← get id
  saveTask { t with updatedAt := now }

end TaskStore

/-! ## Calls -/

/--
What is left of a record that was not written in one piece.
-/
inductive Leftover where
  | same
  | broken
  | whole
  deriving DecidableEq

variable (codec : ObjectCodec Message)

namespace TaskFiles

/--
A call in a directory that is not there is refused.
-/
def within (files : TaskFiles) (id : String) (outcome : Outcome) : Outcome :=
  if files.made id then outcome else .refused

def left (files : TaskFiles) (id : String) (t : Task) : Leftover → TaskFiles
  | .same => files
  | .broken => files.put id .broken
  | .whole => files.put id (.whole t)

/--
A record that is written over another one can keep the end of the longer text.
-/
def writeRecord (files : TaskFiles) (id : String) (t : Task) (leftover : Leftover)
    : Outcome → Except TaskError Unit × TaskFiles
  | .done =>
    if (files.record id).head? = some .empty ∨ leftover = .whole then
      (.ok (), files.put id (.whole t))
    else
      (.ok (), files.put id .broken)
  | .refused => (.error (.io .refused), files)
  | .torn _ => (.error (.io .torn), files.left id t leftover)

def appendText (files : TaskFiles) (id : String) (phase : Phase) (text : Text) (outcome : Outcome)
    : Except TaskError Unit × TaskFiles :=
  match files.messages id phase with
  | none => (.error (.io .refused), files)
  | some s => ((Posix.append s text outcome).1.mapError .io,
      files.putMessages id phase (Posix.append s text outcome).2)

def exec (files : TaskFiles) (outcome : Outcome) (leftover : Leftover)
    : (c : FileCall) → Except TaskError c.Ret × TaskFiles
  | .createDirAll id =>
    if outcome = .done then
      (.ok (), { files with made := Function.update files.made id true })
    else
      (.error (.io .refused), files)
  | .recordExists id => (.ok (files.within id outcome = .done ∧ files.record id ≠ [] : Bool), files)
  | .readRecord id =>
    match files.within id outcome, (files.record id).head? with
    | .done, some content => (.ok content, files)
    | _, _ => (.error (.io .refused), files)
  | .truncateRecord id =>
    match files.within id outcome with
    | .done => (.ok (), files.put id .empty)
    | .refused => (.error (.io .refused), files)
    | .torn _ => (.error (.io .torn), files)
  | .writeRecord id t => files.writeRecord id t leftover outcome
  | .messagesExist id phase =>
    (.ok (files.within id outcome = .done ∧ (files.messages id phase).isSome = true : Bool), files)
  | .createMessages id phase =>
    match files.within id outcome with
    | .done => (.ok (), files.putMessages id phase [])
    | .refused => (.error (.io .refused), files)
    | .torn _ => (.error (.io .torn), files)
  | .openMessages id phase =>
    match files.within id outcome with
    | .done => (.ok (), files.putMessages id phase ((files.messages id phase).getD []))
    | .refused => (.error (.io .refused), files)
    | .torn _ => (.error (.io .torn), files)
  | .writeMessage id phase message => files.appendText id phase (codec.encode message) outcome
  | .writeFeed id phase => files.appendText id phase ['\n'] outcome

end TaskFiles

inductive TaskRequest where
  | create (id title : String) (description : Option String) (now : Timestamp)
  | advance (id : String) (clock : Nat → Timestamp)
  | complete (id : String) (clock : Nat → Timestamp)
  | appendMessage (id : String) (phase : Phase) (message : Message) (now : Timestamp)

def TaskRequest.Reply : TaskRequest → Type
  | .appendMessage _ _ _ _ => Unit
  | _ => Task

def TaskRequest.program : (req : TaskRequest) → Program TaskInterface req.Reply
  | .create id title description now => TaskStore.create id title description now
  | .advance id clock => TaskStore.advance id clock
  | .complete id clock => TaskStore.complete id clock
  | .appendMessage id phase message now => TaskStore.appendMessage id phase message now

def taskSystem : System TaskInterface where
  State := TaskFiles
  Request := TaskRequest
  Reply := TaskRequest.Reply
  program := TaskRequest.program
  Choice := Outcome × Leftover
  exec _ c choice files := some (files.exec codec choice.1 choice.2 c)
  failure := .io .torn
  release _ files := files
  Tick := Empty
  tick t := t.elim

/-! ## Reading messages -/

def readAll : List Text → Except TaskError (List Message)
  | [] => .ok []
  | line :: rest =>
    if line.all Rust.Str.isWhitespace then
      readAll rest
    else
      match codec.decode line with
      | none => .error .json
      | some message => (readAll rest).map (message :: ·)

def phaseMessages (files : TaskFiles) (id : String) (phase : Phase) : Except TaskError (List Message) :=
  match files.messages id phase with
  | none => .ok []
  | some s => readAll codec (lines s)

end Reactor.Studio
