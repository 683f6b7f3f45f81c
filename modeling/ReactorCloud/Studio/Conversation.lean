import ReactorCloud.Interleave.System
import ReactorCloud.Studio.Message

/-!
This module contains the conversation files of `studio-storage`. The first line of a file is its metadata,
every other line is a message.
-/

namespace Reactor.Studio

open Posix (Text Outcome IoError lines joinLines)
open Interleave (Interface Program System)
open Interleave.Program

structure ConversationMeta where
  agentId : String
  title : String
  created : Timestamp
  updated : Timestamp
  deriving DecidableEq

structure ConversationSummary where
  id : String
  agentId : String
  title : String
  created : Timestamp
  updated : Timestamp
  messageCount : Nat
  deriving DecidableEq

inductive StorageError where
  | io (e : IoError)
  | json
  | notFound (text : String)
  | invalidFormat (text : String)
  deriving DecidableEq

/--
`"$meta"`, with its quotes
-/
def metaMarker : Text :=
  ['"', '$', 'm', 'e', 't', 'a', '"']

structure ConversationCodec where
  message : ObjectCodec Message
  header : ObjectCodec ConversationMeta
  reads_header : ∀ m, header.Reads m
  marked : ∀ m, metaMarker <:+: header.encode m

def ConversationMeta.fields (m : ConversationMeta) : List (String × String) :=
  [("agentId", m.agentId), ("title", m.title), ("created", m.created), ("updated", m.updated)]

def ConversationMeta.encode (m : ConversationMeta) : Text :=
  '\x7b' :: (metaMarker ++ ':' :: '\x7b' :: (Rust.JsonText.members m.fields ++ ['\x7d', '\x7d']))

def ConversationMeta.decode : Text → Option ConversationMeta
  | '\x7b' :: rest => do
    let rest ← Rust.JsonText.expect (metaMarker ++ [':', '\x7b']) rest
    match Rust.JsonText.readMembers ["agentId", "title", "created", "updated"] rest with
    | some ([agentId, title, created, updated], ['\x7d', '\x7d']) => some ⟨agentId, title, created, updated⟩
    | _ => none
  | _ => none

def plainConversationCodec : ConversationCodec where
  message := plainCodec
  header := {
    encode := ConversationMeta.encode
    decode := ConversationMeta.decode
    starts := fun _ => rfl
    ends := fun m => by
      simp [ConversationMeta.encode, List.getLast?_cons, List.getLast?_append]
    noFeed := fun m => by
      simp [ConversationMeta.encode, metaMarker, Rust.JsonText.feed_not_mem_members] }
  reads_header m := by
    have hmarker := Rust.JsonText.expect_append (metaMarker ++ [':', '\x7b'])
      (Rust.JsonText.members m.fields ++ ['\x7d', '\x7d'])
    have hread := Rust.JsonText.readMembers_members m.fields ['\x7d', '\x7d']
    simp only [List.append_assoc, List.cons_append, List.nil_append] at hmarker
    simp only [ConversationMeta.fields, List.map_cons, List.map_nil] at hread hmarker
    simp only [ObjectCodec.Reads, ConversationMeta.encode, ConversationMeta.decode, ConversationMeta.fields,
      hmarker, Option.bind_eq_bind, Option.bind_some, hread]
  marked m := ⟨['\x7b'], _, rfl⟩

variable (codec : ConversationCodec)

/-! ## Reading -/

def readLines : Nat → List Text → Except StorageError (List Message)
  | _, [] => .ok []
  | i, line :: rest =>
    if line.all Rust.Str.isWhitespace then
      readLines (i + 1) rest
    else if i = 0 ∧ metaMarker <:+: line then
      readLines (i + 1) rest
    else
      match codec.message.decode line with
      | none => .error .json
      | some message => (readLines (i + 1) rest).map (message :: ·)

/--
`read_messages`
-/
def readMessages (file : Text) : Except StorageError (List Message) :=
  readLines codec 0 (lines file)

def readSummary (id : String) (file : Text) : Except StorageError ConversationSummary :=
  match lines file with
  | [] => .error (.invalidFormat "Empty conversation file")
  | first :: rest =>
    match codec.header.decode first with
    | none => .error .json
    | some m => .ok ⟨id, m.agentId, m.title, m.created, m.updated, rest.length⟩

/-! ## Writing -/

inductive LogCall where
  | found
  | openAppend
  | writeMessage (message : Message)
  | writeFeed
  | readToString
  | truncate
  | overwrite (text : Text)

/--
The time is read right before the file is truncated.
-/
def LogCall.Ret : LogCall → Type
  | .found => Bool
  | .readToString => Text
  | .truncate => Timestamp
  | _ => Unit

abbrev LogInterface : Interface := ⟨LogCall, LogCall.Ret, StorageError⟩

def updateTimestamp : Program LogInterface Unit := do
  let content ← request (I := LogInterface) .readToString
  match lines content with
  | [] => pure ()
  | first :: rest =>
    match codec.header.decode first with
    | none => pure ()
    | some m => do
      let updated ← request (I := LogInterface) .truncate
      request (I := LogInterface)
        (.overwrite (codec.header.encode { m with updated } ++ '\n' :: joinLines rest))

/--
A file that cannot be looked at does not exist.
-/
def isFound : Except StorageError Bool → Bool
  | .ok found => found
  | .error _ => false

def appendMessage (id : String) (message : Message) : Program LogInterface Unit := do
  let found ← (request (I := LogInterface) .found).attempt
  require (isFound found) (.notFound ("Conversation not found: " ++ id))
  request (I := LogInterface) .openAppend
  request (I := LogInterface) (.writeMessage message)
  request (I := LogInterface) .writeFeed
  updateTimestamp codec

def ofIo {α : Type} (r : Except IoError α × Text) : Except StorageError α × Text :=
  (r.1.mapError .io, r.2)

def execLog (now : Timestamp) (outcome : Outcome) (file : Text)
    : (c : LogCall) → Except StorageError c.Ret × Text
  | .found => (.ok (outcome == .done), file)
  | .openAppend => if outcome = .done then (.ok (), file) else (.error (.io .refused), file)
  | .writeMessage message => ofIo (Posix.append file (codec.message.encode message) outcome)
  | .writeFeed => ofIo (Posix.append file ['\n'] outcome)
  | .readToString => ofIo (Posix.readFile file outcome)
  | .truncate => ((Posix.truncate file outcome).1.mapError StorageError.io |>.map fun _ => now,
      (Posix.truncate file outcome).2)
  | .overwrite text => ofIo (Posix.overwrite file text outcome)

/--
Any number of appends to one conversation, which nobody deletes.
-/
def conversation (id : String) : System LogInterface where
  State := Text
  Request := Message
  Reply _ := Unit
  program := appendMessage codec id
  Choice := Outcome × Timestamp
  exec _ c choice file := some (execLog codec choice.2 choice.1 file c)
  failure := .io .torn
  release _ file := file
  Tick := Empty
  tick t := t.elim

/--
`now` is also given as its day and minute.
-/
def newMeta (agentId : String) (title : Option String) (now : Timestamp) (minute : String) : ConversationMeta where
  agentId
  title := title.getD ("Conversation " ++ minute)
  created := now
  updated := now

/--
What `create` writes.
-/
def createdFile (m : ConversationMeta) : Text :=
  codec.header.encode m ++ ['\n']

end Reactor.Studio
