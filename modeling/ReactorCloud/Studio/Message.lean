import ReactorCloud.Posix.TextFile
import ReactorCloud.Rust.Json
import ReactorCloud.Rust.JsonText
import ReactorCloud.Rust.Str

/-!
This module contains the messages of `studio_protocol` and what is known of their JSON texts.
-/

namespace Reactor.Studio

open Posix (Text IsLine)

/--
The RFC 3339 text of a `DateTime<Utc>`.
-/
abbrev Timestamp := String

inductive Role where
  | system
  | user
  | assistant
  | tool
  deriving DecidableEq, Repr

structure ToolCall where
  id : String
  name : String
  arguments : Rust.Json

structure Message where
  id : String
  role : Role
  content : String
  toolCalls : Option (List ToolCall)
  toolCallId : Option String
  timestamp : Timestamp

/--
`serde_json::to_string` and `serde_json::from_str` of a struct. Every control character of a string is
escaped in the compact text of an object.
-/
structure ObjectCodec (α : Type) where
  encode : α → Text
  decode : Text → Option α
  starts : ∀ a, (encode a).head? = some '\x7b'
  ends : ∀ a, (encode a).getLast? = some '\x7d'
  noFeed : ∀ a, '\n' ∉ encode a

namespace ObjectCodec

variable {α : Type} {codec : ObjectCodec α} {a : α}

/--
What is written can be read.
-/
def Reads (codec : ObjectCodec α) (a : α) : Prop :=
  codec.decode (codec.encode a) = some a

theorem isLine_encode : IsLine (codec.encode a) where
  noFeed := codec.noFeed a
  noReturn := by
    rw [codec.ends a]
    decide
  nonempty := by
    intro hnil
    have := codec.starts a
    rw [hnil] at this
    cases this

/--
The text of an object is not blank.
-/
theorem all_isWhitespace_encode : (codec.encode a).all Rust.Str.isWhitespace = false := by
  have hstart := codec.starts a
  cases henc : codec.encode a with
  | nil =>
    rw [henc] at hstart
    cases hstart
  | cons c rest =>
    rw [henc, List.head?_cons, Option.some.injEq] at hstart
    rw [hstart, List.all_cons]
    rfl

end ObjectCodec

def Role.text : Role → String
  | .system => "system"
  | .user => "user"
  | .assistant => "assistant"
  | .tool => "tool"

def Role.ofText : String → Option Role
  | "system" => some .system
  | "user" => some .user
  | "assistant" => some .assistant
  | "tool" => some .tool
  | _ => none

/--
The JSON text of a message that has no tool calls and is not the result of one.
-/
def Message.encodePlain (message : Message) : Text :=
  '\x7b' :: (Rust.JsonText.members [("id", message.id), ("role", message.role.text),
    ("content", message.content), ("timestamp", message.timestamp)] ++ ['\x7d'])

def Message.decodePlain : Text → Option Message
  | '\x7b' :: rest =>
    match Rust.JsonText.readMembers ["id", "role", "content", "timestamp"] rest with
    | some ([id, role, content, timestamp], ['\x7d']) =>
      (Role.ofText role).map fun role => ⟨id, role, content, none, none, timestamp⟩
    | _ => none
  | _ => none

def plainCodec : ObjectCodec Message where
  encode := Message.encodePlain
  decode := Message.decodePlain
  starts _ := rfl
  ends message := by
    rw [Message.encodePlain, ← List.cons_append, List.getLast?_concat]
  noFeed message := by
    simp [Message.encodePlain, Rust.JsonText.feed_not_mem_members]

end Reactor.Studio
