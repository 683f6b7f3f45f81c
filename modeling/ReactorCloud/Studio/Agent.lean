import ReactorCloud.Studio.Message

/-!
This module contains the agent loop of `studio-agent` and the prompts it builds. What the provider streams, what
the tools return and when the run is cancelled are parameters of a run.
-/

namespace Reactor.Studio.Agent

open Studio (Message ToolCall Timestamp)

def maxToolIterations : Nat := 10

structure AgentDefinition where
  id : String
  name : String
  model : String
  allowedTools : List String
  systemPrompt : String

structure ToolDefinition where
  name : String
  description : String
  parameters : Rust.Json

inductive StreamChunk where
  | thinking (content : String)
  | text (content : String)
  | toolCallStart (id : String) (name : String)
  | toolCallDelta (id : String) (argumentsDelta : String)
  | toolCall (call : ToolCall)
  | toolResult (toolCallId : String) (output : String) (isError : Bool)
  | error (message : String)
  | done (finishReason : Option String)

namespace StreamChunk

def text? : StreamChunk → Option String
  | .text content => some content
  | _ => none

def call? : StreamChunk → Option ToolCall
  | .toolCall call => some call
  | _ => none

def terminal : StreamChunk → Bool
  | .error _ => true
  | .done _ => true
  | _ => false

end StreamChunk

/--
A provider error is known by its text.
-/
inductive AgentError where
  | provider (text : String)
  | cancelled
  | maxIterations
  deriving DecidableEq

def AgentError.toString : AgentError → String
  | .provider text => "Provider error: " ++ text
  | .cancelled => "Cancelled"
  | .maxIterations => "Max iterations exceeded"

/-! ## Messages -/

/--
The id and the time of a new message.
-/
structure Stamp where
  id : String
  timestamp : Timestamp

def message (stamp : Stamp) (role : Role) (content : String) : Message :=
  ⟨stamp.id, role, content, none, none, stamp.timestamp⟩

def Message.user (stamp : Stamp) (content : String) : Message :=
  message stamp .user content

def Message.assistant (stamp : Stamp) (content : String) : Message :=
  message stamp .assistant content

def Message.system (stamp : Stamp) (content : String) : Message :=
  message stamp .system content

def Message.toolResult (stamp : Stamp) (toolCallId : String) (content : String) : Message :=
  { message stamp .tool content with toolCallId := some toolCallId }

structure ContextBuilder where
  workspacePath : String
  workspaceName : String

namespace ContextBuilder

def buildSystemPrompt (builder : ContextBuilder) (agent : AgentDefinition) : String :=
  "<system>\n" ++ agent.systemPrompt ++ "\n</system>\n\n"
    ++ "<workspace_context>\n"
    ++ "Workspace: " ++ builder.workspaceName ++ "\n"
    ++ "Path: " ++ builder.workspacePath ++ "\n"
    ++ "</workspace_context>\n\n"
    ++ "<agent_context>\n"
    ++ "Agent: " ++ agent.name ++ " (" ++ agent.id ++ ")\n"
    ++ "Model: " ++ agent.model ++ "\n"
    ++ (if agent.allowedTools = [] then "" else
      "Available tools: " ++ ", ".intercalate agent.allowedTools ++ "\n")
    ++ "</agent_context>\n"

def build (builder : ContextBuilder) (systemStamp userStamp : Stamp) (agent : AgentDefinition)
    (history : List Message) (userQuery : String) : List Message :=
  Message.system systemStamp (builder.buildSystemPrompt agent) :: (history ++ [Message.user userStamp userQuery])

end ContextBuilder

/-! ## Runs -/

structure ToolOutcome where
  output : String
  isError : Bool

/--
`reply` is what the provider does with each request. `cancelled n k` says whether the run is found cancelled at
the chunk `k` of the reply `n`, and `cancelled n 0` whether it is before the next request. `result n k` is what
the tool returns for the call `k` of the reply `n`, with the text of its error if it fails.
-/
structure Surroundings where
  context : ContextBuilder
  tools : List ToolDefinition
  reply : Nat → Except String (List (Except String StreamChunk))
  cancelled : Nat → Nat → Bool
  result : Nat → Nat → Except String ToolOutcome
  stamp : Nat → Nat → Stamp

inductive Event where
  | requested (messages : List Message) (tools : List ToolDefinition)
  | sent (chunk : StreamChunk)
  | executed (call : ToolCall)

def Event.chunk? : Event → Option StreamChunk
  | .sent chunk => some chunk
  | _ => none

/--
What came of a stream.
-/
structure Streamed where
  chunks : List StreamChunk
  content : String
  calls : List ToolCall
  failure : Option AgentError

/--
The stream from its chunk `k` on.
-/
def processStream (cancelled : Nat → Bool) : Nat → List (Except String StreamChunk) → Streamed
  | _, [] => ⟨[], "", [], none⟩
  | k, item :: rest =>
    if cancelled (k + 1) then
      ⟨[], "", [], some .cancelled⟩
    else
      match item with
      | .error e => ⟨[], "", [], some (.provider e)⟩
      | .ok chunk =>
        let streamed := processStream cancelled (k + 1) rest
        { streamed with
          chunks := chunk :: streamed.chunks
          content := chunk.text?.getD "" ++ streamed.content
          calls := chunk.call?.toList ++ streamed.calls }

variable (env : Surroundings)

/--
The registry does not ask what the agent may use.
-/
def executes (call : ToolCall) : Bool :=
  env.tools.any (·.name == call.name)

def executeTool (n k : Nat) (call : ToolCall) : ToolOutcome :=
  if executes env call then
    match env.result n k with
    | .ok outcome => outcome
    | .error text => ⟨text, true⟩
  else
    ⟨"Not found: Tool not found: " ++ call.name, true⟩

/--
The calls of the reply `n` from the call `k` on, with the messages they add to the history.
-/
def executeCalls (n : Nat) : Nat → List ToolCall → List Event × List Message
  | _, [] => ([], [])
  | k, call :: rest =>
    let outcome := executeTool env n k call
    let executed := if executes env call then [.executed call] else []
    let (events, results) := executeCalls n (k + 1) rest
    (executed ++ .sent (.toolResult call.id outcome.output outcome.isError) :: events,
      Message.toolResult (env.stamp n (k + 3)) call.id outcome.output :: results)

def toolDefinitions (agent : AgentDefinition) : List ToolDefinition :=
  env.tools.filter fun tool => agent.allowedTools.isEmpty || agent.allowedTools.contains tool.name

structure LoopState where
  iteration : Nat
  history : List Message
  accumulated : String

def requestMessages (agent : AgentDefinition) (userMessage : String) (s : LoopState) : List Message :=
  let query := if s.iteration = 1 then userMessage else "Continue based on the tool results."
  env.context.build (env.stamp s.iteration 0) (env.stamp s.iteration 1) agent s.history query

/--
The loop when `left` more requests are allowed.
-/
def rounds (agent : AgentDefinition) (userMessage : String)
    : Nat → LoopState → List Event × Except AgentError Message
  | left, s =>
    if env.cancelled s.iteration 0 then
      ([], .error .cancelled)
    else
      match left with
      | 0 => ([], .error .maxIterations)
      | left + 1 =>
        let s := { s with iteration := s.iteration + 1 }
        let requested := .requested (requestMessages env agent userMessage s) (toolDefinitions env agent)
        match env.reply s.iteration with
        | .error e => ([requested], .error (.provider e))
        | .ok items =>
          let streamed := processStream (env.cancelled s.iteration) 0 items
          let events := requested :: streamed.chunks.map .sent
          let accumulated := s.accumulated ++ streamed.content
          match streamed.failure with
          | some e => (events, .error e)
          | none =>
            if streamed.calls.isEmpty then
              (events, .ok (Message.assistant (env.stamp s.iteration 2) accumulated))
            else
              let assistant := { Message.assistant (env.stamp s.iteration 2) streamed.content with
                toolCalls := some streamed.calls }
              let (executed, results) := executeCalls env s.iteration 0 streamed.calls
              let history := s.history ++ assistant :: results
              let (rest, result) := rounds agent userMessage left ⟨s.iteration, history, accumulated⟩
              (events ++ executed ++ rest, result)

def runAgentLoop (agent : AgentDefinition) (history : List Message) (userMessage : String)
    : List Event × Except AgentError Message :=
  rounds env agent userMessage maxToolIterations ⟨0, history, ""⟩

/--
The task that `AgentRunner::run` spawns.
-/
def run (agent : AgentDefinition) (history : List Message) (userMessage : String) : List Event :=
  let (events, result) := runAgentLoop env agent history userMessage
  match result with
  | .ok _ => events ++ [.sent (.done none)]
  | .error e => events ++ [.sent (.error e.toString)]

end Reactor.Studio.Agent
