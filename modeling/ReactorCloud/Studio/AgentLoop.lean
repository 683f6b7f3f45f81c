import ReactorCloud.Studio.Agent

/-!
This module contains what a run of the agent loop does in order. The loop asks the provider to go on in place of
the user, executes what the provider names, and passes the end of a stream on as if it were its own.
-/

namespace Reactor.Studio.Agent

open Studio (Message ToolCall)

/-! ## What is to be shown -/

def AgentDefinition.allows (agent : AgentDefinition) (name : String) : Prop :=
  agent.allowedTools = [] ∨ name ∈ agent.allowedTools

/--
The message is the result of the call.
-/
def answers (call : ToolCall) (message : Message) : Bool :=
  message.role == .tool && message.toolCallId == some call.id

/--
Each call of an assistant message has one result before the next assistant message.
-/
def Answered (messages : List Message) : Prop :=
  ∀ before assistant after, messages = before ++ assistant :: after → assistant.role = .assistant →
    ∀ call ∈ assistant.toolCalls.getD [],
      (after.takeWhile (fun message => message.role != .assistant)).countP (answers call) = 1

/--
The message of the user comes right after the history.
-/
def Asks (history : List Message) (userMessage : String) (messages : List Message) : Prop :=
  ∃ system user produced, messages = system :: (history ++ user :: produced)
    ∧ user.role = .user ∧ user.content = userMessage

structure Behaves (agent : AgentDefinition) (history : List Message) (userMessage : String)
    (events : List Event) : Prop where
  executes : ∀ call, .executed call ∈ events → agent.allows call.name
  asks : ∀ messages tools, .requested messages tools ∈ events → Asks history userMessage messages
  answered : ∀ messages tools, .requested messages tools ∈ events →
    Answered (messages.drop (history.length + 1))
  terminates : ∃ earlier last, events.filterMap Event.chunk? = earlier ++ [last] ∧ last.terminal = true
    ∧ ∀ chunk ∈ earlier, chunk.terminal = false

/--
What arrives of a stream before the run is cancelled or the stream fails.
-/
def received (cancelled : Nat → Bool) : Nat → List (Except String StreamChunk) → List StreamChunk
  | _, [] => []
  | _, .error _ :: _ => []
  | k, .ok chunk :: rest => if cancelled (k + 1) then [] else chunk :: received cancelled (k + 1) rest

/--
The first reply has no end of its own, and if it is complete and has calls, they are allowed and the run is
cancelled before the next request.
-/
def OneReply (env : Surroundings) (agent : AgentDefinition) : Prop :=
  env.cancelled 0 0 = true ∨ match env.reply 1 with
    | .error _ => True
    | .ok items =>
      let chunks := received (env.cancelled 1) 0 items
      let calls := chunks.filterMap StreamChunk.call?
      (∀ chunk ∈ chunks, chunk.terminal = false)
        ∧ (chunks.length = items.length → calls ≠ [] →
          (∀ call ∈ calls, executes env call = true → agent.allows call.name) ∧ env.cancelled 1 0 = true)

/-! ## Parts of a round -/

section Parts

variable {env : Surroundings} {agent : AgentDefinition}

/--
What is read of a reply: its chunks up to the end, their calls, and no failure if that was all of it.
-/
theorem processStream_spec (cancelled : Nat → Bool) (k : Nat) (items : List (Except String StreamChunk))
    : (processStream cancelled k items).chunks = received cancelled k items
      ∧ (processStream cancelled k items).calls = (received cancelled k items).filterMap StreamChunk.call?
      ∧ ((processStream cancelled k items).failure = none ↔ (received cancelled k items).length = items.length) := by
  induction items generalizing k with
  | nil => exact ⟨rfl, rfl, iff_of_true rfl rfl⟩
  | cons item rest ih =>
    cases item with
    | error e =>
      simp only [processStream]
      split
      . exact ⟨rfl, rfl, iff_of_false (Option.some_ne_none _) nofun⟩
      . exact ⟨rfl, rfl, iff_of_false (Option.some_ne_none _) nofun⟩
    | ok chunk =>
      simp only [processStream, received]
      split
      . exact ⟨rfl, rfl, iff_of_false (Option.some_ne_none _) nofun⟩
      . have ⟨hchunks, hcalls, hfailure⟩ := ih (k + 1)
        refine ⟨congrArg (chunk :: ·) hchunks, ?_, hfailure.trans Nat.succ_inj.symm⟩
        rw [List.filterMap_cons]
        cases hcall : chunk.call? with
        | none => simp [hcalls]
        | some call => simp [hcalls]

theorem executeCalls_cons {n k : Nat} {head : ToolCall} {rest : List ToolCall}
    : (executeCalls env n k (head :: rest)).1
        = (if executes env head then [.executed head] else [])
          ++ .sent (.toolResult head.id (executeTool env n k head).output (executeTool env n k head).isError)
            :: (executeCalls env n (k + 1) rest).1 := rfl

theorem mem_executeCalls {n k : Nat} {calls : List ToolCall} {call : ToolCall}
    : .executed call ∈ (executeCalls env n k calls).1 ↔ call ∈ calls ∧ executes env call = true := by
  induction calls generalizing k with
  | nil => exact iff_of_false List.not_mem_nil (fun h => List.not_mem_nil h.1)
  | cons head rest ih =>
    rw [executeCalls_cons]
    simp only [List.mem_append, List.mem_cons, reduceCtorEq, false_or, ih]
    constructor
    . rintro (hhead | hrest)
      . split at hhead
        . next hexecutes =>
          cases List.mem_singleton.mp hhead
          exact ⟨.inl rfl, hexecutes⟩
        . cases hhead
      . exact ⟨.inr hrest.1, hrest.2⟩
    . rintro ⟨rfl | hrest, hexecutes⟩
      . rw [if_pos hexecutes]
        exact .inl (List.mem_singleton.mpr rfl)
      . exact .inr ⟨hrest, hexecutes⟩

theorem not_requested_executeCalls {n k : Nat} {calls : List ToolCall} {messages : List Message}
    {tools : List ToolDefinition} : .requested messages tools ∉ (executeCalls env n k calls).1 := by
  induction calls generalizing k with
  | nil => exact List.not_mem_nil
  | cons head rest ih =>
    rw [executeCalls_cons]
    simp only [List.mem_append, List.mem_cons, reduceCtorEq, ih, or_false]
    split <;> simp

/--
The tools send results only.
-/
theorem not_terminal_executeCalls {n k : Nat} {calls : List ToolCall} {chunk : StreamChunk}
    (h : chunk ∈ (executeCalls env n k calls).1.filterMap Event.chunk?) : chunk.terminal = false := by
  induction calls generalizing k with
  | nil => cases h
  | cons head rest ih =>
    rw [executeCalls_cons] at h
    simp only [List.filterMap_append, List.filterMap_cons, Event.chunk?, List.mem_append, List.mem_cons] at h
    rcases h with hexecuted | rfl | hrest
    . split at hexecuted <;> cases hexecuted
    . rfl
    . exact ih hrest

/--
The loop begins with the message of the user.
-/
theorem asks_first {history : List Message} {userMessage : String}
    : Asks history userMessage (requestMessages env agent userMessage ⟨1, history, ""⟩) :=
  ⟨_, _, [], rfl, rfl, rfl⟩

theorem answered_first {history : List Message} {userMessage : String}
    : Answered ((requestMessages env agent userMessage ⟨1, history, ""⟩).drop (history.length + 1)) := by
  intro before assistant after heq hrole
  have hmem : assistant ∈ [Message.user (env.stamp 1 1) userMessage] := by
    simp only [requestMessages, ContextBuilder.build, List.drop_succ_cons, List.drop_left] at heq
    rw [if_pos trivial] at heq
    rw [heq]
    simp
  cases List.mem_singleton.mp hmem
  cases hrole

/--
Later on the loop asks in place of the user.
-/
theorem not_asks_later {n : Nat} {history : List Message} {userMessage accumulated : String}
    {assistant : Message} {results : List Message} (hrole : assistant.role = .assistant)
    : ¬ Asks history userMessage
      (requestMessages env agent userMessage ⟨n, history ++ assistant :: results, accumulated⟩) := by
  rintro ⟨system, user, produced, heq, huser, _⟩
  simp only [requestMessages, ContextBuilder.build, List.append_assoc, List.cons.injEq] at heq
  have htail := List.append_cancel_left heq.2
  rw [List.cons_append, List.cons.injEq] at htail
  rw [← htail.1, hrole] at huser
  cases huser

end Parts

/-! ## Runs -/

section Runs

variable {env : Surroundings} {agent : AgentDefinition} {history : List Message} {userMessage : String}

/--
The events of a run with one request.
-/
def single (env : Surroundings) (agent : AgentDefinition) (history : List Message) (userMessage : String)
    (chunks : List StreamChunk) (executed : List Event) (last : StreamChunk) : List Event :=
  .requested (requestMessages env agent userMessage ⟨1, history, ""⟩) (toolDefinitions env agent)
    :: chunks.map .sent ++ executed ++ [.sent last]

theorem behaves_single {chunks : List StreamChunk} {executed : List Event}
    {last : StreamChunk} (hlast : last.terminal = true)
    (hrequested : ∀ messages tools, .requested messages tools ∉ executed)
    (hchunks : ∀ chunk ∈ executed.filterMap Event.chunk?, chunk.terminal = false)
    : Behaves agent history userMessage (single env agent history userMessage chunks executed last)
      ↔ (∀ chunk ∈ chunks, chunk.terminal = false) ∧ ∀ call, .executed call ∈ executed → agent.allows call.name := by
  have hsent : (chunks.map Event.sent).filterMap Event.chunk? = chunks := by
    rw [List.filterMap_map]
    exact List.filterMap_some
  have hall : (single env agent history userMessage chunks executed last).filterMap Event.chunk?
      = chunks ++ executed.filterMap Event.chunk? ++ [last] := by
    simp only [single, List.cons_append, List.filterMap_cons, List.filterMap_append, hsent]
    rfl
  have hmem : ∀ messages tools, .requested messages tools ∈ single env agent history userMessage chunks executed last →
      messages = requestMessages env agent userMessage ⟨1, history, ""⟩ := by
    intro messages tools h
    simp [single, hrequested] at h
    exact h.1
  constructor
  . intro h
    constructor
    . obtain ⟨earlier, last', heq, _, hearlier⟩ := h.terminates
      rw [hall] at heq
      have := (List.append_inj' heq rfl).1
      intro chunk hchunk
      apply hearlier
      rw [← this]
      exact List.mem_append_left _ hchunk
    . intro call hcall
      apply h.executes
      simp [single, hcall]
  . rintro ⟨hterminal, hallowed⟩
    constructor
    . intro call hcall
      apply hallowed
      simpa [single] using hcall
    . intro messages tools h
      rw [hmem messages tools h]
      exact asks_first
    . intro messages tools h
      rw [hmem messages tools h]
      exact answered_first
    . refine ⟨_, last, hall, hlast, ?_⟩
      intro chunk hchunk
      rcases List.mem_append.mp hchunk with hchunk | hchunk
      . exact hterminal chunk hchunk
      . exact hchunks chunk hchunk

/--
A run that is cancelled before its first request sends the error only.
-/
theorem behaves_unstarted {last : StreamChunk} (hlast : last.terminal = true)
    : Behaves agent history userMessage [.sent last] := by
  constructor
  . intro call hcall
    cases List.mem_singleton.mp hcall
  . intro messages tools h
    cases List.mem_singleton.mp h
  . intro messages tools h
    cases List.mem_singleton.mp h
  . exact ⟨[], last, rfl, hlast, fun _ hchunk => absurd hchunk List.not_mem_nil⟩

/--
What the loop does after a reply with calls.
-/
def nextRounds (env : Surroundings) (agent : AgentDefinition) (history : List Message) (userMessage : String)
    (streamed : Streamed) : List Event × Except AgentError Message :=
  let assistant := { Message.assistant (env.stamp 1 2) streamed.content with toolCalls := some streamed.calls }
  let history := history ++ assistant :: (executeCalls env 1 0 streamed.calls).2
  rounds env agent userMessage 9 ⟨1, history, "" ++ streamed.content⟩

def lastChunk : Except AgentError Message → StreamChunk
  | .ok _ => .done none
  | .error e => .error e.toString

theorem terminal_lastChunk (result : Except AgentError Message) : (lastChunk result).terminal = true := by
  cases result <;> rfl

/--
The loop when it may ask once more.
-/
theorem rounds_succ {left : Nat} {s : LoopState}
    : rounds env agent userMessage (left + 1) s
        =
      if env.cancelled s.iteration 0 then
        ([], .error .cancelled)
      else
        let s := { s with iteration := s.iteration + 1 }
        let requested := .requested (requestMessages env agent userMessage s) (toolDefinitions env agent)
        match env.reply s.iteration with
        | .error e => ([requested], .error (.provider e))
        | .ok items =>
          let streamed := processStream (env.cancelled s.iteration) 0 items
          let events := requested :: streamed.chunks.map .sent
          let accumulated := s.accumulated ++ streamed.content
          match streamed.failure with
          | some e => (events, .error e)
          | none =>
            if streamed.calls.isEmpty then
              (events, .ok (Message.assistant (env.stamp s.iteration 2) accumulated))
            else
              let assistant := { Message.assistant (env.stamp s.iteration 2) streamed.content with
                toolCalls := some streamed.calls }
              let (executed, results) := executeCalls env s.iteration 0 streamed.calls
              let history := s.history ++ assistant :: results
              let (rest, result) := rounds env agent userMessage left ⟨s.iteration, history, accumulated⟩
              (events ++ executed ++ rest, result) := rfl

theorem run_cancelled (hcancelled : env.cancelled 0 0 = true)
    : run env agent history userMessage = [.sent (lastChunk (.error .cancelled))] := by
  rw [run, runAgentLoop, show maxToolIterations = 9 + 1 from rfl, rounds_succ, if_pos hcancelled]
  rfl

theorem run_refused {e : String} (hcancelled : env.cancelled 0 0 = false) (hreply : env.reply 1 = .error e)
    : run env agent history userMessage
      = single env agent history userMessage [] [] (lastChunk (.error (.provider e))) := by
  rw [run, runAgentLoop, show maxToolIterations = 9 + 1 from rfl, rounds_succ]
  simp only [hcancelled, Bool.false_eq_true, if_false, Nat.zero_add, hreply]
  rfl

section Streamed

variable {items : List (Except String StreamChunk)} {streamed : Streamed} (hcancelled : env.cancelled 0 0 = false)
  (hreply : env.reply 1 = .ok items) (hstreamed : processStream (env.cancelled 1) 0 items = streamed)

include hcancelled hreply hstreamed

theorem run_failed {e : AgentError} (hfailure : streamed.failure = some e)
    : run env agent history userMessage
      = single env agent history userMessage streamed.chunks [] (lastChunk (.error e)) := by
  rw [run, runAgentLoop, show maxToolIterations = 9 + 1 from rfl, rounds_succ]
  simp only [hcancelled, Bool.false_eq_true, if_false, Nat.zero_add, hreply, hstreamed, hfailure]
  simp [single, lastChunk]

theorem run_answered (hfailure : streamed.failure = none) (hcalls : streamed.calls = [])
    : run env agent history userMessage = single env agent history userMessage streamed.chunks [] (.done none) := by
  rw [run, runAgentLoop, show maxToolIterations = 9 + 1 from rfl, rounds_succ]
  simp only [hcancelled, Bool.false_eq_true, if_false, Nat.zero_add, hreply, hstreamed, hfailure, hcalls,
    List.isEmpty_nil, if_true]
  simp [single]

theorem run_called (hfailure : streamed.failure = none) (hcalls : streamed.calls ≠ [])
    : run env agent history userMessage
      = single env agent history userMessage streamed.chunks
        ((executeCalls env 1 0 streamed.calls).1 ++ (nextRounds env agent history userMessage streamed).1)
        (lastChunk (nextRounds env agent history userMessage streamed).2) := by
  have hempty : streamed.calls.isEmpty = false := by
    simpa using hcalls
  rw [run, runAgentLoop, show maxToolIterations = 9 + 1 from rfl, rounds_succ]
  simp only [hcancelled, Bool.false_eq_true, if_false, Nat.zero_add, hreply, hstreamed, hfailure, hempty]
  change (match (nextRounds env agent history userMessage streamed).2 with
    | .ok _ => _
    | .error e => _) = _
  cases (nextRounds env agent history userMessage streamed).2 with
  | ok message => simp [single, lastChunk, nextRounds]
  | error e => simp [single, lastChunk, nextRounds]

end Streamed

theorem nextRounds_cancelled {streamed : Streamed} (hcancelled : env.cancelled 1 0 = true)
    : nextRounds env agent history userMessage streamed = ([], .error .cancelled) := by
  rw [nextRounds, rounds_succ, if_pos hcancelled]

theorem requested_mem_rounds {left : Nat} {s : LoopState} (hcancelled : env.cancelled s.iteration 0 = false)
    : .requested (requestMessages env agent userMessage { s with iteration := s.iteration + 1 })
        (toolDefinitions env agent) ∈ (rounds env agent userMessage (left + 1) s).1 := by
  rw [rounds_succ]
  simp only [hcancelled, Bool.false_eq_true, if_false]
  split
  . apply List.mem_cons_self
  . split
    . apply List.mem_cons_self
    . split <;> apply List.mem_cons_self

/--
The second request is made in place of the user.
-/
theorem not_behaves_called {streamed : Streamed} {chunks : List StreamChunk} {executed : List Event}
    {last : StreamChunk} (hcancelled : env.cancelled 1 0 = false)
    : ¬ Behaves agent history userMessage (single env agent history userMessage chunks
      (executed ++ (nextRounds env agent history userMessage streamed).1) last) := by
  intro h
  have hmem := @requested_mem_rounds env agent userMessage 8
    ⟨1, history ++ { Message.assistant (env.stamp 1 2) streamed.content with toolCalls := some streamed.calls }
      :: (executeCalls env 1 0 streamed.calls).2, "" ++ streamed.content⟩ hcancelled
  have hasks := h.asks _ _ (List.mem_append_left _ (List.mem_append_right _ (List.mem_append_right _ hmem)))
  exact absurd hasks (not_asks_later rfl)

end Runs

/--
A run is in order if and only if it has one reply, which does not end itself.
-/
theorem behaves_iff_oneReply (env : Surroundings) (agent : AgentDefinition) (history : List Message)
    (userMessage : String)
    : Behaves agent history userMessage (run env agent history userMessage) ↔ OneReply env agent := by
  unfold OneReply
  cases hcancelled : env.cancelled 0 0 with
  | true =>
    rw [run_cancelled hcancelled]
    simp [behaves_unstarted, terminal_lastChunk]
  | false =>
    simp only [Bool.false_eq_true, false_or]
    cases hreply : env.reply 1 with
    | error e =>
      rw [run_refused hcancelled hreply, behaves_single (terminal_lastChunk _)]
      . simp
      . simp
      . simp
    | ok items =>
      have ⟨hchunks, hcalls, hfailed⟩ := processStream_spec (env.cancelled 1) 0 items
      generalize hstreamed : processStream (env.cancelled 1) 0 items = streamed at hchunks hcalls hfailed
      simp only [← hcalls, ← hfailed]
      simp only [← hchunks]
      cases hfailure : streamed.failure with
      | some e =>
        rw [run_failed hcancelled hreply hstreamed hfailure, behaves_single (terminal_lastChunk _)]
        . simp
        . simp
        . simp
      | none =>
        by_cases hnone : streamed.calls = []
        . rw [run_answered hcancelled hreply hstreamed hfailure hnone, behaves_single rfl]
          . simp [hnone]
          . simp
          . simp
        . rw [run_called hcancelled hreply hstreamed hfailure hnone]
          cases hnext : env.cancelled 1 0 with
          | true =>
            rw [nextRounds_cancelled hnext, List.append_nil, behaves_single (terminal_lastChunk _)]
            . simp [hnone, mem_executeCalls]
            . exact fun _ _ => not_requested_executeCalls
            . exact fun _ => not_terminal_executeCalls
          | false =>
            simp [not_behaves_called hnext, hnone]

/--
The provider asks for a shell and then answers.
-/
def shell : Surroundings where
  context := ⟨"/w", "w"⟩
  tools := [⟨"bash", "", .null⟩, ⟨"file_read", "", .null⟩]
  reply n := .ok (if n = 1 then [.ok (.toolCall ⟨"1", "bash", .null⟩)] else [.ok (.text "It is done."), .ok (.done none)])
  cancelled _ _ := false
  result _ _ := .ok ⟨"", false⟩
  stamp _ _ := ⟨"", ""⟩

def reader : AgentDefinition :=
  ⟨"reader", "Reader", "m", ["file_read"], "Read only."⟩

theorem shell_executes : ∃ call, .executed call ∈ run shell reader [] "What is in the log?" ∧ call.name = "bash" := by
  have hany : (run shell reader [] "What is in the log?").any (fun
      | .executed call => call.name == "bash"
      | _ => false) = true := by decide
  obtain ⟨event, hmem, hevent⟩ := List.any_eq_true.mp hany
  cases event with
  | executed call => exact ⟨call, hmem, by simpa using hevent⟩
  | requested messages tools => cases hevent
  | sent chunk => cases hevent

/--
An agent that may read only gets a shell.
-/
theorem not_behaves : ¬ ∀ env agent history userMessage,
    Behaves agent history userMessage (run env agent history userMessage) := by
  intro h
  obtain ⟨call, hmem, hname⟩ := shell_executes
  have hallows := (h shell reader [] "What is in the log?").executes call hmem
  rw [hname] at hallows
  simp [AgentDefinition.allows, reader] at hallows

end Reactor.Studio.Agent
