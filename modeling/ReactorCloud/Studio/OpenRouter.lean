import Mathlib.Data.List.AList
import Mathlib.Data.List.Sort
import ReactorCloud.Rust.Bytes
import ReactorCloud.Studio.Agent

/-!
This module contains the stream of a chat completion as the OpenRouter provider reads it: the lines of each network
chunk on its own, with the tool calls collected over all chunks. `serde_json::from_str` is a parameter.
-/

namespace Reactor.Studio.OpenRouter

open Posix (Text lines)
open Rust.Lossy (decodeOne fromUtf8Lossy fromUtf8Lossy_feed fromUtf8Lossy_nil)
open Studio (ToolCall)
open Agent (StreamChunk)

abbrev Bytes := List UInt8

/-! ## The responses -/

structure StreamFunction where
  name : Option String
  arguments : Option String

structure StreamToolCall where
  index : Nat
  id : Option String
  function : Option StreamFunction

structure StreamDelta where
  content : Option String
  toolCalls : Option (List StreamToolCall)

structure StreamChoice where
  delta : StreamDelta
  finishReason : Option String

structure StreamResponse where
  choices : List StreamChoice

/--
The id, the name and the arguments of a call as far as they have arrived.
-/
structure Entry where
  id : String := ""
  name : String := ""
  arguments : String := ""
  deriving DecidableEq

abbrev ToolCalls := AList fun _ : Nat => Entry

/--
The order in which a hash map is drained.
-/
structure Order where
  arrange : List (Σ _ : Nat, Entry) → List (Σ _ : Nat, Entry)
  perm : ∀ entries, (arrange entries).Perm entries

/--
What the texts of the stream are read as.
-/
structure Reader where
  response : Text → Option StreamResponse
  arguments : String → Option Rust.Json

abbrev Chunk := Except String StreamChunk

/-! ## The parser -/

def updateEntry (call : StreamToolCall) (entry : Entry) : Entry :=
  let entry := { entry with id := call.id.getD entry.id }
  match call.function with
  | some function =>
    { entry with
      name := function.name.getD entry.name
      arguments := entry.arguments ++ function.arguments.getD "" }
  | none => entry

def collect (calls : ToolCalls) (call : StreamToolCall) : ToolCalls :=
  calls.insert call.index (updateEntry call ((calls.lookup call.index).getD {}))

section

variable (reader : Reader) (order : Order)

def finished (entry : Entry) : Option ToolCall :=
  (reader.arguments entry.arguments).map (fun arguments => ⟨entry.id, entry.name, arguments⟩)

/--
A call whose arguments are not valid JSON is left out.
-/
def drain (calls : ToolCalls) : List Chunk :=
  (order.arrange calls.entries).filterMap (fun e => (finished reader e.2).map (fun call => .ok (.toolCall call)))

def textOf (choice : StreamChoice) : List String :=
  choice.delta.content.toList.filter (fun content => content ≠ "")

def parseChoice (choice : StreamChoice) (calls : ToolCalls) : List Chunk × ToolCalls :=
  let texts := (textOf choice).map (fun content => .ok (.text content))
  let calls := (choice.delta.toolCalls.getD []).foldl collect calls
  if choice.finishReason = some "tool_calls" then
    (texts ++ drain reader order calls, ∅)
  else
    (texts, calls)

/--
What a line is read as, if it is.
-/
inductive Reading where
  | done
  | response (response : StreamResponse)

def readLine (line : Text) : Option Reading :=
  if "data: ".toList.isPrefixOf line then
    let data := line.drop 6
    if data = "[DONE]".toList then some .done else (reader.response data).map .response
  else
    none

def apply (calls : ToolCalls) : Reading → List Chunk × ToolCalls
  | .done => ([.ok (.done none)], calls)
  | .response response =>
    match response.choices.head? with
    | some choice => parseChoice reader order choice calls
    | none => ([], calls)

def readings (text : Text) : List Reading :=
  (lines text).filterMap (readLine reader)

def applyAll (calls : ToolCalls) : List Reading → List Chunk × ToolCalls
  | [] => ([], calls)
  | reading :: rest =>
    let (chunks, calls) := apply reader order calls reading
    let (more, calls) := applyAll calls rest
    (chunks ++ more, calls)

def parseSseChunk (text : Text) (calls : ToolCalls) : List Chunk × ToolCalls :=
  applyAll reader order calls (readings reader text)

def streamFrom (calls : ToolCalls) : List Bytes → List Chunk
  | [] => []
  | bytes :: more =>
    let (chunks, calls) := parseSseChunk reader order (fromUtf8Lossy bytes) calls
    chunks ++ streamFrom calls more

/--
The chunks of `stream`, when the network delivers these bytes one after another.
-/
def stream (network : List Bytes) : List Chunk :=
  streamFrom reader order ∅ network

end

/-! ## What the chunks of a stream should be -/

/--
The last of the values that are there.
-/
def lastOf (values : List (Option String)) : String :=
  ((values.filterMap id).getLast?).getD ""

/--
A call as its fragments announce it.
-/
def announced (calls : List StreamToolCall) (index : Nat) : Entry :=
  let fragments := calls.filter (·.index = index)
  let functions := fragments.filterMap (·.function)
  ⟨lastOf (fragments.map (·.id)), lastOf (functions.map (·.name)),
    (functions.map (fun function => function.arguments.getD "")).foldl (· ++ ·) ""⟩

/--
The indices of the calls in order.
-/
def indices (calls : List StreamToolCall) : List Nat :=
  ((calls.map (·.index)).dedup).insertionSort (· ≤ ·)

/--
What is looked at of a reading. A response without choices tells nothing.
-/
def signal : Reading → Option (Option StreamChoice)
  | .done => some none
  | .response response => response.choices.head?.map some

/--
What should be told of a call: itself, or that its arguments are not valid.
-/
def result (call : Option ToolCall) : Chunk :=
  match call with
  | some call => .ok (.toolCall call)
  | none => .error "JSON error"

/--
A stream of the format: deltas, the last of which has a finish reason, and `[DONE]`.
-/
structure Completion where
  deltas : List StreamChoice
  unfinished : ∀ choice ∈ deltas, choice.finishReason = none
  last : StreamDelta
  finishReason : String

namespace Completion

def lastChoice (c : Completion) : StreamChoice :=
  ⟨c.last, some c.finishReason⟩

def choices (c : Completion) : List StreamChoice :=
  c.deltas ++ [c.lastChoice]

/--
The choices and the end.
-/
def signals (c : Completion) : List (Option StreamChoice) :=
  c.choices.map some ++ [none]

def texts (c : Completion) : List String :=
  c.choices.flatMap textOf

def calls (c : Completion) : List StreamToolCall :=
  c.choices.flatMap (fun choice => choice.delta.toolCalls.getD [])

section

variable (reader : Reader)

/--
All text in order, every announced call in the order of the indices or an error, and the end.
-/
def expected (c : Completion) : List Chunk :=
  c.texts.map (fun content => .ok (.text content))
    ++ (indices c.calls).map (fun index => result (finished reader (announced c.calls index)))
    ++ [.ok (.done none)]

end

end Completion

/-! ## Chunks and readings -/

section

variable {reader : Reader} {order : Order}

theorem applyAll_append (calls : ToolCalls) (rs rs' : List Reading)
    : applyAll reader order calls (rs ++ rs')
        =
      ((applyAll reader order calls rs).1 ++ (applyAll reader order (applyAll reader order calls rs).2 rs').1,
        (applyAll reader order (applyAll reader order calls rs).2 rs').2) := by
  induction rs generalizing calls with
  | nil => rfl
  | cons r rs ih =>
    simp only [List.cons_append, applyAll]
    rw [ih]
    simp only [List.append_assoc]

/--
What a delivery is read as, chunk by chunk.
-/
def readingsOf (reader : Reader) (network : List Bytes) : List Reading :=
  network.flatMap (fun bytes => readings reader (fromUtf8Lossy bytes))

theorem streamFrom_eq (calls : ToolCalls) (network : List Bytes)
    : streamFrom reader order calls network = (applyAll reader order calls (readingsOf reader network)).1 := by
  induction network generalizing calls with
  | nil => rfl
  | cons bytes more ih =>
    unfold streamFrom readingsOf parseSseChunk
    rw [List.flatMap_cons, applyAll_append]
    dsimp only
    rw [ih]
    rfl

def applySignal (reader : Reader) (order : Order) (calls : ToolCalls)
    : Option StreamChoice → List Chunk × ToolCalls
  | none => ([.ok (.done none)], calls)
  | some choice => parseChoice reader order choice calls

def applySignals (reader : Reader) (order : Order) (calls : ToolCalls)
    : List (Option StreamChoice) → List Chunk × ToolCalls
  | [] => ([], calls)
  | s :: rest =>
    let (chunks, calls) := applySignal reader order calls s
    let (more, calls) := applySignals reader order calls rest
    (chunks ++ more, calls)

theorem applyAll_eq (calls : ToolCalls) (rs : List Reading)
    : applyAll reader order calls rs = applySignals reader order calls (rs.filterMap signal) := by
  induction rs generalizing calls with
  | nil => rfl
  | cons r rs ih =>
    cases r with
    | done =>
      simp only [applyAll, ih]
      rfl
    | response response =>
      cases hhead : response.choices.head? with
      | none =>
        have hsignal : signal (.response response) = none := by rw [signal, hhead, Option.map_none]
        rw [List.filterMap_cons_none hsignal, applyAll, OpenRouter.apply, hhead]
        exact ih calls
      | some choice =>
        have hsignal : signal (.response response) = some (some choice) := by rw [signal, hhead, Option.map_some]
        rw [List.filterMap_cons_some hsignal, applyAll, OpenRouter.apply, hhead]
        dsimp only
        rw [ih]
        rfl

/--
The calls that fragments leave in the map.
-/
def collectAll (calls : ToolCalls) (fragments : List StreamToolCall) : ToolCalls :=
  fragments.foldl collect calls

theorem parseChoice_of_none {choice : StreamChoice} (h : choice.finishReason = none) (calls : ToolCalls)
    : parseChoice reader order choice calls
        =
      ((textOf choice).map (fun content => .ok (.text content)),
        collectAll calls (choice.delta.toolCalls.getD [])) := by
  unfold parseChoice
  rw [if_neg]
  . rfl
  . rw [h]
    exact nofun

theorem applySignals_deltas {deltas : List StreamChoice} (h : ∀ choice ∈ deltas, choice.finishReason = none)
    (calls : ToolCalls) (rest : List (Option StreamChoice))
    : (applySignals reader order calls (deltas.map some ++ rest)).1
        =
      (deltas.flatMap textOf).map (fun content => .ok (.text content))
        ++ (applySignals reader order
          (collectAll calls (deltas.flatMap (fun choice => choice.delta.toolCalls.getD []))) rest).1 := by
  induction deltas generalizing calls with
  | nil => rfl
  | cons choice deltas ih =>
    have hnone := h choice List.mem_cons_self
    have hrest := ih (fun c hc => h c (List.mem_cons_of_mem _ hc))
      (collectAll calls (choice.delta.toolCalls.getD []))
    simp only [List.map_cons, List.cons_append, applySignals, applySignal, parseChoice_of_none hnone]
    rw [hrest, List.flatMap_cons, List.flatMap_cons, List.map_append, List.append_assoc]
    unfold collectAll
    rw [List.foldl_append]

/--
What comes of a whole stream, however it is read.
-/
theorem stream_eq {c : Completion} {network : List Bytes}
    (h : (readingsOf reader network).filterMap signal = c.signals)
    : stream reader order network
        =
      c.texts.map (fun content => .ok (.text content))
        ++ (if c.finishReason = "tool_calls" then drain reader order (collectAll ∅ c.calls) else [])
        ++ [.ok (.done none)] := by
  have hcalls : c.calls = c.deltas.flatMap (fun choice => choice.delta.toolCalls.getD [])
      ++ c.last.toolCalls.getD [] := by
    unfold Completion.calls Completion.choices
    rw [List.flatMap_append, List.flatMap_singleton]
    rfl
  have htexts : c.texts = c.deltas.flatMap textOf ++ textOf c.lastChoice := by
    unfold Completion.texts Completion.choices
    rw [List.flatMap_append, List.flatMap_singleton]
  have hsignals : c.signals = c.deltas.map some ++ [some c.lastChoice, none] := by
    unfold Completion.signals Completion.choices
    rw [List.map_append, List.append_assoc]
    rfl
  unfold stream
  rw [streamFrom_eq, applyAll_eq, h, hsignals, applySignals_deltas c.unfinished, htexts, hcalls, List.map_append]
  have hcollect : collectAll ∅ (c.deltas.flatMap (fun choice => choice.delta.toolCalls.getD [])
      ++ c.last.toolCalls.getD []) = collectAll (collectAll ∅ (c.deltas.flatMap
        (fun choice => choice.delta.toolCalls.getD []))) (c.last.toolCalls.getD []) :=
    List.foldl_append
  rw [hcollect]
  simp only [applySignals, applySignal, parseChoice, Completion.lastChoice, Option.some.injEq]
  by_cases hreason : c.finishReason = "tool_calls"
  . rw [if_pos hreason, if_pos hreason]
    simp only [List.append_assoc, List.append_nil]
    rfl
  . rw [if_neg hreason, if_neg hreason]
    simp only [List.append_assoc, List.append_nil]

/-! ## The calls in the map -/

theorem lastOf_append (values : List (Option String)) (value : Option String)
    : lastOf (values ++ [value]) = value.getD (lastOf values) := by
  unfold lastOf
  cases value with
  | none =>
    rw [List.filterMap_append, List.filterMap_cons_none rfl, List.filterMap_nil, List.append_nil]
    rfl
  | some s =>
    have hsingle : [some s].filterMap id = [s] := rfl
    rw [List.filterMap_append, hsingle, List.getLast?_append]
    rfl

theorem announced_append (calls : List StreamToolCall) (call : StreamToolCall) (index : Nat)
    : announced (calls ++ [call]) index
        =
      if call.index = index then updateEntry call (announced calls index) else announced calls index := by
  unfold announced
  by_cases hindex : call.index = index
  . rw [if_pos hindex, List.filter_append, List.filter_cons_of_pos (by rw [hindex]; exact decide_eq_true rfl)]
    unfold updateEntry
    cases hfunction : call.function with
    | none =>
      simp only [List.map_append, List.map_cons, List.map_nil, lastOf_append, List.filterMap_append, List.filter_nil,
        List.filterMap_cons_none hfunction, List.filterMap_nil, List.append_nil]
    | some function =>
      simp only [List.map_append, List.map_cons, List.map_nil, lastOf_append, List.filterMap_append, List.filter_nil,
        List.filterMap_cons_some hfunction, List.filterMap_nil, List.foldl_append, List.foldl_cons, List.foldl_nil]
  . rw [if_neg hindex, List.filter_append, List.filter_cons_of_neg (by rwa [decide_eq_true_eq]), List.filter_nil,
      List.append_nil]

theorem announced_of_notMem {calls : List StreamToolCall} {index : Nat} (h : index ∉ calls.map (·.index))
    : announced calls index = {} := by
  have hempty : calls.filter (·.index = index) = [] := by
    rw [List.filter_eq_nil_iff]
    intro call hcall
    rw [decide_eq_true_eq]
    rintro rfl
    exact h (List.mem_map_of_mem hcall)
  unfold announced
  rw [hempty]
  rfl

/--
The map holds every announced call.
-/
theorem lookup_collectAll (calls : List StreamToolCall) (index : Nat)
    : (collectAll ∅ calls).lookup index
        =
      if index ∈ calls.map (·.index) then some (announced calls index) else none := by
  induction calls using List.reverseRecOn with
  | nil => rfl
  | append_singleton calls call ih =>
    have hfold : collectAll ∅ (calls ++ [call]) = collect (collectAll ∅ calls) call := by
      unfold collectAll
      rw [List.foldl_append]
      rfl
    have hmem : index ∈ (calls ++ [call]).map (·.index)
        ↔ index ∈ calls.map (·.index) ∨ index = call.index := by
      rw [List.map_append, List.mem_append, List.map_singleton, List.mem_singleton]
    rw [hfold, announced_append]
    unfold collect
    by_cases hindex : index = call.index
    . subst hindex
      have hentry : ((collectAll ∅ calls).lookup call.index).getD {} = announced calls call.index := by
        rw [ih]
        split
        . rfl
        . next h => exact (announced_of_notMem h).symm
      rw [AList.lookup_insert, hentry, if_pos (hmem.mpr (.inr rfl)), if_pos rfl]
    . rw [AList.lookup_insert_ne hindex, ih, if_neg (Ne.symm hindex)]
      simp only [hmem, hindex, or_false]

/--
The order in which the calls come out of the map.
-/
def drained (order : Order) (calls : List StreamToolCall) : List Nat :=
  (order.arrange (collectAll ∅ calls).entries).map (·.1)

theorem mem_indices {calls : List StreamToolCall} {index : Nat}
    : index ∈ indices calls ↔ index ∈ calls.map (·.index) := by
  unfold indices
  rw [List.mem_insertionSort, List.mem_dedup]

theorem arrange_eq (calls : List StreamToolCall)
    : order.arrange (collectAll ∅ calls).entries
        =
      (drained order calls).map (fun index => ⟨index, announced calls index⟩) := by
  unfold drained
  rw [List.map_map]
  apply List.ext_getElem
  . rw [List.length_map]
  . intro n h h'
    rw [List.getElem_map]
    have hmem := (order.perm _).mem_iff.mp (List.getElem_mem h)
    have hlookup := AList.mem_lookup_iff.mpr hmem
    rw [lookup_collectAll] at hlookup
    split at hlookup
    . exact Sigma.ext rfl (heq_of_eq (Option.some.inj hlookup).symm)
    . cases hlookup

theorem drained_perm (calls : List StreamToolCall) : (drained order calls).Perm (indices calls) := by
  have hkeys : (drained order calls).Perm (collectAll ∅ calls).keys := (order.perm _).map _
  apply hkeys.trans
  apply (List.perm_ext_iff_of_nodup (collectAll ∅ calls).nodupKeys _).mpr
  . intro index
    change index ∈ (collectAll ∅ calls).keys ↔ _
    rw [mem_indices, ← AList.mem_keys, ← AList.lookup_isSome, lookup_collectAll]
    split
    . next h => simp only [Option.isSome_some, h]
    . next h => simp only [Option.isSome_none, Bool.false_eq_true, h]
  . unfold indices
    exact (List.perm_insertionSort _ _).nodup_iff.mpr (List.nodup_dedup _)

theorem drain_eq (calls : List StreamToolCall)
    : drain reader order (collectAll ∅ calls)
        =
      (drained order calls).filterMap (fun index =>
        (finished reader (announced calls index)).map (fun call => .ok (.toolCall call))) := by
  unfold drain
  rw [arrange_eq, List.filterMap_map]
  rfl

/-! ## When the calls are right -/

/--
Some calls are announced only if they are finished with `tool_calls`, have valid arguments and come out of the map in
the order of the indices.
-/
def Orderly (reader : Reader) (order : Order) (c : Completion) : Prop :=
  c.calls = [] ∨ (c.finishReason = "tool_calls"
    ∧ (∀ index ∈ indices c.calls, (finished reader (announced c.calls index)).isSome = true)
    ∧ (drained order c.calls).map (fun index => finished reader (announced c.calls index))
      = (indices c.calls).map (fun index => finished reader (announced c.calls index)))

/--
When everything is there, nothing is left out.
-/
theorem filterMap_eq_map {l : List (Option ToolCall)} (h : ∀ call ∈ l, call.isSome = true)
    : l.filterMap (fun call => call.map (fun call => (.ok (.toolCall call) : Chunk))) = l.map result := by
  induction l with
  | nil => rfl
  | cons call l ih =>
    obtain ⟨found, rfl⟩ := Option.isSome_iff_exists.mp (h call List.mem_cons_self)
    simp only [List.filterMap_cons, Option.map_some, List.map_cons]
    rw [ih fun c hc => h c (List.mem_cons_of_mem _ hc)]
    rfl

theorem result_injOn {call call' : Option ToolCall} (h : call.isSome = true) (heq : result call = result call')
    : call = call' := by
  cases call with
  | none => cases h
  | some call =>
    cases call' with
    | none => cases heq
    | some call' =>
      cases heq
      rfl

theorem map_result_inj {l l' : List (Option ToolCall)} (h : ∀ call ∈ l, call.isSome = true)
    (heq : l.map result = l'.map result) : l = l' := by
  induction l generalizing l' with
  | nil => exact (List.map_eq_nil_iff.mp heq.symm).symm
  | cons call l ih =>
    cases l' with
    | nil => cases heq
    | cons call' l' =>
      obtain ⟨hhead, htail⟩ := List.cons.inj heq
      rw [result_injOn (h call List.mem_cons_self) hhead, ih (fun c hc => h c (List.mem_cons_of_mem _ hc)) htail]

theorem isSome_of_result {l : List (Option ToolCall)} {chunks : List Chunk}
    (h : ∀ chunk ∈ chunks, ∃ call, chunk = .ok (.toolCall call)) (heq : chunks = l.map result)
    : ∀ call ∈ l, call.isSome = true := by
  intro call hcall
  obtain ⟨found, hfound⟩ := h (result call) (heq ▸ List.mem_map_of_mem hcall)
  cases call with
  | none => cases hfound
  | some call => rfl

/--
The calls of the map are those that should be told.
-/
theorem drain_eq_iff (calls : List StreamToolCall)
    : drain reader order (collectAll ∅ calls)
          = (indices calls).map (fun index => result (finished reader (announced calls index)))
        ↔
      (∀ index ∈ indices calls, (finished reader (announced calls index)).isSome = true)
        ∧ (drained order calls).map (fun index => finished reader (announced calls index))
          = (indices calls).map (fun index => finished reader (announced calls index)) := by
  let call := fun index => finished reader (announced calls index)
  have hdrain : drain reader order (collectAll ∅ calls)
      = ((drained order calls).map call).filterMap (fun call => call.map (fun call => .ok (.toolCall call))) := by
    rw [drain_eq, List.filterMap_map]
    rfl
  have hresults : (indices calls).map (fun index => result (call index)) = ((indices calls).map call).map result := by
    rw [List.map_map]
    rfl
  have hall (hsome : ∀ index ∈ indices calls, (call index).isSome = true)
      : drain reader order (collectAll ∅ calls) = ((drained order calls).map call).map result := by
    rw [hdrain]
    apply filterMap_eq_map
    intro found hfound
    obtain ⟨index, hindex, rfl⟩ := List.mem_map.mp hfound
    exact hsome index ((drained_perm calls).mem_iff.mp hindex)
  change _ = (indices calls).map (fun index => result (call index)) ↔ _
  rw [hresults]
  constructor
  . intro heq
    have hsome : ∀ index ∈ indices calls, (call index).isSome = true := by
      have hcalls : ∀ chunk ∈ drain reader order (collectAll ∅ calls),
          ∃ call, chunk = .ok (.toolCall call) := by
        intro chunk hchunk
        unfold drain at hchunk
        obtain ⟨e, -, he⟩ := List.mem_filterMap.mp hchunk
        obtain ⟨found, -, rfl⟩ := Option.map_eq_some_iff.mp he
        exact ⟨found, rfl⟩
      intro index hindex
      exact isSome_of_result hcalls heq _ (List.mem_map_of_mem hindex)
    refine ⟨hsome, ?_⟩
    rw [hall hsome] at heq
    apply map_result_inj _ heq
    intro found hfound
    obtain ⟨index, hindex, rfl⟩ := List.mem_map.mp hfound
    exact hsome index ((drained_perm calls).mem_iff.mp hindex)
  . rintro ⟨hsome, hmap⟩
    rw [hall hsome]
    exact congrArg _ hmap

theorem stream_eq_expected_iff {c : Completion} {network : List Bytes}
    (h : (readingsOf reader network).filterMap signal = c.signals)
    : stream reader order network = c.expected reader ↔ Orderly reader order c := by
  rw [stream_eq h]
  unfold Completion.expected
  rw [List.append_left_inj, List.append_right_inj]
  by_cases hcalls : c.calls = []
  . have hindices : indices c.calls = [] := by
      rw [hcalls]
      rfl
    have hdrain : drain reader order (collectAll ∅ c.calls) = [] := by
      have hnil : drained order c.calls = [] := by
        have := @drained_perm order c.calls
        rw [hindices] at this
        exact this.eq_nil
      rw [drain_eq, hnil]
      rfl
    rw [hdrain, hindices, ite_self]
    exact iff_of_true rfl (.inl hcalls)
  . have hne : indices c.calls ≠ [] := by
      obtain ⟨call, rest, hcons⟩ := List.exists_cons_of_ne_nil hcalls
      apply List.ne_nil_of_mem (mem_indices.mpr (List.mem_map_of_mem (a := call) _))
      rw [hcons]
      exact List.mem_cons_self
    unfold Orderly
    by_cases hreason : c.finishReason = "tool_calls"
    . rw [if_pos hreason, drain_eq_iff]
      constructor
      . exact fun h => .inr ⟨hreason, h⟩
      . intro h
        exact (h.resolve_left hcalls).2
    . rw [if_neg hreason]
      constructor
      . intro heq
        exact absurd (List.map_eq_nil_iff.mp heq.symm) hne
      . intro h
        exact absurd (h.resolve_left hcalls).1 hreason

end

/-! ## Cuts behind a line feed -/

section

variable {reader : Reader} {order : Order}

theorem readings_feed (text more : Text)
    : readings reader (text ++ '\n' :: more) = readings reader (text ++ ['\n']) ++ readings reader more := by
  have htext : text ++ '\n' :: more = (text ++ ['\n']) ++ more := by
    rw [List.append_assoc]
    rfl
  unfold readings
  rw [htext, Posix.lines_append (.append_feed text), List.filterMap_append]

/--
When every chunk but the last one ends with a line feed, the chunks are read as the stream is.
-/
theorem readingsOf_of_feeds {network : List Bytes} (h : ∀ bytes ∈ network.dropLast, bytes.getLast? = some 10)
    : readingsOf reader network = readings reader (fromUtf8Lossy network.flatten) := by
  induction network with
  | nil =>
    rw [List.flatten_nil, fromUtf8Lossy_nil]
    rfl
  | cons bytes more ih =>
    have hsplit : readingsOf reader (bytes :: more)
        = readings reader (fromUtf8Lossy bytes) ++ readingsOf reader more :=
      List.flatMap_cons
    cases more with
    | nil =>
      rw [hsplit, List.flatten_cons, List.flatten_nil, List.append_nil]
      exact List.append_nil _
    | cons next more =>
      have hlast := h bytes List.mem_cons_self
      obtain ⟨front, rfl⟩ := List.getLast?_eq_some_iff.mp hlast
      have hfront : fromUtf8Lossy (front ++ [10]) = fromUtf8Lossy front ++ ['\n'] := by
        rw [fromUtf8Lossy_feed, fromUtf8Lossy_nil]
      have hflatten : ((front ++ [10]) :: next :: more).flatten = front ++ 10 :: (next :: more).flatten := by
        rw [List.flatten_cons, List.append_assoc]
        rfl
      rw [hsplit, hfront, ih fun b hb => h b (List.mem_cons_of_mem _ hb), hflatten, fromUtf8Lossy_feed]
      exact (readings_feed _ _).symm

theorem stream_of_feeds {network : List Bytes} (h : ∀ bytes ∈ network.dropLast, bytes.getLast? = some 10)
    : stream reader order network = stream reader order [network.flatten] := by
  have hone : readingsOf reader [network.flatten] = readings reader (fromUtf8Lossy network.flatten) :=
    List.append_nil _
  unfold stream
  rw [streamFrom_eq, streamFrom_eq, readingsOf_of_feeds h, hone]

/-! ## Cuts everywhere -/

theorem readings_single (c : Char) : readings reader [c] = [] := by
  have hshort (line : Text) (hlen : line.length ≤ 1) : readLine reader line = none := by
    unfold readLine
    rw [if_neg]
    intro hfront
    have := (List.isPrefixOf_iff_prefix.mp hfront).length_le
    have hsix : "data: ".toList.length = 6 := by decide
    omega
  unfold readings
  by_cases hc : c = '\n'
  . have hlines : lines [c] = [[]] := by
      rw [hc]
      decide
    rw [hlines, List.filterMap_cons_none (hshort [] (Nat.zero_le _))]
    rfl
  . have hlines : lines [c] = [[c]] := Posix.lines_single (by simpa using Ne.symm hc) (List.cons_ne_nil _ _)
    rw [hlines, List.filterMap_cons_none (hshort [c] (Nat.le_refl _))]
    rfl

/--
Byte by byte nothing is read at all.
-/
theorem stream_bytes (bytes : Bytes) : stream reader order (bytes.map ([·])) = [] := by
  have hreadings : readingsOf reader (bytes.map ([·])) = [] := by
    unfold readingsOf
    rw [List.flatMap_eq_nil_iff]
    intro chunk hchunk
    obtain ⟨b, -, rfl⟩ := List.mem_map.mp hchunk
    have hchar : fromUtf8Lossy [b] = [(decodeOne b []).1] := by
      rw [fromUtf8Lossy, List.drop_nil, fromUtf8Lossy_nil]
    rw [hchar, readings_single]
  unfold stream
  rw [streamFrom_eq, hreadings]
  rfl

theorem flatten_bytes (bytes : Bytes) : (bytes.map ([·])).flatten = bytes := by
  induction bytes with
  | nil => rfl
  | cons b bytes ih => rw [List.map_cons, List.flatten_cons, ih, List.singleton_append]

theorem expected_ne_nil (c : Completion) : c.expected reader ≠ [] := by
  unfold Completion.expected
  exact List.append_ne_nil_of_right_ne_nil _ (List.cons_ne_nil _ _)

end

/-! ## One answer -/

section Examples

theorem fromUtf8Lossy_ascii {text : Text} (h : ∀ c ∈ text, c.toNat < 128)
    : fromUtf8Lossy (text.map (fun c => UInt8.ofNat c.toNat)) = text := by
  induction text with
  | nil => exact fromUtf8Lossy_nil
  | cons c text ih =>
    have hc := h c List.mem_cons_self
    have hnat : (UInt8.ofNat c.toNat).toNat = c.toNat := by
      rw [UInt8.toNat_ofNat']
      omega
    have hdecode (rest : Bytes) : decodeOne (UInt8.ofNat c.toNat) rest = (c, 0) := by
      unfold decodeOne
      rw [if_pos, hnat, Char.ofNat_toNat]
      rw [UInt8.lt_iff_toNat_lt, hnat]
      exact hc
    rw [List.map_cons, fromUtf8Lossy, hdecode, List.drop_zero, ih fun d hd => h d (List.mem_cons_of_mem _ hd)]

def responseText : String :=
  "\x7b\"choices\":[\x7b\"delta\":\x7b\"content\":\"Hi\"\x7d,\"finish_reason\":\"stop\"\x7d]\x7d"

def answer : Completion :=
  ⟨[], nofun, ⟨some "Hi", none⟩, "stop"⟩

def answerReader : Reader :=
  ⟨fun text => if text = responseText.toList then some ⟨[answer.lastChoice]⟩ else none, fun _ => none⟩

def inserted : Order :=
  ⟨id, fun _ => .refl _⟩

def answerText : Text :=
  "data: ".toList ++ responseText.toList ++ "\n\ndata: [DONE]\n\n".toList

def answerBytes : Bytes :=
  answerText.map (fun c => UInt8.ofNat c.toNat)

theorem readings_answer
    : (readings answerReader (fromUtf8Lossy answerBytes)).filterMap signal = answer.signals := by
  have hall : answerText.all (fun c => decide (c.toNat < 128)) = true := by decide
  have hascii : fromUtf8Lossy answerBytes = answerText :=
    fromUtf8Lossy_ascii (fun c hc => of_decide_eq_true (List.all_eq_true.mp hall c hc))
  have hlines : lines answerText
      = ["data: ".toList ++ responseText.toList, [], "data: [DONE]".toList, []] := by decide
  rw [hascii]
  unfold readings
  rw [hlines]
  rfl

theorem stream_of_feeds_answer
    : stream answerReader inserted [[10], answerBytes]
        = stream answerReader inserted [[[10], answerBytes].flatten] :=
  stream_of_feeds (List.forall_mem_singleton.mpr rfl)

end Examples

end Reactor.Studio.OpenRouter
