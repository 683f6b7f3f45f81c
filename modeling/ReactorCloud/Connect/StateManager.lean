import ReactorCloud.Rust.HashMap
import ReactorCloud.Rust.Json
import ReactorCloud.Rust.Uuid
import ReactorCloud.Interleave.Program

/-!
This module contains the messages of the connectors, the errors of the connect service, the state manager
of a sync run and the interpretation of state messages by the stream executor.
-/

namespace Reactor.Connect

open Rust (HashMap Json Uuid)

abbrev ConnectionId := Uuid

inductive ConnectError where
  | database
  | internal (message : String)
  | invalidInput (message : String)
  | actionFailed (code cause : String) (suggestedFix : Option String)
deriving DecidableEq

structure AirbyteStreamDescriptor where
  name : String

structure AirbyteStreamState where
  streamDescriptor : AirbyteStreamDescriptor
  streamState : Json

structure AirbyteGlobalState where
  sharedState : Json
  streamStates : List AirbyteStreamState

inductive AirbyteStateType where
  | stream
  | global
  | legacy
deriving DecidableEq

/--
Each type has a field of its own, and any of the fields can be there.
-/
structure AirbyteStateMessage where
  stateType : AirbyteStateType
  stream : Option AirbyteStreamState
  global : Option AirbyteGlobalState
  data : Option Json

/--
The state a connector starts from.
-/
structure StateBundle where
  streamStates : HashMap Json
  globalState : Option Json

namespace StateBundle

def empty : StateBundle :=
  ⟨∅, none⟩

/--
Two bundles with the same entries, as `HashMap` compares them.
-/
def Equal (l r : StateBundle) : Prop :=
  (∀ name, l.streamStates.lookup name = r.streamStates.lookup name) ∧ l.globalState = r.globalState

end StateBundle

/-! The state manager -/

open Interleave (Interface Program)
open Rust (HashMap Json)

/--
The part of `ConnectStore` that keeps the states of a connection.
-/
structure ConnectStore (I : Interface) where
  getState : ConnectionId → String → Program I (Option Json)
  putState : ConnectionId → String → Json → Program I Unit

structure StateManager where
  connectionId : ConnectionId
  /-- Pending state updates (not yet persisted). -/
  pending : HashMap Json
  /-- Last persisted state per stream. -/
  persisted : HashMap Json
  globalState : Option Json

namespace StateManager

variable {I : Interface}

def new (connectionId : ConnectionId) : StateManager :=
  ⟨connectionId, ∅, ∅, none⟩

def loadStreams (store : ConnectStore I) : List String → StateManager → Program I StateManager
  | [], sm => pure sm
  | name :: streams, sm => do
    match ← store.getState sm.connectionId name with
    | some state => loadStreams store streams { sm with persisted := sm.persisted.insert name state }
    | none => loadStreams store streams sm

def load (store : ConnectStore I) (streams : List String) (sm : StateManager)
    : Program I StateManager := do
  let sm ← loadStreams store streams sm
  match ← store.getState sm.connectionId "__global__" with
  | some state => pure { sm with globalState := some state }
  | none => pure sm

def asBundle (sm : StateManager) : Option StateBundle :=
  if sm.persisted.entries.isEmpty && sm.pending.entries.isEmpty && sm.globalState.isNone then
    none
  else
    some {
      streamStates :=
        HashMap.extend sm.persisted (sm.pending.entries.filter fun e => e.1 != "__global__")
      globalState := sm.globalState
    }

def checkpoint (state : AirbyteStateMessage) (sm : StateManager) : StateManager :=
  match state.stateType with
  | .stream =>
    match state.stream with
    | some s => { sm with pending := sm.pending.insert s.streamDescriptor.name s.streamState }
    | none => sm
  | .global =>
    match state.global with
    | some global => {
        sm with
        globalState := some global.sharedState
        pending := sm.pending.insert "__global__" global.sharedState
      }
    | none => sm
  | .legacy =>
    match state.data with
    | some data => { sm with pending := sm.pending.insert "__legacy__" data }
    | none => sm

/--
The loop of `persist` over the entries that are drained. An error leaves it with the state manager as
it is then.
-/
def persistAll (store : ConnectStore I)
    : List (Σ _ : String, Json) → StateManager → Program I (Except I.Err Unit × StateManager)
  | [], sm => pure (.ok (), sm)
  | ⟨name, state⟩ :: entries, sm => do
    match ← (store.putState sm.connectionId name state).attempt with
    | .error e => pure (.error e, sm)
    | .ok () =>
      if name != "__global__" then
        persistAll store entries { sm with persisted := sm.persisted.insert name state }
      else
        persistAll store entries sm

/--
The drain empties the map whether or not the loop comes to its end. `order` is the order in which it
goes over the entries.
-/
def persist (store : ConnectStore I) (order : List (Σ _ : String, Json)) (sm : StateManager)
    : Program I (Except I.Err Unit × StateManager) :=
  persistAll store order { sm with pending := ∅ }

end StateManager

def insertStreams (states : HashMap Json) (streams : List AirbyteStreamState) : HashMap Json :=
  streams.foldl (fun states s => states.insert s.streamDescriptor.name s.streamState) states

def parseStateMessage (msg : AirbyteStateMessage) (bundle : StateBundle) : StateBundle :=
  match msg.stateType with
  | .stream =>
    match msg.stream with
    | some s => {
        bundle with
        streamStates := bundle.streamStates.insert s.streamDescriptor.name s.streamState
      }
    | none => bundle
  | .global =>
    match msg.global with
    | some global => {
        streamStates := insertStreams bundle.streamStates global.streamStates
        globalState := some global.sharedState
      }
    | none => bundle
  | .legacy =>
    match msg.data with
    | some data => { bundle with globalState := some data }
    | none => bundle

end Reactor.Connect
