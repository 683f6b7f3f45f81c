import ReactorCloud.Connect.StateManager

/-!
This module contains when the state of a connection survives the round trip through the store: the
rows of the store, the sessions of a state manager that is fed messages, and what a fresh state
manager loads after them.
-/

namespace Reactor.Connect

open Interleave (Interface Program)
open Rust (HashMap Json)

inductive StateCall where
  | getState (connectionId : ConnectionId) (stream : String)
  | putState (connectionId : ConnectionId) (stream : String) (state : Json)

abbrev StateCall.Ret : StateCall → Type
  | .getState _ _ => Option Json
  | .putState _ _ _ => Unit

abbrev stateCalls : Interface where
  Call := StateCall
  Ret := StateCall.Ret
  Err := ConnectError

def pgConnectStore : ConnectStore stateCalls where
  getState connectionId stream := Program.request (I := stateCalls) (.getState connectionId stream)
  putState connectionId stream state :=
    Program.request (I := stateCalls) (.putState connectionId stream state)

/--
The table `connection_state` by its primary key.
-/
abbrev ConnectionStates := AList fun _ : ConnectionId × String => Json

def StateCall.exec : (c : StateCall) → ConnectionStates → c.Ret × ConnectionStates
  | .getState connectionId stream, states => (states.lookup (connectionId, stream), states)
  | .putState connectionId stream state, states => ((), states.insert (connectionId, stream) state)

/--
A call can fail without effect, and its answer can be lost after the effect.
-/
inductive Outcome where
  | served
  | refused
  | lost
deriving DecidableEq

/--
`outcomes` are those of the next calls. The calls after them are served.
-/
structure StateDb where
  states : ConnectionStates
  outcomes : List Outcome

def StateDb.answer (c : StateCall) (db : StateDb) : Except ConnectError c.Ret × StateDb :=
  match db.outcomes with
  | [] => (.ok (c.exec db.states).1, ⟨(c.exec db.states).2, []⟩)
  | .served :: outcomes => (.ok (c.exec db.states).1, ⟨(c.exec db.states).2, outcomes⟩)
  | .refused :: outcomes => (.error .database, ⟨db.states, outcomes⟩)
  | .lost :: outcomes => (.error .database, ⟨(c.exec db.states).2, outcomes⟩)

/--
A state manager, the rows of the store and the bundle that `parse_state_message` makes of the messages
the manager has been fed.
-/
structure Session where
  manager : StateManager
  states : ConnectionStates
  folded : StateBundle

namespace Session

/--
A fresh state manager after it has loaded the configured streams.
-/
def loaded (connectionId : ConnectionId) (streams : List String) (states : ConnectionStates)
    : StateManager :=
  match ((StateManager.new connectionId).load pgConnectStore streams).eval StateDb.answer
      ⟨states, []⟩ with
  | (.ok manager, _) => manager
  | (.error _, _) => .new connectionId

def bundle (manager : StateManager) : StateBundle :=
  manager.asBundle.getD .empty

def start (connectionId : ConnectionId) (streams : List String) (states : ConnectionStates)
    : Session where
  manager := loaded connectionId streams states
  states := states
  folded := bundle (loaded connectionId streams states)

inductive Op where
  | checkpoint (msg : AirbyteStateMessage)
  | persist (order : List (Σ _ : String, Json)) (outcomes : List Outcome)

def checkpoint (msg : AirbyteStateMessage) (s : Session) : Session where
  manager := s.manager.checkpoint msg
  states := s.states
  folded := parseStateMessage msg s.folded

def persist (order : List (Σ _ : String, Json)) (outcomes : List Outcome) (s : Session)
    : Except ConnectError Unit × Session :=
  match (s.manager.persist pgConnectStore order).eval StateDb.answer ⟨s.states, outcomes⟩ with
  | (.ok (r, manager), db) => (r, { s with manager := manager, states := db.states })
  | (.error e, db) => (.error e, { s with states := db.states })

/--
The operations of a session that satisfy `P`, one after another.
-/
inductive Runs (P : Op → Prop) (s : Session) : Session → Prop where
  | nil : Runs P s s
  | checkpoint {s' : Session} {msg : AirbyteStateMessage} (h : Runs P s s') (hop : P (.checkpoint msg))
      : Runs P s (s'.checkpoint msg)
  | persist {s' : Session} {order : List (Σ _ : String, Json)} {outcomes : List Outcome}
      (h : Runs P s s') (hop : P (.persist order outcomes))
      (horder : order.Perm s'.manager.pending.entries) : Runs P s (s'.persist order outcomes).2

end Session

/--
The operations after which the store has what the messages say: a message about a stream is about one
that is configured, a global message has no states of streams, a legacy message has no data, and no
call fails.
-/
def Kept (streams : List String) : Session.Op → Prop
  | .checkpoint msg =>
    match msg.stateType with
    | .stream =>
      ∀ s, msg.stream = some s →
        s.streamDescriptor.name ∈ streams ∧ s.streamDescriptor.name ≠ "__global__"
    | .global => ∀ g, msg.global = some g → g.streamStates = [] ∧ "__global__" ∉ streams
    | .legacy => msg.data = none
  | .persist _ outcomes => ∀ o ∈ outcomes, o = .served

/--
In every session for the streams whose operations are `ok`, a persist that succeeds leaves a store from which a fresh
state manager gets the bundle of the messages, and one that fails keeps as pending what it has not
stored.
-/
def StateSurvives (streams : List String) (ok : Session.Op → Prop) : Prop :=
  ∀ connectionId states s,
    Session.Runs ok (Session.start connectionId streams states) s →
    ∀ order outcomes, ok (.persist order outcomes) → order.Perm s.manager.pending.entries →
    match s.persist order outcomes with
    | (.ok (), s') =>
      (Session.bundle (Session.loaded connectionId streams s'.states)).Equal s'.folded
    | (.error _, s') =>
      ∀ name state, s.manager.pending.lookup name = some state →
        s'.states.lookup (connectionId, name) = some state
          ∨ s'.manager.pending.lookup name = some state

/-! ## The calls of a persist -/

/--
The rows after a persist that stores every entry.
-/
def ConnectionStates.putAll (connectionId : ConnectionId) (entries : List (Σ _ : String, Json))
    (states : ConnectionStates) : ConnectionStates :=
  entries.foldl (fun states e => states.insert (connectionId, e.1) e.2) states

namespace ConnectionStates

variable {connectionId : ConnectionId} {name : String} {entries : List (Σ _ : String, Json)}

theorem lookup_putAll_of_notMem (states : ConnectionStates) (h : name ∉ entries.keys)
    : (putAll connectionId entries states).lookup (connectionId, name)
        =
      states.lookup (connectionId, name) := by
  induction entries generalizing states with
  | nil => rfl
  | cons e entries ih =>
    rw [List.keys_cons, List.mem_cons, not_or] at h
    have hne : (connectionId, name) ≠ (connectionId, e.1) := by
      intro heq
      exact h.1 (Prod.mk.inj heq).2
    exact (ih _ h.2).trans (AList.lookup_insert_ne hne)

theorem lookup_putAll (h : entries.NodupKeys) (states : ConnectionStates)
    : (putAll connectionId entries states).lookup (connectionId, name)
        =
      (entries.dlookup name).or (states.lookup (connectionId, name)) := by
  induction entries generalizing states with
  | nil => rfl
  | cons e entries ih =>
    rw [List.nodupKeys_cons] at h
    show (putAll connectionId entries _).lookup (connectionId, name) = _
    cases eq_or_ne name e.1 with
    | inl heq =>
      subst heq
      rw [lookup_putAll_of_notMem _ h.1, AList.lookup_insert, List.dlookup_cons_eq]
      rfl
    | inr hne =>
      have hne' : (connectionId, name) ≠ (connectionId, e.1) := by
        intro heq
        exact hne (Prod.mk.inj heq).2
      rw [ih h.2, AList.lookup_insert_ne hne', List.dlookup_cons_ne _ _ hne]

end ConnectionStates

/--
What a persist without failures adds to the persisted states.
-/
def StateManager.settled (order : List (Σ _ : String, Json)) (sm : StateManager) : StateManager where
  connectionId := sm.connectionId
  pending := ∅
  persisted := HashMap.extend sm.persisted (order.filter fun e => e.1 != "__global__")
  globalState := sm.globalState

theorem eval_putState (connectionId : ConnectionId) (name : String) (state : Json) {db : StateDb}
    (h : ∀ o ∈ db.outcomes, o = .served)
    : ∃ outcomes, (∀ o ∈ outcomes, o = .served)
        ∧ (pgConnectStore.putState connectionId name state).eval StateDb.answer db
            =
          (.ok (), ⟨db.states.insert (connectionId, name) state, outcomes⟩) := by
  obtain ⟨states, outcomes⟩ := db
  cases outcomes with
  | nil => exact ⟨[], h, rfl⟩
  | cons o outcomes =>
    cases h o List.mem_cons_self
    exact ⟨outcomes, fun o ho => h o (List.mem_cons_of_mem _ ho), rfl⟩

theorem eval_persistAll (order : List (Σ _ : String, Json)) (sm : StateManager) (db : StateDb)
    (hpending : sm.pending = ∅) (h : ∀ o ∈ db.outcomes, o = .served)
    : ∃ outcomes, (StateManager.persistAll pgConnectStore order sm).eval StateDb.answer db
        =
      (.ok (.ok (), sm.settled order), ⟨db.states.putAll sm.connectionId order, outcomes⟩) := by
  induction order generalizing sm db with
  | nil =>
    obtain ⟨connectionId, pending, persisted, globalState⟩ := sm
    subst hpending
    exact ⟨db.outcomes, rfl⟩
  | cons e order ih =>
    obtain ⟨outcomes, houtcomes, heval⟩ := eval_putState sm.connectionId e.1 e.2 h
    rw [StateManager.persistAll, Program.eval_bind, Program.eval_attempt, heval]
    cases hglobal : e.1 != "__global__" with
    | true =>
      obtain ⟨outcomes', hrest⟩ := ih { sm with persisted := sm.persisted.insert e.1 e.2 }
        ⟨db.states.insert (sm.connectionId, e.1) e.2, outcomes⟩ hpending houtcomes
      exists outcomes'
      simpa [hglobal, StateManager.settled, ConnectionStates.putAll] using hrest
    | false =>
      obtain ⟨outcomes', hrest⟩ := ih sm
        ⟨db.states.insert (sm.connectionId, e.1) e.2, outcomes⟩ hpending houtcomes
      exists outcomes'
      simpa [hglobal, StateManager.settled, ConnectionStates.putAll] using hrest

namespace Session

theorem persist_eq {order : List (Σ _ : String, Json)} {outcomes : List Outcome} (s : Session)
    (h : ∀ o ∈ outcomes, o = .served)
    : s.persist order outcomes
        =
      (.ok (), {
        manager := s.manager.settled order
        states := s.states.putAll s.manager.connectionId order
        folded := s.folded
      }) := by
  obtain ⟨outcomes', heval⟩ := eval_persistAll order { s.manager with pending := ∅ }
    ⟨s.states, outcomes⟩ rfl h
  rw [persist, StateManager.persist, heval]
  rfl

end Session

/-! ## What a fresh state manager loads -/

theorem eval_loadStreams (streams : List String) (sm : StateManager) (states : ConnectionStates)
    : ∃ persisted : HashMap Json,
        (StateManager.loadStreams pgConnectStore streams sm).eval StateDb.answer ⟨states, []⟩
            =
          (.ok { sm with persisted := persisted }, ⟨states, []⟩)
        ∧ ∀ name, persisted.lookup name
            =
          if name ∈ streams then
            (states.lookup (sm.connectionId, name)).or (sm.persisted.lookup name)
          else
            sm.persisted.lookup name := by
  induction streams generalizing sm with
  | nil => exact ⟨sm.persisted, rfl, fun name => by simp⟩
  | cons stream streams ih =>
    cases hrow : states.lookup (sm.connectionId, stream) with
    | some state =>
      obtain ⟨persisted, heval, hlookup⟩ :=
        ih { sm with persisted := sm.persisted.insert stream state }
      exists persisted
      constructor
      . rw [← heval, StateManager.loadStreams, Program.eval_bind]
        simp [pgConnectStore, StateDb.answer, StateCall.exec, hrow]
      . intro name
        rw [hlookup name]
        cases eq_or_ne name stream with
        | inl heq =>
          subst heq
          simp [hrow, AList.lookup_insert]
        | inr hne => simp [hne, AList.lookup_insert_ne hne]
    | none =>
      obtain ⟨persisted, heval, hlookup⟩ := ih sm
      exists persisted
      constructor
      . rw [← heval, StateManager.loadStreams, Program.eval_bind]
        simp [pgConnectStore, StateDb.answer, StateCall.exec, hrow]
      . intro name
        rw [hlookup name]
        cases eq_or_ne name stream with
        | inl heq =>
          subst heq
          simp [hrow]
        | inr hne => simp [hne]

namespace Session

variable {connectionId : ConnectionId} {streams : List String} {states : ConnectionStates}

/--
A fresh state manager has the rows of the configured streams and the global row.
-/
structure IsLoaded (connectionId : ConnectionId) (streams : List String) (states : ConnectionStates)
    (sm : StateManager) : Prop where
  owner : sm.connectionId = connectionId
  pending : sm.pending = ∅
  persisted : ∀ name, sm.persisted.lookup name
    = if name ∈ streams then states.lookup (connectionId, name) else none
  globalState : sm.globalState = states.lookup (connectionId, "__global__")

theorem isLoaded : IsLoaded connectionId streams states (loaded connectionId streams states) := by
  obtain ⟨persisted, heval, hlookup⟩ :=
    eval_loadStreams streams (StateManager.new connectionId) states
  have hload : loaded connectionId streams states
      = ⟨connectionId, ∅, persisted, states.lookup (connectionId, "__global__")⟩ := by
    unfold loaded
    rw [StateManager.load, Program.eval_bind, heval]
    cases hrow : states.lookup (connectionId, "__global__") with
    | some state =>
      simp [Program.eval_bind, pgConnectStore, StateDb.answer, StateCall.exec, StateManager.new, hrow]
    | none =>
      simp [Program.eval_bind, pgConnectStore, StateDb.answer, StateCall.exec, StateManager.new, hrow]
  rw [hload]
  constructor
  . rfl
  . rfl
  . intro name
    rw [hlookup name]
    simp [StateManager.new]
  . rfl

/--
The entries of a bundle, also when there is none.
-/
theorem lookup_bundle (sm : StateManager) (name : String)
    : (bundle sm).streamStates.lookup name
        =
      if name = "__global__" then
        sm.persisted.lookup name
      else
        (sm.pending.lookup name).or (sm.persisted.lookup name) := by
  have hextend : (HashMap.extend sm.persisted
        (sm.pending.entries.filter fun e => e.1 != "__global__")).lookup name
      = if name = "__global__" then sm.persisted.lookup name
        else (sm.pending.lookup name).or (sm.persisted.lookup name) := by
    rw [HashMap.lookup_extend (sm.pending.nodupKeys.sublist List.filter_sublist),
      HashMap.dlookup_filter_ne]
    split
    . rfl
    . rfl
  unfold bundle StateManager.asBundle
  split
  . next h =>
    simp only [Bool.and_eq_true, List.isEmpty_iff] at h
    obtain ⟨⟨hpersisted, hpending⟩, _⟩ := h
    have hpersisted : sm.persisted = ∅ := AList.ext hpersisted
    have hpending : sm.pending = ∅ := AList.ext hpending
    simp [hpersisted, hpending, StateBundle.empty]
  . exact hextend

theorem globalState_bundle (sm : StateManager) : (bundle sm).globalState = sm.globalState := by
  unfold bundle StateManager.asBundle
  split
  . next h =>
    simp only [Bool.and_eq_true, Option.isNone_iff_eq_none] at h
    rw [h.2]
    rfl
  . rfl

/-! ## The invariant of a session -/

/--
The store has the persisted states of the configured streams, the pending ones are about streams that
are configured or about the global state, and the bundle of the messages is that of the state manager.
-/
structure Faithful (connectionId : ConnectionId) (streams : List String) (s : Session) : Prop where
  owner : s.manager.connectionId = connectionId
  persisted : ∀ name, s.manager.persisted.lookup name
    = if name ∈ streams then s.states.lookup (connectionId, name) else none
  pending : ∀ name, s.manager.pending.lookup name ≠ none →
    if name = "__global__" then name ∉ streams else name ∈ streams
  global : s.manager.globalState
    = (s.manager.pending.lookup "__global__").or (s.states.lookup (connectionId, "__global__"))
  folded : s.folded.Equal (bundle s.manager)

theorem faithful_start (connectionId : ConnectionId) (streams : List String)
    (states : ConnectionStates)
    : Faithful connectionId streams (start connectionId streams states) := by
  have hloaded : IsLoaded connectionId streams states (loaded connectionId streams states) := isLoaded
  constructor
  . exact hloaded.owner
  . exact hloaded.persisted
  . intro name h
    simp [start, hloaded.pending] at h
  . rw [show (start connectionId streams states).manager = loaded connectionId streams states from rfl,
      hloaded.globalState, hloaded.pending]
    rfl
  . exact ⟨fun _ => rfl, rfl⟩

/--
A stream message that is about a configured stream keeps the invariant, whatever the state.
-/
theorem Faithful.stream {s : Session} (h : Faithful connectionId streams s) {name : String}
    (state : Json) (hmem : name ∈ streams) (hne : name ≠ "__global__")
    : Faithful connectionId streams {
        manager := { s.manager with pending := s.manager.pending.insert name state }
        states := s.states
        folded := { s.folded with streamStates := s.folded.streamStates.insert name state }
      } := by
  constructor
  . exact h.owner
  . exact h.persisted
  . intro n hn
    cases eq_or_ne n name with
    | inl heq =>
      subst heq
      simpa [hne] using hmem
    | inr hnename =>
      rw [AList.lookup_insert_ne hnename] at hn
      exact h.pending n hn
  . rw [AList.lookup_insert_ne hne.symm]
    exact h.global
  . constructor
    . intro n
      rw [lookup_bundle]
      cases eq_or_ne n name with
      | inl heq =>
        subst heq
        simp [hne, AList.lookup_insert]
      | inr hnename =>
        simp only [AList.lookup_insert_ne hnename]
        rw [h.folded.1 n, lookup_bundle]
    . rw [globalState_bundle, h.folded.2, globalState_bundle]

theorem Faithful.globalMessage {s : Session} (h : Faithful connectionId streams s) (state : Json)
    (hglobal : "__global__" ∉ streams)
    : Faithful connectionId streams {
        manager := {
          s.manager with
          globalState := some state
          pending := s.manager.pending.insert "__global__" state
        }
        states := s.states
        folded := { s.folded with globalState := some state }
      } := by
  constructor
  . exact h.owner
  . exact h.persisted
  . intro n hn
    cases eq_or_ne n "__global__" with
    | inl heq =>
      subst heq
      simpa using hglobal
    | inr hne =>
      rw [AList.lookup_insert_ne hne] at hn
      exact h.pending n hn
  . rw [AList.lookup_insert]
    rfl
  . constructor
    . intro n
      rw [lookup_bundle, h.folded.1 n, lookup_bundle]
      split
      . rfl
      . next hne => rw [AList.lookup_insert_ne hne]
    . rw [globalState_bundle]

theorem Faithful.checkpoint {s : Session} (h : Faithful connectionId streams s)
    {msg : AirbyteStateMessage} (hkept : Kept streams (.checkpoint msg))
    : Faithful connectionId streams (s.checkpoint msg) := by
  obtain ⟨stateType, stream, global, data⟩ := msg
  cases stateType with
  | stream =>
    cases stream with
    | none => exact h
    | some state =>
      obtain ⟨hmem, hne⟩ := hkept state rfl
      exact h.stream state.streamState hmem hne
  | global =>
    cases global with
    | none => exact h
    | some global =>
      obtain ⟨hstates, hglobal⟩ := hkept global rfl
      obtain ⟨sharedState, streamStates⟩ := global
      subst hstates
      exact h.globalMessage sharedState hglobal
  | legacy =>
    cases data with
    | none => exact h
    | some data => cases hkept

/--
A persist whose calls are all served moves the pending states to the store.
-/
theorem Faithful.settled {s : Session} (h : Faithful connectionId streams s)
    {order : List (Σ _ : String, Json)} (horder : order.Perm s.manager.pending.entries)
    : Faithful connectionId streams {
        manager := s.manager.settled order
        states := s.states.putAll s.manager.connectionId order
        folded := s.folded
      } := by
  have hnodup : order.NodupKeys := by
    rw [List.perm_nodupKeys horder]
    exact s.manager.pending.nodupKeys
  have hpending : ∀ name, order.dlookup name = s.manager.pending.lookup name := by
    intro name
    exact List.perm_dlookup name hnodup horder
  have hpersisted : ∀ name, (s.manager.settled order).persisted.lookup name
      = if name = "__global__" then s.manager.persisted.lookup name
        else (s.manager.pending.lookup name).or (s.manager.persisted.lookup name) := by
    intro name
    rw [StateManager.settled, HashMap.lookup_extend (hnodup.sublist List.filter_sublist),
      HashMap.dlookup_filter_ne, hpending]
    split
    . rfl
    . rfl
  have hstates : ∀ name, (s.states.putAll s.manager.connectionId order).lookup (connectionId, name)
      = (s.manager.pending.lookup name).or (s.states.lookup (connectionId, name)) := by
    intro name
    rw [h.owner, ConnectionStates.lookup_putAll hnodup, hpending]
  constructor
  . exact h.owner
  . intro name
    rw [hpersisted, h.persisted name, hstates]
    have := h.pending name
    cases hlookup : s.manager.pending.lookup name with
    | none => simp
    | some state =>
      rw [hlookup] at this
      have := this (by simp)
      split at this
      . next heq => simp [heq ▸ this, heq]
      . next hne => simp [this, hne]
  . intro name hne
    exact absurd (AList.lookup_empty name) hne
  . rw [hstates, StateManager.settled, h.global]
    simp
  . constructor
    . intro name
      rw [h.folded.1 name, lookup_bundle, lookup_bundle, hpersisted]
      split
      . rfl
      . simp [StateManager.settled]
    . rw [h.folded.2, globalState_bundle, globalState_bundle]
      rfl

theorem Runs.faithful {states : ConnectionStates} {s : Session}
    (hrun : Runs (Kept streams) (start connectionId streams states) s)
    : Faithful connectionId streams s := by
  induction hrun with
  | nil => exact faithful_start connectionId streams states
  | checkpoint _ hop ih => exact ih.checkpoint hop
  | persist _ hop horder ih =>
    rw [persist_eq _ hop]
    exact ih.settled horder

/--
A fresh state manager sees what has been settled.
-/
theorem Faithful.reloaded {s : Session} (h : Faithful connectionId streams s)
    (hpending : s.manager.pending = ∅)
    : (bundle (loaded connectionId streams s.states)).Equal s.folded := by
  have hloaded : IsLoaded connectionId streams s.states (loaded connectionId streams s.states) :=
    isLoaded
  constructor
  . intro name
    rw [h.folded.1 name, lookup_bundle, lookup_bundle, hpending, hloaded.pending, h.persisted name,
      hloaded.persisted name]
  . rw [h.folded.2, globalState_bundle, globalState_bundle, hloaded.globalState, h.global, hpending]
    rfl

end Session

/--
Every session of operations that are `Kept` survives the round trip.
-/
theorem stateSurvives (streams : List String) : StateSurvives streams (Kept streams) := by
  intro connectionId states s hrun order outcomes hkept horder
  have hfaithful := hrun.faithful.settled horder
  rw [Session.persist_eq s hkept]
  exact hfaithful.reloaded rfl

section Examples

def usersState (state : Json) : AirbyteStateMessage :=
  ⟨.stream, some ⟨⟨"users"⟩, state⟩, none, none⟩

example : Kept ["users"] (.checkpoint (usersState .null)) := by
  intro s heq
  cases heq
  decide

def users : Session :=
  .start 1 ["users"] ∅

/--
The states of the streams in a global message only reach the bundle of the messages.
-/
example :
    let s := users.checkpoint ⟨.global, none, some ⟨.null, [⟨⟨"users"⟩, .null⟩]⟩, none⟩
    s.folded.streamStates.lookup "users" = some .null ∧ s.manager.pending.lookup "users" = none := by
  exact ⟨rfl, rfl⟩

/--
The session after a message and a persist the store has refused.
-/
def refused : Except ConnectError Unit × Session :=
  (users.checkpoint (usersState .null)).persist [⟨"users", .null⟩] [.refused]

/--
The entry whose `put_state` fails has left the map with the drain: it is neither stored nor pending.
-/
theorem not_stateSurvives : ¬ ∀ streams, StateSurvives streams fun _ => True := by
  intro h
  have hrun : Session.Runs (fun _ => True) users (users.checkpoint (usersState .null)) :=
    .checkpoint .nil trivial
  have hlost := h ["users"] 1 ∅ _ hrun [⟨"users", .null⟩] [.refused] trivial (.refl _)
  have hkept : refused.2.states.lookup (1, "users") = some .null
      ∨ refused.2.manager.pending.lookup "users" = some .null := hlost "users" .null rfl
  cases hkept with
  | inl h => cases h
  | inr h => cases h

end Examples
end Reactor.Connect
