import ReactorCloud.Core.Types
import ReactorCloud.Rust.Json

/-!
This module contains the in-process backend for data change events. Every topic has a broadcast
channel of its own and a publisher sends to the channels of four topics.
-/

namespace Reactor.Data.Realtime

inductive DataChangeOp where
  | insert
  | update
  | delete
  | all
  deriving DecidableEq, Repr

def DataChangeOp.asStr : DataChangeOp → String
  | .insert => "insert"
  | .update => "update"
  | .delete => "delete"
  | .all => "*"

structure DataChangeEvent where
  id : Rust.Uuid
  table : String
  op : DataChangeOp
  schema : String
  old : Option Rust.Json
  new : Option Rust.Json
  deriving DecidableEq

def buildTopic (projectRef : ProjectRef) (table : String) (op : DataChangeOp) : String :=
  "reactor." ++ projectRef.text ++ ".data." ++ table ++ "." ++ op.asStr

/--
A channel of `tokio::sync::broadcast`. It keeps the last `capacity` of the values that were sent, here
`sent` are all of them.
-/
structure Channel where
  sent : List DataChangeEvent

/--
A receiver continues at `next` in the values of its channel. What it has returned is in `received`.
-/
structure RealtimeSubscription where
  topic : String
  next : Nat
  received : List DataChangeEvent

/--
The backend and the subscriptions it has handed out, the oldest first.
-/
structure InProcessRealtime where
  channels : List (String × Channel)
  channelCapacity : Nat
  subscriptions : List RealtimeSubscription

namespace InProcessRealtime

def withCapacity (capacity : Nat) : InProcessRealtime :=
  ⟨[], capacity, []⟩

/--
The channel of a topic, empty if there is none yet.
-/
def sentTo (rt : InProcessRealtime) (topic : String) : List DataChangeEvent :=
  ((rt.channels.lookup topic).map Channel.sent).getD []

/--
The slow path of the source only differs in the locks it takes.
-/
def getOrCreateChannel (rt : InProcessRealtime) (topic : String) : InProcessRealtime :=
  if (rt.channels.lookup topic).isSome then
    rt
  else
    { rt with channels := (topic, ⟨[]⟩) :: rt.channels }

def subscribe (rt : InProcessRealtime) (projectRef : ProjectRef) (table : String) (op : DataChangeOp)
    : InProcessRealtime :=
  let topic := buildTopic projectRef table op
  let rt := rt.getOrCreateChannel topic
  -- A new receiver only sees what is sent from now on.
  { rt with subscriptions := rt.subscriptions ++ [⟨topic, (rt.sentTo topic).length, []⟩] }

/--
The topics of the channels that a publisher sends to.
-/
def getMatchingChannels (rt : InProcessRealtime) (projectRef : ProjectRef) (table : String)
    (op : DataChangeOp) : List String :=
  [buildTopic projectRef table op, buildTopic projectRef table .all, buildTopic projectRef "*" op,
    buildTopic projectRef "*" .all].filter (fun topic => (rt.channels.lookup topic).isSome)

def send (rt : InProcessRealtime) (topic : String) (event : DataChangeEvent) : InProcessRealtime :=
  { rt with
    channels := rt.channels.map (fun (t, channel) =>
      if t = topic then (t, ⟨channel.sent ++ [event]⟩) else (t, channel)) }

def publish (rt : InProcessRealtime) (projectRef : ProjectRef) (table : String)
    (event : DataChangeEvent) : InProcessRealtime :=
  (rt.getMatchingChannels projectRef table event.op).foldl (fun rt topic => rt.send topic event) rt

/--
The values a subscription has not returned yet.
-/
def pending (rt : InProcessRealtime) (sub : RealtimeSubscription) : List DataChangeEvent :=
  (rt.sentTo sub.topic).drop sub.next

/--
`recv` returns the next value. A receiver whose next value was overwritten gets an error instead and
continues at the oldest value that is left. Without a value it waits.
-/
def recvOne (rt : InProcessRealtime) (sub : RealtimeSubscription) : RealtimeSubscription :=
  let sent := rt.sentTo sub.topic
  if rt.channelCapacity < (rt.pending sub).length then
    { sub with next := sent.length - rt.channelCapacity }
  else
    match sent[sub.next]? with
    | some event => { sub with next := sub.next + 1, received := sub.received ++ [event] }
    | none => sub

/--
`recv` on the subscription with the number `i`.
-/
def recv (rt : InProcessRealtime) (i : Nat) : InProcessRealtime :=
  { rt with subscriptions := rt.subscriptions.modify i rt.recvOne }

end InProcessRealtime

inductive Call where
  | subscribe (projectRef : ProjectRef) (table : String) (op : DataChangeOp)
  | publish (projectRef : ProjectRef) (table : String) (event : DataChangeEvent)
  | recv (i : Nat)

namespace InProcessRealtime

def call (rt : InProcessRealtime) : Call → InProcessRealtime
  | .subscribe projectRef table op => rt.subscribe projectRef table op
  | .publish projectRef table event => rt.publish projectRef table event
  | .recv i => rt.recv i

def calls (rt : InProcessRealtime) (cs : List Call) : InProcessRealtime :=
  cs.foldl call rt

end InProcessRealtime
end Reactor.Data.Realtime

/-!
This module contains the proof that the in-process backend delivers an event to exactly the
subscriptions that are interested in it.
-/

namespace Reactor.Data.Realtime

/-! Topics -/

theorem append_sep_inj {sep : Char} {l l' r r' : List Char} (hr : sep ∉ r) (hr' : sep ∉ r')
    (h : l ++ sep :: r = l' ++ sep :: r') : l = l' ∧ r = r' := by
  rw [List.append_eq_append_iff] at h
  rcases h with ⟨mid, hl, hmid⟩ | ⟨mid, hl, hmid⟩
  . cases mid with
    | nil => simp_all
    | cons c mid =>
      rw [List.cons_append, List.cons.injEq] at hmid
      rw [hmid.2] at hr
      simp at hr
  . cases mid with
    | nil => simp_all
    | cons c mid =>
      rw [List.cons_append, List.cons.injEq] at hmid
      rw [hmid.2] at hr'
      simp at hr'

theorem DataChangeOp.dot_not_mem (op : DataChangeOp) : '.' ∉ op.asStr.toList := by
  cases op <;> decide

theorem DataChangeOp.asStr_inj {op op' : DataChangeOp} (h : op.asStr = op'.asStr) : op = op' := by
  revert op op'
  intro op op'
  cases op <;> cases op' <;> decide

theorem buildTopic_inj {p p' : ProjectRef} {table table' : String} {op op' : DataChangeOp}
    : buildTopic p table op = buildTopic p' table' op' ↔ p = p' ∧ table = table' ∧ op = op' := by
  constructor
  . intro h
    have h := congrArg String.toList h
    simp only [buildTopic, String.toList_append, List.append_assoc, List.append_cancel_left_eq] at h
    -- References have the same length and the text of an operation has no dot.
    obtain ⟨hp, h⟩ := List.append_inj h (by rw [p.length_eq, p'.length_eq])
    rw [List.append_cancel_left_eq] at h
    obtain ⟨htable, hop⟩ := append_sep_inj op.dot_not_mem op'.dot_not_mem h
    exact ⟨ProjectRef.ext_text (String.toList_inj.mp hp), String.toList_inj.mp htable,
      DataChangeOp.asStr_inj (String.toList_inj.mp hop)⟩
  . rintro ⟨rfl, rfl, rfl⟩
    rfl

/-! Subscriptions -/

/--
What a subscription asks for.
-/
structure Interest where
  projectRef : ProjectRef
  table : String
  op : DataChangeOp
  deriving DecidableEq

def Interest.topic (interest : Interest) : String :=
  buildTopic interest.projectRef interest.table interest.op

def Interest.Matches (interest : Interest) (projectRef : ProjectRef) (table : String)
    (op : DataChangeOp) : Prop :=
  projectRef = interest.projectRef ∧ (interest.table = "*" ∨ interest.table = table)
    ∧ (interest.op = .all ∨ interest.op = op)

instance (interest : Interest) (projectRef : ProjectRef) (table : String) (op : DataChangeOp)
    : Decidable (interest.Matches projectRef table op) :=
  inferInstanceAs (Decidable (_ ∧ _))

namespace Call

/--
A publisher names a table and an operation.
-/
def Concrete : Call → Prop
  | .publish _ table event => table ≠ "*" ∧ event.op ≠ .all
  | _ => True

instance (c : Call) : Decidable c.Concrete := by
  cases c <;> unfold Concrete <;> infer_instance

/--
The event of a call that is due to a subscription.
-/
def delivers (interest : Interest) : Call → Option DataChangeEvent
  | .publish projectRef table event =>
    if interest.Matches projectRef table event.op then some event else none
  | _ => none

def isSubscribe : Call → Bool
  | .subscribe .. => true
  | _ => false

end Call

namespace InProcessRealtime

section

variable {rt : InProcessRealtime}

theorem lookup_send (topic t : String) (event : DataChangeEvent)
    : (rt.send topic event).channels.lookup t
        =
      (rt.channels.lookup t).map (fun channel =>
        if t = topic then ⟨channel.sent ++ [event]⟩ else channel) := by
  unfold send
  dsimp only
  induction rt.channels with
  | nil => rfl
  | cons entry entries ih =>
    obtain ⟨name, channel⟩ := entry
    rw [List.map_cons, List.lookup_cons]
    by_cases hname : name = topic
    . rw [if_pos hname, List.lookup_cons]
      cases ht : t == name with
      | true => simp [eq_of_beq ht, hname]
      | false => exact ih
    . rw [if_neg hname, List.lookup_cons]
      cases ht : t == name with
      | true => simp [eq_of_beq ht, hname]
      | false => exact ih

theorem isSome_lookup_send (topic t : String) (event : DataChangeEvent)
    : ((rt.send topic event).channels.lookup t).isSome = (rt.channels.lookup t).isSome := by
  simp [lookup_send]

theorem sentTo_send (topic t : String) (event : DataChangeEvent)
    : (rt.send topic event).sentTo t
        =
      if t = topic ∧ (rt.channels.lookup t).isSome then rt.sentTo t ++ [event] else rt.sentTo t := by
  unfold sentTo
  rw [lookup_send]
  cases rt.channels.lookup t with
  | none => simp
  | some channel => by_cases ht : t = topic <;> simp [ht]

/--
Every topic gets the event once, as the topics are different.
-/
theorem sentTo_sendAll (topics : List String) (hnodup : topics.Nodup) (event : DataChangeEvent)
    (t : String)
    : (topics.foldl (fun rt topic => rt.send topic event) rt).sentTo t
        =
      if t ∈ topics ∧ (rt.channels.lookup t).isSome then rt.sentTo t ++ [event] else rt.sentTo t := by
  induction topics generalizing rt with
  | nil => simp
  | cons topic topics ih =>
    rw [List.nodup_cons] at hnodup
    rw [List.foldl_cons, ih hnodup.2, isSome_lookup_send, sentTo_send]
    by_cases ht : t = topic
    . rw [if_neg (by rw [ht]; exact fun h => hnodup.1 h.1)]
      simp only [ht, List.mem_cons, true_or]
    . simp only [ht, List.mem_cons, false_or, false_and, if_false]

theorem isSome_lookup_sendAll (topics : List String) (event : DataChangeEvent) (t : String)
    : ((topics.foldl (fun rt topic => rt.send topic event) rt).channels.lookup t).isSome
        =
      (rt.channels.lookup t).isSome := by
  induction topics generalizing rt with
  | nil => rfl
  | cons topic topics ih => rw [List.foldl_cons, ih, isSome_lookup_send]

theorem subscriptions_sendAll (topics : List String) (event : DataChangeEvent)
    : (topics.foldl (fun rt topic => rt.send topic event) rt).subscriptions = rt.subscriptions := by
  induction topics generalizing rt with
  | nil => rfl
  | cons topic topics ih => rw [List.foldl_cons, ih, send]

theorem getMatchingChannels_nodup {p : ProjectRef} {table : String} {op : DataChangeOp}
    (htable : table ≠ "*") (hop : op ≠ .all) : (rt.getMatchingChannels p table op).Nodup := by
  apply List.Nodup.filter
  simp [buildTopic_inj, htable, hop]

/--
The four topics of a publisher are those of the subscriptions that match.
-/
theorem mem_getMatchingChannels {interest : Interest} {p : ProjectRef} {table : String}
    {op : DataChangeOp} (h : (rt.channels.lookup interest.topic).isSome)
    : interest.topic ∈ rt.getMatchingChannels p table op ↔ interest.Matches p table op := by
  unfold getMatchingChannels Interest.Matches
  rw [List.mem_filter, and_iff_left h]
  unfold Interest.topic
  simp only [List.mem_cons, List.not_mem_nil, or_false, buildTopic_inj]
  grind

theorem sentTo_publish {interest : Interest} {p : ProjectRef} {table : String}
    {event : DataChangeEvent} (htable : table ≠ "*") (hop : event.op ≠ .all)
    (h : (rt.channels.lookup interest.topic).isSome)
    : (rt.publish p table event).sentTo interest.topic
        =
      if interest.Matches p table event.op then
        rt.sentTo interest.topic ++ [event]
      else
        rt.sentTo interest.topic := by
  unfold publish
  rw [sentTo_sendAll _ (getMatchingChannels_nodup htable hop)]
  simp [mem_getMatchingChannels h, h]

theorem sentTo_getOrCreateChannel (topic t : String)
    : (rt.getOrCreateChannel topic).sentTo t = rt.sentTo t := by
  unfold getOrCreateChannel
  split
  . rfl
  . next hnone =>
    unfold sentTo
    by_cases ht : t = topic
    . rw [Bool.not_eq_true, Option.isSome_eq_false_iff, Option.isNone_iff_eq_none] at hnone
      simp [ht, hnone]
    . have : (t == topic) = false := by simp [ht]
      simp [List.lookup_cons, this]

theorem isSome_lookup_getOrCreateChannel (topic t : String)
    : ((rt.getOrCreateChannel topic).channels.lookup t).isSome
        =
      ((rt.channels.lookup t).isSome || t == topic) := by
  unfold getOrCreateChannel
  split
  . next hsome =>
    by_cases ht : t = topic
    . subst ht
      simp [hsome]
    . simp [ht]
  . by_cases ht : t = topic
    . simp [ht]
    . have : (t == topic) = false := by simp [ht]
      simp [List.lookup_cons, this]

end

/--
The subscription with the number `i` asks for `interest` and the events `events` are due to it: it has
returned the first of them and the others wait in its channel.
-/
structure Tracks (rt : InProcessRealtime) (i : Nat) (interest : Interest)
    (events : List DataChangeEvent) : Prop where
  exists_sub : ∃ sub, rt.subscriptions[i]? = some sub ∧ sub.topic = interest.topic
    ∧ sub.next ≤ (rt.sentTo sub.topic).length ∧ sub.received ++ rt.pending sub = events
  isSome_lookup : (rt.channels.lookup interest.topic).isSome

/--
No receiver has more values before it than its channel keeps.
-/
def InTime (rt : InProcessRealtime) : Prop :=
  ∀ sub ∈ rt.subscriptions, (rt.pending sub).length ≤ rt.channelCapacity

instance (rt : InProcessRealtime) : Decidable rt.InTime :=
  inferInstanceAs (Decidable (∀ sub ∈ rt.subscriptions, _))

/--
The receivers are in time before every call.
-/
def AllInTime (rt : InProcessRealtime) : List Call → Prop
  | [] => True
  | c :: cs => rt.InTime ∧ (rt.call c).AllInTime cs

instance decidableAllInTime : (rt : InProcessRealtime) → (cs : List Call) → Decidable (rt.AllInTime cs)
  | _, [] => .isTrue trivial
  | rt, c :: cs =>
    have := decidableAllInTime (rt.call c) cs
    inferInstanceAs (Decidable (rt.InTime ∧ _))

theorem Tracks.subscribe {rt : InProcessRealtime} {i : Nat} {interest : Interest}
    {events : List DataChangeEvent} (h : rt.Tracks i interest events) (p : ProjectRef)
    (table : String) (op : DataChangeOp) : (rt.subscribe p table op).Tracks i interest events := by
  obtain ⟨⟨sub, hget, htopic, hnext, hevents⟩, hlookup⟩ := h
  have hsent (t : String) : (rt.subscribe p table op).sentTo t = rt.sentTo t :=
    sentTo_getOrCreateChannel _ t
  constructor
  . have hlt := (List.getElem?_eq_some_iff.mp hget).1
    refine ⟨sub, ?_, htopic, ?_, ?_⟩
    . have hsame : (rt.getOrCreateChannel (buildTopic p table op)).subscriptions = rt.subscriptions := by
        unfold getOrCreateChannel
        split <;> rfl
      simp only [InProcessRealtime.subscribe, hsame]
      rw [List.getElem?_append_left hlt, hget]
    . rw [hsent]
      exact hnext
    . unfold pending at *
      rw [hsent]
      exact hevents
  . have := @isSome_lookup_getOrCreateChannel rt (buildTopic p table op) interest.topic
    simp only [InProcessRealtime.subscribe]
    rw [this, hlookup]
    rfl

theorem Tracks.publish {rt : InProcessRealtime} {i : Nat} {interest : Interest}
    {events : List DataChangeEvent} (h : rt.Tracks i interest events) (p : ProjectRef)
    {table : String} {event : DataChangeEvent} (htable : table ≠ "*") (hop : event.op ≠ .all)
    : (rt.publish p table event).Tracks i interest
        (events ++ ((Call.publish p table event).delivers interest).toList) := by
  obtain ⟨⟨sub, hget, htopic, hnext, hevents⟩, hlookup⟩ := h
  have hsent := @sentTo_publish rt interest p table event htable hop hlookup
  constructor
  . refine ⟨sub, ?_, htopic, ?_, ?_⟩
    . unfold InProcessRealtime.publish
      rw [subscriptions_sendAll, hget]
    . rw [htopic, hsent]
      rw [htopic] at hnext
      split
      . simp only [List.length_append]
        omega
      . exact hnext
    . unfold pending at *
      rw [htopic] at hnext hevents ⊢
      rw [hsent]
      unfold Call.delivers
      by_cases hmatches : interest.Matches p table event.op
      . simp only [if_pos hmatches, Option.toList_some]
        rw [List.drop_append_of_le_length hnext, ← List.append_assoc, hevents]
      . simpa [if_neg hmatches] using hevents
  . unfold InProcessRealtime.publish
    rw [isSome_lookup_sendAll, hlookup]

theorem Tracks.recv {rt : InProcessRealtime} {i : Nat} {interest : Interest}
    {events : List DataChangeEvent} (h : rt.Tracks i interest events) (htime : rt.InTime) (j : Nat)
    : (rt.recv j).Tracks i interest events := by
  obtain ⟨⟨sub, hget, htopic, hnext, hevents⟩, hlookup⟩ := h
  constructor
  . unfold InProcessRealtime.recv
    by_cases hij : j = i
    . refine ⟨rt.recvOne sub, by simp [hget, hij], ?_⟩
      have hlag := htime sub (List.mem_of_getElem? hget)
      unfold recvOne
      rw [if_neg (by omega)]
      split
      . next event hevent =>
        obtain ⟨hlt, heq⟩ := List.getElem?_eq_some_iff.mp hevent
        refine ⟨htopic, hlt, ?_⟩
        unfold pending at hevents ⊢
        rw [List.drop_eq_getElem_cons hlt, heq] at hevents
        simpa [sentTo] using hevents
      . exact ⟨htopic, hnext, hevents⟩
    . exact ⟨sub, by simp [hget, hij], htopic, hnext, hevents⟩
  . exact hlookup

theorem Tracks.call {rt : InProcessRealtime} {i : Nat} {interest : Interest}
    {events : List DataChangeEvent} (h : rt.Tracks i interest events) (htime : rt.InTime) {c : Call}
    (hconcrete : c.Concrete)
    : (rt.call c).Tracks i interest (events ++ (c.delivers interest).toList) := by
  cases c with
  | subscribe p table op =>
    rw [show (Call.subscribe p table op).delivers interest = none from rfl, Option.toList_none,
      List.append_nil]
    exact h.subscribe p table op
  | publish p table event => exact h.publish p hconcrete.1 hconcrete.2
  | recv j =>
    rw [show (Call.recv j).delivers interest = none from rfl, Option.toList_none, List.append_nil]
    exact h.recv htime j

theorem Tracks.calls {rt : InProcessRealtime} {i : Nat} {interest : Interest}
    {events : List DataChangeEvent} (h : rt.Tracks i interest events) {cs : List Call}
    (htime : rt.AllInTime cs) (hconcrete : ∀ c ∈ cs, c.Concrete)
    : (rt.calls cs).Tracks i interest (events ++ cs.filterMap (Call.delivers interest)) := by
  induction cs generalizing rt events with
  | nil => simpa [InProcessRealtime.calls] using h
  | cons c cs ih =>
    rw [List.forall_mem_cons] at hconcrete
    have := ih (h.call htime.1 hconcrete.1) htime.2 hconcrete.2
    rw [List.filterMap_cons]
    cases hdelivers : c.delivers interest <;> simpa [InProcessRealtime.calls, hdelivers] using this

/--
A new subscription follows the ones that exist and no event is due to it.
-/
theorem tracks_subscribe (rt : InProcessRealtime) (p : ProjectRef) (table : String)
    (op : DataChangeOp)
    : (rt.subscribe p table op).Tracks rt.subscriptions.length ⟨p, table, op⟩ [] := by
  have hsame : (rt.getOrCreateChannel (buildTopic p table op)).subscriptions = rt.subscriptions := by
    unfold getOrCreateChannel
    split <;> rfl
  constructor
  . let topic := buildTopic p table op
    let sub : RealtimeSubscription := ⟨topic, ((rt.getOrCreateChannel topic).sentTo topic).length, []⟩
    refine ⟨sub, ?_, rfl, Nat.le_refl _, ?_⟩
    . simp only [subscribe, hsame]
      rw [List.getElem?_append_right (Nat.le_refl _)]
      simp [sub, topic]
    . simp [sub, topic, pending, sentTo, subscribe]
  . have := @isSome_lookup_getOrCreateChannel rt (buildTopic p table op) (buildTopic p table op)
    simp only [subscribe, Interest.topic]
    rw [this]
    simp

theorem length_subscriptions_call (rt : InProcessRealtime) (c : Call)
    : (rt.call c).subscriptions.length = rt.subscriptions.length + (if c.isSubscribe then 1 else 0) := by
  cases c with
  | subscribe p table op =>
    have : (rt.getOrCreateChannel (buildTopic p table op)).subscriptions = rt.subscriptions := by
      unfold getOrCreateChannel
      split <;> rfl
    simp [call, subscribe, this, Call.isSubscribe]
  | publish p table event => simp [call, publish, subscriptions_sendAll, Call.isSubscribe]
  | recv j => simp [call, recv, Call.isSubscribe]

theorem length_subscriptions (rt : InProcessRealtime) (cs : List Call)
    : (rt.calls cs).subscriptions.length = rt.subscriptions.length + cs.countP Call.isSubscribe := by
  induction cs generalizing rt with
  | nil => rfl
  | cons c cs ih =>
    have := ih (rt.call c)
    rw [length_subscriptions_call] at this
    simp only [calls, List.foldl_cons, List.countP_cons] at this ⊢
    omega

theorem allInTime_append {rt : InProcessRealtime} {cs cs' : List Call}
    : rt.AllInTime (cs ++ cs') ↔ rt.AllInTime cs ∧ (rt.calls cs).AllInTime cs' := by
  induction cs generalizing rt with
  | nil => simp [AllInTime, calls]
  | cons c cs ih => simp [AllInTime, ih, calls, and_assoc]

/--
A subscription that returns one value after the other ends up with all that are due to it.
-/
theorem Tracks.drain {rt : InProcessRealtime} {i : Nat} {interest : Interest}
    {events : List DataChangeEvent} (h : rt.Tracks i interest events) (n : Nat)
    (htime : rt.AllInTime (List.replicate n (.recv i))) (hn : events.length ≤ n)
    : ∃ sub, (rt.calls (List.replicate n (.recv i))).subscriptions[i]? = some sub
        ∧ sub.received = events := by
  have key : ∀ n {rt : InProcessRealtime}, rt.Tracks i interest events
      → rt.AllInTime (List.replicate n (.recv i))
      → (∃ sub, rt.subscriptions[i]? = some sub ∧ events.length ≤ sub.received.length + n)
      → ∃ sub, (rt.calls (List.replicate n (.recv i))).subscriptions[i]? = some sub
        ∧ sub.received = events := by
    intro n
    induction n with
    | zero =>
      intro rt h _ hlength
      obtain ⟨sub, hget, _, _, hevents⟩ := h.exists_sub
      obtain ⟨sub', hget', hle⟩ := hlength
      rw [hget, Option.some.injEq] at hget'
      subst hget'
      refine ⟨sub, hget, ?_⟩
      have := congrArg List.length hevents
      rw [List.length_append] at this
      have hnil : rt.pending sub = [] := List.eq_nil_of_length_eq_zero (by omega)
      rwa [hnil, List.append_nil] at hevents
    | succ n ih =>
      intro rt h htime hlength
      rw [List.replicate_succ] at htime ⊢
      have hrecv := h.recv htime.1 i
      apply ih hrecv htime.2
      obtain ⟨sub, hget, _, hnext, hevents⟩ := h.exists_sub
      obtain ⟨sub', hget', hle⟩ := hlength
      rw [hget, Option.some.injEq] at hget'
      subst hget'
      have hlag := htime.1 sub (List.mem_of_getElem? hget)
      refine ⟨rt.recvOne sub, ?_, ?_⟩
      . simp [InProcessRealtime.recv, hget]
      . unfold recvOne
        rw [if_neg (by omega)]
        split
        . simp only [List.length_append, List.length_singleton]
          omega
        . next hnone =>
          -- Nothing waits, so everything has been returned before.
          have hlast := List.getElem?_eq_none_iff.mp hnone
          have hnil : rt.pending sub = [] := List.drop_eq_nil_iff.mpr hlast
          rw [hnil, List.append_nil] at hevents
          rw [hevents]
          omega
  apply key n h htime
  obtain ⟨sub, hget, _⟩ := h.exists_sub
  exact ⟨sub, hget, by omega⟩

/--
The subscription made after `before` returns exactly the events published in `after` that match it,
each once and in the order of their publication.
-/
theorem received_exactly (capacity : Nat) (before after : List Call) (p : ProjectRef) (table : String)
    (op : DataChangeOp) (n : Nat) (hconcrete : ∀ c ∈ after, c.Concrete)
    (hn : (after.filterMap (Call.delivers ⟨p, table, op⟩)).length ≤ n)
    (htime : (withCapacity capacity).AllInTime (before ++ .subscribe p table op :: after
      ++ List.replicate n (.recv (before.countP Call.isSubscribe))))
    : (((withCapacity capacity).calls (before ++ .subscribe p table op :: after
          ++ List.replicate n (.recv (before.countP Call.isSubscribe)))).subscriptions[
            before.countP Call.isSubscribe]?).map RealtimeSubscription.received
        =
      some (after.filterMap (Call.delivers ⟨p, table, op⟩)) := by
  rw [allInTime_append, allInTime_append] at htime
  obtain ⟨⟨_, htime⟩, hdrain⟩ := htime
  have hlength := length_subscriptions (withCapacity capacity) before
  rw [show (withCapacity capacity).subscriptions.length = 0 from rfl, Nat.zero_add] at hlength
  have hnew := tracks_subscribe ((withCapacity capacity).calls before) p table op
  rw [hlength] at hnew
  have hafter := hnew.calls htime.2 hconcrete
  rw [List.nil_append] at hafter
  have hsplit : ((withCapacity capacity).calls before |>.subscribe p table op |>.calls after)
      = (withCapacity capacity).calls (before ++ .subscribe p table op :: after) := by
    simp [calls, call]
  rw [hsplit] at hafter
  obtain ⟨sub, hget, hreceived⟩ := hafter.drain n hdrain hn
  have hsplit : ((withCapacity capacity).calls (before ++ .subscribe p table op :: after)).calls
        (List.replicate n (.recv (before.countP Call.isSubscribe)))
      = (withCapacity capacity).calls (before ++ .subscribe p table op :: after
        ++ List.replicate n (.recv (before.countP Call.isSubscribe))) := by
    simp [calls]
  rw [← hsplit, hget, Option.map_some, hreceived]

/--
The only event that a subscription to the inserts of one table gets.
-/
theorem received_exactly_insert :
    let p : ProjectRef := ⟨"abc123def456ghi789jk", by decide, List.all_eq_true.mp (by decide)⟩
    let q : ProjectRef := ⟨"kj987ihg654fed321cba", by decide, List.all_eq_true.mp (by decide)⟩
    let event (id : Rust.Uuid) (op : DataChangeOp) : DataChangeEvent := ⟨id, "users", op, "public", none, none⟩
    ∀ cs, cs = [Call.subscribe p "*" .all] ++ .subscribe p "users" .insert
        :: [.publish p "users" (event 1 .insert), .publish p "users" (event 2 .delete),
          .publish q "users" (event 3 .insert), .publish p "posts" (event 4 .insert)]
        ++ List.replicate 1 (.recv 1)
      → (((withCapacity 1024).calls cs).subscriptions[1]?).map RealtimeSubscription.received
          =
        some [event 1 .insert] := by
  intro p q event cs hcs
  rw [hcs]
  exact received_exactly 1024 [.subscribe p "*" .all]
    [.publish p "users" (event 1 .insert), .publish p "users" (event 2 .delete),
      .publish q "users" (event 3 .insert), .publish p "posts" (event 4 .insert)]
    p "users" .insert 1 (by decide) (by decide) (by decide)

end InProcessRealtime
end Reactor.Data.Realtime
