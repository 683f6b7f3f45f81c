import ReactorCloud.Interleave.Holding
import ReactorCloud.Interleave.Rely
import ReactorCloud.Studio.Task

/-!
This module contains what the records and the message files of tasks hold in any run. An operation writes
back the whole record that it has read, so that an older record can come back.
-/

namespace Reactor.Studio

open Posix (Text Outcome IoError Ended lines)
open Interleave

/-! ## Records -/

/--
The phases of a task are completed up to the current one and locked behind it.
-/
structure Task.Ordered (t : Task) : Prop where
  before : ∀ p : Phase, p.index < t.currentPhase.index →
    (t.phase p).status = .completed ∨ (t.phase p).status = .skipped
  current : t.state ≠ .completed → (t.phase t.currentPhase).status = .active
  done : t.state = .completed → (t.phase t.currentPhase).status = .completed
  later : ∀ p : Phase, t.currentPhase.index < p.index → (t.phase p).status = .locked

/--
What may be stored after a task.
-/
structure Task.Follows (t t' : Task) : Prop where
  forward : t.currentPhase.index ≤ t'.currentPhase.index
  stays : t.state = .completed → t'.state = .completed ∧ t'.currentPhase = t.currentPhase

namespace Task

variable {t t' t'' : Task}

theorem Follows.trans (h : t.Follows t') (h' : t'.Follows t'') : t.Follows t'' := by
  constructor
  . exact Nat.le_trans h.forward h'.forward
  . intro hdone
    obtain ⟨hdone', hphase⟩ := h.stays hdone
    obtain ⟨hdone'', hphase'⟩ := h'.stays hdone'
    exact ⟨hdone'', hphase'.trans hphase⟩

theorem phase_new (id title : String) (now : Timestamp) (p : Phase)
    : (Task.new id title now).phase p = .new p := by
  unfold Task.new phase
  simp only [Vector.getElem_map]
  cases p <;> rfl

theorem ordered_new (id title description : String) (now : Timestamp)
    : ({ Task.new id title now with description := description } : Task).Ordered := by
  have hphase : ∀ p, ({ Task.new id title now with description := description } : Task).phase p = .new p :=
    phase_new id title now
  constructor
  . intro p hp
    exact absurd hp (Nat.not_lt_zero _)
  . intro _
    rw [hphase]
    rfl
  . intro hdone
    cases hdone
  . intro p hp
    rw [hphase]
    cases p with
    | alignment => exact absurd hp (Nat.lt_irrefl _)
    | _ => rfl

/--
A task that can go on is not completed.
-/
theorem Ordered.not_completed (h : t.Ordered) (hadvance : t.canAdvance = true) : t.state ≠ .completed := by
  intro hdone
  simp only [canAdvance, Bool.and_eq_true, decide_eq_true_eq] at hadvance
  have hactive := hadvance.2
  rw [currentPhaseState, h.done hdone] at hactive
  cases hactive

theorem status_moveTo {next : Phase} (clock : Nat → Timestamp) (p : Phase)
    : ((t.moveTo next clock).phase p).status
        =
      if p = next then .active else if p = t.currentPhase then .completed else (t.phase p).status := by
  have hphase : (t.moveTo next clock).phase p
      = (({ t.completePhase (clock 0) with currentPhase := next } : Task).setPhase next
          { (t.completePhase (clock 0)).phase next with
            status := .active, startedAt := some (clock 1) }).phase p := rfl
  rw [hphase, phase_setPhase]
  split
  . rfl
  . show ((t.completePhase (clock 0)).phase p).status = _
    rw [completePhase, phase_setPhase]
    split <;> rfl

theorem Ordered.moveTo (h : t.Ordered) {next : Phase} (hadvance : t.canAdvance = true)
    (hnext : t.currentPhase.next = some next) (clock : Nat → Timestamp) : (t.moveTo next clock).Ordered := by
  have hindex := Phase.index_of_next hnext
  constructor
  . intro p hp
    have hp : p.index < next.index := hp
    rw [status_moveTo, if_neg (by rintro rfl; omega)]
    split
    . exact .inl rfl
    . next hother =>
      apply h.before p
      have hindices : p.index ≠ t.currentPhase.index := fun heq => hother (Phase.index_inj heq)
      omega
  . intro _
    rw [status_moveTo]
    exact if_pos rfl
  . intro hdone
    exact absurd hdone (h.not_completed hadvance)
  . intro p hp
    have hp : next.index < p.index := hp
    rw [status_moveTo, if_neg (by rintro rfl; omega), if_neg (by rintro rfl; omega)]
    apply h.later p
    omega

theorem follows_moveTo (h : t.Ordered) {next : Phase} (hadvance : t.canAdvance = true)
    (hnext : t.currentPhase.next = some next) (clock : Nat → Timestamp) : t.Follows (t.moveTo next clock) := by
  constructor
  . have hindex := Phase.index_of_next hnext
    show _ ≤ next.index
    omega
  . intro hdone
    exact absurd hdone (h.not_completed hadvance)

theorem status_finish (clock : Nat → Timestamp) (p : Phase)
    : ((t.finish clock).phase p).status
        =
      if p = t.currentPhase then .completed else (t.phase p).status := by
  have hphase : (t.finish clock).phase p
      = (({ t with state := .completed } : Task).completePhase (clock 0)).phase p := rfl
  rw [hphase, completePhase, phase_setPhase]
  split <;> rfl

theorem Ordered.finish (h : t.Ordered) (clock : Nat → Timestamp) : (t.finish clock).Ordered := by
  constructor
  . intro p hp
    rw [status_finish]
    split
    . exact .inl rfl
    . exact h.before p hp
  . intro hactive
    exact absurd rfl hactive
  . intro _
    rw [status_finish]
    exact if_pos rfl
  . intro p hp
    have hp : t.currentPhase.index < p.index := hp
    rw [status_finish, if_neg (by rintro rfl; omega)]
    exact h.later p hp

theorem follows_finish (t : Task) (clock : Nat → Timestamp) : t.Follows (t.finish clock) where
  forward := Nat.le_refl _
  stays _ := ⟨rfl, rfl⟩

theorem Ordered.touch (h : t.Ordered) (now : Timestamp) : ({ t with updatedAt := now } : Task).Ordered :=
  ⟨h.before, h.current, h.done, h.later⟩

theorem follows_touch (t : Task) (now : Timestamp) : t.Follows { t with updatedAt := now } where
  forward := Nat.le_refl _
  stays hdone := ⟨hdone, rfl⟩

end Task

/-! ## Messages -/

variable {codec : ObjectCodec Message} {ms : List Message} {s : Text} {file : Option Text}

/--
The lines of the file that are not blank are these messages.
-/
def MessageLog (codec : ObjectCodec Message) (ms : List Message) (file : Option Text) : Prop :=
  (lines (file.getD [])).filter (fun line => !line.all Rust.Str.isWhitespace) = ms.map codec.encode
    ∧ (file.getD []).getLast? ≠ some '\r'

theorem readAll_eq {ls : List Text}
    (h : ls.filter (fun line => !line.all Rust.Str.isWhitespace) = ms.map codec.encode)
    (hreads : ∀ message ∈ ms, codec.Reads message) : readAll codec ls = .ok ms := by
  induction ls generalizing ms with
  | nil =>
    cases ms with
    | nil => rfl
    | cons message ms => cases h
  | cons line rest ih =>
    rw [readAll]
    cases hblank : line.all Rust.Str.isWhitespace with
    | true =>
      rw [List.filter_cons_of_neg (by simp [hblank])] at h
      exact ih h hreads
    | false =>
      rw [List.filter_cons_of_pos (by simp [hblank])] at h
      cases ms with
      | nil => cases h
      | cons message ms =>
        rw [List.map_cons, List.cons.injEq] at h
        rw [h.1, hreads message List.mem_cons_self]
        simp only [Bool.false_eq_true, if_false]
        rw [ih h.2]
        . rfl
        . intro message' hmem
          exact hreads message' (List.mem_cons_of_mem message hmem)

theorem MessageLog.phaseMessages_eq {files : TaskFiles} {id : String} {phase : Phase}
    (h : MessageLog codec ms (files.messages id phase)) (hreads : ∀ message ∈ ms, codec.Reads message)
    : phaseMessages codec files id phase = .ok ms := by
  have hread := readAll_eq h.1 hreads
  unfold phaseMessages
  cases hfile : files.messages id phase with
  | none =>
    rw [hfile] at hread
    exact hread
  | some s =>
    rw [hfile] at hread
    exact hread

theorem MessageLog.congr {file' : Option Text} (h : MessageLog codec ms file)
    (heq : file'.getD [] = file.getD []) : MessageLog codec ms file' := by
  unfold MessageLog
  rw [heq]
  exact h

theorem MessageLog.append (h : MessageLog codec ms (some s)) (hended : Ended s) (message : Message)
    : MessageLog codec (ms ++ [message]) (some (s ++ codec.encode message)) := by
  have hlines := h.1
  rw [Option.getD_some] at hlines
  constructor
  . rw [Option.getD_some, Posix.lines_append hended, ObjectCodec.isLine_encode.lines_single,
      List.filter_append, hlines, List.map_append]
    simp [ObjectCodec.all_isWhitespace_encode]
  . rw [Option.getD_some, List.getLast?_append, codec.ends, Option.some_or]
    decide

/--
The end of a line adds at most a blank line.
-/
theorem MessageLog.feed (h : MessageLog codec ms (some s)) : MessageLog codec ms (some (s ++ ['\n'])) := by
  obtain ⟨hlines, hlast⟩ := h
  rw [Option.getD_some] at hlines hlast
  constructor
  . rw [Option.getD_some, Posix.filter_lines_feed hlast]
    . exact hlines
    . rfl
  . simp

/-! ## Runs -/

abbrev TaskWorld (codec : ObjectCodec Message) : Type :=
  World (taskSystem codec)

abbrev TaskEvent (codec : ObjectCodec Message) : Type :=
  Interleave.Event (taskSystem codec)

variable {w w' : TaskWorld codec} {e : TaskEvent codec} {pid : Nat} {id : String} {phase : Phase}

def recordAt (id : String) (w : TaskWorld codec) : List Content :=
  TaskFiles.record w.state id

def messagesAt (id : String) (phase : Phase) (w : TaskWorld codec) : Option Text :=
  TaskFiles.messages w.state id phase

def writtenMessage? (id : String) (phase : Phase) : TaskEvent codec → Option Message
  | .call _ (.writeMessage id' phase' message) (.ok _) =>
    if id' = id ∧ phase' = phase then some message else none
  | _ => none

/--
The messages of a phase in the order in which they were written.
-/
def writtenMessages (id : String) (phase : Phase) (w : TaskWorld codec) : List Message :=
  (w.trace.filterMap (writtenMessage? id phase)).reverse

def readTask? : TaskEvent codec → Option (String × Task)
  | .call _ (.readRecord id) (.ok (.whole t)) => some (id, t)
  | _ => none

def createdTask? : TaskEvent codec → Option String
  | .spawn _ (.create id _ _ _) => some id
  | _ => none

/--
From here on the record is in the hands of the process.
-/
def claims? : TaskEvent codec → Option String
  | .spawn _ (.create id _ _ _) => some id
  | .call _ (.truncateRecord id) (.ok _) => some id
  | _ => none

def stores? : TaskEvent codec → Option String
  | .call _ (.writeRecord id _) _ => some id
  | _ => none

/--
The process creates the task or has emptied its record, and has not written it yet.
-/
abbrev Owns (pid : Nat) (id : String) (w : TaskWorld codec) : Prop :=
  Holding claims? stores? pid id w

/--
What was stored is in order, goes forward only, and no message is lost.
-/
structure TasksKept (w : TaskWorld codec) : Prop where
  ordered : ∀ id t, .whole t ∈ recordAt id w → t.Ordered
  forward : ∀ id, (recordAt id w).Pairwise
    (fun c c' => ∀ t t', c = .whole t → c' = .whole t' → t'.Follows t)
  messages : ∀ id phase, phaseMessages codec w.state id phase = .ok (writtenMessages id phase w)
  kept : ∀ pid id phase message now, .finish pid (.appendMessage id phase message now) (.ok ()) ∈ w.trace →
    Did (fun e => writtenMessage? id phase e = some message) pid w

/--
Ids are new, what an operation stores was made of what is stored, a file of messages is created where there
is none, and a message is written in one piece behind the end of a line.
-/
def Undisturbed (w : TaskWorld codec) : TaskEvent codec → Prop
  | .spawn _ (.create id _ _ _) => ∀ pid, ¬ Did (fun e => createdTask? e = some id) pid w
  | .spawn _ (.appendMessage _ _ message _) => codec.Reads message
  | .call pid (.truncateRecord id) _ =>
    ∀ t, Did (fun e => readTask? e = some (id, t)) pid w → (recordAt id w).head? = some (.whole t)
  | .call _ (.createMessages id phase) _ => (messagesAt id phase w).getD [] = []
  | .call _ (.writeMessage id phase _) r =>
    Ended ((messagesAt id phase w).getD []) ∧ r ≠ .error (.io .torn)
  | _ => True

/--
In the runs whose steps are all `ok` no task is undone and no message is lost.
-/
def KeepsTasks (codec : ObjectCodec Message) (ok : TaskWorld codec → TaskEvent codec → Prop) : Prop :=
  ∀ moves (c : Config (taskSystem codec)),
    Config.Along ok moves (.start .start) → Config.run moves (.start .start) = some c → TasksKept c.world

structure TaskInv (w : TaskWorld codec) : Prop where
  tasks : ∀ id t, .whole t ∈ recordAt id w → t.id = id ∧ t.Ordered
  forward : ∀ id, (recordAt id w).Pairwise
    (fun c c' => ∀ t t', c = .whole t → c' = .whole t' → t'.Follows t)
  owned : ∀ pid id, Owns pid id w → recordAt id w = [] ∨ (recordAt id w).head? = some .empty
  owner : ∀ pid pid' id, Owns pid id w → Owns pid' id w → pid = pid'
  created : ∀ id, recordAt id w ≠ [] → ∃ pid, Did (fun e => createdTask? e = some id) pid w
  claimed : ∀ pid id, Did (fun e => claims? e = some id) pid w →
    ∃ pid', Did (fun e => createdTask? e = some id) pid' w
  logs : ∀ id phase, MessageLog codec (writtenMessages id phase w) (messagesAt id phase w)
  reads : ∀ id phase, ∀ message ∈ writtenMessages id phase w, codec.Reads message
  kept : ∀ pid id phase message now, .finish pid (.appendMessage id phase message now) (.ok ()) ∈ w.trace →
    Did (fun e => writtenMessage? id phase e = some message) pid w

theorem TaskInv.tasksKept (h : TaskInv w) : TasksKept w where
  ordered id t ht := (h.tasks id t ht).2
  forward := h.forward
  messages id phase := (h.logs id phase).phaseMessages_eq (h.reads id phase)
  kept := h.kept

theorem TaskInv.start : TaskInv (⟨.start, []⟩ : TaskWorld codec) := by
  have hno : ∀ (P : TaskEvent codec → Prop) pid, ¬ Did P pid (⟨.start, []⟩ : TaskWorld codec) := by
    rintro P pid ⟨e, he, _⟩
    cases he
  constructor
  . intro id t ht
    cases ht
  . intro id
    exact .nil
  . intro pid id hown
    exact absurd hown.1 (hno _ pid)
  . intro pid pid' id hown
    exact absurd hown.1 (hno _ pid)
  . intro id hne
    exact absurd rfl hne
  . intro pid id hclaim
    exact absurd hclaim (hno _ pid)
  . intro id phase
    constructor
    . rfl
    . nofun
  . intro id phase message hmem
    cases hmem
  . intro pid id phase message now hmem
    cases hmem

/-! ## Steps -/

namespace TaskFiles

variable {files : TaskFiles} {id' : String} {phase' : Phase} {c : Content}

@[simp]
theorem record_put_self : (files.put id c).record id = c :: files.record id := by
  simp [put]

theorem record_put_ne (h : id' ≠ id) : (files.put id c).record id' = files.record id' := by
  simp [put, h]

theorem messages_putMessages : (files.putMessages id phase s).messages id' phase'
    = if id' = id ∧ phase' = phase then some s else files.messages id' phase' := by
  unfold putMessages
  by_cases hid : id' = id
  . subst hid
    by_cases hphase : phase' = phase <;> simp [hphase]
  . simp [hid]

theorem record_suffix_put : files.record id' <:+ (files.put id c).record id' := by
  by_cases h : id' = id
  . subst h
    rw [record_put_self]
    exact List.suffix_cons _ _
  . rw [record_put_ne h]

end TaskFiles

/--
An append that succeeds has written its message.
-/
def taskPost (pid : Nat) : (req : TaskRequest) → Except TaskError req.Reply → TaskWorld codec → Prop
  | .appendMessage id phase message _, r, w =>
    r = .ok () → Did (fun e => writtenMessage? id phase e = some message) pid w
  | _, _, _ => True

def taskOutline (codec : ObjectCodec Message) : Outline (taskSystem codec) where
  inv := TaskInv
  ok := Undisturbed
  safe _ _ := True
  rely pid w w' := ∀ id,
    (Owns pid id w → Owns pid id w' ∧ recordAt id w' = recordAt id w)
      ∧ recordAt id w <:+ recordAt id w'
  post := taskPost
  rely_refl _ _ _ := ⟨fun h => ⟨h, rfl⟩, List.suffix_rfl⟩
  rely_trans := by
    intro pid w w' w'' h h' id
    constructor
    . intro hown
      obtain ⟨hown', hrecord⟩ := (h id).1 hown
      obtain ⟨hown'', hrecord'⟩ := (h' id).1 hown'
      exact ⟨hown'', hrecord'.trans hrecord⟩
    . exact (h id).2.trans (h' id).2

theorem recordAt_put_self {c : Content}
    : recordAt id (w.after (TaskFiles.put w.state id c) e) = c :: recordAt id w :=
  TaskFiles.record_put_self

theorem recordAt_put_ne {id' : String} {c : Content} (h : id' ≠ id)
    : recordAt id' (w.after (TaskFiles.put w.state id c) e) = recordAt id' w :=
  TaskFiles.record_put_ne h

theorem recordAt_suffix_put {id' : String} {c : Content}
    : recordAt id' w <:+ recordAt id' (w.after (TaskFiles.put w.state id c) e) :=
  TaskFiles.record_suffix_put

theorem writtenMessages_after {t : (taskSystem codec).State} (h : writtenMessage? id phase e = none)
    : writtenMessages id phase (w.after t e) = writtenMessages id phase w := by
  simp only [writtenMessages, World.after, List.filterMap_cons_none h]

theorem owns_of_after {t : (taskSystem codec).State} (h : claims? e ≠ some id)
    (hown : Owns pid id (w.after t e)) : Owns pid id w := by
  obtain ⟨hclaims, hstores, halive⟩ := Holding.after_iff.mp hown
  exact ⟨hclaims.resolve_left fun hnew => h hnew.2, fun hold => hstores (.inr hold),
    fun hold => halive (.inr hold)⟩

theorem kept_of_unfinished {Q : Nat → String → Phase → Message → Prop} (h : e.finished? = none)
    : ∀ pid id phase message now, e = .finish pid (.appendMessage id phase message now) (.ok ()) →
      Q pid id phase message := by
  intro pid id phase message now heq
  rw [heq] at h
  cases h

/--
A step that leaves the records as they are.
-/
theorem TaskInv.after (h : TaskInv w) {t : (taskSystem codec).State} (hclaims : claims? e = none)
    (hrecord : ∀ id, recordAt id (w.after t e) = recordAt id w)
    (hlogs : ∀ id phase,
      MessageLog codec (writtenMessages id phase (w.after t e)) (messagesAt id phase (w.after t e)))
    (hreads : ∀ id phase, ∀ message ∈ writtenMessages id phase (w.after t e), codec.Reads message)
    (hkept : ∀ pid id phase message now, e = .finish pid (.appendMessage id phase message now) (.ok ()) →
      Did (fun e => writtenMessage? id phase e = some message) pid w) : TaskInv (w.after t e) := by
  have hne : ∀ id, claims? e ≠ some id := by
    intro id heq
    rw [hclaims] at heq
    cases heq
  constructor
  . intro id task hmem
    apply h.tasks id task
    rw [← hrecord]
    exact hmem
  . intro id
    have hforward := h.forward id
    rw [← hrecord] at hforward
    exact hforward
  . intro pid id hown
    have howned := h.owned pid id (owns_of_after (hne id) hown)
    rw [← hrecord] at howned
    exact howned
  . intro pid pid' id hown hown'
    exact h.owner pid pid' id (owns_of_after (hne id) hown) (owns_of_after (hne id) hown')
  . intro id hcreated
    have hcreated : recordAt id w ≠ [] := by
      rw [← hrecord]
      exact hcreated
    obtain ⟨pid, hdid⟩ := h.created id hcreated
    exact ⟨pid, hdid.after t e⟩
  . intro pid id hdid
    cases Did.after_iff.mp hdid with
    | inl hnew => exact absurd hnew.2 (hne id)
    | inr hold =>
      obtain ⟨pid', hdid'⟩ := h.claimed pid id hold
      exact ⟨pid', hdid'.after t e⟩
  . exact hlogs
  . exact hreads
  . intro pid id phase message now hmem
    cases List.mem_cons.mp hmem with
    | inl heq => exact (hkept pid id phase message now heq.symm).after t e
    | inr hmem => exact (h.kept pid id phase message now hmem).after t e

theorem keeps_same_records (h : TaskInv w) {t : (taskSystem codec).State} (hclaims : claims? e = none)
    (hrecord : ∀ id, recordAt id (w.after t e) = recordAt id w)
    (hlogs : ∀ id phase,
      MessageLog codec (writtenMessages id phase (w.after t e)) (messagesAt id phase (w.after t e)))
    (hreads : ∀ id phase, ∀ message ∈ writtenMessages id phase (w.after t e), codec.Reads message)
    (hkept : ∀ pid id phase message now, e = .finish pid (.appendMessage id phase message now) (.ok ()) →
      Did (fun e => writtenMessage? id phase e = some message) pid w) : (taskOutline codec).Keeps w t e where
  safe := trivial
  inv := h.after hclaims hrecord hlogs hreads hkept
  rely := by
    intro q hq id
    rw [hrecord id]
    exact ⟨fun hown => ⟨(Holding.after_other hq).mpr hown, rfl⟩, List.suffix_rfl⟩

/--
A step that leaves all files as they are and writes no message.
-/
theorem keeps_quiet_task (h : TaskInv w) {t : (taskSystem codec).State} (hclaims : claims? e = none)
    (hwritten : ∀ id phase, writtenMessage? id phase e = none)
    (hrecord : ∀ id, recordAt id (w.after t e) = recordAt id w)
    (hmessages : ∀ id phase, (messagesAt id phase (w.after t e)).getD [] = (messagesAt id phase w).getD [])
    (hkept : ∀ pid id phase message now, e = .finish pid (.appendMessage id phase message now) (.ok ()) →
      Did (fun e => writtenMessage? id phase e = some message) pid w) : (taskOutline codec).Keeps w t e := by
  apply keeps_same_records h hclaims hrecord _ _ hkept
  . intro id phase
    rw [writtenMessages_after (hwritten id phase)]
    exact (h.logs id phase).congr (hmessages id phase)
  . intro id phase
    rw [writtenMessages_after (hwritten id phase)]
    exact h.reads id phase

/--
A process puts something into a record that no other process owns.
-/
theorem keeps_put (h : TaskInv w) {c : Content} (hpid : e.pid? = some pid) (hends : e.finished? = none)
    (hclaims : ∀ id', id' ≠ id → claims? e ≠ some id') (hwritten : ∀ id phase, writtenMessage? id phase e = none)
    (hsole : ∀ q, Owns q id w → q = pid)
    (hcreated : ∃ q, Did (fun e => createdTask? e = some id) q w)
    (htask : ∀ t, c = .whole t → t.id = id ∧ t.Ordered ∧ ∀ t', .whole t' ∈ recordAt id w → t'.Follows t)
    (howned : c = .empty ∨ stores? e = some id)
    : (taskOutline codec).Keeps w (TaskFiles.put w.state id c) e := by
  -- only the process itself can own the record behind the step, and only if it is empty
  have hold : ∀ q, Owns q id (w.after (TaskFiles.put w.state id c) e) → q = pid ∧ c = .empty := by
    intro q hown
    obtain ⟨hclaim, hstores, halive⟩ := Holding.after_iff.mp hown
    have hq : q = pid := by
      cases hclaim with
      | inl hnew =>
        rw [hpid] at hnew
        exact (Option.some.inj hnew.1).symm
      | inr hclaim =>
        exact hsole q ⟨hclaim, fun hdid => hstores (.inr hdid), fun hgone => halive (.inr hgone)⟩
    refine ⟨hq, howned.resolve_right ?_⟩
    intro hstore
    rw [hq] at hstores
    exact hstores (.inl ⟨hpid, hstore⟩)
  have hmessages : ∀ id' phase, writtenMessages id' phase (w.after (TaskFiles.put w.state id c) e)
      = writtenMessages id' phase w :=
    fun id' phase => writtenMessages_after (hwritten id' phase)
  refine ⟨trivial, ?_, ?_⟩
  . constructor
    . intro id' t hmem
      by_cases hid : id' = id
      . subst hid
        rw [recordAt_put_self, List.mem_cons] at hmem
        cases hmem with
        | inl heq => exact ⟨(htask t heq.symm).1, (htask t heq.symm).2.1⟩
        | inr hmem => exact h.tasks id' t hmem
      . rw [recordAt_put_ne hid] at hmem
        exact h.tasks id' t hmem
    . intro id'
      by_cases hid : id' = id
      . subst hid
        rw [recordAt_put_self, List.pairwise_cons]
        refine ⟨?_, h.forward id'⟩
        intro c' hmem t t' heq heq'
        rw [heq'] at hmem
        exact (htask t heq).2.2 t' hmem
      . rw [recordAt_put_ne hid]
        exact h.forward id'
    . intro q id' hown
      by_cases hid : id' = id
      . subst hid
        right
        rw [recordAt_put_self, (hold q hown).2]
        rfl
      . rw [recordAt_put_ne hid]
        exact h.owned q id' (owns_of_after (hclaims id' hid) hown)
    . intro q q' id' hown hown'
      by_cases hid : id' = id
      . subst hid
        rw [(hold q hown).1, (hold q' hown').1]
      . exact h.owner q q' id' (owns_of_after (hclaims id' hid) hown) (owns_of_after (hclaims id' hid) hown')
    . intro id' hne
      by_cases hid : id' = id
      . subst hid
        obtain ⟨q, hdid⟩ := hcreated
        exact ⟨q, hdid.after _ e⟩
      . rw [recordAt_put_ne hid] at hne
        obtain ⟨q, hdid⟩ := h.created id' hne
        exact ⟨q, hdid.after _ e⟩
    . intro q id' hdid
      by_cases hid : id' = id
      . subst hid
        obtain ⟨q, hdid⟩ := hcreated
        exact ⟨q, hdid.after _ e⟩
      . cases Did.after_iff.mp hdid with
        | inl hnew => exact absurd hnew.2 (hclaims id' hid)
        | inr hdid =>
          obtain ⟨q, hdid⟩ := h.claimed q id' hdid
          exact ⟨q, hdid.after _ e⟩
    . intro id' phase
      rw [hmessages]
      exact h.logs id' phase
    . intro id' phase
      rw [hmessages]
      exact h.reads id' phase
    . intro q id' phase message now hmem
      cases List.mem_cons.mp hmem with
      | inl heq =>
        rw [← heq] at hends
        cases hends
      | inr hmem => exact (h.kept q id' phase message now hmem).after _ e
  . intro q hq id'
    refine ⟨?_, recordAt_suffix_put⟩
    intro hown
    by_cases hid : id' = id
    . subst hid
      rw [hsole q hown] at hq
      exact absurd hpid hq
    . exact ⟨(Holding.after_other hq).mpr hown, recordAt_put_ne hid⟩

/-! ## Calls -/

def FileCall.isQuiet : FileCall → Bool
  | .createDirAll _ | .recordExists _ | .readRecord _ | .messagesExist _ _ => true
  | _ => false

theorem exec_quiet {c : FileCall} (hc : c.isQuiet = true) (files : TaskFiles) (outcome : Outcome)
    (leftover : Leftover)
    : (files.exec codec outcome leftover c).2.record = files.record
      ∧ (files.exec codec outcome leftover c).2.messages = files.messages := by
  cases c with
  | createDirAll id => cases outcome <;> exact ⟨rfl, rfl⟩
  | recordExists id => exact ⟨rfl, rfl⟩
  | readRecord id =>
    simp only [TaskFiles.exec]
    split <;> exact ⟨rfl, rfl⟩
  | messagesExist id phase => exact ⟨rfl, rfl⟩
  | _ => cases hc

/--
The state after a call, whatever is answered.
-/
theorem answers_state {c : FileCall} {files files' : (taskSystem codec).State} {r : Except TaskError c.Ret}
    (h : Answers (taskSystem codec) pid c files r files')
    : files' = files ∨ ∃ outcome leftover, files' = (TaskFiles.exec codec files outcome leftover c).2 := by
  cases h.effect with
  | inl heq => exact .inl heq
  | inr heff =>
    obtain ⟨⟨outcome, leftover⟩, r', heff⟩ := heff
    exact .inr ⟨outcome, leftover, (congrArg Prod.snd (Option.some.inj heff)).symm⟩

theorem task_answers_ok {c : FileCall} {files files' : (taskSystem codec).State} {a : c.Ret}
    (h : Answers (taskSystem codec) pid c files (.ok a) files')
    : ∃ outcome leftover, TaskFiles.exec codec files outcome leftover c = (.ok a, files') := by
  obtain ⟨⟨outcome, leftover⟩, hexec⟩ := h.ok
  exact ⟨outcome, leftover, Option.some.inj hexec⟩

theorem keeps_call_quiet (h : TaskInv w) {c : FileCall} (hc : c.isQuiet = true)
    {t : (taskSystem codec).State} {r : Except TaskError c.Ret}
    (hanswer : Answers (taskSystem codec) pid c w.state r t) : (taskOutline codec).Keeps w t (.call pid c r) := by
  have hsame : TaskFiles.record t = TaskFiles.record w.state ∧ TaskFiles.messages t = TaskFiles.messages w.state := by
    cases answers_state hanswer with
    | inl heq =>
      rw [heq]
      exact ⟨rfl, rfl⟩
    | inr hexec =>
      obtain ⟨outcome, leftover, heq⟩ := hexec
      rw [heq]
      exact exec_quiet hc _ outcome leftover
  apply keeps_quiet_task h
  . cases c with
    | truncateRecord id => cases hc
    | _ => rfl
  . intro id phase
    cases c with
    | writeMessage id phase message => cases hc
    | _ => rfl
  . intro id
    exact congrFun hsame.1 id
  . intro id phase
    exact congrArg (Option.getD · []) (congrFun (congrFun hsame.2 id) phase)
  . exact kept_of_unfinished rfl

theorem answers_readRecord {t t' : (taskSystem codec).State} {task : Task}
    (h : Answers (taskSystem codec) pid (.readRecord id) t (.ok (.whole task)) t')
    : .whole task ∈ TaskFiles.record t id := by
  obtain ⟨outcome, leftover, hexec⟩ := task_answers_ok h
  have hresult := congrArg Prod.fst hexec
  simp only [TaskFiles.exec] at hresult
  split at hresult
  . next content _ hhead =>
    rw [← Except.ok.inj hresult]
    exact List.mem_of_head? hhead
  . cases hresult

theorem answers_truncateRecord {files files' : (taskSystem codec).State} {r : Except TaskError Unit}
    (h : Answers (taskSystem codec) pid (.truncateRecord id) files r files')
    : (files' = files ∧ ∃ e, r = .error e) ∨ files' = TaskFiles.put files id .empty := by
  cases r with
  | error e =>
    cases answers_state h with
    | inl heq => exact .inl ⟨heq, e, rfl⟩
    | inr hexec =>
      obtain ⟨outcome, leftover, rfl⟩ := hexec
      simp only [TaskFiles.exec]
      split
      . exact .inr rfl
      . exact .inl ⟨rfl, e, rfl⟩
      . exact .inl ⟨rfl, e, rfl⟩
  | ok a =>
    obtain ⟨outcome, leftover, hexec⟩ := task_answers_ok h
    simp only [TaskFiles.exec] at hexec
    split at hexec
    . exact .inr (congrArg Prod.snd hexec).symm
    . cases congrArg Prod.fst hexec
    . cases congrArg Prod.fst hexec

/--
An empty record gets the whole task unless the write breaks off.
-/
theorem answers_writeRecord {files files' : (taskSystem codec).State} {task : Task} {r : Except TaskError Unit}
    (h : Answers (taskSystem codec) pid (.writeRecord id task) files r files')
    : files' = files ∨ ∃ c, files' = TaskFiles.put files id c ∧ ∀ t, c = .whole t → t = task := by
  cases answers_state h with
  | inl heq => exact .inl heq
  | inr hexec =>
    obtain ⟨outcome, leftover, rfl⟩ := hexec
    simp only [TaskFiles.exec]
    cases outcome with
    | done =>
      simp only [TaskFiles.writeRecord]
      split
      . exact .inr ⟨.whole task, rfl, fun t heq => (Content.whole.inj heq).symm⟩
      . exact .inr ⟨.broken, rfl, fun t heq => nomatch heq⟩
    | refused => exact .inl rfl
    | torn n =>
      cases leftover with
      | same => exact .inl rfl
      | broken => exact .inr ⟨.broken, rfl, fun t heq => nomatch heq⟩
      | whole => exact .inr ⟨.whole task, rfl, fun t heq => (Content.whole.inj heq).symm⟩

theorem getD_putMessages {files : TaskFiles} {id' : String} {phase' : Phase}
    (h : s = (files.messages id phase).getD [])
    : ((files.putMessages id phase s).messages id' phase').getD [] = (files.messages id' phase').getD [] := by
  rw [TaskFiles.messages_putMessages]
  split
  . next heq =>
    obtain ⟨rfl, rfl⟩ := heq
    exact h
  . rfl

/--
Opening a file of messages, or creating one where nothing is, leaves what is read.
-/
theorem keeps_open (h : TaskInv w) {c : FileCall}
    (hc : c = .openMessages id phase
      ∨ (c = .createMessages id phase ∧ (messagesAt id phase w).getD [] = []))
    {t : (taskSystem codec).State} {r : Except TaskError c.Ret}
    (hanswer : Answers (taskSystem codec) pid c w.state r t) : (taskOutline codec).Keeps w t (.call pid c r) := by
  have hsame : t = w.state ∨ t = TaskFiles.putMessages w.state id phase ((messagesAt id phase w).getD []) := by
    cases answers_state hanswer with
    | inl heq => exact .inl heq
    | inr hexec =>
      obtain ⟨outcome, leftover, rfl⟩ := hexec
      rcases hc with rfl | ⟨rfl, hempty⟩
      . simp only [TaskFiles.exec]
        split
        . exact .inr rfl
        . exact .inl rfl
        . exact .inl rfl
      . rw [hempty]
        simp only [TaskFiles.exec]
        split
        . exact .inr rfl
        . exact .inl rfl
        . exact .inl rfl
  apply keeps_quiet_task h
  . rcases hc with rfl | ⟨rfl, _⟩ <;> rfl
  . intro id' phase'
    rcases hc with rfl | ⟨rfl, _⟩ <;> rfl
  . intro id'
    cases hsame with
    | inl heq => rw [heq]; rfl
    | inr heq => rw [heq]; rfl
  . intro id' phase'
    cases hsame with
    | inl heq => rw [heq]; rfl
    | inr heq =>
      rw [heq]
      exact getD_putMessages rfl
  . exact kept_of_unfinished rfl

/--
A message that is written in one piece behind the end of a line is the last one.
-/
theorem keeps_message (h : TaskInv w) {message : Message} {t : (taskSystem codec).State}
    {r : Except TaskInterface.Err (TaskInterface.Ret (.writeMessage id phase message))} (hreads : codec.Reads message)
    (hended : Ended ((messagesAt id phase w).getD [])) (htorn : r ≠ .error (.io .torn))
    (hanswer : Answers (taskSystem codec) pid (.writeMessage id phase message) w.state r t)
    : (taskOutline codec).Keeps w t (.call pid (.writeMessage id phase message) r) := by
  cases r with
  | error e =>
    have hsame : t = w.state ∨ t = TaskFiles.putMessages w.state id phase ((messagesAt id phase w).getD []) := by
      cases hanswer.error with
      | inl heq =>
        rw [heq] at htorn
        exact absurd rfl htorn
      | inr hexec =>
        obtain ⟨⟨outcome, leftover⟩, hexec⟩ := hexec
        have hexec := Option.some.inj hexec
        simp only [TaskFiles.exec, TaskFiles.appendText] at hexec
        split at hexec
        . exact .inl (congrArg Prod.snd hexec).symm
        . next s hfile =>
          cases outcome with
          | done => cases congrArg Prod.fst hexec
          | refused =>
            right
            rw [messagesAt, hfile]
            exact (congrArg Prod.snd hexec).symm
          | torn n =>
            have := congrArg Prod.fst hexec
            rw [← Except.error.inj this] at htorn
            exact absurd rfl htorn
    apply keeps_quiet_task h rfl
    . intro _ _
      rfl
    . intro id'
      cases hsame with
      | inl heq => rw [heq]; rfl
      | inr heq => rw [heq]; rfl
    . intro id' phase'
      cases hsame with
      | inl heq => rw [heq]; rfl
      | inr heq =>
        rw [heq]
        exact getD_putMessages rfl
    . exact kept_of_unfinished rfl
  | ok a =>
    obtain ⟨s, hfile, ht⟩ : ∃ s, messagesAt id phase w = some s
        ∧ t = TaskFiles.putMessages w.state id phase (s ++ codec.encode message) := by
      obtain ⟨outcome, leftover, hexec⟩ := task_answers_ok hanswer
      simp only [TaskFiles.exec, TaskFiles.appendText] at hexec
      split at hexec
      . cases congrArg Prod.fst hexec
      . next s hfile =>
        refine ⟨s, hfile, ?_⟩
        cases outcome with
        | done => exact (congrArg Prod.snd hexec).symm
        | refused => cases congrArg Prod.fst hexec
        | torn n => cases congrArg Prod.fst hexec
    rw [hfile] at hended
    have hwritten : ∀ id' phase', writtenMessages id' phase'
        (w.after t (.call pid (.writeMessage id phase message) (.ok a)))
          = writtenMessages id' phase' w ++ if id = id' ∧ phase = phase' then [message] else [] := by
      intro id' phase'
      by_cases hsame : id = id' ∧ phase = phase'
      . simp [writtenMessages, World.after, writtenMessage?, hsame]
      . simp [writtenMessages, World.after, writtenMessage?, hsame]
    apply keeps_same_records h rfl
    . intro id'
      rw [ht]
      rfl
    . intro id' phase'
      have hmessages : messagesAt id' phase' (w.after t (.call pid (.writeMessage id phase message) (.ok a)))
          = if id' = id ∧ phase' = phase then some (s ++ codec.encode message) else messagesAt id' phase' w := by
        rw [ht]
        exact TaskFiles.messages_putMessages
      rw [hwritten, hmessages]
      by_cases hsame : id = id' ∧ phase = phase'
      . obtain ⟨rfl, rfl⟩ := hsame
        have hlog := h.logs id phase
        rw [hfile] at hlog
        simp only [and_self, if_true]
        exact hlog.append hended message
      . have hother : ¬ (id' = id ∧ phase' = phase) := fun heq => hsame ⟨heq.1.symm, heq.2.symm⟩
        rw [if_neg hsame, if_neg hother, List.append_nil]
        exact h.logs id' phase'
    . intro id' phase' message' hmem
      rw [hwritten, List.mem_append] at hmem
      cases hmem with
      | inl hold => exact h.reads id' phase' message' hold
      | inr hnew =>
        split at hnew
        . rw [List.mem_singleton.mp hnew]
          exact hreads
        . cases hnew
    . exact kept_of_unfinished rfl

theorem keeps_feed (h : TaskInv w) {t : (taskSystem codec).State} {r : Except TaskInterface.Err (TaskInterface.Ret (.writeFeed id phase))}
    (hanswer : Answers (taskSystem codec) pid (.writeFeed id phase) w.state r t)
    : (taskOutline codec).Keeps w t (.call pid (.writeFeed id phase) r) := by
  have hsame : t = w.state ∨ ∃ s, messagesAt id phase w = some s
      ∧ (t = TaskFiles.putMessages w.state id phase s ∨ t = TaskFiles.putMessages w.state id phase (s ++ ['\n'])) := by
    cases answers_state hanswer with
    | inl heq => exact .inl heq
    | inr hexec =>
      obtain ⟨outcome, leftover, rfl⟩ := hexec
      simp only [TaskFiles.exec, TaskFiles.appendText]
      split
      . exact .inl rfl
      . next s hfile =>
        right
        refine ⟨s, hfile, ?_⟩
        apply (Posix.append_feed_cases s outcome).imp
        . exact congrArg (TaskFiles.putMessages w.state id phase)
        . exact congrArg (TaskFiles.putMessages w.state id phase)
  apply keeps_same_records h rfl
  . intro id'
    rcases hsame with heq | ⟨s, _, heq | heq⟩
    . rw [heq]; rfl
    . rw [heq]; rfl
    . rw [heq]; rfl
  . intro id' phase'
    rw [writtenMessages_after rfl]
    rcases hsame with heq | ⟨s, hfile, heq | heq⟩
    . rw [heq]
      exact h.logs id' phase'
    . rw [heq]
      apply (h.logs id' phase').congr
      apply getD_putMessages
      have hfile : TaskFiles.messages w.state id phase = some s := hfile
      rw [hfile]
      rfl
    . rw [heq]
      have hmessages : messagesAt id' phase' (w.after (TaskFiles.putMessages w.state id phase (s ++ ['\n']))
          (.call pid (.writeFeed id phase) r))
            = if id' = id ∧ phase' = phase then some (s ++ ['\n']) else messagesAt id' phase' w :=
        TaskFiles.messages_putMessages
      rw [hmessages]
      split
      . next hboth =>
        obtain ⟨rfl, rfl⟩ := hboth
        have hlog := h.logs id' phase'
        rw [hfile] at hlog
        exact hlog.feed
      . exact h.logs id' phase'
  . intro id' phase'
    rw [writtenMessages_after rfl]
    exact h.reads id' phase'
  . exact kept_of_unfinished rfl

/-! ## Programs -/

/--
The process is there, has stored nothing and has done something of the kind `P`.
-/
structure Live (P : TaskEvent codec → Prop) (pid : Nat) (w : TaskWorld codec) : Prop where
  did : Did P pid w
  alive : ¬ Gone pid w
  unstored : ¬ Did (fun e => (stores? e).isSome = true) pid w

section Programs

variable {P : TaskEvent codec → Prop} {task : Task}

theorem Live.rely (h : Live P pid w) (hrely : (taskOutline codec).Rely pid w w') : Live P pid w' where
  did := (Did.extends_iff hrely.1).mpr h.did
  alive := (not_congr (Did.extends_iff hrely.1)).mpr h.alive
  unstored := (not_congr (Did.extends_iff hrely.1)).mpr h.unstored

theorem Live.after (h : Live P pid w) {t : (taskSystem codec).State} (hends : e.ends = false)
    (hstores : stores? e = none) : Live P pid (w.after t e) where
  did := h.did.after t e
  alive := (not_congr (Gone.after_iff hends)).mpr h.alive
  unstored := by
    intro hdid
    cases Did.after_iff.mp hdid with
    | inl hnew => simp [hstores] at hnew
    | inr hold => exact h.unstored hold

theorem Live.not_stored (h : Live P pid w) : ¬ Did (fun e => stores? e = some id) pid w := by
  rintro ⟨e, he, hpid, hstores⟩
  apply h.unstored ⟨e, he, hpid, _⟩
  simp [hstores]

/--
The process has read the task from its record.
-/
structure Updates (P : TaskEvent codec → Prop) (pid : Nat) (id : String) (task : Task)
    (w : TaskWorld codec) : Prop where
  live : Live P pid w
  read : Did (fun e => readTask? e = some (id, task)) pid w
  mem : .whole task ∈ recordAt id w

theorem Updates.rely (h : Updates P pid id task w) (hrely : (taskOutline codec).Rely pid w w')
    : Updates P pid id task w' where
  live := h.live.rely hrely
  read := (Did.extends_iff hrely.1).mpr h.read
  mem := (hrely.2 id).2.subset h.mem

theorem Updates.after (h : Updates P pid id task w) {t : (taskSystem codec).State} (hends : e.ends = false)
    (hstores : stores? e = none) (hrecord : recordAt id (w.after t e) = recordAt id w)
    : Updates P pid id task (w.after t e) where
  live := h.live.after hends hstores
  read := h.read.after t e
  mem := by
    rw [hrecord]
    exact h.mem

def FileCall.isStore : FileCall → Bool
  | .truncateRecord _ | .writeRecord _ _ => true
  | _ => false

theorem record_exec {c : FileCall} (hc : c.isStore = false) (files : TaskFiles) (outcome : Outcome)
    (leftover : Leftover) : (files.exec codec outcome leftover c).2.record = files.record := by
  cases c with
  | createDirAll id => exact (exec_quiet rfl files outcome leftover).1
  | recordExists id => rfl
  | readRecord id => exact (exec_quiet rfl files outcome leftover).1
  | messagesExist id phase => rfl
  | truncateRecord id => cases hc
  | writeRecord id task => cases hc
  | createMessages id phase =>
    simp only [TaskFiles.exec]
    split <;> rfl
  | openMessages id phase =>
    simp only [TaskFiles.exec]
    split <;> rfl
  | writeMessage id phase message =>
    simp only [TaskFiles.exec, TaskFiles.appendText]
    split <;> rfl
  | writeFeed id phase =>
    simp only [TaskFiles.exec, TaskFiles.appendText]
    split <;> rfl

theorem recordAt_after {c : FileCall} (hc : c.isStore = false) {t : (taskSystem codec).State}
    {r : Except TaskInterface.Err (TaskInterface.Ret c)}
    (hanswer : Answers (taskSystem codec) pid c w.state r t)
    : recordAt id (w.after t (.call pid c r)) = recordAt id w := by
  cases answers_state hanswer with
  | inl heq =>
    rw [heq]
    rfl
  | inr hexec =>
    obtain ⟨outcome, leftover, heq⟩ := hexec
    rw [heq]
    exact congrFun (record_exec hc _ outcome leftover) id

theorem wp_get (h : Live P pid w)
    : (taskOutline codec).Wp pid (fun r w => match r with
      | .ok task => Updates P pid id task w
      | .error _ => True) (TaskStore.get id) w := by
  apply Outline.wp_try
  intro w₁ hrely hinv r t hanswer _
  have h := h.rely hrely
  refine ⟨keeps_call_quiet hinv rfl hanswer, ?_⟩
  have h : Live P pid (w₁.after t (.call pid (.recordExists id) r)) := h.after rfl rfl
  apply Outline.wp_require
  case hfalse =>
    intro _
    apply Outline.wp_fail
    intro _ _ _
    trivial
  intro _
  apply Outline.wp_call
  intro w₂ hrely hinv r t hanswer _
  have h := h.rely hrely
  refine ⟨keeps_call_quiet hinv rfl hanswer, ?_⟩
  cases r with
  | error e =>
    apply Outline.wp_fail
    intro _ _ _
    trivial
  | ok content =>
    cases content with
    | whole task =>
      have h : Updates P pid id task (w₂.after t (.call pid (.readRecord id) (.ok (.whole task)))) := by
        refine ⟨h.after rfl rfl, Did.after_iff.mpr (.inl ⟨rfl, rfl⟩), ?_⟩
        rw [recordAt_after rfl hanswer]
        exact answers_readRecord hanswer
      apply Outline.wp_pure
      intro w₃ hrely _
      exact h.rely hrely
    | _ =>
      apply Outline.wp_fail
      intro _ _ _
      trivial

/--
Nobody else owns the record, and the task follows all that was stored there.
-/
structure Ready (pid : Nat) (task : Task) (w : TaskWorld codec) : Prop where
  sole : ∀ q, Owns q task.id w → q = pid
  created : ∃ q, Did (fun e => createdTask? e = some task.id) q w
  follows : ∀ t, .whole t ∈ recordAt task.id w → t.Follows task

theorem wp_saveTask (h : Live P pid w) (hordered : task.Ordered)
    (hready : ∀ w' r, (taskOutline codec).Rely pid w w' → TaskInv w' →
      Undisturbed w' (.call pid (.truncateRecord task.id) r) → Ready pid task w')
    : (taskOutline codec).Wp pid (fun _ w => Did P pid w) (TaskStore.saveTask task) w := by
  have hdone : ∀ {w : TaskWorld codec} {r : Except TaskError Unit}, Did P pid w →
      (taskOutline codec).Wp pid (fun _ w => Did P pid w) (.done r) w := by
    intro w r hdid w' hrely _
    exact (Did.extends_iff hrely.1).mpr hdid
  apply Outline.wp_call
  intro w₁ hrely hinv r t hanswer hok
  obtain ⟨hsole, hcreated, hfollows⟩ := hready w₁ r hrely hinv hok
  have h := h.rely hrely
  cases answers_truncateRecord hanswer with
  | inl hrefused =>
    obtain ⟨rfl, e, rfl⟩ := hrefused
    refine ⟨?_, hdone (h.did.after _ _)⟩
    exact keeps_quiet_task hinv rfl (fun _ _ => rfl) (fun _ => rfl) (fun _ _ => rfl) (kept_of_unfinished rfl)
  | inr hempty =>
    subst hempty
    have hclaims : ∀ id', id' ≠ task.id → claims? (.call pid (.truncateRecord task.id) r : TaskEvent codec)
        ≠ some id' := by
      intro id' hne heq
      cases r with
      | ok _ => exact hne (Option.some.inj heq).symm
      | error _ => cases heq
    refine ⟨keeps_put hinv rfl rfl hclaims (fun _ _ => rfl) hsole hcreated (fun t heq => nomatch heq) (.inl rfl), ?_⟩
    cases r with
    | error e => exact hdone (h.did.after _ _)
    | ok _ =>
      have hown : Owns pid task.id
          (w₁.after (TaskFiles.put w₁.state task.id .empty) (.call pid (.truncateRecord task.id) (.ok ()))) := by
        refine Holding.after_iff.mpr ⟨.inl ⟨rfl, rfl⟩, ?_, ?_⟩
        . intro hstored
          exact h.not_stored (hstored.resolve_left nofun)
        . intro hgone
          exact h.alive (hgone.resolve_left nofun)
      intro w₂ hrely hinv r t hanswer _
      obtain ⟨hown, hrecord⟩ := (hrely.2 task.id).1 hown
      rw [recordAt_put_self] at hrecord
      have hfollows : ∀ t, .whole t ∈ recordAt task.id w₂ → t.Follows task := by
        intro t ht
        rw [hrecord] at ht
        cases ht with
        | tail _ ht => exact hfollows t ht
      have hdid := (Did.extends_iff hrely.1).mpr (h.did.after _ _)
      refine ⟨?_, hdone (hdid.after _ _)⟩
      cases answers_writeRecord hanswer with
      | inl heq =>
        rw [heq]
        exact keeps_quiet_task hinv rfl (fun _ _ => rfl) (fun _ => rfl) (fun _ _ => rfl) (kept_of_unfinished rfl)
      | inr hput =>
        obtain ⟨c, rfl, hc⟩ := hput
        apply keeps_put hinv rfl rfl _ (fun _ _ => rfl) (fun q hq => hinv.owner q pid task.id hq hown)
          (hinv.claimed pid task.id hown.1) _ (.inr rfl)
        . intro _ _ heq
          cases heq
        . intro t heq
          rw [hc t heq]
          exact ⟨rfl, hordered, hfollows⟩

/--
What an operation has read is still stored when it stores its own task.
-/
theorem Updates.ready (h : Updates P pid id task w) {task' : Task} (hid : task'.id = task.id)
    (hfollows : task.Follows task') {w' : TaskWorld codec} {r : Except TaskError Unit}
    (hrely : (taskOutline codec).Rely pid w w') (hinv : TaskInv w')
    (hok : Undisturbed w' (.call pid (.truncateRecord task'.id) r)) : Ready pid task' w' := by
  have h := h.rely hrely
  have htask : task.id = id := (hinv.tasks id task h.mem).1
  rw [hid, htask] at hok
  have hhead : (recordAt id w').head? = some (.whole task) := hok task h.read
  have hne : recordAt id w' ≠ [] := List.ne_nil_of_mem h.mem
  constructor
  . intro q hown
    rw [hid, htask] at hown
    cases hinv.owned q id hown with
    | inl hnil => exact absurd hnil hne
    | inr hempty =>
      rw [hhead] at hempty
      cases hempty
  . rw [hid, htask]
    exact hinv.created id hne
  . intro t ht
    rw [hid, htask] at ht
    have hforward := hinv.forward id
    cases hrecord : recordAt id w' with
    | nil => exact absurd hrecord hne
    | cons c rest =>
      rw [hrecord] at hhead ht hforward
      rw [List.head?_cons, Option.some.injEq] at hhead
      cases List.mem_cons.mp ht with
      | inl heq =>
        rw [hhead] at heq
        rw [Content.whole.inj heq]
        exact hfollows
      | inr hrest =>
        exact ((List.pairwise_cons.mp hforward).1 _ hrest task t hhead rfl).trans hfollows

theorem wp_pure_true {α : Type} (a : α)
    : (taskOutline codec).Wp pid (fun _ _ => True) (pure a : Program TaskInterface α) w :=
  fun _ _ _ => trivial

theorem wp_done_true {α : Type} (r : Except TaskError α)
    : (taskOutline codec).Wp pid (fun _ _ => True) (.done r : Program TaskInterface α) w :=
  fun _ _ _ => trivial

theorem wp_bind_true {α β : Type} {x : Program TaskInterface β} {f : β → Program TaskInterface α}
    {Q : Except TaskError β → TaskWorld codec → Prop} (hx : (taskOutline codec).Wp pid Q x w)
    (hf : ∀ b w, Q (.ok b) w → (taskOutline codec).Wp pid (fun _ _ => True) (f b) w)
    : (taskOutline codec).Wp pid (fun _ _ => True) (x >>= f) w := by
  apply Outline.wp_bind
  apply Outline.wp_mono hx
  intro r w _ hQ
  cases r with
  | ok b => exact hf b w hQ
  | error e => exact wp_done_true _

theorem wp_ensureMessages (h : Updates P pid id task w)
    : (taskOutline codec).Wp pid (fun _ w => Updates P pid id task w) (TaskStore.ensureMessages id phase) w := by
  apply Outline.wp_try
  intro w₁ hrely hinv r t hanswer _
  have h := h.rely hrely
  refine ⟨keeps_call_quiet hinv rfl hanswer, ?_⟩
  have h : Updates P pid id task (w₁.after t (.call pid (.messagesExist id phase) r)) :=
    h.after rfl rfl (recordAt_after rfl hanswer)
  apply Outline.wp_ite
  . intro _
    apply Outline.wp_pure
    intro w₂ hrely _
    exact h.rely hrely
  . intro _
    apply Outline.wp_request
    intro w₂ hrely hinv r t hanswer hok
    have h := h.rely hrely
    refine ⟨keeps_open hinv (.inr ⟨rfl, hok⟩) hanswer, ?_⟩
    intro w₃ hrely _
    exact Updates.rely (h.after rfl rfl (recordAt_after rfl hanswer)) hrely

/--
The operation stores what it has made of the task that it has read.
-/
theorem Updates.wp_saveTask (h : Updates P pid id task w) {task' : Task} (hid : task'.id = task.id)
    (hordered : task.Ordered → task'.Ordered) (hfollows : task.Ordered → task.Follows task')
    : (taskOutline codec).Wp pid (fun _ w => Did P pid w) (TaskStore.saveTask task') w := by
  apply Outline.wp_of_rely
  intro w' hrely hinv
  have h := h.rely hrely
  have htask := (hinv.tasks id task h.mem).2
  apply Studio.wp_saveTask h.live (hordered htask)
  intro w'' r hrely' hinv' hok
  exact h.ready hid (hfollows htask) hrely' hinv' hok

theorem wp_advance (h : Live P pid w) (clock : Nat → Timestamp)
    : (taskOutline codec).Wp pid (fun _ _ => True) (TaskStore.advance id clock) w := by
  apply wp_bind_true (wp_get h)
  intro task w h
  apply Outline.wp_require
  case hfalse =>
    intro _
    exact wp_done_true _
  intro hadvance
  apply Outline.wp_okOr
  case hnone =>
    intro _
    exact wp_done_true _
  intro next hnext
  apply wp_bind_true (wp_ensureMessages h)
  intro _ w h
  apply wp_bind_true (h.wp_saveTask _ _ _)
  . intro _ w _
    exact wp_pure_true _
  . rfl
  . intro hordered
    exact hordered.moveTo hadvance hnext clock
  . intro hordered
    exact Task.follows_moveTo hordered hadvance hnext clock

theorem wp_complete (h : Live P pid w) (clock : Nat → Timestamp)
    : (taskOutline codec).Wp pid (fun _ _ => True) (TaskStore.complete id clock) w := by
  apply wp_bind_true (wp_get h)
  intro task w h
  apply wp_bind_true (h.wp_saveTask _ _ _)
  . intro _ w _
    exact wp_pure_true _
  . rfl
  . intro hordered
    exact hordered.finish clock
  . intro _
    exact Task.follows_finish task clock

theorem wp_appendMessage_task {message : Message} {now : Timestamp} (h : Live P pid w)
    (hreads : codec.Reads message)
    : (taskOutline codec).Wp pid
      (fun r w => r = .ok () → Did (fun e => writtenMessage? id phase e = some message) pid w)
      (TaskStore.appendMessage id phase message now) w := by
  have herror : ∀ {w : TaskWorld codec} (e : TaskError), (taskOutline codec).Wp pid
      (fun r w => r = .ok () → Did (fun e => writtenMessage? id phase e = some message) pid w)
      (Program.fail e : Program TaskInterface Unit) w := by
    intro w e w' _ _ heq
    cases heq
  apply Outline.wp_call
  intro w₁ hrely hinv r t hanswer _
  have h := h.rely hrely
  refine ⟨keeps_open hinv (.inl rfl) hanswer, ?_⟩
  cases r with
  | error e => exact herror e
  | ok _ =>
    have h : Live P pid (w₁.after t (.call pid (.openMessages id phase) (.ok ()))) := h.after rfl rfl
    apply Outline.wp_call
    intro w₂ hrely hinv r t hanswer hok
    have h := h.rely hrely
    refine ⟨keeps_message hinv hreads hok.1 hok.2 hanswer, ?_⟩
    cases r with
    | error e => exact herror e
    | ok _ =>
      have h : Live (fun e => writtenMessage? id phase e = some message) pid
          (w₂.after t (.call pid (.writeMessage id phase message) (.ok ()))) := by
        refine ⟨Did.after_iff.mpr (.inl ⟨rfl, if_pos ⟨rfl, rfl⟩⟩), ?_, ?_⟩
        . exact (h.after rfl rfl).alive
        . exact (h.after rfl rfl).unstored
      apply Outline.wp_call
      intro w₃ hrely hinv r t hanswer _
      have h := h.rely hrely
      refine ⟨keeps_feed hinv hanswer, ?_⟩
      cases r with
      | error e => exact herror e
      | ok _ =>
        have h : Live (fun e => writtenMessage? id phase e = some message) pid
            (w₃.after t (.call pid (.writeFeed id phase) (.ok ()))) := h.after rfl rfl
        apply Outline.wp_bind
        apply Outline.wp_mono (wp_get h)
        intro r w hinv hread
        cases r with
        | error e => exact herror e
        | ok task =>
          apply Outline.wp_mono (Updates.wp_saveTask hread _ _ _)
          . intro r w _ hdid _
            exact hdid
          . rfl
          . intro hordered
            exact hordered.touch now
          . intro _
            exact Task.follows_touch task now

theorem wp_create {title : String} {description : Option String} {now : Timestamp} (h : Live P pid w)
    (hcreate : Did (fun e => createdTask? e = some id) pid w) (hown : Owns pid id w) (hnew : recordAt id w = [])
    : (taskOutline codec).Wp pid (fun _ _ => True) (TaskStore.create id title description now) w := by
  apply Outline.wp_call
  intro w₁ hrely hinv r t hanswer _
  have hcreate := (Did.extends_iff hrely.1).mpr hcreate
  obtain ⟨hown, hrecord⟩ := (hrely.2 id).1 hown
  have h := h.rely hrely
  refine ⟨keeps_call_quiet hinv rfl hanswer, ?_⟩
  cases r with
  | error e => exact wp_done_true _
  | ok _ =>
    have hnew : recordAt id (w₁.after t (.call pid (.createDirAll id) (.ok ()))) = [] :=
      ((recordAt_after rfl hanswer).trans hrecord).trans hnew
    have hown : Owns pid id (w₁.after t (.call pid (.createDirAll id) (.ok ()))) :=
      (Holding.after_quiet rfl rfl rfl).mpr hown
    have hcreate := hcreate.after t (.call pid (.createDirAll id) (.ok ()))
    have h : Live P pid (w₁.after t (.call pid (.createDirAll id) (.ok ()))) := h.after rfl rfl
    apply wp_bind_true (wp_saveTask h (Task.ordered_new id title _ now) _)
    . intro _ w _
      apply Outline.wp_call
      intro w₂ _ hinv r t hanswer hok
      refine ⟨keeps_open hinv (.inr ⟨rfl, hok⟩) hanswer, ?_⟩
      cases r with
      | error e => exact wp_done_true _
      | ok _ => exact wp_pure_true _
    . intro w' r hrely hinv _
      obtain ⟨hown, hrecord⟩ := (hrely.2 id).1 hown
      constructor
      . intro q hq
        exact hinv.owner q pid id hq hown
      . exact ⟨pid, (Did.extends_iff hrely.1).mpr hcreate⟩
      . intro t ht
        have ht : .whole t ∈ recordAt id w' := ht
        rw [hrecord, hnew] at ht
        cases ht

end Programs

/-! ## Soundness -/

theorem live_spawn (hfresh : Fresh pid w) (req : TaskRequest)
    : Live (fun _ => True) pid (w.after w.state (.spawn pid req)) := by
  refine ⟨Did.after_iff.mpr (.inl ⟨rfl, trivial⟩), ?_, ?_⟩
  . intro hgone
    exact Did.not_of_fresh hfresh ((Gone.after_iff rfl).mp hgone)
  . intro hdid
    cases Did.after_iff.mp hdid with
    | inl hnew => cases hnew.2
    | inr hold => exact Did.not_of_fresh hfresh hold

/--
Nobody owns or has stored what is not created yet.
-/
theorem TaskInv.spawn_create (h : TaskInv w) {title : String} {description : Option String} {now : Timestamp}
    (hfresh : Fresh pid w) (hnew : ∀ q, ¬ Did (fun e => createdTask? e = some id) q w)
    : (taskOutline codec).Keeps w w.state (.spawn pid (.create id title description now))
      ∧ recordAt id w = []
      ∧ Owns pid id (w.after w.state (.spawn pid (.create id title description now))) := by
  have hrecord : recordAt id w = [] := by
    by_contra hne
    obtain ⟨q, hdid⟩ := h.created id hne
    exact hnew q hdid
  have hunclaimed : ∀ q, ¬ Owns q id w := by
    intro q hown
    obtain ⟨q', hdid⟩ := h.claimed q id hown.1
    exact hnew q' hdid
  have hown : ∀ q id', Owns q id' (w.after w.state (.spawn pid (.create id title description now)))
      ↔ Owns q id' w ∨ (q = pid ∧ id' = id) := by
    intro q id'
    apply Holding.after_take
    . rfl
    . rfl
    . rfl
    . rfl
    . exact Did.not_of_fresh hfresh
    . exact Did.not_of_fresh hfresh
  have hcreated : Did (fun e => createdTask? e = some id) pid
      (w.after w.state (.spawn pid (.create id title description now))) :=
    Did.after_iff.mpr (.inl ⟨rfl, rfl⟩)
  refine ⟨⟨trivial, ?_, ?_⟩, hrecord, (hown pid id).mpr (.inr ⟨rfl, rfl⟩)⟩
  . constructor
    . exact h.tasks
    . exact h.forward
    . intro q id' hq
      cases (hown q id').mp hq with
      | inl hold => exact h.owned q id' hold
      | inr hnew =>
        left
        rw [hnew.2]
        exact hrecord
    . intro q q' id' hq hq'
      cases (hown q id').mp hq with
      | inl hold =>
        cases (hown q' id').mp hq' with
        | inl hold' => exact h.owner q q' id' hold hold'
        | inr hnew' =>
          rw [hnew'.2] at hold
          exact absurd hold (hunclaimed q)
      | inr hnew =>
        cases (hown q' id').mp hq' with
        | inl hold' =>
          rw [hnew.2] at hold'
          exact absurd hold' (hunclaimed q')
        | inr hnew' => rw [hnew.1, hnew'.1]
    . intro id' hne
      obtain ⟨q, hdid⟩ := h.created id' hne
      exact ⟨q, hdid.after _ _⟩
    . intro q id' hdid
      cases Did.after_iff.mp hdid with
      | inl hclaim =>
        rw [← Option.some.inj hclaim.2]
        exact ⟨pid, hcreated⟩
      | inr hold =>
        obtain ⟨q, hdid⟩ := h.claimed q id' hold
        exact ⟨q, hdid.after _ _⟩
    . intro id' phase
      rw [writtenMessages_after rfl]
      exact h.logs id' phase
    . intro id' phase
      rw [writtenMessages_after rfl]
      exact h.reads id' phase
    . intro q id' phase message now' hmem
      cases hmem with
      | tail _ hmem => exact (h.kept q id' phase message now' hmem).after _ _
  . intro q _ id'
    exact ⟨fun hq => ⟨(hown q id').mpr (.inl hq), rfl⟩, List.suffix_rfl⟩

theorem taskOutline_sound (codec : ObjectCodec Message) : (taskOutline codec).Sound where
  spawn w pid req h hfresh hok := by
    cases req with
    | create id title description now => exact (h.spawn_create hfresh hok).1
    | _ => exact keeps_quiet_task h rfl (fun _ _ => rfl) (fun _ => rfl) (fun _ _ => rfl) (kept_of_unfinished rfl)
  program w pid req h hfresh hok := by
    have hlive := live_spawn hfresh req
    cases req with
    | create id title description now =>
      obtain ⟨_, hrecord, hown⟩ := h.spawn_create hfresh hok
      exact wp_create hlive (Did.after_iff.mpr (.inl ⟨rfl, rfl⟩)) hown hrecord
    | advance id clock => exact wp_advance hlive clock
    | complete id clock => exact wp_complete hlive clock
    | appendMessage id phase message now => exact wp_appendMessage_task hlive hok
  finish w pid req r h _ hpost _ := by
    apply keeps_quiet_task h rfl (fun _ _ => rfl) (fun _ => rfl) (fun _ _ => rfl)
    intro q id phase message now heq
    cases heq
    exact hpost rfl
  crash w pid req h _ _ := keeps_quiet_task h rfl (fun _ _ => rfl) (fun _ => rfl) (fun _ _ => rfl) (kept_of_unfinished rfl)
  tick w t := t.elim

/--
No operation undoes another one in the runs in which every stored task was made of the one before it.
-/
theorem keepsTasks (codec : ObjectCodec Message) : KeepsTasks codec Undisturbed := by
  intro moves c hok hrun
  have hvalid : (taskOutline codec).Valid (Config.start .start) := .start .start
  exact ((taskOutline_sound codec).run hvalid hok hrun).1.inv.tasksKept

def calls (pid n : Nat) : List (Move (taskSystem plainCodec)) :=
  List.replicate n (.call pid (.done, .whole))

/--
A message is appended while the task moves on.
-/
def appendAcrossAdvance : List (Move (taskSystem plainCodec)) :=
  .spawn (.create "task_1" "t" none "") :: (calls 0 4 ++ [.finish 0,
    .spawn (.appendMessage "task_1" .alignment ⟨"m", .user, "hi", none, none, ""⟩ "")] ++ calls 1 5
    ++ [.spawn (.advance "task_1" (fun _ => ""))] ++ calls 2 6 ++ [.finish 2] ++ calls 1 2 ++ [.finish 1])

def goesBack : List Content → Bool
  | .whole t :: .empty :: .whole t' :: _ => t.currentPhase.index < t'.currentPhase.index
  | _ => false

theorem appendAcrossAdvance_goesBack : ∃ c : Config (taskSystem plainCodec),
    Config.run appendAcrossAdvance (.start .start) = some c ∧ goesBack (recordAt "task_1" c.world) = true :=
  Config.exists_of_any (by decide +kernel)

/--
The append that was under way puts the task back into the phase it has left.
-/
theorem not_keepsTasks : ¬ ∀ codec, KeepsTasks codec (fun _ _ => True) := by
  intro h
  obtain ⟨c, hrun, hback⟩ := appendAcrossAdvance_goesBack
  have hforward := (h plainCodec appendAcrossAdvance c (Config.along_true _ _) hrun).forward "task_1"
  unfold goesBack at hback
  split at hback
  . next t t' rest hrecord =>
    rw [hrecord] at hforward
    have hfollows := (List.pairwise_cons.mp hforward).1 (.whole t') (by simp) t t' rfl rfl
    rw [decide_eq_true_eq] at hback
    exact absurd hfollows.forward (Nat.not_le.mpr hback)
  . cases hback

end Reactor.Studio
