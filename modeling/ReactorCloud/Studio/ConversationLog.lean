import ReactorCloud.Interleave.Rely
import ReactorCloud.Studio.Conversation

/-!
This module contains what a conversation file shows of the messages that were appended to it. A rewritten
file does not end with a line feed, so that the next message continues its last line.
-/

namespace Reactor.Studio

open Posix (Text Outcome IoError IsLine Ended lines joinLines)
open Interleave

variable {codec : ConversationCodec} {m : ConversationMeta} {ms : List Message} {s : Text}

/-! ## Files -/

/--
The lines of the file are those of the conversation with these messages.
-/
def Shows (codec : ConversationCodec) (m : ConversationMeta) (ms : List Message) (s : Text) : Prop :=
  ∃ updated, lines s = codec.header.encode { m with updated } :: ms.map codec.message.encode

theorem isLine_of_mem_map {line : Text} (h : line ∈ ms.map codec.message.encode) : IsLine line := by
  rw [List.mem_map] at h
  obtain ⟨message, _, rfl⟩ := h
  exact ObjectCodec.isLine_encode

theorem readLines_map (h : ∀ message ∈ ms, codec.message.Reads message) (i : Nat)
    : readLines codec (i + 1) (ms.map codec.message.encode) = .ok ms := by
  induction ms generalizing i with
  | nil => rfl
  | cons message ms ih =>
    rw [List.map_cons, readLines, ObjectCodec.all_isWhitespace_encode, h message List.mem_cons_self]
    simp only [Bool.false_eq_true, if_false, Nat.add_eq_zero_iff, one_ne_zero, and_false, false_and]
    rw [ih]
    . rfl
    . intro message' hmem
      exact h message' (List.mem_cons_of_mem message hmem)

theorem Shows.readMessages_eq (h : Shows codec m ms s) (hreads : ∀ message ∈ ms, codec.message.Reads message)
    : readMessages codec s = .ok ms := by
  obtain ⟨updated, hlines⟩ := h
  rw [readMessages, hlines, readLines, ObjectCodec.all_isWhitespace_encode, if_neg (by decide),
    if_pos ⟨rfl, codec.marked _⟩]
  exact readLines_map hreads 0

theorem Shows.readSummary_eq (h : Shows codec m ms s) (id : String)
    : ∃ updated, readSummary codec id s = .ok ⟨id, m.agentId, m.title, m.created, updated, ms.length⟩ := by
  obtain ⟨updated, hlines⟩ := h
  exists updated
  rw [readSummary, hlines]
  dsimp only
  rw [codec.reads_header { m with updated }, List.length_map]

theorem shows_created : Shows codec m [] (createdFile codec m) := by
  exists m.updated
  rw [createdFile, ObjectCodec.isLine_encode.lines_feed]
  rfl

/--
A message that is written behind the end of a line is a line of its own.
-/
theorem Shows.append (h : Shows codec m ms s) (hended : Ended s) (message : Message)
    : Shows codec m (ms ++ [message]) (s ++ codec.message.encode message ++ ['\n']) := by
  obtain ⟨updated, hlines⟩ := h
  exists updated
  rw [List.append_assoc, Posix.lines_append hended, hlines, ObjectCodec.isLine_encode.lines_feed,
    List.map_append]
  rfl

/--
The file that `update_timestamp` writes shows what the file has shown.
-/
theorem Shows.rewrite (h : Shows codec m ms s) {first : Text} {rest : List Text} {read : ConversationMeta}
    (hlines : lines s = first :: rest) (hread : codec.header.decode first = some read) (updated : Timestamp)
    : Shows codec m ms (codec.header.encode { read with updated } ++ '\n' :: joinLines rest) := by
  obtain ⟨before, hbefore⟩ := h
  rw [hlines, List.cons.injEq] at hbefore
  obtain ⟨hfirst, hrest⟩ := hbefore
  rw [hfirst, codec.reads_header, Option.some.injEq] at hread
  subst hread
  exists updated
  rw [ObjectCodec.isLine_encode.lines_feed, hrest, Posix.lines_joinLines]
  intro line hline
  exact isLine_of_mem_map hline

/-! ## Runs -/

abbrev LogWorld (codec : ConversationCodec) (id : String) : Type :=
  World (conversation codec id)

variable {id : String} {w w' : LogWorld codec id} {pid : Nat}

/--
The message that is in the file after the event.
-/
def wrote? : Interleave.Event (conversation codec id) → Option Message
  | .call _ (.writeMessage message) (.ok _) => some message
  | _ => none

/--
The messages in the order in which they were written.
-/
def written (w : LogWorld codec id) : List Message :=
  (w.trace.filterMap wrote?).reverse

/--
The append has written its message and has not returned.
-/
def Writing (pid : Nat) (w : LogWorld codec id) : Prop :=
  Did (fun e => (wrote? e).isSome = true) pid w ∧ ¬ Gone pid w

/--
The file is a faithful log.
-/
structure Faithful (m : ConversationMeta) (w : LogWorld codec id) : Prop where
  messages : readMessages codec w.state = .ok (written w)
  summary : ∃ updated, readSummary codec id w.state
    = .ok ⟨id, m.agentId, m.title, m.created, updated, (written w).length⟩
  kept : ∀ pid message, .finish pid message (.ok ()) ∈ w.trace → Did (fun e => wrote? e = some message) pid w

/--
The log is faithful whenever no append is under way in the runs whose steps are all `ok`.
-/
def FaithfulLog (codec : ConversationCodec)
    (ok : (id : String) → LogWorld codec id → Interleave.Event (conversation codec id) → Prop) : Prop :=
  ∀ id agentId title now minute moves (c : Config (conversation codec id)),
    Config.Along (ok id) moves (.start (createdFile codec (newMeta agentId title now minute))) →
    Config.run moves (.start (createdFile codec (newMeta agentId title now minute))) = some c →
    (∀ pid, ¬ Writing pid c.world) → Faithful (newMeta agentId title now minute) c.world

/--
A message is written behind the end of a line and while no other append is under way, and what an append
has begun to write it writes.
-/
def Orderly (id : String) (w : LogWorld codec id) : Interleave.Event (conversation codec id) → Prop
  | .spawn _ message => codec.message.Reads message
  | .call _ (.writeMessage _) r =>
    (∀ pid, ¬ Writing pid w) ∧ Ended (show Text from w.state) ∧ r ≠ .error (.io .torn)
  | .call _ .writeFeed r => r = .ok ()
  | .call _ .truncate r => r ≠ .error (.io .torn)
  | .call _ (.overwrite _) r => r = .ok ()
  | .crash pid => ¬ Writing pid w
  | _ => True

/--
The append of `message` has written it and is under way, and `A` holds of the file and of what was written.
-/
def Under (pid : Nat) (message : Message) (A : List Message → Text → Prop) (w : LogWorld codec id) : Prop :=
  Did (fun e => wrote? e = some message) pid w ∧ ¬ Gone pid w ∧ A (written w) w.state

theorem Under.writing {message : Message} {A : List Message → Text → Prop} (h : Under pid message A w)
    : Writing pid w := by
  obtain ⟨⟨e, he, hpid, hwrote⟩, halive, _⟩ := h
  refine ⟨⟨e, he, hpid, ?_⟩, halive⟩
  simp [hwrote]

structure LogInv (m : ConversationMeta) (w : LogWorld codec id) : Prop where
  rest : (∀ pid, ¬ Writing pid w) → Shows codec m (written w) w.state
  one : ∀ pid pid', Writing pid w → Writing pid' w → pid = pid'
  reads : ∀ message ∈ written w, codec.message.Reads message
  kept : ∀ pid message, .finish pid message (.ok ()) ∈ w.trace → Did (fun e => wrote? e = some message) pid w

theorem LogInv.faithful (h : LogInv m w) (hrest : ∀ pid, ¬ Writing pid w) : Faithful m w where
  messages := (h.rest hrest).readMessages_eq h.reads
  summary := (h.rest hrest).readSummary_eq id
  kept := h.kept

def logOutline (codec : ConversationCodec) (id : String) (m : ConversationMeta)
    : Outline (conversation codec id) where
  inv := LogInv m
  ok := Orderly id
  safe _ _ := True
  rely pid w w' := Writing pid w → Writing pid w' ∧ w'.state = w.state ∧ written w' = written w
  post pid message r w :=
    (Writing pid w → Shows codec m (written w) w.state)
      ∧ (r = .ok () → Did (fun e => wrote? e = some message) pid w)
  rely_refl _ _ h := ⟨h, rfl, rfl⟩
  rely_trans := by
    intro pid w w' w'' hrely hrely' h
    obtain ⟨hwriting, hstate, hwritten⟩ := hrely h
    obtain ⟨hwriting', hstate', hwritten'⟩ := hrely' hwriting
    exact ⟨hwriting', hstate'.trans hstate, hwritten'.trans hwritten⟩

theorem Under.rely {message : Message} {A : List Message → Text → Prop} (h : Under pid message A w)
    (hrely : (logOutline codec id m).Rely pid w w') : Under pid message A w' := by
  obtain ⟨_, hstate, hwritten⟩ := hrely.2 h.writing
  obtain ⟨hdid, halive, hA⟩ := h
  refine ⟨(Did.extends_iff hrely.1).mpr hdid, (not_congr (Did.extends_iff hrely.1)).mpr halive, ?_⟩
  rw [hstate, hwritten]
  exact hA

theorem written_after {t : (conversation codec id).State} {e : Interleave.Event (conversation codec id)} (h : wrote? e = none)
    : written (w.after t e) = written w := by
  simp only [written, World.after, List.filterMap_cons_none h]

theorem writing_after {t : (conversation codec id).State} {e : Interleave.Event (conversation codec id)} (h : wrote? e = none)
    (hends : e.ends = false) {q : Nat} : Writing q (w.after t e) ↔ Writing q w := by
  unfold Writing Gone
  rw [Did.after_iff, Did.after_iff, h, hends]
  simp

/--
The invariant does not depend on a step that neither writes a message nor ends an append.
-/
theorem LogInv.after (h : LogInv m w) {t : (conversation codec id).State} {e : Interleave.Event (conversation codec id)}
    (hwrote : wrote? e = none) (hends : e.ends = false)
    (hstate : (∀ pid, ¬ Writing pid w) → t = w.state) : LogInv m (w.after t e) where
  rest := by
    intro hrest
    have hrest' : ∀ pid, ¬ Writing pid w := fun pid hpid => hrest pid ((writing_after hwrote hends).mpr hpid)
    rw [written_after hwrote]
    show Shows codec m (written w) t
    rw [hstate hrest']
    exact h.rest hrest'
  one := by
    intro p q hp hq
    rw [writing_after hwrote hends] at hp hq
    exact h.one p q hp hq
  reads := by
    rw [written_after hwrote]
    exact h.reads
  kept := by
    intro p message hmem
    cases hmem with
    | head => cases hends
    | tail _ hmem => exact (h.kept p message hmem).after t e

/--
A call of an append that is under way leaves the others what they rely on.
-/
theorem keeps_writing (h : LogInv m w) (hpid : Writing pid w) {t : (conversation codec id).State} {c : LogCall}
    {r : Except StorageError c.Ret}
    (hwrote : @wrote? codec id (.call pid c r) = none)
    : (logOutline codec id m).Keeps w t (.call pid c r) where
  safe := trivial
  inv := h.after hwrote rfl (fun hrest => absurd hpid (hrest pid))
  rely := by
    intro q hq hwriting
    exact absurd (congrArg some (h.one pid q hpid hwriting)) hq

theorem keeps_quiet (h : LogInv m w) {c : LogCall} {r : Except StorageError c.Ret}
    (hwrote : @wrote? codec id (.call pid c r) = none)
    : (logOutline codec id m).Keeps w w.state (.call pid c r) where
  safe := trivial
  inv := h.after hwrote rfl (fun _ => rfl)
  rely := by
    intro q _ hwriting
    exact ⟨(writing_after hwrote rfl).mpr hwriting, rfl, written_after hwrote⟩

/--
The append has written nothing yet.
-/
def Idle (pid : Nat) (w : LogWorld codec id) : Prop :=
  ¬ Did (fun e => (wrote? e).isSome = true) pid w ∧ ¬ Gone pid w

theorem Idle.rely (h : Idle pid w) (hrely : (logOutline codec id m).Rely pid w w') : Idle pid w' :=
  ⟨(not_congr (Did.extends_iff hrely.1)).mpr h.1, (not_congr (Did.extends_iff hrely.1)).mpr h.2⟩

theorem Idle.after (h : Idle pid w) {t : (conversation codec id).State} {c : LogCall}
    {r : Except StorageError c.Ret} (hwrote : @wrote? codec id (.call pid c r) = none)
    : Idle pid (w.after t (.call pid c r)) := by
  constructor
  . intro hdid
    cases Did.after_iff.mp hdid with
    | inl hnew => simp [hwrote] at hnew
    | inr hold => exact h.1 hold
  . intro hgone
    exact h.2 ((Gone.after_iff rfl).mp hgone)

theorem Under.after {message : Message} {A B : List Message → Text → Prop} (h : Under pid message A w)
    {t : (conversation codec id).State} {c : LogCall} {r : Except StorageError c.Ret}
    (hwrote : @wrote? codec id (.call pid c r) = none) (hB : B (written w) t)
    : Under pid message B (w.after t (.call pid c r)) := by
  refine ⟨h.1.after t _, (not_congr (Gone.after_iff rfl)).mpr h.2.1, ?_⟩
  rw [written_after hwrote]
  exact hB

theorem Idle.post (h : Idle pid w) {message : Message} (e : StorageError)
    : (logOutline codec id m).Wp pid ((logOutline codec id m).post pid message) (Program.fail e) w := by
  apply Outline.wp_fail
  intro w' hrely _
  constructor
  . intro hwriting
    exact absurd hwriting.1 (h.rely hrely).1
  . intro heq
    cases heq

/--
Whatever is answered in the end, the message is in the file.
-/
theorem Under.post {message : Message} (h : Under pid message (Shows codec m) w) (r : Except StorageError Unit)
    : (logOutline codec id m).Wp pid ((logOutline codec id m).post pid message) (.done r) w := by
  intro w' hrely _
  have h' := h.rely hrely
  constructor
  . intro _
    exact h'.2.2
  . intro _
    exact h'.1

/--
Calls that leave the file as it is.
-/
def LogCall.isQuiet : LogCall → Bool
  | .found | .openAppend | .readToString => true
  | _ => false

theorem answers_quiet {c : LogCall} (hc : c.isQuiet = true) {t t' : (conversation codec id).State}
    {r : Except StorageError c.Ret} (h : Answers (conversation codec id) pid c t r t') : t' = t := by
  cases h.effect with
  | inl heq => exact heq
  | inr heff =>
    obtain ⟨⟨outcome, now⟩, r', heff⟩ := heff
    have hstate := congrArg Prod.snd (Option.some.inj heff)
    simp only at hstate
    rw [← hstate]
    cases c with
    | found => rfl
    | openAppend => cases outcome <;> rfl
    | readToString => cases outcome <;> rfl
    | _ => cases hc

/--
An answer without an error tells what became of the file.
-/
theorem answers_ok {c : LogCall} {t t' : (conversation codec id).State} {a : c.Ret}
    (h : Answers (conversation codec id) pid c t (.ok a) t')
    : ∃ outcome now, execLog codec now outcome t c = (.ok a, t') := by
  obtain ⟨⟨outcome, now⟩, hexec⟩ := h.ok
  exact ⟨outcome, now, Option.some.inj hexec⟩

theorem writeMessage_ok {message : Message} {t t' : (conversation codec id).State} {a : Unit}
    (h : Answers (conversation codec id) pid (.writeMessage message) t (.ok a) t')
    : t' = (show Text from t) ++ codec.message.encode message := by
  obtain ⟨outcome, now, hexec⟩ := answers_ok h
  cases outcome with
  | done => exact (congrArg Prod.snd hexec).symm
  | refused => cases congrArg Prod.fst hexec
  | torn n => cases congrArg Prod.fst hexec

theorem writeMessage_refused {message : Message} {t t' : (conversation codec id).State} {e : StorageError}
    (h : Answers (conversation codec id) pid (.writeMessage message) t (.error e) t')
    (htorn : e ≠ .io .torn) : t' = t := by
  cases h.error with
  | inl heq => exact absurd heq htorn
  | inr hexec =>
    obtain ⟨⟨outcome, now⟩, hexec⟩ := hexec
    have hexec := Option.some.inj hexec
    cases outcome with
    | done => cases congrArg Prod.fst hexec
    | refused => exact (congrArg Prod.snd hexec).symm
    | torn n =>
      have := congrArg Prod.fst hexec
      exact absurd (Except.error.inj this).symm htorn

theorem writeFeed_ok {t t' : (conversation codec id).State} {a : Unit}
    (h : Answers (conversation codec id) pid .writeFeed t (.ok a) t')
    : t' = (show Text from t) ++ ['\n'] := by
  obtain ⟨outcome, now, hexec⟩ := answers_ok h
  cases outcome with
  | done => exact (congrArg Prod.snd hexec).symm
  | refused => cases congrArg Prod.fst hexec
  | torn n => cases congrArg Prod.fst hexec

theorem readToString_ok {t t' : (conversation codec id).State} {a : Text}
    (h : Answers (conversation codec id) pid .readToString t (.ok a) t') : a = t := by
  obtain ⟨outcome, now, hexec⟩ := answers_ok h
  cases outcome with
  | done => exact (Except.ok.inj (congrArg Prod.fst hexec)).symm
  | refused => cases congrArg Prod.fst hexec
  | torn n => cases congrArg Prod.fst hexec

theorem truncate_ok {t t' : (conversation codec id).State} {a : Timestamp}
    (h : Answers (conversation codec id) pid .truncate t (.ok a) t') : t' = ([] : Text) := by
  obtain ⟨outcome, now, hexec⟩ := answers_ok h
  cases outcome with
  | done => exact (congrArg Prod.snd hexec).symm
  | refused => cases congrArg Prod.fst hexec
  | torn n => cases congrArg Prod.fst hexec

theorem truncate_refused {t t' : (conversation codec id).State} {e : StorageError}
    (h : Answers (conversation codec id) pid .truncate t (.error e) t') (htorn : e ≠ .io .torn) : t' = t := by
  cases h.error with
  | inl heq => exact absurd heq htorn
  | inr hexec =>
    obtain ⟨⟨outcome, now⟩, hexec⟩ := hexec
    have hexec := Option.some.inj hexec
    cases outcome with
    | done => cases congrArg Prod.fst hexec
    | refused => exact (congrArg Prod.snd hexec).symm
    | torn n =>
      have := congrArg Prod.fst hexec
      exact absurd (Except.error.inj this).symm htorn

theorem overwrite_ok {text : Text} {t' : (conversation codec id).State} {a : Unit}
    (h : Answers (conversation codec id) pid (.overwrite text) ([] : Text) (.ok a) t') : t' = text := by
  obtain ⟨outcome, now, hexec⟩ := answers_ok h
  cases outcome with
  | done =>
    have hstate : (Posix.overwrite [] text .done).2 = t' := congrArg Prod.snd hexec
    rw [Posix.overwrite_nil_done] at hstate
    exact hstate.symm
  | refused => cases congrArg Prod.fst hexec
  | torn n => cases congrArg Prod.fst hexec

/--
The message is written and its line is not ended.
-/
def Begun (codec : ConversationCodec) (m : ConversationMeta) (message : Message) (ms : List Message)
    (s : Text) : Prop :=
  ∃ ms' s', ms = ms' ++ [message] ∧ s = s' ++ codec.message.encode message ∧ Ended s' ∧ Shows codec m ms' s'

theorem Begun.ended {message : Message} (h : Begun codec m message ms s)
    : Shows codec m ms (s ++ ['\n']) := by
  obtain ⟨ms', s', rfl, rfl, hended, hshows⟩ := h
  exact hshows.append hended message

theorem keeps_write (h : LogInv m w) (hidle : Idle pid w) {message : Message}
    (hreads : codec.message.Reads message) (hrest : ∀ q, ¬ Writing q w)
    (t : (conversation codec id).State)
    : (logOutline codec id m).Keeps w t (.call pid (.writeMessage message) (.ok ())) := by
  have hwritten : written (w.after t (.call pid (.writeMessage message) (.ok ())))
      = written w ++ [message] := by
    simp [written, World.after, wrote?]
  have hwriting : ∀ q, Writing q (w.after t (.call pid (.writeMessage message) (.ok ()))) ↔ q = pid := by
    intro q
    constructor
    . rintro ⟨hdid, halive⟩
      cases Did.after_iff.mp hdid with
      | inl hnew => exact (Option.some.inj hnew.1).symm
      | inr hold => exact absurd ⟨hold, (not_congr (Gone.after_iff rfl)).mp halive⟩ (hrest q)
    . rintro rfl
      exact ⟨Did.after_iff.mpr (.inl ⟨rfl, rfl⟩), (not_congr (Gone.after_iff rfl)).mpr hidle.2⟩
  refine ⟨trivial, ?_, ?_⟩
  . constructor
    . intro hnone
      exact absurd ((hwriting pid).mpr rfl) (hnone pid)
    . intro p q hp hq
      rw [(hwriting p).mp hp, (hwriting q).mp hq]
    . rw [hwritten]
      intro message' hmem
      cases List.mem_append.mp hmem with
      | inl hold => exact h.reads message' hold
      | inr hnew =>
        rw [List.mem_singleton.mp hnew]
        exact hreads
    . intro p message' hmem
      cases hmem with
      | tail _ hmem => exact (h.kept p message' hmem).after t _
  . intro q _ hq
    exact absurd hq (hrest q)

/-! ## Programs -/

theorem Under.mono {message : Message} {A B : List Message → Text → Prop} (h : Under pid message A w)
    (hAB : ∀ ms s, A ms s → B ms s) : Under pid message B w :=
  ⟨h.1, h.2.1, hAB _ _ h.2.2⟩

/--
Nobody else comes near the empty file.
-/
theorem wp_overwrite {message : Message} {text : Text}
    (h : Under pid message (fun ms s => s = [] ∧ Shows codec m ms text) w)
    : (logOutline codec id m).Wp pid ((logOutline codec id m).post pid message)
      (Program.request (I := LogInterface) (.overwrite text)) w := by
  intro w' hrely hinv r t hanswer hok
  have h := h.rely hrely
  refine ⟨keeps_writing hinv h.writing rfl, ?_⟩
  apply Under.post
  apply h.after rfl
  obtain ⟨hempty, hshows⟩ := h.2.2
  have hok : r = .ok () := hok
  subst hok
  rw [hempty] at hanswer
  rw [overwrite_ok hanswer]
  exact hshows

theorem wp_rewrite {message : Message} {content first : Text} {rest : List Text} {read : ConversationMeta}
    (hlines : lines content = first :: rest) (hread : codec.header.decode first = some read)
    (h : Under pid message (fun ms s => s = content ∧ Shows codec m ms content) w)
    : (logOutline codec id m).Wp pid ((logOutline codec id m).post pid message)
      ((Program.request (I := LogInterface) .truncate) >>= fun updated =>
        Program.request (I := LogInterface)
          (.overwrite (codec.header.encode { read with updated } ++ '\n' :: joinLines rest))) w := by
  apply Outline.wp_call
  intro w' hrely hinv r t hanswer hok
  have h := h.rely hrely
  refine ⟨keeps_writing hinv h.writing rfl, ?_⟩
  obtain ⟨hcontent, hshows⟩ := h.2.2
  cases r with
  | error e =>
    apply Under.post
    apply h.after rfl
    rw [truncate_refused hanswer (fun heq => hok (by rw [heq])), hcontent]
    exact hshows
  | ok updated =>
    apply wp_overwrite
    apply h.after rfl
    exact ⟨truncate_ok hanswer, hshows.rewrite hlines hread updated⟩

theorem wp_updateTimestamp {message : Message} (h : Under pid message (Shows codec m) w)
    : (logOutline codec id m).Wp pid ((logOutline codec id m).post pid message) (updateTimestamp codec) w := by
  apply Outline.wp_call
  intro w' hrely hinv r t hanswer _
  have h := h.rely hrely
  have ht := answers_quiet rfl hanswer
  refine ⟨keeps_writing hinv h.writing rfl, ?_⟩
  cases r with
  | error e =>
    apply Under.post
    apply h.after rfl
    rw [ht]
    exact h.2.2
  | ok content =>
    have h : Under pid message (fun ms s => s = content ∧ Shows codec m ms content)
        (w'.after t (.call pid .readToString (.ok content))) := by
      apply h.after rfl
      rw [ht, readToString_ok hanswer]
      exact ⟨rfl, h.2.2⟩
    have hdone : ∀ ms s, s = content ∧ Shows codec m ms content → Shows codec m ms s := by
      rintro ms s ⟨rfl, hshows⟩
      exact hshows
    dsimp only
    split
    . exact (h.mono hdone).post _
    . next first rest hlines =>
      split
      . exact (h.mono hdone).post _
      . next read hread => exact wp_rewrite hlines hread h

theorem wp_appendMessage {message : Message} (h : Idle pid w) (hreads : codec.message.Reads message)
    : (logOutline codec id m).Wp pid ((logOutline codec id m).post pid message)
      (appendMessage codec id message) w := by
  apply Outline.wp_try
  intro w₁ hrely hinv r t hanswer _
  have h := h.rely hrely
  rw [answers_quiet rfl hanswer]
  refine ⟨keeps_quiet hinv rfl, ?_⟩
  have h : Idle pid (w₁.after w₁.state (.call pid .found r)) := h.after rfl
  apply Outline.wp_require
  case hfalse =>
    intro _
    exact h.post _
  intro _
  apply Outline.wp_call
  intro w₂ hrely hinv r t hanswer _
  have h := h.rely hrely
  rw [answers_quiet rfl hanswer]
  refine ⟨keeps_quiet hinv rfl, ?_⟩
  have h : Idle pid (w₂.after w₂.state (.call pid .openAppend r)) := h.after rfl
  cases r with
  | error e => exact h.post e
  | ok _ =>
    apply Outline.wp_call
    intro w₃ hrely hinv r t hanswer hok
    have h := h.rely hrely
    obtain ⟨hrest, hended, htorn⟩ := hok
    cases r with
    | error e =>
      rw [writeMessage_refused hanswer (fun heq => htorn (by rw [heq]))]
      refine ⟨keeps_quiet hinv rfl, ?_⟩
      apply Idle.post
      apply h.after
      rfl
    | ok _ =>
      refine ⟨keeps_write hinv h hreads hrest t, ?_⟩
      have h : Under pid message (Begun codec m message)
          (w₃.after t (.call pid (.writeMessage message) (.ok ()))) := by
        refine ⟨Did.after_iff.mpr (.inl ⟨rfl, rfl⟩), (not_congr (Gone.after_iff rfl)).mpr h.2, ?_⟩
        refine ⟨written w₃, w₃.state, ?_, writeMessage_ok hanswer, hended, hinv.rest hrest⟩
        simp [written, World.after, wrote?]
      apply Outline.wp_call
      intro w₄ hrely hinv r t hanswer hok
      have h := h.rely hrely
      refine ⟨keeps_writing hinv h.writing rfl, ?_⟩
      have hok : r = .ok () := hok
      subst hok
      apply wp_updateTimestamp
      apply h.after rfl
      rw [writeFeed_ok hanswer]
      exact h.2.2.ended

theorem keeps_end {e : Interleave.Event (conversation codec id)} (h : LogInv m w) (hpid : e.pid? = some pid)
    (hwrote : wrote? e = none) (hends : e.ends = true)
    (hshows : Writing pid w → Shows codec m (written w) w.state)
    (hkept : ∀ p message, e = .finish p message (.ok ()) → Did (fun e => wrote? e = some message) p w)
    : (logOutline codec id m).Keeps w w.state e := by
  have hwriting : ∀ q, Writing q (w.after w.state e) ↔ Writing q w ∧ q ≠ pid := by
    intro q
    unfold Writing Gone
    simp only [Did.after_iff, hpid, hwrote, hends, Option.isSome_none, Bool.false_eq_true, and_false,
      false_or, Option.some.injEq, and_true]
    constructor
    . rintro ⟨hdid, halive⟩
      exact ⟨⟨hdid, fun h => halive (.inr h)⟩, fun h => halive (.inl h.symm)⟩
    . rintro ⟨⟨hdid, halive⟩, hne⟩
      exact ⟨hdid, fun h => h.elim (fun h => hne h.symm) halive⟩
  refine ⟨trivial, ?_, ?_⟩
  . constructor
    . intro hnone
      rw [written_after hwrote]
      by_cases hself : Writing pid w
      . exact hshows hself
      . apply h.rest
        intro q hq
        exact hnone q ((hwriting q).mpr ⟨hq, fun heq => hself (heq ▸ hq)⟩)
    . intro p q hp hq
      exact h.one p q ((hwriting p).mp hp).1 ((hwriting q).mp hq).1
    . rw [written_after hwrote]
      exact h.reads
    . intro p message hmem
      cases List.mem_cons.mp hmem with
      | inl heq => exact (hkept p message heq.symm).after _ e
      | inr hmem => exact (h.kept p message hmem).after _ e
  . intro q hq hqw
    rw [written_after hwrote]
    refine ⟨(hwriting q).mpr ⟨hqw, ?_⟩, rfl, rfl⟩
    rintro rfl
    exact hq hpid

theorem logOutline_sound (codec : ConversationCodec) (id : String) (m : ConversationMeta)
    : (logOutline codec id m).Sound where
  spawn w pid message h _ _ := {
    safe := trivial
    inv := h.after rfl rfl (fun _ => rfl)
    rely := fun q _ hq => ⟨(writing_after rfl rfl).mpr hq, rfl, written_after rfl⟩ }
  program w pid message _ hfresh hok := by
    apply wp_appendMessage _ hok
    constructor
    . intro hdid
      cases Did.after_iff.mp hdid with
      | inl hnew => cases hnew.2
      | inr hold => exact Did.not_of_fresh hfresh hold
    . intro hgone
      exact Did.not_of_fresh hfresh ((Gone.after_iff rfl).mp hgone)
  finish w pid message r h _ hpost _ := by
    apply keeps_end h rfl rfl rfl hpost.1
    intro p message' heq
    cases heq
    exact hpost.2 rfl
  crash w pid message h _ hok := by
    apply keeps_end h rfl rfl rfl
    . intro hwriting
      exact absurd hwriting hok
    . intro p message' heq
      cases heq
  tick w t := t.elim

/--
The log is faithful in the runs in which nothing is written behind a line that is not ended.
-/
theorem faithfulLog (codec : ConversationCodec) : FaithfulLog codec Orderly := by
  intro id agentId title now minute moves c hok hrun hrest
  have hvalid : (logOutline codec id (newMeta agentId title now minute)).Valid
      (Config.start (createdFile codec (newMeta agentId title now minute))) := by
    apply Outline.Valid.start
    constructor
    . intro _
      exact shows_created
    . rintro p q ⟨⟨e, he, _⟩, _⟩
      cases he
    . intro message hmem
      cases hmem
    . intro p message hmem
      cases hmem
  exact ((logOutline_sound codec id _).run hvalid hok hrun).1.inv.faithful hrest

/--
An append in which nothing fails.
-/
def appendMoves (pid : Nat) (message : Message) : List (Move (conversation codec id)) :=
  .spawn message :: (List.replicate 7 (.call pid (.done, "")) ++ [.finish pid])

def note (text : String) : Message :=
  ⟨text, .user, text, none, none, ""⟩

/--
One message after the other.
-/
def twoNotes : List (Move (conversation plainConversationCodec "c")) :=
  appendMoves 0 (note "a") ++ appendMoves 1 (note "b")

theorem twoNotes_glued : ∃ c : Config (conversation plainConversationCodec "c"),
    Config.run twoNotes (.start (createdFile plainConversationCodec (newMeta "coder" (some "t") "" ""))) = some c
      ∧ (∀ pid, ¬ Writing pid c.world) ∧ readMessages plainConversationCodec c.world.state = .error .json := by
  obtain ⟨c, hrun, hc⟩ := @Config.exists_of_any _ _ twoNotes
    (.start (createdFile plainConversationCodec (newMeta "coder" (some "t") "" "")))
    (fun c => decide (∀ e ∈ c.world.trace, (wrote? e).isSome = true → ∀ pid ∈ e.pid?, Gone pid c.world)
      && decide ((readMessages plainConversationCodec c.world.state).map (fun _ => ()) = .error .json)) (by decide +kernel)
  simp only [Bool.and_eq_true, decide_eq_true_eq] at hc
  refine ⟨c, hrun, ?_, ?_⟩
  . rintro pid ⟨⟨e, he, hpid, hwrote⟩, halive⟩
    exact halive (hc.1 e he hwrote pid hpid)
  . have hread := hc.2
    cases hmessages : readMessages plainConversationCodec c.world.state with
    | ok messages => simp [hmessages, Except.map] at hread
    | error e => simpa [hmessages, Except.map] using hread


/--
The second message of a conversation makes it unreadable.
-/
theorem not_faithfulLog : ¬ ∀ codec, FaithfulLog codec (fun _ _ _ => True) := by
  intro h
  obtain ⟨c, hrun, hrest, hread⟩ := twoNotes_glued
  have hfaithful := h plainConversationCodec "c" "coder" (some "t") "" "" twoNotes c
    (Config.along_true _ _) hrun hrest
  rw [hfaithful.messages] at hread
  cases hread

end Reactor.Studio
