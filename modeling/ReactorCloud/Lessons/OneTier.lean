import ReactorCloud.Lessons.Ticks

/-!
This module contains what the runs of the lessons' operations keep. A lesson has one file, a tick moves it as the
rules say, and the record of a rollback names what was removed.
-/

namespace Reactor.Lessons

open Interleave (Program)
open Interleave.Program
open Rust (Double F64 HashMap)

variable {Body : Type}

/-! ## What is to be shown -/

/--
All goes well in the calls of a process.
-/
def Choice.done : Choice := ⟨false, []⟩

/--
The file of a lesson is in one directory, is that of the lesson, and is what is loaded.
-/
structure OneCopy (store : LessonStore Body) (disk : Disk) (id : LessonId) : Prop where
  unique : ∀ tier tier', store.Holds disk tier id → store.Holds disk tier' id → tier = tier'
  loaded : ∀ tier, store.Holds disk tier id → ∃ lesson, lesson.tier = tier ∧ lesson.id = id
    ∧ store.Filed disk lesson ∧ (store.load id).eval (handler .done) disk = (.ok lesson, disk)

def Moved (store : LessonStore Body) (disk disk' : Disk) (id : LessonId) : Prop :=
  ∃ tier, store.Holds disk tier id ∧ ¬ store.Holds disk' tier id

def Removed (store : LessonStore Body) (disk disk' : Disk) (id : LessonId) : Prop :=
  (∃ tier, store.Holds disk tier id) ∧ ∀ tier, ¬ store.Holds disk' tier id

/--
The lesson was dealt with as a rule says.
-/
def Meets (store : LessonStore Body) (disk' : Disk) (lesson : Lesson Body) : Fate → Prop
  | .stays => store.Filed disk' lesson
  | .moves tier => ¬ store.Holds disk' lesson.tier lesson.id
      ∧ ∃ moved, moved.id = lesson.id ∧ moved.tier = tier ∧ store.Filed disk' moved
  | .discarded => ∀ tier, ¬ store.Holds disk' tier lesson.id

/--
A tick that is stopped can leave lessons where they were.
-/
structure TickRight (studio : Studio Body) (entries : List LedgerEntry) (clock : LessonId → Instant)
    (disk disk' : Disk) (out : Outcome FileInterface (List TierTransition)) : Prop where
  once : ∀ lesson, studio.store.Filed disk lesson → studio.store.Filed disk' lesson
    ∨ Meets studio.store disk' lesson (fate studio.config entries lesson (clock lesson.id))
  all : ∀ transitions, out = some (.ok transitions) → ∀ lesson, studio.store.Filed disk lesson
    → Meets studio.store disk' lesson (fate studio.config entries lesson (clock lesson.id))
  listed : ∀ transitions, out = some (.ok transitions) → (transitions.map (·.lessonId)).Nodup
    ∧ ∀ id, id ∈ transitions.map (·.lessonId) ↔ Moved studio.store disk disk' id
  again : studio.config.minSuccessRateT1T2.ge studio.config.demotionSuccessRateThreshold = true
    → ∀ clock' script id, Moved studio.store disk disk' id → ¬ Moved studio.store disk'
      ((Promoter.tick studio.store studio.config (.ok entries) clock').play handler script disk').2 id

def StepRight (studio : Studio Body) (s : State) : (op : Op Body) → Outcome FileInterface op.Reply → State → Prop
  | .tick (.ok entries) clock, out, s' => TickRight studio entries clock s.disk s'.disk out
  | .tick (.error _) _, _, s' => ∀ id, ¬ Moved studio.store s.disk s'.disk id
  | .check .., out, s' => ∀ record, out = some (.ok (some record))
      → ∀ id, id ∈ record.lessonsRolledBack ↔ Removed studio.store s.disk s'.disk id
  | _, _, _ => True

/--
The states of the runs from an empty store whose steps are all `ok`.
-/
inductive Reached (studio : Studio Body) (ok : State → Op Body → List Choice → Prop) : State → Prop where
  | start : Reached studio ok .start
  | step {s : State} {op : Op Body} {script : List Choice} (h : Reached studio ok s) (hok : ok s op script)
      : Reached studio ok (studio.step op script s).2

def MovesByTheRules (studio : Studio Body) (ok : State → Op Body → List Choice → Prop) : Prop :=
  ∀ s, Reached studio ok s → (∀ id, OneCopy studio.store s.disk id)
    ∧ ∀ op script, ok s op script
      → StepRight studio s op (studio.step op script s).1 (studio.step op script s).2

/-! ## When it is so -/

def WholeMove (c : FileCall) (got : Option Choice) : Prop :=
  match c with
  | .oldExists _ => ∃ choice, got = some choice ∧ choice.refused = false
  | .removeOld _ => ∃ choice, got = some choice ∧ choice.refused = false
  | _ => True

/--
The directories are read and no move is left halfway.
-/
def WholeTick (c : FileCall) (got : Option Choice) : Prop :=
  match c with
  | .dirExists _ => ∀ choice, got = some choice → choice.refused = false
  | .readEntry _ => ∀ choice, got = some choice → choice.refused = false
  | c => WholeMove c got

def WholeCheck (_ : FileCall) (got : Option Choice) : Prop :=
  ∀ choice, got = some choice → choice.refused = false

/--
A lesson is saved under the name of a file, where no other tier has it. No operation is stopped or refused between
the write and the removal of a move. A tick can read its files and finds no lesson that is only to be discarded, and
a rollback can remove all the lessons it has in mind.
-/
def Orderly (studio : Studio Body) (s : State) (op : Op Body) (script : List Choice) : Prop :=
  match op with
  | .stage lesson _ => studio.store.Fits lesson ∧ ∀ tier, tier ≠ .t1 → ¬ studio.store.Holds s.disk tier lesson.id
  | .save lesson => studio.store.Fits lesson
      ∧ ∀ tier, tier ≠ lesson.tier → ¬ studio.store.Holds s.disk tier lesson.id
  | .moveToTier lesson newTier now => studio.store.Fits lesson
      ∧ (∀ tier, tier ≠ lesson.tier → tier ≠ newTier → ¬ studio.store.Holds s.disk tier lesson.id)
      ∧ (studio.store.moveToTier lesson newTier now).Plays handler WholeMove script s.disk
  | .promote id toTier now =>
    (Promoter.promote studio.store id toTier now).Plays handler WholeMove script s.disk
  | .demote id toTier now =>
    (Promoter.demote studio.store id toTier now).Plays handler WholeMove script s.disk
  | .tick (.ok entries) clock =>
    (∀ lesson, studio.store.Filed s.disk lesson → lesson.tier = .t1
      → Discards studio.config entries lesson (clock lesson.id) → Promotes studio.config entries lesson)
      ∧ (Promoter.tick studio.store studio.config (.ok entries) clock).Plays handler WholeTick script s.disk
  | .check iteration passRateBefore passRateAfter =>
    RollbackGate.needsRollback s.staged passRateBefore passRateAfter = true
      → (∀ id ∈ s.staged, ∃ tier, studio.store.Holds s.disk tier id)
        ∧ (RollbackGate.check studio.store s.staged iteration passRateBefore passRateAfter).Plays handler WholeCheck
          script s.disk
  | _ => True

theorem steady_wholeMove : Steady WholeMove := by
  rintro path got (h | h)
  . exact h
  . exact h

theorem steady_wholeTick : Steady WholeTick := by
  rintro path got (h | h)
  . exact h
  . exact h

theorem readable_wholeTick : Readable WholeTick := by
  rintro path choice (h | h)
  . exact h choice rfl
  . exact h choice rfl

theorem unrefused_wholeCheck : Unrefused WholeCheck := by
  intro c choice h
  exact h choice rfl

/-! ## Shelves -/

section Shelves

variable {studio : Studio Body} {shelf shelf' : Shelf Body} {disk disk' : Disk} {lesson : Lesson Body}

theorem Represents.oneCopy {store : LessonStore Body} (h : Represents store shelf disk) (id : LessonId)
    : OneCopy store disk id := by
  constructor
  . intro tier tier' hholds hholds'
    obtain ⟨lesson, hid, rfl⟩ := h.holds_iff.mp hholds
    obtain ⟨lesson', hid', rfl⟩ := h.holds_iff.mp hholds'
    rw [hid] at hid'
    cases hid'
    rfl
  . intro tier hholds
    obtain ⟨lesson, hid, rfl⟩ := h.holds_iff.mp hholds
    exact ⟨lesson, rfl, h.named hid, h.filed_iff.mpr (h.self hid), load_eval h hid rfl⟩

theorem Represents.moved_iff {store : LessonStore Body} (h : Represents store shelf disk)
    (h' : Represents store shelf' disk') {id : LessonId}
    : Moved store disk disk' id
      ↔ ∃ lesson, shelf id = some lesson ∧ ∀ lesson', shelf' id = some lesson' → lesson'.tier ≠ lesson.tier := by
  unfold Moved
  simp only [h.holds_iff, h'.holds_iff]
  constructor
  . rintro ⟨_, ⟨lesson, hid, rfl⟩, hgone⟩
    exact ⟨lesson, hid, fun lesson' hid' heq => hgone ⟨lesson', hid', heq⟩⟩
  . rintro ⟨lesson, hid, hgone⟩
    exact ⟨_, ⟨lesson, hid, rfl⟩, fun ⟨lesson', hid', heq⟩ => hgone lesson' hid' heq⟩

theorem movesTo_ne {config : PromotionConfig} {entries : List LedgerEntry} {tier : Tier}
    (h : movesTo config entries lesson = some tier) : lesson.tier ≠ tier := by
  unfold movesTo at h
  split at h
  . next htier =>
    split at h
    . cases h
      rw [htier]
      decide
    . cases h
  . next htier =>
    split at h
    . cases h
      rw [htier]
      decide
    . cases h
  . cases h

theorem fate_eq {config : PromotionConfig} {entries : List LedgerEntry} {now : Instant}
    (hdiscards : lesson.tier = .t1 → Discards config entries lesson now → Promotes config entries lesson)
    : fate config entries lesson now = match movesTo config entries lesson with
      | some tier => .moves tier
      | none => .stays := by
  unfold fate movesTo
  cases htier : lesson.tier with
  | t1 =>
    by_cases hpromotes : Promotes config entries lesson
    . simp [hpromotes]
    . have hnot : ¬ Discards config entries lesson now := fun h => hpromotes (hdiscards htier h)
      simp [hpromotes, hnot]
  | t2 => by_cases hdemotes : Demotes config entries lesson <;> simp [hdemotes]
  | t0 => rfl
  | t3 => rfl
  | t4 => rfl

/--
What is checked meets the rules, unless a lesson is only to be discarded.
-/
theorem meets_checked {config : PromotionConfig} {entries : List LedgerEntry} {clock : LessonId → Instant}
    {store : LessonStore Body} (h' : Represents store shelf' disk')
    (hdiscards : lesson.tier = .t1 → Discards config entries lesson (clock lesson.id) → Promotes config entries lesson)
    (hshelf : shelf' lesson.id = some (checked config entries clock lesson))
    : Meets store disk' lesson (fate config entries lesson (clock lesson.id)) := by
  rw [fate_eq hdiscards]
  cases hmoves : movesTo config entries lesson with
  | none =>
    rw [checked_of_none hmoves] at hshelf
    exact h'.filed_iff.mpr hshelf
  | some tier =>
    rw [checked_of_some hmoves] at hshelf
    constructor
    . exact h'.not_mem_of_tier hshelf (movesTo_ne hmoves).symm
    . exact ⟨{ lesson with tier := tier, updated := clock lesson.id }, rfl, rfl, h'.filed_iff.mpr hshelf⟩

/--
No rule moves a lesson that was just moved.
-/
theorem movesTo_checked {config : PromotionConfig} {entries : List LedgerEntry} {clock : LessonId → Instant}
    (hrates : config.minSuccessRateT1T2.ge config.demotionSuccessRateThreshold = true) {tier : Tier}
    (h : movesTo config entries lesson = some tier)
    : movesTo config entries (checked config entries clock lesson) = none := by
  rw [checked_of_some h]
  unfold movesTo at h
  split at h
  . split at h
    . next hpromotes =>
      cases h
      apply if_neg
      rintro ⟨_, hdemotes⟩
      rw [Double.ge_trans_not_lt hpromotes.2 hrates] at hdemotes
      cases hdemotes
    . cases h
  . split at h
    . next hdemotes =>
      cases h
      apply if_neg
      rintro ⟨_, hpromotes⟩
      have := hdemotes.2
      rw [Double.ge_trans_not_lt hpromotes hrates] at this
      cases this
    . cases h
  . cases h

end Shelves

/-! ## Steps -/

section Steps

variable {studio : Studio Body} {store : LessonStore Body} {may : FileCall → Option Choice → Prop}
variable {shelf : Shelf Body} {disk : Disk} {lesson : Lesson Body}

def OnShelf (store : LessonStore Body) (disk : Disk) : Prop :=
  ∃ shelf, Represents store shelf disk

theorem save_keeps (h : Represents store shelf disk) (hfits : store.Fits lesson)
    (hother : ∀ tier, tier ≠ lesson.tier → ¬ store.Holds disk tier lesson.id)
    : (store.save lesson).Ends handler may (fun _ disk' => OnShelf store disk') disk := by
  apply save_ends hfits
  . intro _ _
    exact ⟨shelf, h⟩
  . intro text htext
    refine ⟨_, h.put hfits htext ?_⟩
    intro found hfound
    by_contra hne
    exact hother _ hne (h.holds_iff.mpr ⟨found, hfound, rfl⟩)

theorem stage_keeps (h : Represents store shelf disk) (hfits : store.Fits lesson) {now : Instant}
    (hother : ∀ tier, tier ≠ .t1 → ¬ store.Holds disk tier lesson.id)
    : (store.stage lesson now).Ends handler may (fun _ disk' => OnShelf store disk') disk := by
  apply ends_bind
  apply ends_mono (save_keeps h (hfits.moved .t1 now) hother)
  intro out disk' h'
  cases out with
  | none => exact h'
  | some r =>
    cases r with
    | error e => exact h'
    | ok _ => exact h'

theorem moveToTier_keeps (h : Represents store shelf disk) (hsteady : Steady may) (hfits : store.Fits lesson)
    {newTier : Tier} {now : Instant}
    (hother : ∀ tier, tier ≠ lesson.tier → tier ≠ newTier → ¬ store.Holds disk tier lesson.id)
    : (store.moveToTier lesson newTier now).Ends handler may (fun _ disk' => OnShelf store disk') disk := by
  apply moveToTier_ends h hsteady hfits
  . intro found hfound
    by_contra hne
    rw [not_or] at hne
    exact hother _ hne.1 hne.2 (h.holds_iff.mpr ⟨found, hfound, rfl⟩)
  . intro _ _
    exact ⟨shelf, h⟩
  . intro disk' h'
    exact ⟨_, h'⟩

theorem transfer_keeps (h : Represents store shelf disk) (hsteady : Steady may) {valid : Tier → Tier → Bool}
    {id : LessonId} {toTier : Tier} {now : Instant}
    : (Promoter.transfer store valid id toTier now).Ends handler may (fun _ disk' => OnShelf store disk') disk := by
  apply ends_bind
  apply loadFrom_ends h
  . intro out hout
    apply hout.passes
    intro _ _
    exact ⟨shelf, h⟩
  intro lesson hshelf
  apply ends_require
  . intro _
    apply ends_bind
    apply moveToTier_ends h hsteady (h.fits hshelf)
    . intro found hfound
      rw [hshelf] at hfound
      cases hfound
      exact .inl rfl
    . intro out hout
      apply hout.passes
      intro _ _
      exact ⟨shelf, h⟩
    . intro disk' h'
      exact ⟨_, h'⟩
  . intro _
    exact ⟨shelf, h⟩

theorem delete_keeps (h : Represents store shelf disk)
    : (store.delete lesson).Ends handler may (fun _ disk' => OnShelf store disk') disk := by
  apply delete_ends
  . intro _
    exact ⟨shelf, h⟩
  . intro _
    exact ⟨_, h.drop _⟩

theorem not_moved_self (disk : Disk) (id : LessonId) : ¬ Moved store disk disk id := by
  rintro ⟨tier, hholds, hgone⟩
  exact hgone hholds

theorem tick_right {entries : List LedgerEntry} {clock : LessonId → Instant} (h : Represents studio.store shelf disk)
    (hdiscards : ∀ lesson, studio.store.Filed disk lesson → lesson.tier = .t1
      → Discards studio.config entries lesson (clock lesson.id) → Promotes studio.config entries lesson)
    : (Promoter.tick studio.store studio.config (.ok entries) clock).Ends handler WholeTick
        (fun out disk' => OnShelf studio.store disk' ∧ TickRight studio entries clock disk disk' out) disk := by
  apply tick_ends steady_wholeTick readable_wholeTick h
  . intro out hout
    refine ⟨⟨shelf, h⟩, ?_⟩
    constructor
    . intro lesson hfiled
      exact .inl hfiled
    . intro transitions heq
      exact absurd heq (hout _)
    . intro transitions heq
      exact absurd heq (hout _)
    . intro _ _ _ id hmoved
      exact absurd hmoved (not_moved_self _ _)
  intro lessons out shelf' disk' hlists hlessons h' hchecked
  refine ⟨⟨shelf', h'⟩, ?_⟩
  have hmem : ∀ lesson, shelf lesson.id = some lesson → lesson ∈ lessons :=
    fun lesson hshelf => hlists.complete lesson hshelf (Tier.mem_all _)
  have hdue : ∀ lesson, shelf lesson.id = some lesson → lesson.tier = .t1
      → Discards studio.config entries lesson (clock lesson.id) → Promotes studio.config entries lesson :=
    fun lesson hshelf => hdiscards lesson (h.filed_iff.mpr hshelf)
  -- a lesson that was moved is one that a check moves
  have hmoved : ∀ id, Moved studio.store disk disk' id → ∃ lesson tier, shelf id = some lesson
      ∧ movesTo studio.config entries lesson = some tier
      ∧ shelf' id = some (checked studio.config entries clock lesson) := by
    intro id hid
    obtain ⟨lesson, hshelf, hgone⟩ := (h.moved_iff h').mp hid
    have hself := h.self hshelf
    have hname := h.named hshelf
    have hnew : shelf' lesson.id = some (checked studio.config entries clock lesson) := by
      cases hchecked.each lesson (hmem lesson hself) with
      | inl hsame =>
        rw [hname] at hsame
        exact absurd rfl (hgone lesson hsame)
      | inr hnew => exact hnew
    rw [hname] at hnew
    cases hmoves : movesTo studio.config entries lesson with
    | none =>
      have := hgone _ hnew
      rw [checked_of_none hmoves] at this
      exact absurd rfl this
    | some tier => exact ⟨lesson, tier, hshelf, hmoves, hnew⟩
  constructor
  . intro lesson hfiled
    have hshelf := h.filed_iff.mp hfiled
    cases hchecked.each lesson (hmem lesson hshelf) with
    | inl hsame => exact .inl (h'.filed_iff.mpr hsame)
    | inr hnew => exact .inr (meets_checked h' (hdue lesson hshelf) hnew)
  . intro transitions heq lesson hfiled
    have hshelf := h.filed_iff.mp hfiled
    exact meets_checked h' (hdue lesson hshelf) ((hchecked.all transitions heq).1 lesson (hmem lesson hshelf))
  . intro transitions heq
    obtain ⟨hall, rfl⟩ := hchecked.all transitions heq
    have hids : (lessons.filterMap (transition studio.config entries clock)).map (·.lessonId)
        = (lessons.filter fun lesson => (movesTo studio.config entries lesson).isSome).map (·.id) := by
      rw [List.map_filterMap, ← List.filterMap_eq_filter, List.map_filterMap]
      apply List.filterMap_congr
      intro lesson _
      unfold transition
      cases hmoves : movesTo studio.config entries lesson <;> simp [Option.guard, hmoves]
    rw [hids]
    constructor
    . exact hlists.nodup.sublist (List.filter_sublist.map _)
    . intro id
      simp only [List.mem_map, List.mem_filter]
      constructor
      . rintro ⟨lesson, ⟨hlesson, hsome⟩, rfl⟩
        obtain ⟨tier, hmoves⟩ := Option.isSome_iff_exists.mp hsome
        rw [h.moved_iff h']
        refine ⟨lesson, hlessons lesson hlesson, ?_⟩
        intro lesson' hnew htier
        rw [hall lesson hlesson, checked_of_some hmoves] at hnew
        cases hnew
        exact movesTo_ne hmoves htier.symm
      . intro hid
        obtain ⟨lesson, tier, hshelf, hmoves, _⟩ := hmoved id hid
        exact ⟨lesson, ⟨hmem lesson (h.self hshelf), by simp [hmoves]⟩, h.named hshelf⟩
  . intro hrates clock' script id hid
    obtain ⟨lesson, tier, _, hmoves, hnew⟩ := hmoved id hid
    have hkept : (Promoter.tick studio.store studio.config (.ok entries) clock').Ends handler (fun _ _ => True)
        (fun _ disk'' => ∀ tier, disk''.lookup (studio.store.place tier id)
          = disk'.lookup (studio.store.place tier id)) disk' := by
      apply tick_keeps h'
      intro found hfound
      rw [hnew] at hfound
      cases hfound
      exact movesTo_checked hrates hmoves
    rintro ⟨tier, hholds, hgone⟩
    have hlookup := play_of_ends hkept (plays_true _ script disk') tier
    apply hgone
    rw [LessonStore.Holds, ← AList.lookup_isSome] at hholds ⊢
    rw [hlookup]
    exact hholds

theorem check_right {staged : List LessonId} (h : Represents store shelf disk) (hnodup : staged.Nodup)
    {iteration : Nat} {passRateBefore passRateAfter : Double}
    (hheld : ∀ id ∈ staged, ∃ tier, store.Holds disk tier id)
    : (RollbackGate.check store staged iteration passRateBefore passRateAfter).Ends handler WholeCheck
        (fun out disk' => OnShelf store disk' ∧ ∀ record, out = some (.ok (some record))
          → ∀ id, id ∈ record.lessonsRolledBack ↔ Removed store disk disk' id) disk := by
  have hshelf : ∀ id ∈ staged, ∃ lesson, shelf id = some lesson := by
    intro id hid
    obtain ⟨tier, hholds⟩ := hheld id hid
    obtain ⟨lesson, hlesson, _⟩ := h.holds_iff.mp hholds
    exact ⟨lesson, hlesson⟩
  apply ends_ite
  . intro _
    apply ends_bind
    apply rollBack_ends unrefused_wholeCheck hnodup h hshelf
    intro out shelf' disk' h' hrolled
    cases out with
    | none => exact ⟨⟨shelf', h'⟩, nofun⟩
    | some r =>
      cases r with
      | error e => exact ⟨⟨shelf', h'⟩, nofun⟩
      | ok _ =>
        refine ⟨⟨shelf', h'⟩, ?_⟩
        intro record heq id
        cases heq
        have hgone := hrolled.gone rfl id
        unfold Removed
        simp only [h.holds_iff, h'.holds_iff]
        constructor
        . intro hid
          obtain ⟨lesson, hlesson⟩ := hshelf id hid
          rw [if_pos hid] at hgone
          refine ⟨⟨_, lesson, hlesson, rfl⟩, ?_⟩
          rintro tier ⟨lesson', hlesson', _⟩
          rw [hgone] at hlesson'
          cases hlesson'
        . rintro ⟨⟨tier, lesson, hlesson, _⟩, hnone⟩
          by_contra hid
          rw [if_neg hid, hlesson] at hgone
          exact hnone _ ⟨lesson, hgone, rfl⟩
  . intro _
    exact ⟨⟨shelf, h⟩, nofun⟩

end Steps

/-! ## Runs -/

section Runs

variable {studio : Studio Body} {s : State}

structure Kept (studio : Studio Body) (s : State) : Prop where
  onShelf : OnShelf studio.store s.disk
  nodup : s.staged.Nodup

theorem nodup_stagedAfter {staged : List LessonId} (h : staged.Nodup) (op : Op Body)
    (out : Outcome FileInterface op.Reply) : (Studio.stagedAfter staged op out).Nodup := by
  unfold Studio.stagedAfter
  split
  . exact h.insert
  . exact List.nodup_nil
  . exact List.nodup_nil
  . exact h

theorem step_right (h : Kept studio s) {op : Op Body} {script : List Choice} (hok : Orderly studio s op script)
    : OnShelf studio.store (studio.step op script s).2.disk
      ∧ StepRight studio s op (studio.step op script s).1 (studio.step op script s).2 := by
  obtain ⟨⟨shelf, hshelf⟩, hnodup⟩ := h
  cases op with
  | stage lesson now =>
    refine ⟨?_, trivial⟩
    exact play_of_ends (stage_keeps hshelf hok.1 hok.2) (plays_true _ script s.disk)
  | save lesson =>
    refine ⟨?_, trivial⟩
    exact play_of_ends (save_keeps hshelf hok.1 hok.2) (plays_true _ script s.disk)
  | moveToTier lesson newTier now =>
    refine ⟨?_, trivial⟩
    exact play_of_ends (moveToTier_keeps hshelf steady_wholeMove hok.1 hok.2.1) hok.2.2
  | delete lesson =>
    refine ⟨?_, trivial⟩
    exact play_of_ends (delete_keeps hshelf) (plays_true _ script s.disk)
  | tick ledger clock =>
    cases ledger with
    | ok entries => exact play_of_ends (tick_right hshelf hok.1) hok.2
    | error e =>
      have hsame : (Promoter.tick studio.store studio.config (.error e) clock).Ends handler (fun _ _ => True)
          (fun _ disk' => disk' = s.disk) s.disk := by
        apply ends_bind
        apply listTiers_ends hshelf (by decide)
        . intro out hout
          apply hout.passes
          intro _ _
          rfl
        . intro _ _ _
          rfl
      have hdisk := play_of_ends hsame (plays_true _ script s.disk)
      constructor
      . show OnShelf studio.store _
        rw [show (studio.step (.tick (.error e) clock) script s).2.disk = s.disk from hdisk]
        exact ⟨shelf, hshelf⟩
      . intro id
        rw [show (studio.step (.tick (.error e) clock) script s).2.disk = s.disk from hdisk]
        exact not_moved_self _ _
  | promote id toTier now =>
    refine ⟨?_, trivial⟩
    exact play_of_ends (transfer_keeps hshelf steady_wholeMove) hok
  | demote id toTier now =>
    refine ⟨?_, trivial⟩
    exact play_of_ends (transfer_keeps hshelf steady_wholeMove) hok
  | markStaged id => exact ⟨⟨shelf, hshelf⟩, trivial⟩
  | clearStaged => exact ⟨⟨shelf, hshelf⟩, trivial⟩
  | check iteration passRateBefore passRateAfter =>
    by_cases hneeds : RollbackGate.needsRollback s.staged passRateBefore passRateAfter = true
    . obtain ⟨hheld, hplays⟩ := hok hneeds
      exact play_of_ends (check_right hshelf hnodup hheld) hplays
    . have hcheck : RollbackGate.check studio.store s.staged iteration passRateBefore passRateAfter = pure none :=
        if_neg hneeds
      have hplay : studio.program s.staged (.check iteration passRateBefore passRateAfter) = pure none := hcheck
      unfold Studio.step StepRight
      rw [hplay]
      exact ⟨⟨shelf, hshelf⟩, nofun⟩

theorem reached_kept (h : Reached studio (Orderly studio) s) : Kept studio s := by
  induction h with
  | start => exact ⟨⟨_, .empty⟩, List.nodup_nil⟩
  | step _ hok ih => exact ⟨(step_right ih hok).1, nodup_stagedAfter ih.nodup _ _⟩

end Runs

/-! ## A lesson that failed once -/

def failedLesson : Lesson Unit := ⟨"a", .t1, (), 0, 0⟩

def failedText : String :=
  "id: a\ntier: t1\ncreated: 1970-01-01T00:00:00Z\nupdated: 1970-01-01T00:00:00Z\n"

def smallStudio : Studio Unit where
  store :=
    { basePath := ["lessons"]
      toYaml := fun lesson => if lesson = failedLesson then some failedText else none
      fromYaml := fun text => if text = failedText then some failedLesson else none }
  config :=
    { minCitationsT1T2 := 1
      minSuccessRateT1T2 := .of (F64.round (1 / 2))
      demotionSuccessRateThreshold := .of (F64.round (1 / 2))
      demotionMinCitations := 5
      demotionInactiveDays := 30 }

def failure : LedgerEntry := ⟨0, "a", true, .failure⟩

def fortyDays : Instant := 40 * 86400 * 10 ^ 9

end Reactor.Lessons
