import ReactorCloud.Lessons.Operations

/-!
This module contains what a tick of the promoter does to a shelf of lessons, and the rules it goes by.
-/

namespace Reactor.Lessons

open Interleave (Program)
open Interleave.Program
open Rust (Double F64 HashMap)

variable {Body : Type} {store : LessonStore Body} {may : FileCall → Option Choice → Prop}
variable {shelf : Shelf Body} {disk : Disk} {lesson : Lesson Body}

/-! ## Rules -/

def entriesOf (entries : List LedgerEntry) (id : LessonId) : List LedgerEntry :=
  entries.filter fun entry => entry.lesson = id

def citationsOf (entries : List LedgerEntry) (id : LessonId) : List LedgerEntry :=
  (entriesOf entries id).filter (·.cited)

/--
The part of the citations that ended with a success.
-/
def successRateOf (entries : List LedgerEntry) (id : LessonId) : Double :=
  let citations := citationsOf entries id
  if citations = [] then .of (F64.ofInt 0)
  else .of (F64.ratio (citations.countP (·.outcome = .success)) citations.length)

section Rules

variable (config : PromotionConfig) (entries : List LedgerEntry) (lesson : Lesson Body)

/--
From T1 to T2: cited and contributed to success.
-/
def Promotes : Prop :=
  config.minCitationsT1T2 ≤ (citationsOf entries lesson.id).length
    ∧ (successRateOf entries lesson.id).ge config.minSuccessRateT1T2 = true

/--
From T2 to T1: the success rate is too low over enough citations.
-/
def Demotes : Prop :=
  config.demotionMinCitations ≤ (citationsOf entries lesson.id).length
    ∧ (successRateOf entries lesson.id).lt config.demotionSuccessRateThreshold = true

/--
From T1 to discard: uncited for some days and failures.
-/
def Discards (now : Instant) : Prop :=
  (∀ entry ∈ citationsOf entries lesson.id, config.demotionInactiveDays ≤ numDays (now - entry.ts))
    ∧ (citationsOf entries lesson.id = [] → config.demotionInactiveDays ≤ numDays (now - lesson.created))
    ∧ ∃ entry ∈ entriesOf entries lesson.id, entry.outcome = .failure

instance : Decidable (Promotes config entries lesson) :=
  inferInstanceAs (Decidable (_ ∧ _))

instance : Decidable (Demotes config entries lesson) :=
  inferInstanceAs (Decidable (_ ∧ _))

instance (now : Instant) : Decidable (Discards config entries lesson now) :=
  inferInstanceAs (Decidable (_ ∧ _ ∧ _))

inductive Fate where
  | stays
  | moves (tier : Tier)
  | discarded
  deriving DecidableEq

/--
Other tiers are left to people.
-/
def fate (now : Instant) : Fate :=
  match lesson.tier with
  | .t1 =>
    if Promotes config entries lesson then .moves .t2
    else if Discards config entries lesson now then .discarded
    else .stays
  | .t2 => if Demotes config entries lesson then .moves .t1 else .stays
  | _ => .stays

end Rules

/-! ## Statistics -/

theorem statsOf_foldl (entries : List LedgerEntry) (stats : HashMap LessonStats) (id : LessonId)
    : statsOf (entries.foldl countEntry stats) id = (entriesOf entries id).foldl LessonStats.count (statsOf stats id) := by
  induction entries generalizing stats with
  | nil => rfl
  | cons entry entries ih =>
    rw [List.foldl_cons, ih]
    by_cases hid : entry.lesson = id
    . have hcount : statsOf (countEntry stats entry) id = (statsOf stats id).count entry := by
        rw [statsOf, countEntry, hid, AList.lookup_insert]
        rfl
      rw [hcount, entriesOf, entriesOf, List.filter_cons_of_pos (by simpa using hid)]
      rfl
    . have hcount : statsOf (countEntry stats entry) id = statsOf stats id := by
        rw [statsOf, countEntry, AList.lookup_insert_ne (Ne.symm hid)]
        rfl
      rw [hcount, entriesOf, entriesOf, List.filter_cons_of_neg (by simpa using hid)]

theorem count_foldl (entries : List LedgerEntry) (stats : LessonStats)
    : (entries.foldl LessonStats.count stats).citations = stats.citations + (entries.filter (·.cited)).length
      ∧ (entries.foldl LessonStats.count stats).successes
        = stats.successes + (entries.filter (·.cited)).countP (·.outcome = .success) := by
  induction entries generalizing stats with
  | nil => exact ⟨rfl, rfl⟩
  | cons entry entries ih =>
    obtain ⟨hcitations, hsuccesses⟩ := ih (stats.count entry)
    rw [List.foldl_cons, hcitations, hsuccesses]
    cases hcited : entry.cited with
    | false => simp [LessonStats.count, hcited]
    | true =>
      have hfilter : (entry :: entries).filter (·.cited) = entry :: entries.filter (·.cited) :=
        List.filter_cons_of_pos hcited
      rw [hfilter]
      have hcount : (stats.count entry).citations = stats.citations + 1 := by simp [LessonStats.count, hcited]
      constructor
      . rw [hcount, List.length_cons]
        omega
      . by_cases hsuccess : entry.outcome = .success
        . have : (stats.count entry).successes = stats.successes + 1 := by
            simp [LessonStats.count, hcited, hsuccess]
          rw [this, List.countP_cons_of_pos (by simpa using hsuccess)]
          omega
        . have : (stats.count entry).successes = stats.successes := by
            simp [LessonStats.count, hcited, hsuccess]
          rw [this, List.countP_cons_of_neg (by simpa using hsuccess)]

theorem failures_le_citations (entries : List LedgerEntry) {stats : LessonStats} (h : stats.failures ≤ stats.citations)
    : (entries.foldl LessonStats.count stats).failures ≤ (entries.foldl LessonStats.count stats).citations := by
  induction entries generalizing stats with
  | nil => exact h
  | cons entry entries ih =>
    apply ih
    unfold LessonStats.count
    split
    . dsimp only
      split <;> omega
    . exact h

/--
What the promoter counts are the citations and the successes of the ledger.
-/
structure Counts (entries : List LedgerEntry) (stats : HashMap LessonStats) : Prop where
  citations : ∀ id, (statsOf stats id).citations = (citationsOf entries id).length
  rate : ∀ id, (statsOf stats id).successRate = successRateOf entries id
  failures : ∀ id, (statsOf stats id).failures ≤ (statsOf stats id).citations

theorem counts_buildLessonStats (entries : List LedgerEntry) : Counts entries (buildLessonStats entries) := by
  have hfold : ∀ id, statsOf (buildLessonStats entries) id = (entriesOf entries id).foldl LessonStats.count .zero := by
    intro id
    exact statsOf_foldl entries ∅ id
  have hcitations : ∀ id, (statsOf (buildLessonStats entries) id).citations = (citationsOf entries id).length := by
    intro id
    rw [hfold, (count_foldl _ _).1]
    exact Nat.zero_add _
  constructor
  . exact hcitations
  . intro id
    have hsuccesses : (statsOf (buildLessonStats entries) id).successes
        = (citationsOf entries id).countP (·.outcome = .success) := by
      rw [hfold, (count_foldl _ _).2]
      exact Nat.zero_add _
    simp only [LessonStats.successRate, successRateOf, hcitations, hsuccesses, List.length_eq_zero_iff]
  . intro id
    rw [hfold]
    exact failures_le_citations _ (Nat.le_refl 0)

/-! ## Checks -/

section Checks

variable (config : PromotionConfig)

/--
The tier a lesson is moved to when it is checked.
-/
def movesTo (entries : List LedgerEntry) (lesson : Lesson Body) : Option Tier :=
  match lesson.tier with
  | .t1 => if Promotes config entries lesson then some .t2 else none
  | .t2 => if Demotes config entries lesson then some .t1 else none
  | _ => none

def checked (entries : List LedgerEntry) (clock : LessonId → Instant) (lesson : Lesson Body) : Lesson Body :=
  match movesTo config entries lesson with
  | some tier => { lesson with tier := tier, updated := clock lesson.id }
  | none => lesson

def transition (entries : List LedgerEntry) (clock : LessonId → Instant) (lesson : Lesson Body)
    : Option TierTransition :=
  (movesTo config entries lesson).map fun tier => ⟨lesson.id, lesson.tier, tier, clock lesson.id⟩

variable {config} {entries : List LedgerEntry} {stats : HashMap LessonStats} {clock : LessonId → Instant}

theorem checked_of_some {tier : Tier} (h : movesTo config entries lesson = some tier)
    : checked config entries clock lesson = { lesson with tier := tier, updated := clock lesson.id } := by
  rw [checked, h]

theorem checked_of_none (h : movesTo config entries lesson = none)
    : checked config entries clock lesson = lesson := by
  rw [checked, h]

theorem promotes_iff (hcounts : Counts entries stats)
    : config.minCitationsT1T2 ≤ (statsOf stats lesson.id).citations
        ∧ (statsOf stats lesson.id).successRate.ge config.minSuccessRateT1T2 = true
      ↔ Promotes config entries lesson := by
  rw [hcounts.citations, hcounts.rate]
  rfl

theorem demotes_iff (hcounts : Counts entries stats)
    : config.demotionMinCitations ≤ (statsOf stats lesson.id).citations
        ∧ (statsOf stats lesson.id).successRate.lt config.demotionSuccessRateThreshold = true
      ↔ Demotes config entries lesson := by
  rw [hcounts.citations, hcounts.rate]
  rfl

/--
A failure is only counted with a citation, so that no lesson is discarded.
-/
theorem not_discarded (hcounts : Counts entries stats) (days : Int) (id : LessonId)
    : ¬ ((statsOf stats id).citations = 0 ∧ config.demotionInactiveDays ≤ days ∧ 0 < (statsOf stats id).failures) := by
  rintro ⟨hcitations, _, hfailures⟩
  have := hcounts.failures id
  omega

/--
What the two checks of a lesson come to.
-/
theorem checkPromotion_eq (hcounts : Counts entries stats) (now : Instant)
    : Promoter.checkPromotion store config lesson stats now
      = if lesson.tier = .t1 ∧ Promotes config entries lesson then do
          let moved ← store.moveToTier lesson .t2 now
          pure (some ⟨moved.id, .t1, .t2, now⟩)
        else pure none := by
  unfold Promoter.checkPromotion
  simp only [promotes_iff hcounts]
  cases htier : lesson.tier <;> simp

theorem checkDemotion_eq (hcounts : Counts entries stats) (now : Instant)
    : Promoter.checkDemotion store config lesson stats now
      = if lesson.tier = .t2 ∧ Demotes config entries lesson then do
          let moved ← store.moveToTier lesson .t1 now
          pure (some ⟨moved.id, .t2, .t1, now⟩)
        else pure none := by
  unfold Promoter.checkDemotion
  simp only [demotes_iff hcounts, not_discarded hcounts, if_false]
  cases htier : lesson.tier <;> simp

/--
The lesson is checked, the others follow.
-/
theorem checkLesson_ends (hcounts : Counts entries stats) (hsteady : Steady may) (h : Represents store shelf disk)
    (hshelf : shelf lesson.id = some lesson) {rest : Program FileInterface (List TierTransition)}
    {Q : Outcome FileInterface (List TierTransition) → Disk → Prop} (hstop : ∀ out, NotDone out → Q out disk)
    (hdone : ∀ disk', Represents store
        (Function.update shelf lesson.id (some (checked config entries clock lesson))) disk'
      → (rest >>= fun others => pure ((transition config entries clock lesson).toList ++ others)).Ends handler may Q disk')
    : (do
        let promotion ← Promoter.checkPromotion store config lesson stats (clock lesson.id)
        let demotion ← Promoter.checkDemotion store config lesson stats (clock lesson.id)
        let others ← rest
        pure (promotion.toList ++ demotion.toList ++ others)).Ends handler may Q disk := by
  have hold : ∀ tier found, shelf lesson.id = some found → found.tier = lesson.tier ∨ found.tier = tier := by
    intro tier found hfound
    rw [hshelf] at hfound
    cases hfound
    exact .inl rfl
  rw [checkPromotion_eq hcounts, checkDemotion_eq hcounts]
  by_cases hpromotes : lesson.tier = .t1 ∧ Promotes config entries lesson
  . have hmoves : movesTo config entries lesson = some .t2 := by simp [movesTo, hpromotes]
    rw [if_pos hpromotes, if_neg (by simp [hpromotes.1]), bind_assoc]
    apply ends_bind
    apply moveToTier_ends h hsteady (h.fits hshelf) (hold .t2)
    . intro out hout
      exact hout.passes hstop
    . intro disk' h'
      rw [← checked_of_some hmoves] at h'
      have := hdone disk' h'
      rw [transition, hmoves, Option.map_some, hpromotes.1] at this
      exact this
  rw [if_neg hpromotes]
  by_cases hdemotes : lesson.tier = .t2 ∧ Demotes config entries lesson
  . have hmoves : movesTo config entries lesson = some .t1 := by simp [movesTo, hdemotes]
    rw [if_pos hdemotes, pure_bind, bind_assoc]
    apply ends_bind
    apply moveToTier_ends h hsteady (h.fits hshelf) (hold .t1)
    . intro out hout
      exact hout.passes hstop
    . intro disk' h'
      rw [← checked_of_some hmoves] at h'
      have := hdone disk' h'
      rw [transition, hmoves, Option.map_some, hdemotes.1] at this
      exact this
  have hmoves : movesTo config entries lesson = none := by
    unfold movesTo
    cases htier : lesson.tier with
    | t1 => exact if_neg (fun h => hpromotes ⟨htier, h⟩)
    | t2 => exact if_neg (fun h => hdemotes ⟨htier, h⟩)
    | t0 => rfl
    | t3 => rfl
    | t4 => rfl
  rw [if_neg hdemotes]
  have hsame : Function.update shelf lesson.id (some lesson) = shelf := by
    rw [← hshelf, Function.update_eq_self]
  have := hdone disk
  rw [checked_of_none hmoves, hsame, transition, hmoves] at this
  exact this h

/--
What has come of a shelf when lessons were checked.
-/
structure Checked (config : PromotionConfig) (entries : List LedgerEntry) (clock : LessonId → Instant)
    (shelf : Shelf Body) (lessons : List (Lesson Body)) (shelf' : Shelf Body)
    (out : Outcome FileInterface (List TierTransition)) : Prop where
  rest : ∀ id, id ∉ lessons.map (·.id) → shelf' id = shelf id
  each : ∀ lesson ∈ lessons,
    shelf' lesson.id = some lesson ∨ shelf' lesson.id = some (checked config entries clock lesson)
  all : ∀ transitions, out = some (.ok transitions)
    → (∀ lesson ∈ lessons, shelf' lesson.id = some (checked config entries clock lesson))
      ∧ transitions = lessons.filterMap (transition config entries clock)

theorem Checked.unchanged {lessons : List (Lesson Body)} (hshelf : ∀ lesson ∈ lessons, shelf lesson.id = some lesson)
    {out : Outcome FileInterface (List TierTransition)} (hout : NotDone out)
    : Checked config entries clock shelf lessons shelf out := by
  constructor
  . intro id _
    rfl
  . intro lesson hmem
    exact .inl (hshelf lesson hmem)
  . intro transitions heq
    exact absurd heq (hout _)

theorem checkLessons_ends (hcounts : Counts entries stats) (hsteady : Steady may) {lessons : List (Lesson Body)}
    (hnodup : (lessons.map (·.id)).Nodup) (h : Represents store shelf disk)
    (hshelf : ∀ lesson ∈ lessons, shelf lesson.id = some lesson)
    {Q : Outcome FileInterface (List TierTransition) → Disk → Prop}
    (hQ : ∀ out shelf' disk', Represents store shelf' disk'
      → Checked config entries clock shelf lessons shelf' out → Q out disk')
    : (Promoter.checkLessons store config stats clock lessons).Ends handler may Q disk := by
  induction lessons generalizing shelf disk Q with
  | nil =>
    apply hQ _ _ _ h
    constructor
    . intro id _
      rfl
    . simp
    . intro transitions heq
      cases heq
      simp
  | cons lesson lessons ih =>
    rw [List.map_cons, List.nodup_cons] at hnodup
    have hne : ∀ other ∈ lessons, other.id ≠ lesson.id := by
      intro other hmem heq
      exact hnodup.1 (heq ▸ List.mem_map_of_mem hmem)
    apply checkLesson_ends hcounts hsteady h (hshelf lesson List.mem_cons_self)
    . intro out hout
      exact hQ _ _ _ h (.unchanged hshelf hout)
    intro disk' h'
    apply ends_bind
    apply ih hnodup.2 h'
    . intro other hmem
      rw [Function.update_of_ne (hne other hmem)]
      exact hshelf other (List.mem_cons_of_mem _ hmem)
    intro out shelf' disk'' h'' hchecked
    -- the lesson itself is not checked again
    have hself : shelf' lesson.id = some (checked config entries clock lesson) := by
      rw [hchecked.rest _ hnodup.1, Function.update_self]
    have hrest : ∀ id, id ∉ (lesson :: lessons).map (·.id) → shelf' id = shelf id := by
      intro id hid
      rw [List.map_cons, List.mem_cons, not_or] at hid
      rw [hchecked.rest id hid.2, Function.update_of_ne hid.1]
    have heach : ∀ other ∈ lesson :: lessons,
        shelf' other.id = some other ∨ shelf' other.id = some (checked config entries clock other) := by
      intro other hmem
      cases hmem with
      | head => exact .inr hself
      | tail _ hmem => exact hchecked.each other hmem
    have hstopped : ∀ out : Outcome FileInterface (List TierTransition), NotDone out → Q out disk'' := by
      intro out hout
      apply hQ _ _ _ h''
      exact ⟨hrest, heach, fun transitions heq => absurd heq (hout _)⟩
    cases out with
    | none => exact hstopped _ notDone_none
    | some r =>
      cases r with
      | error e => exact hstopped _ (notDone_error e)
      | ok others =>
        obtain ⟨hall, rfl⟩ := hchecked.all others rfl
        apply hQ _ _ _ h''
        refine ⟨hrest, heach, ?_⟩
        intro transitions heq
        cases heq
        constructor
        . intro other hmem
          cases hmem with
          | head => exact hself
          | tail _ hmem => exact hall other hmem
        . rw [List.filterMap_cons]
          cases transition config entries clock lesson <;> rfl

theorem tick_ends (hsteady : Steady may) (hreadable : Readable may) (h : Represents store shelf disk)
    {Q : Outcome FileInterface (List TierTransition) → Disk → Prop}
    (hstop : ∀ out, NotDone out → Q out disk)
    (hQ : ∀ lessons out shelf' disk', Lists shelf Tier.all lessons
      → (∀ lesson ∈ lessons, shelf lesson.id = some lesson) → Represents store shelf' disk'
      → Checked config entries clock shelf lessons shelf' out → Q out disk')
    : (Promoter.tick store config (.ok entries) clock).Ends handler may Q disk := by
  apply ends_bind
  apply listTiers_ends h (by decide)
  . intro out hout
    exact hout.passes hstop
  intro lessons hlessons hall
  have hlists := hall hreadable
  apply checkLessons_ends (counts_buildLessonStats entries) hsteady hlists.nodup h
  . intro lesson hmem
    exact (hlessons lesson hmem).1
  intro out shelf' disk' h' hchecked
  exact hQ lessons out shelf' disk' hlists (fun lesson hmem => (hlessons lesson hmem).1) h' hchecked

end Checks

/-! ## Lessons that stay -/

section Frame

variable {config : PromotionConfig} {entries : List LedgerEntry} {clock : LessonId → Instant}

variable (store) in
/--
The call does not touch a file of the lesson.
-/
def Avoids (id : LessonId) : FileCall → Prop
  | .write path _ => ∀ tier, store.place tier id ≠ path.resolve
  | .removeFile path => ∀ tier, store.place tier id ≠ path.resolve
  | .removeOld path => ∀ tier, store.place tier id ≠ path.resolve
  | _ => True

theorem lookup_of_avoids {id : LessonId} {c : FileCall} (h : Avoids store id c) (choice : Choice) (disk : Disk)
    (tier : Tier) : (handler choice c disk).2.lookup (store.place tier id) = disk.lookup (store.place tier id) := by
  have hunlink : ∀ path : Path, (∀ tier, store.place tier id ≠ path.resolve)
      → (disk.unlink path).2.lookup (store.place tier id) = disk.lookup (store.place tier id) := by
    intro path hpath
    unfold Disk.unlink
    split
    . exact AList.lookup_erase_ne (hpath tier)
    . rfl
  unfold handler
  split
  . rfl
  . cases c with
    | write path text => exact AList.lookup_insert_ne (h tier)
    | removeFile path => exact hunlink path h
    | removeOld path => exact hunlink path h
    | _ => rfl

theorem moveToTier_avoids {id : LessonId} (hplain : Plain lesson.id) (hne : id ≠ lesson.id) (newTier : Tier)
    (now : Instant) : (store.moveToTier lesson newTier now).Uses (Avoids store id) := by
  have hplace : ∀ tier tier', store.place tier id ≠ (store.lessonPathById tier' lesson.id).resolve := by
    intro tier tier' heq
    rw [resolve_lessonPathById hplain] at heq
    exact hne (place_inj heq).2
  apply uses_bind
  . apply uses_bind
    . exact uses_request _ trivial
    intro _
    apply uses_bind (uses_okOr _ _)
    intro text
    apply uses_request
    intro tier
    exact hplace tier newTier
  intro _
  apply uses_bind
  . apply uses_ite
    . apply uses_bind (uses_attempt (uses_request _ trivial))
      intro found
      apply uses_ite
      . apply uses_request
        intro tier
        exact hplace tier lesson.tier
      . exact uses_pure _
    . exact uses_pure _
  intro _
  exact uses_pure _

theorem checkLessons_avoids {stats : HashMap LessonStats} (hcounts : Counts entries stats) {id : LessonId}
    {lessons : List (Lesson Body)}
    (hlessons : ∀ lesson ∈ lessons, Plain lesson.id ∧ (movesTo config entries lesson = none ∨ id ≠ lesson.id))
    : (Promoter.checkLessons store config stats clock lessons).Uses (Avoids store id) := by
  induction lessons with
  | nil => exact uses_pure _
  | cons lesson lessons ih =>
    obtain ⟨hplain, hstays⟩ := hlessons lesson List.mem_cons_self
    have hmove : ∀ tier, movesTo config entries lesson = some tier → ∀ start now,
        (do
          let moved ← store.moveToTier lesson tier now
          pure (some (TierTransition.mk moved.id start tier now))).Uses (Avoids store id) := by
      intro tier htier start now
      cases hstays with
      | inl hnone =>
        rw [hnone] at htier
        cases htier
      | inr hne => exact uses_bind (moveToTier_avoids hplain hne _ _) (fun _ => uses_pure _)
    apply uses_bind
    . rw [checkPromotion_eq hcounts]
      split
      . next h => exact hmove .t2 (by simp [movesTo, h]) _ _
      . exact uses_pure _
    intro promotion
    apply uses_bind
    . rw [checkDemotion_eq hcounts]
      split
      . next h => exact hmove .t1 (by simp [movesTo, h]) _ _
      . exact uses_pure _
    intro demotion
    apply uses_bind
    . exact ih (fun lesson hmem => hlessons lesson (List.mem_cons_of_mem _ hmem))
    intro others
    exact uses_pure _

/--
However a tick ends, a lesson that no rule moves keeps its files.
-/
theorem tick_keeps (h : Represents store shelf disk) {id : LessonId}
    (hstays : ∀ lesson, shelf id = some lesson → movesTo config entries lesson = none)
    : (Promoter.tick store config (.ok entries) clock).Ends handler may
        (fun _ disk' => ∀ tier, disk'.lookup (store.place tier id) = disk.lookup (store.place tier id)) disk := by
  apply ends_bind
  apply listTiers_ends h (by decide)
  . intro out hout
    apply hout.passes
    intro _ _ tier
    rfl
  intro lessons hlessons _
  apply ends_of_uses
  . apply checkLessons_avoids (counts_buildLessonStats entries)
    intro lesson hmem
    have hshelf := (hlessons lesson hmem).1
    refine ⟨(h.fits hshelf).plain, ?_⟩
    by_cases heq : id = lesson.id
    . subst heq
      exact .inl (hstays lesson hshelf)
    . exact .inr heq
  . intro c hc choice disk' hdisk' tier
    rw [lookup_of_avoids hc]
    exact hdisk' tier
  . intro tier
    rfl

end Frame
end Reactor.Lessons
