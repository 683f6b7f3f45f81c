import ReactorCloud.Lessons.Store
import ReactorCloud.Rust.Double
import ReactorCloud.Rust.HashMap

/-!
This module contains the promoter and the rollback gate of `studio-promotion`. The promoter moves lessons by what
the ledger says of them, the gate takes back the lessons of an iteration that made nothing better.
-/

namespace Reactor.Lessons

open Interleave (Interface Program)
open Interleave.Program
open Rust (Double F64 HashMap)

variable {Body : Type}

/-! ## The ledger -/

inductive LedgerOutcome where
  | success
  | failure
  | neutral
  deriving DecidableEq, Repr

structure LedgerEntry where
  ts : Instant
  lesson : LessonId
  cited : Bool
  outcome : LedgerOutcome
  deriving DecidableEq

structure LessonStats where
  citations : Nat
  successes : Nat
  failures : Nat
  lastCited : Option Instant

namespace LessonStats

def zero : LessonStats := ⟨0, 0, 0, none⟩

def successRate (stats : LessonStats) : Double :=
  if stats.citations = 0 then .of (F64.ofInt 0) else .of (F64.ratio stats.successes stats.citations)

def count (stats : LessonStats) (entry : LedgerEntry) : LessonStats :=
  if entry.cited then
    { citations := stats.citations + 1
      successes := if entry.outcome = .success then stats.successes + 1 else stats.successes
      failures := if entry.outcome = .failure then stats.failures + 1 else stats.failures
      lastCited :=
        if stats.lastCited.all (· < entry.ts) then some entry.ts else stats.lastCited }
  else
    stats

end LessonStats

def statsOf (stats : HashMap LessonStats) (id : LessonId) : LessonStats :=
  (stats.lookup id).getD .zero

def countEntry (stats : HashMap LessonStats) (entry : LedgerEntry) : HashMap LessonStats :=
  stats.insert entry.lesson ((statsOf stats entry.lesson).count entry)

def buildLessonStats (entries : List LedgerEntry) : HashMap LessonStats :=
  entries.foldl countEntry ∅

/-! ## The promoter -/

structure PromotionConfig where
  minCitationsT1T2 : Nat
  minSuccessRateT1T2 : Double
  demotionSuccessRateThreshold : Double
  demotionMinCitations : Nat
  demotionInactiveDays : Int

/--
A tier of `t0` stands for a lesson that is discarded.
-/
structure TierTransition where
  lessonId : LessonId
  fromTier : Tier
  toTier : Tier
  timestamp : Instant
  deriving DecidableEq

/--
`chrono::TimeDelta::num_days`
-/
def numDays (nanos : Int) : Int :=
  nanos.tdiv (86400 * 10 ^ 9)

namespace Promoter

variable (store : LessonStore Body) (config : PromotionConfig)

def checkPromotion (lesson : Lesson Body) (stats : HashMap LessonStats) (now : Instant)
    : Program FileInterface (Option TierTransition) :=
  let lessonStats := statsOf stats lesson.id
  match lesson.tier with
  | .t1 =>
    if config.minCitationsT1T2 ≤ lessonStats.citations
        ∧ lessonStats.successRate.ge config.minSuccessRateT1T2 = true then do
      let moved ← store.moveToTier lesson .t2 now
      pure (some ⟨moved.id, .t1, .t2, now⟩)
    else
      pure none
  | _ => pure none

def checkDemotion (lesson : Lesson Body) (stats : HashMap LessonStats) (now : Instant)
    : Program FileInterface (Option TierTransition) :=
  let lessonStats := statsOf stats lesson.id
  match lesson.tier with
  | .t1 =>
    let inactiveDays := numDays (now - lessonStats.lastCited.getD lesson.created)
    if lessonStats.citations = 0 ∧ config.demotionInactiveDays ≤ inactiveDays ∧ 0 < lessonStats.failures then do
      store.delete lesson
      pure (some ⟨lesson.id, .t1, .t0, now⟩)
    else
      pure none
  | .t2 =>
    if config.demotionMinCitations ≤ lessonStats.citations
        ∧ lessonStats.successRate.lt config.demotionSuccessRateThreshold = true then do
      let moved ← store.moveToTier lesson .t1 now
      pure (some ⟨moved.id, .t2, .t1, now⟩)
    else
      pure none
  | _ => pure none

/--
`clock` is what the clock shows when a lesson is checked.
-/
def checkLessons (stats : HashMap LessonStats) (clock : LessonId → Instant)
    : List (Lesson Body) → Program FileInterface (List TierTransition)
  | [] => pure []
  | lesson :: lessons => do
    let promotion ← checkPromotion store config lesson stats (clock lesson.id)
    let demotion ← checkDemotion store config lesson stats (clock lesson.id)
    let others ← checkLessons stats clock lessons
    pure (promotion.toList ++ demotion.toList ++ others)

/--
`ledger` is what `read_all` answers.
-/
def tick (ledger : Except LessonError (List LedgerEntry)) (clock : LessonId → Instant)
    : Program FileInterface (List TierTransition) := do
  let lessons ← store.listAll
  let entries ← ofExcept ledger
  checkLessons store config (buildLessonStats entries) clock lessons

def isValidPromotion : Tier → Tier → Bool
  | .t0, .t1 => true
  | .t1, .t2 => true
  | .t2, .t3 => true
  | .t3, .t4 => true
  | _, _ => false

def isValidDemotion : Tier → Tier → Bool
  | .t2, .t1 => true
  | .t3, .t2 => true
  | .t4, .t3 => true
  | _, _ => false

/--
A move that is asked for by hand.
-/
def transfer (valid : Tier → Tier → Bool) (id : LessonId) (toTier : Tier) (now : Instant)
    : Program FileInterface TierTransition := do
  let lesson ← store.load id
  require (valid lesson.tier toTier) (.invalidTransition lesson.tier toTier)
  let _ ← store.moveToTier lesson toTier now
  pure ⟨id, lesson.tier, toTier, now⟩

def promote (id : LessonId) (toTier : Tier) (now : Instant) : Program FileInterface TierTransition :=
  transfer store isValidPromotion id toTier now

def demote (id : LessonId) (toTier : Tier) (now : Instant) : Program FileInterface TierTransition :=
  transfer store isValidDemotion id toTier now

end Promoter

/-! ## The rollback gate -/

structure RollbackRecord where
  iteration : Nat
  lessonsRolledBack : List LessonId
  passRateBefore : Double
  passRateAfter : Double

namespace RollbackGate

variable (store : LessonStore Body)

/--
Errors are only logged.
-/
def rollBack : List LessonId → Program FileInterface Unit
  | [] => pure ()
  | id :: ids => do
    let lesson ← (store.load id).attempt
    match lesson with
    | .ok lesson => do
      let _ ← (store.delete lesson).attempt
      rollBack ids
    | .error _ => rollBack ids

def needsRollback (staged : List LessonId) (passRateBefore passRateAfter : Double) : Bool :=
  !(passRateBefore.lt passRateAfter || staged.isEmpty)

def check (staged : List LessonId) (iteration : Nat) (passRateBefore passRateAfter : Double)
    : Program FileInterface (Option RollbackRecord) :=
  if needsRollback staged passRateBefore passRateAfter then do
    rollBack store staged
    pure (some ⟨iteration, staged, passRateBefore, passRateAfter⟩)
  else
    pure none

end RollbackGate

/-! ## Runs -/

inductive Op (Body : Type) where
  | stage (lesson : Lesson Body) (now : Instant)
  | save (lesson : Lesson Body)
  | moveToTier (lesson : Lesson Body) (newTier : Tier) (now : Instant)
  | delete (lesson : Lesson Body)
  | tick (ledger : Except LessonError (List LedgerEntry)) (clock : LessonId → Instant)
  | promote (id : LessonId) (toTier : Tier) (now : Instant)
  | demote (id : LessonId) (toTier : Tier) (now : Instant)
  | markStaged (id : LessonId)
  | clearStaged
  | check (iteration : Nat) (passRateBefore passRateAfter : Double)

def Op.Reply : Op Body → Type
  | .stage .. => Lesson Body
  | .moveToTier .. => Lesson Body
  | .tick .. => List TierTransition
  | .promote .. => TierTransition
  | .demote .. => TierTransition
  | .check .. => Option RollbackRecord
  | _ => Unit

/--
The files and the lessons that the gate has in its memory.
-/
structure State where
  disk : Disk
  staged : List LessonId

def State.start : State := ⟨∅, []⟩

structure Studio (Body : Type) where
  store : LessonStore Body
  config : PromotionConfig

namespace Studio

variable (studio : Studio Body)

def program (staged : List LessonId) : (op : Op Body) → Program FileInterface op.Reply
  | .stage lesson now => studio.store.stage lesson now
  | .save lesson => studio.store.save lesson
  | .moveToTier lesson newTier now => studio.store.moveToTier lesson newTier now
  | .delete lesson => studio.store.delete lesson
  | .tick ledger clock => Promoter.tick studio.store studio.config ledger clock
  | .promote id toTier now => Promoter.promote studio.store id toTier now
  | .demote id toTier now => Promoter.demote studio.store id toTier now
  | .markStaged _ => pure ()
  | .clearStaged => pure ()
  | .check iteration passRateBefore passRateAfter =>
    RollbackGate.check studio.store staged iteration passRateBefore passRateAfter

/--
The gate forgets its lessons after a rollback.
-/
def stagedAfter (staged : List LessonId) : (op : Op Body) → Outcome FileInterface op.Reply → List LessonId
  | .markStaged id, _ => staged.insert id
  | .clearStaged, _ => []
  | .check .., some (.ok (some _)) => []
  | _, _ => staged

def step (op : Op Body) (script : List Choice) (s : State) : Outcome FileInterface op.Reply × State :=
  let result := (studio.program s.staged op).play handler script s.disk
  (result.1, ⟨result.2, stagedAfter s.staged op result.1⟩)

end Studio
end Reactor.Lessons
