import Mathlib.Data.List.AList
import ReactorCloud.Interleave.Script
import ReactorCloud.Posix.Files

/-!
This module contains the store of `studio-lessons`. A lesson is a file in the directory of its tier, and its
tier is also part of what the file says.
-/

namespace Reactor.Lessons

open Interleave (Interface Program)
open Interleave.Program

inductive Tier where
  | t0
  | t1
  | t2
  | t3
  | t4
  deriving DecidableEq, Repr

namespace Tier

def all : List Tier :=
  [t0, t1, t2, t3, t4]

def storageDir : Tier → String
  | t0 => "scratch"
  | t1 => "staged"
  | t2 => "validated"
  | t3 => "established"
  | t4 => "adopted"

theorem storageDir_inj {t t' : Tier} (h : t.storageDir = t'.storageDir) : t = t' := by
  revert h
  cases t <;> cases t' <;> decide

theorem mem_all (t : Tier) : t ∈ all := by
  cases t <;> decide

end Tier

abbrev LessonId := String

/--
Nanoseconds of the clock.
-/
abbrev Instant := Int

/--
What a lesson teaches is its body.
-/
structure Lesson (Body : Type) where
  id : LessonId
  tier : Tier
  body : Body
  created : Instant
  updated : Instant
  deriving DecidableEq

/-! ## Files -/

/--
The names of a path as it is written.
-/
abbrev Path := List String

def Path.enter (location : Posix.Location) (name : String) : Posix.Location :=
  if name = "." then location
  else if name = ".." then location.dropLast
  else location ++ [name]

/--
Where a path from the root leads, without symbolic links.
-/
def Path.resolve (path : Path) : Posix.Location :=
  path.foldl Path.enter []

/--
The files with their texts. Directories are where files are.
-/
abbrev Disk := AList fun _ : Posix.Location => String

def Disk.names (disk : Disk) (dir : Posix.Location) : List String :=
  disk.keys.filterMap fun location => if location.dropLast = dir then location.getLast? else none

inductive LessonError where
  | io
  | yaml
  | notFound (id : LessonId)
  | invalidTransition (start target : Tier)
  deriving DecidableEq

/--
The calls that `list_tier` and `move_to_tier` make have names of their own.
-/
inductive FileCall where
  | createDirAll (path : Path)
  | write (path : Path) (text : String)
  | pathExists (path : Path)
  | read (path : Path)
  | removeFile (path : Path)
  | oldExists (path : Path)
  | removeOld (path : Path)
  | dirExists (path : Path)
  | readDir (path : Path)
  | readEntry (path : Path)

def FileCall.Ret : FileCall → Type
  | .pathExists _ => Bool
  | .oldExists _ => Bool
  | .dirExists _ => Bool
  | .read _ => String
  | .readEntry _ => String
  | .readDir _ => List String
  | _ => Unit

abbrev FileInterface : Interface := ⟨FileCall, FileCall.Ret, LessonError⟩

/--
A call that is refused has no effect. A directory is read in any order.
-/
structure Choice where
  refused : Bool
  order : List String

namespace Disk

def fetch (disk : Disk) (path : Path) : Except LessonError String :=
  match disk.lookup path.resolve with
  | some text => .ok text
  | none => .error .io

def unlink (disk : Disk) (path : Path) : Except LessonError Unit × Disk :=
  if path.resolve ∈ disk then (.ok (), disk.erase path.resolve) else (.error .io, disk)

def listing (disk : Disk) (path : Path) (order : List String) : List String :=
  if order.isPerm (disk.names path.resolve) then order else disk.names path.resolve

def perform (order : List String) : (c : FileCall) → Disk → Except LessonError c.Ret × Disk
  | .createDirAll _, disk => (.ok (), disk)
  | .write path text, disk => (.ok (), disk.insert path.resolve text)
  | .pathExists path, disk => (.ok (decide (path.resolve ∈ disk)), disk)
  | .read path, disk => (disk.fetch path, disk)
  | .removeFile path, disk => disk.unlink path
  | .oldExists path, disk => (.ok (decide (path.resolve ∈ disk)), disk)
  | .removeOld path, disk => disk.unlink path
  | .dirExists path, disk => (.ok (!(disk.names path.resolve).isEmpty), disk)
  | .readDir path, disk => (.ok (disk.listing path order), disk)
  | .readEntry path, disk => (disk.fetch path, disk)

end Disk

def handler (choice : Choice) (c : FileCall) (disk : Disk) : Except LessonError c.Ret × Disk :=
  if choice.refused then (.error .io, disk) else disk.perform choice.order c

/-! ## The store -/

/--
`toYaml` and `fromYaml` are `serde_yaml` on lessons.
-/
structure LessonStore (Body : Type) where
  basePath : Path
  toYaml : Lesson Body → Option String
  fromYaml : String → Option (Lesson Body)

/--
`Path::exists`, which takes an error for an answer.
-/
def isThere : Except LessonError Bool → Bool
  | .ok found => found
  | .error _ => false

/--
`Path::extension` is `yaml`.
-/
def hasYaml (name : String) : Bool :=
  ".yaml".toList.isSuffixOf name.toList && name != ".yaml"

namespace LessonStore

variable {Body : Type} (store : LessonStore Body)

def tierDir (tier : Tier) : Path :=
  store.basePath ++ [tier.storageDir]

/--
An absolute path takes the place of the directory it is joined to.
-/
def lessonPathById (tier : Tier) (id : LessonId) : Path :=
  let name := id ++ ".yaml"
  if Posix.isAbsolute name then Posix.components name else store.tierDir tier ++ Posix.components name

def lessonPath (lesson : Lesson Body) : Path :=
  store.lessonPathById lesson.tier lesson.id

def save (lesson : Lesson Body) : Program FileInterface Unit := do
  let path := store.lessonPath lesson
  request (I := FileInterface) (.createDirAll path.dropLast)
  let text ← okOr (store.toYaml lesson) .yaml
  request (I := FileInterface) (.write path text)

def loadFrom (id : LessonId) : List Tier → Program FileInterface (Lesson Body)
  | [] => fail (.notFound id)
  | tier :: tiers => do
    let path := store.lessonPathById tier id
    let found ← (request (I := FileInterface) (.pathExists path)).attempt
    if isThere found then do
      let text ← request (I := FileInterface) (.read path)
      okOr (store.fromYaml text) .yaml
    else
      loadFrom id tiers

def load (id : LessonId) : Program FileInterface (Lesson Body) :=
  store.loadFrom id Tier.all

def delete (lesson : Lesson Body) : Program FileInterface Unit := do
  let path := store.lessonPath lesson
  let found ← (request (I := FileInterface) (.pathExists path)).attempt
  if isThere found then request (I := FileInterface) (.removeFile path) else pure ()

def removeOld (oldPath newPath : Path) : Program FileInterface Unit :=
  if oldPath ≠ newPath then do
    let found ← (request (I := FileInterface) (.oldExists oldPath)).attempt
    if isThere found then request (I := FileInterface) (.removeOld oldPath) else pure ()
  else
    pure ()

def moveToTier (lesson : Lesson Body) (newTier : Tier) (now : Instant)
    : Program FileInterface (Lesson Body) := do
  let moved := { lesson with tier := newTier, updated := now }
  store.save moved
  removeOld (store.lessonPath lesson) (store.lessonPath moved)
  pure moved

def stage (lesson : Lesson Body) (now : Instant) : Program FileInterface (Lesson Body) := do
  let staged := { lesson with tier := .t1, updated := now }
  store.save staged
  pure staged

/--
Files that cannot be read or parsed are passed over.
-/
def readEntries : List Path → Program FileInterface (List (Lesson Body))
  | [] => pure []
  | path :: paths => do
    let text ← (request (I := FileInterface) (.readEntry path)).attempt
    let lessons ← readEntries paths
    pure ((text.toOption.bind store.fromYaml).toList ++ lessons)

def listTier (tier : Tier) : Program FileInterface (List (Lesson Body)) := do
  let dir := store.tierDir tier
  let found ← (request (I := FileInterface) (.dirExists dir)).attempt
  if isThere found then do
    let names ← request (I := FileInterface) (.readDir dir)
    store.readEntries ((names.filter hasYaml).map fun name => dir ++ [name])
  else
    pure []

def listTiers : List Tier → Program FileInterface (List (Lesson Body))
  | [] => pure []
  | tier :: tiers => do
    let lessons ← store.listTier tier
    let others ← listTiers tiers
    pure (lessons ++ others)

def listAll : Program FileInterface (List (Lesson Body)) :=
  store.listTiers Tier.all

end LessonStore
end Reactor.Lessons
