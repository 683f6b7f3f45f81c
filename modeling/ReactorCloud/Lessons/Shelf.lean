import ReactorCloud.Lessons.Store

/-!
This module contains the shelf, on which every lesson has one place, and what the operations of the store do to
it when the files are those of a shelf.
-/

namespace Reactor.Lessons

open Interleave (Program)
open Interleave.Program

variable {Body : Type} {store : LessonStore Body}

/-! ## Places -/

namespace LessonStore

variable (store)

/--
The file of a lesson in the directory of a tier.
-/
def place (tier : Tier) (id : LessonId) : Posix.Location :=
  (store.tierDir tier).resolve ++ [id ++ ".yaml"]

def Holds (disk : Disk) (tier : Tier) (id : LessonId) : Prop :=
  store.place tier id ∈ disk

/--
The file of the lesson is in the directory of its tier and says what the lesson says.
-/
def Filed (disk : Disk) (lesson : Lesson Body) : Prop :=
  ∃ text, disk.lookup (store.place lesson.tier lesson.id) = some text ∧ store.fromYaml text = some lesson

end LessonStore

/--
The name of a file.
-/
structure Plain (id : LessonId) : Prop where
  nonempty : id ≠ ""
  noSlash : '/' ∉ id.toList

/--
The lesson can be filed in every tier and is read as it was written.
-/
structure LessonStore.Fits (store : LessonStore Body) (lesson : Lesson Body) : Prop where
  plain : Plain lesson.id
  kept : ∀ tier updated, ∃ text,
    store.toYaml { lesson with tier := tier, updated := updated } = some text
      ∧ store.fromYaml text = some { lesson with tier := tier, updated := updated }

theorem LessonStore.Fits.text {lesson : Lesson Body} (h : store.Fits lesson)
    : ∃ text, store.toYaml lesson = some text ∧ store.fromYaml text = some lesson :=
  h.kept lesson.tier lesson.updated

theorem LessonStore.Fits.moved {lesson : Lesson Body} (h : store.Fits lesson) (tier : Tier) (updated : Instant)
    : store.Fits { lesson with tier := tier, updated := updated } :=
  ⟨h.plain, h.kept⟩

theorem Path.resolve_append_name (path : Path) {name : String} (hdot : name ≠ ".") (hdots : name ≠ "..")
    : Path.resolve (path ++ [name]) = path.resolve ++ [name] := by
  rw [Path.resolve, List.foldl_append]
  simp [Path.enter, hdot, hdots, Path.resolve]

theorem yaml_ne_dots (id : LessonId) : id ++ ".yaml" ≠ "." ∧ id ++ ".yaml" ≠ ".." := by
  constructor
  . intro h
    have hlen := congrArg (fun s => s.toList.length) h
    simp at hlen
  . intro h
    have hlen := congrArg (fun s => s.toList.length) h
    simp at hlen

theorem components_yaml {id : LessonId} (h : Plain id) : Posix.components (id ++ ".yaml") = [id ++ ".yaml"] := by
  have hsplit : (id ++ ".yaml").toList.splitOn '/' = [(id ++ ".yaml").toList] := by
    apply List.splitOnP_eq_singleton
    intro c hc
    rw [beq_eq_false_iff_ne]
    rintro rfl
    rw [String.toList_append, List.mem_append] at hc
    cases hc with
    | inl hc => exact h.noSlash hc
    | inr hc => revert hc; decide
  have hlast : (id ++ ".yaml").toList.getLast? ≠ some '/' := by
    rw [String.toList_append, List.getLast?_append_of_ne_nil _ (by decide)]
    decide
  rw [Posix.components, hsplit, if_neg hlast]
  simp

theorem isAbsolute_yaml {id : LessonId} (h : Plain id) : Posix.isAbsolute (id ++ ".yaml") = false := by
  rw [Posix.isAbsolute, beq_eq_false_iff_ne, String.toList_append]
  cases hid : id.toList with
  | nil => exact absurd (String.toList_eq_nil_iff.mp hid) h.nonempty
  | cons c cs =>
    intro heq
    simp only [List.cons_append, List.head?_cons, Option.some.injEq] at heq
    subst heq
    exact h.noSlash (by simp [hid])

theorem lessonPathById_plain {id : LessonId} (h : Plain id) (tier : Tier)
    : store.lessonPathById tier id = store.tierDir tier ++ [id ++ ".yaml"] := by
  simp [LessonStore.lessonPathById, isAbsolute_yaml h, components_yaml h]

theorem resolve_lessonPathById {id : LessonId} (h : Plain id) (tier : Tier)
    : (store.lessonPathById tier id).resolve = store.place tier id := by
  rw [lessonPathById_plain h, Path.resolve_append_name _ (yaml_ne_dots id).1 (yaml_ne_dots id).2]
  rfl

theorem resolve_tierDir (tier : Tier)
    : (store.tierDir tier).resolve = store.basePath.resolve ++ [tier.storageDir] := by
  apply Path.resolve_append_name
  . cases tier <;> decide
  . cases tier <;> decide

theorem append_yaml_inj {id id' : LessonId} (h : id ++ ".yaml" = id' ++ ".yaml") : id = id' := by
  have hlist := congrArg String.toList h
  rw [String.toList_append, String.toList_append] at hlist
  exact String.toList_injective (List.append_cancel_right hlist)

theorem tierDir_inj {tier tier' : Tier} (h : (store.tierDir tier).resolve = (store.tierDir tier').resolve)
    : tier = tier' := by
  rw [resolve_tierDir, resolve_tierDir] at h
  have := List.append_cancel_left h
  exact Tier.storageDir_inj (by simpa using this)

theorem place_inj {tier tier' : Tier} {id id' : LessonId} (h : store.place tier id = store.place tier' id')
    : tier = tier' ∧ id = id' := by
  obtain ⟨hdir, hname⟩ := List.append_inj' h rfl
  constructor
  . exact tierDir_inj hdir
  . exact append_yaml_inj (by simpa using hname)

theorem hasYaml_plain {id : LessonId} (h : Plain id) : hasYaml (id ++ ".yaml") = true := by
  have hne : id ++ ".yaml" ≠ ".yaml" := by
    intro heq
    have hempty : id ++ ".yaml" = "" ++ ".yaml" := by simpa using heq
    exact h.nonempty (append_yaml_inj hempty)
  rw [hasYaml, Bool.and_eq_true]
  constructor
  . rw [List.isSuffixOf_iff_suffix, String.toList_append]
    exact List.suffix_append _ _
  . simpa using hne

/-! ## The shelf -/

abbrev Shelf (Body : Type) := LessonId → Option (Lesson Body)

/--
The files are those of the lessons on the shelf.
-/
structure Represents (store : LessonStore Body) (shelf : Shelf Body) (disk : Disk) : Prop where
  named : ∀ {id lesson}, shelf id = some lesson → lesson.id = id
  fits : ∀ {id lesson}, shelf id = some lesson → store.Fits lesson
  files : ∀ location text, disk.lookup location = some text ↔ ∃ lesson,
    shelf lesson.id = some lesson ∧ location = store.place lesson.tier lesson.id ∧ store.toYaml lesson = some text

namespace Represents

variable {shelf : Shelf Body} {disk : Disk} {lesson : Lesson Body} {id : LessonId}

theorem self (h : Represents store shelf disk) (hid : shelf id = some lesson) : shelf lesson.id = some lesson := by
  rw [h.named hid]
  exact hid

theorem empty : Represents store (fun _ => none) ∅ := by
  constructor
  . intro id lesson h
    cases h
  . intro id lesson h
    cases h
  . simp

/--
A file of the store is one of a lesson on the shelf.
-/
theorem read (h : Represents store shelf disk) {location : Posix.Location} {text : String}
    (hfile : disk.lookup location = some text)
    : ∃ lesson, store.fromYaml text = some lesson ∧ shelf lesson.id = some lesson
        ∧ location = store.place lesson.tier lesson.id := by
  obtain ⟨lesson, hshelf, hlocation, htext⟩ := (h.files _ _).mp hfile
  obtain ⟨text', htext', hparse⟩ := (h.fits hshelf).text
  rw [htext] at htext'
  cases htext'
  exact ⟨lesson, hparse, hshelf, hlocation⟩

theorem file (h : Represents store shelf disk) (hid : shelf id = some lesson)
    : ∃ text, disk.lookup (store.place lesson.tier id) = some text ∧ store.fromYaml text = some lesson := by
  obtain ⟨text, htext, hparse⟩ := (h.fits hid).text
  refine ⟨text, (h.files _ _).mpr ⟨lesson, h.self hid, ?_, htext⟩, hparse⟩
  rw [h.named hid]

theorem holds_iff (h : Represents store shelf disk) {tier : Tier}
    : store.Holds disk tier id ↔ ∃ lesson, shelf id = some lesson ∧ lesson.tier = tier := by
  rw [LessonStore.Holds, ← AList.lookup_isSome, Option.isSome_iff_exists]
  constructor
  . rintro ⟨text, hfile⟩
    obtain ⟨lesson, _, hshelf, hlocation⟩ := h.read hfile
    obtain ⟨htier, hid⟩ := place_inj hlocation
    rw [hid]
    exact ⟨lesson, hshelf, htier.symm⟩
  . rintro ⟨lesson, hshelf, rfl⟩
    obtain ⟨text, hfile, _⟩ := h.file hshelf
    exact ⟨text, hfile⟩

theorem filed_iff (h : Represents store shelf disk) : store.Filed disk lesson ↔ shelf lesson.id = some lesson := by
  constructor
  . rintro ⟨text, hfile, hparse⟩
    obtain ⟨found, hfound, hshelf, _⟩ := h.read hfile
    rw [hparse] at hfound
    cases hfound
    exact hshelf
  . intro hshelf
    exact h.file hshelf

theorem not_mem_of_tier (h : Represents store shelf disk) {tier : Tier} (hid : shelf id = some lesson)
    (htier : lesson.tier ≠ tier) : ¬ store.Holds disk tier id := by
  rw [h.holds_iff]
  rintro ⟨found, hfound, rfl⟩
  rw [hid] at hfound
  cases hfound
  exact htier rfl

/--
A new version of a lesson takes the place of the old one, which may be in another tier.
-/
theorem move (h : Represents store shelf disk) (hfits : store.Fits lesson) {text : String}
    (htext : store.toYaml lesson = some text) {oldTier : Tier}
    (hold : ∀ found, shelf lesson.id = some found → found.tier = oldTier ∨ found.tier = lesson.tier)
    {disk' : Disk} (hnew : disk'.lookup (store.place lesson.tier lesson.id) = some text)
    (hgone : oldTier ≠ lesson.tier → disk'.lookup (store.place oldTier lesson.id) = none)
    (hother : ∀ location, location ≠ store.place lesson.tier lesson.id
      → location ≠ store.place oldTier lesson.id → disk'.lookup location = disk.lookup location)
    : Represents store (Function.update shelf lesson.id (some lesson)) disk' := by
  have hshelf : ∀ other : Lesson Body, Function.update shelf lesson.id (some lesson) other.id = some other
      ↔ other = lesson ∨ other.id ≠ lesson.id ∧ shelf other.id = some other := by
    intro other
    by_cases hid : other.id = lesson.id
    . rw [hid, Function.update_self]
      constructor
      . intro heq
        cases heq
        exact .inl rfl
      . rintro (rfl | ⟨hne, _⟩)
        . rfl
        . exact absurd rfl hne
    . rw [Function.update_of_ne hid]
      constructor
      . intro hother
        exact .inr ⟨hid, hother⟩
      . rintro (rfl | ⟨_, hother⟩)
        . exact absurd rfl hid
        . exact hother
  constructor
  . intro id other hid
    by_cases heq : id = lesson.id
    . subst heq
      rw [Function.update_self] at hid
      cases hid
      rfl
    . rw [Function.update_of_ne heq] at hid
      exact h.named hid
  . intro id other hid
    by_cases heq : id = lesson.id
    . subst heq
      rw [Function.update_self] at hid
      cases hid
      exact hfits
    . rw [Function.update_of_ne heq] at hid
      exact h.fits hid
  . intro location content
    simp only [hshelf]
    by_cases hplace : location = store.place lesson.tier lesson.id
    . subst hplace
      rw [hnew]
      constructor
      . intro heq
        cases heq
        exact ⟨lesson, .inl rfl, rfl, htext⟩
      . rintro ⟨other, rfl | ⟨hne, _⟩, hlocation, hcontent⟩
        . rw [← htext, hcontent]
        . exact absurd (place_inj hlocation).2.symm hne
    by_cases hplace' : location = store.place oldTier lesson.id
    . subst hplace'
      have hne : oldTier ≠ lesson.tier := by
        rintro rfl
        exact hplace rfl
      rw [hgone hne]
      constructor
      . intro heq
        cases heq
      . rintro ⟨other, rfl | ⟨hid, _⟩, hlocation, _⟩
        . exact absurd hlocation hplace
        . exact absurd (place_inj hlocation).2.symm hid
    rw [hother location hplace hplace', h.files]
    constructor
    . rintro ⟨other, hfound, hlocation, hcontent⟩
      refine ⟨other, .inr ⟨?_, hfound⟩, hlocation, hcontent⟩
      intro hid
      -- the file of an older version is in one of the two tiers
      rw [hid] at hlocation hfound
      cases hold other hfound with
      | inl htier =>
        rw [htier] at hlocation
        exact hplace' hlocation
      | inr htier =>
        rw [htier] at hlocation
        exact hplace hlocation
    . rintro ⟨other, rfl | ⟨_, hfound⟩, hlocation, hcontent⟩
      . exact absurd hlocation hplace
      . exact ⟨other, hfound, hlocation, hcontent⟩

theorem put (h : Represents store shelf disk) (hfits : store.Fits lesson) {text : String}
    (htext : store.toYaml lesson = some text)
    (hold : ∀ found, shelf lesson.id = some found → found.tier = lesson.tier)
    : Represents store (Function.update shelf lesson.id (some lesson))
        (disk.insert (store.place lesson.tier lesson.id) text) := by
  have hold' : ∀ found, shelf lesson.id = some found → found.tier = lesson.tier ∨ found.tier = lesson.tier := by
    intro found hfound
    exact .inl (hold found hfound)
  apply h.move hfits htext hold'
  . exact AList.lookup_insert _
  . intro hne
    exact absurd rfl hne
  . intro location hne _
    exact AList.lookup_insert_ne hne

theorem drop (h : Represents store shelf disk) (location : Posix.Location)
    : Represents store (fun id => (shelf id).filter fun lesson => store.place lesson.tier lesson.id ≠ location)
        (disk.erase location) := by
  constructor
  . intro id lesson hid
    exact h.named (Option.filter_eq_some_iff.mp hid).1
  . intro id lesson hid
    exact h.fits (Option.filter_eq_some_iff.mp hid).1
  . intro other text
    by_cases heq : other = location
    . subst heq
      rw [AList.lookup_erase]
      simp only [Option.filter_eq_some_iff, decide_eq_true_eq]
      constructor
      . intro h
        cases h
      . rintro ⟨lesson, ⟨_, hne⟩, hplace, _⟩
        exact absurd hplace.symm hne
    . rw [AList.lookup_erase_ne heq, h.files]
      simp only [Option.filter_eq_some_iff, decide_eq_true_eq]
      constructor
      . rintro ⟨lesson, hfound, rfl, htext⟩
        exact ⟨lesson, ⟨hfound, heq⟩, rfl, htext⟩
      . rintro ⟨lesson, ⟨hfound, _⟩, hplace, htext⟩
        exact ⟨lesson, hfound, hplace, htext⟩

theorem remove (h : Represents store shelf disk) (hid : shelf id = some lesson)
    : Represents store (Function.update shelf id none) (disk.erase (store.place lesson.tier id)) := by
  have hshelf : Function.update shelf id none = fun other =>
      (shelf other).filter fun found => store.place found.tier found.id ≠ store.place lesson.tier id := by
    funext other
    by_cases heq : other = id
    . subst heq
      rw [Function.update_self, hid, Option.filter_some, if_neg]
      simp [h.named hid]
    . rw [Function.update_of_ne heq]
      cases hother : shelf other with
      | none => rfl
      | some found =>
        rw [Option.filter_some, if_pos]
        rw [decide_eq_true_eq]
        intro hplace
        rw [h.named hother] at hplace
        exact heq (place_inj hplace).2
  rw [hshelf]
  exact h.drop _

end Represents
end Reactor.Lessons
