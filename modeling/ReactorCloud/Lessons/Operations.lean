import ReactorCloud.Lessons.Promoter
import ReactorCloud.Lessons.Shelf

/-!
This module contains what the operations of the store, the promoter and the gate do to a shelf of lessons.
-/

namespace Reactor.Lessons

open Interleave (Program)
open Interleave.Program

variable {Body α : Type} {store : LessonStore Body} {may : FileCall → Option Choice → Prop}
variable {shelf : Shelf Body} {disk : Disk} {lesson : Lesson Body} {id : LessonId}

def NotDone (out : Outcome FileInterface α) : Prop :=
  ∀ a, out ≠ some (.ok a)

theorem notDone_none : NotDone (none : Outcome FileInterface α) := by
  intro a h
  cases h

theorem notDone_error (e : LessonError) : NotDone (some (.error e) : Outcome FileInterface α) := by
  intro a h
  cases h

/--
What has not come to an answer ends the program.
-/
theorem NotDone.passes {β : Type} {out : Outcome FileInterface β} (h : NotDone out)
    {f : β → Program FileInterface α} {Q : Outcome FileInterface α → Disk → Prop}
    (hstop : ∀ out, NotDone out → Q out disk) : Then handler may Q f out disk := by
  cases out with
  | none => exact hstop _ notDone_none
  | some r =>
    cases r with
    | ok a => exact absurd rfl (h a)
    | error e => exact hstop _ (notDone_error e)

/--
What is between the write and the removal of a move is not stopped and not refused.
-/
def Steady (may : FileCall → Option Choice → Prop) : Prop :=
  ∀ path got, may (.oldExists path) got ∨ may (.removeOld path) got → ∃ choice, got = some choice ∧ choice.refused = false

/--
The files in the directories of the tiers are read.
-/
def Readable (may : FileCall → Option Choice → Prop) : Prop :=
  ∀ path choice, may (.dirExists path) (some choice) ∨ may (.readEntry path) (some choice) → choice.refused = false

def Unrefused (may : FileCall → Option Choice → Prop) : Prop :=
  ∀ c choice, may c (some choice) → choice.refused = false

theorem handler_cases (choice : Choice) (c : FileCall) (disk : Disk)
    : handler choice c disk = (.error .io, disk) ∨ handler choice c disk = disk.perform choice.order c := by
  unfold handler
  split
  . exact .inl rfl
  . exact .inr rfl

theorem handler_unrefused {choice : Choice} (h : choice.refused = false) (c : FileCall) (disk : Disk)
    : handler choice c disk = disk.perform choice.order c := by
  rw [handler, if_neg (by simp [h])]

/-! ## The store -/

section Store

variable {Q : Outcome FileInterface α → Disk → Prop}

theorem save_ends {Q : Outcome FileInterface Unit → Disk → Prop} (hfits : store.Fits lesson)
    (hstop : ∀ out, NotDone out → Q out disk)
    (hdone : ∀ text, store.toYaml lesson = some text
      → Q (some (.ok ())) (disk.insert (store.place lesson.tier lesson.id) text))
    : (store.save lesson).Ends handler may Q disk := by
  unfold LessonStore.save
  apply ends_call
  . intro _
    exact hstop _ notDone_none
  intro choice _
  cases handler_cases choice (.createDirAll (store.lessonPath lesson).dropLast) disk with
  | inl hrefused =>
    rw [hrefused]
    exact hstop _ (notDone_error _)
  | inr hperform =>
    rw [hperform]
    apply ends_okOr
    . intro text htext
      constructor
      . intro _
        exact hstop _ notDone_none
      . intro choice _
        cases handler_cases choice (.write (store.lessonPath lesson) text) disk with
        | inl hrefused =>
          rw [hrefused]
          exact hstop _ (notDone_error _)
        | inr hperform =>
          rw [hperform]
          have := hdone text htext
          rw [← resolve_lessonPathById hfits.plain] at this
          exact this
    . intro _
      exact hstop _ (notDone_error _)

/--
What is loaded is on the shelf.
-/
theorem loadFrom_ends {Q : Outcome FileInterface (Lesson Body) → Disk → Prop} (h : Represents store shelf disk)
    (hstop : ∀ out, NotDone out → Q out disk)
    (hdone : ∀ lesson, shelf lesson.id = some lesson → Q (some (.ok lesson)) disk) (tiers : List Tier)
    : (store.loadFrom id tiers).Ends handler may Q disk := by
  induction tiers with
  | nil => exact hstop _ (notDone_error _)
  | cons tier tiers ih =>
    apply ends_attempt
    . intro _
      exact hstop _ notDone_none
    intro choice _
    have hdisk : (handler choice (.pathExists (store.lessonPathById tier id)) disk).2 = disk := by
      cases handler_cases choice (.pathExists (store.lessonPathById tier id)) disk with
      | inl hrefused => rw [hrefused]
      | inr hperform => rw [hperform]; rfl
    rw [hdisk]
    apply ends_ite
    . intro _
      apply ends_call
      . intro _
        exact hstop _ notDone_none
      intro choice _
      cases handler_cases choice (.read (store.lessonPathById tier id)) disk with
      | inl hrefused =>
        rw [hrefused]
        exact hstop _ (notDone_error _)
      | inr hperform =>
        rw [hperform]
        simp only [Disk.perform, Disk.fetch]
        cases hfile : disk.lookup (store.lessonPathById tier id).resolve with
        | none => exact hstop _ (notDone_error _)
        | some text =>
          obtain ⟨lesson, hparse, hshelf, _⟩ := h.read hfile
          show (okOr (store.fromYaml text) _).Ends handler may Q disk
          rw [hparse]
          exact hdone lesson hshelf
    . intro _
      exact ih

/--
A lesson on the shelf is found where no call is refused.
-/
theorem loadFrom_held {Q : Outcome FileInterface (Lesson Body) → Disk → Prop} (h : Represents store shelf disk)
    (hid : shelf id = some lesson) (hmay : Unrefused may)
    (hstop : (∃ c, may c none) → Q none disk) (hdone : Q (some (.ok lesson)) disk) (tiers : List Tier)
    (htier : lesson.tier ∈ tiers) : (store.loadFrom id tiers).Ends handler may Q disk := by
  have hplain : Plain id := by
    rw [← h.named hid]
    exact (h.fits hid).plain
  induction tiers with
  | nil => cases htier
  | cons tier tiers ih =>
    apply ends_attempt
    . intro hnone
      exact hstop ⟨_, hnone⟩
    intro choice hchoice
    rw [handler_unrefused (hmay _ _ hchoice)]
    have hholds : store.place tier id ∈ disk ↔ lesson.tier = tier := by
      rw [show store.place tier id ∈ disk ↔ store.Holds disk tier id from Iff.rfl, h.holds_iff, hid]
      simp
    rw [← resolve_lessonPathById hplain] at hholds
    apply ends_ite
    . intro hfound
      have htier : lesson.tier = tier := hholds.mp (of_decide_eq_true hfound)
      apply ends_call
      . intro hnone
        exact hstop ⟨_, hnone⟩
      intro choice hchoice
      rw [handler_unrefused (hmay _ _ hchoice)]
      obtain ⟨text, hfile, hparse⟩ := h.file hid
      rw [htier, ← resolve_lessonPathById hplain] at hfile
      simp only [Disk.perform, Disk.fetch, hfile]
      show (okOr (store.fromYaml text) _).Ends handler may Q disk
      rw [hparse]
      exact hdone
    . intro hmissing
      have hne : lesson.tier ≠ tier := by
        intro heq
        exact hmissing (decide_eq_true (hholds.mpr heq))
      cases htier with
      | head => exact absurd rfl hne
      | tail _ htier => exact ih htier

theorem load_eval (h : Represents store shelf disk) (hid : shelf id = some lesson) {choice : Choice}
    (hchoice : choice.refused = false) : (store.load id).eval (handler choice) disk = (.ok lesson, disk) := by
  have hends : (store.load id).Ends handler (fun _ got => got = some choice)
      (fun out disk' => out = some (.ok lesson) ∧ disk' = disk) disk := by
    apply loadFrom_held h hid
    . intro c got heq
      cases heq
      exact hchoice
    . rintro ⟨c, heq⟩
      cases heq
    . exact ⟨rfl, rfl⟩
    . exact Tier.mem_all _
  obtain ⟨hout, hdisk⟩ := eval_of_ends hends
  exact Prod.ext (Option.some.inj hout) hdisk

/--
At most one file goes.
-/
theorem delete_ends {Q : Outcome FileInterface Unit → Disk → Prop} (hsame : ∀ out, Q out disk)
    (hgone : ∀ out, Q out (disk.erase (store.lessonPath lesson).resolve))
    : (store.delete lesson).Ends handler may Q disk := by
  apply ends_attempt
  . intro _
    exact hsame none
  intro choice _
  have hdisk : (handler choice (.pathExists (store.lessonPath lesson)) disk).2 = disk := by
    cases handler_cases choice (.pathExists (store.lessonPath lesson)) disk with
    | inl hrefused => rw [hrefused]
    | inr hperform => rw [hperform]; rfl
  rw [hdisk]
  apply ends_ite
  . intro _
    constructor
    . intro _
      exact hsame none
    . intro choice _
      cases handler_cases choice (.removeFile (store.lessonPath lesson)) disk with
      | inl hrefused =>
        rw [hrefused]
        exact hsame _
      | inr hperform =>
        rw [hperform]
        simp only [Disk.perform, Disk.unlink]
        split
        . exact hgone _
        . exact hsame _
  . intro _
    exact hsame _

theorem removeOld_ends {Q : Outcome FileInterface Unit → Disk → Prop} (hsteady : Steady may) {oldPath newPath : Path}
    (hsame : oldPath = newPath ∨ oldPath.resolve ∉ disk → Q (some (.ok ())) disk)
    (hgone : oldPath ≠ newPath → Q (some (.ok ())) (disk.erase oldPath.resolve))
    : (LessonStore.removeOld oldPath newPath).Ends handler may Q disk := by
  apply ends_ite
  . intro hne
    apply ends_attempt
    . intro hnone
      obtain ⟨choice, hchoice, _⟩ := hsteady _ _ (.inl hnone)
      cases hchoice
    intro choice hchoice
    obtain ⟨_, heq, hchoice⟩ := hsteady _ _ (.inl hchoice)
    cases heq
    rw [handler_unrefused hchoice]
    apply ends_ite
    . intro hfound
      have hmem : oldPath.resolve ∈ disk := of_decide_eq_true hfound
      constructor
      . intro hnone
        obtain ⟨choice, hchoice, _⟩ := hsteady _ _ (.inr hnone)
        cases hchoice
      intro choice hchoice
      obtain ⟨_, heq, hchoice⟩ := hsteady _ _ (.inr hchoice)
      cases heq
      rw [handler_unrefused hchoice]
      have hunlink : disk.unlink oldPath = (.ok (), disk.erase oldPath.resolve) := if_pos hmem
      simp only [Disk.perform, hunlink]
      exact hgone hne
    . intro hmissing
      apply hsame
      right
      intro hmem
      exact hmissing (decide_eq_true hmem)
  . intro heq
    exact hsame (.inl (not_not.mp heq))

theorem lessonPathById_tier {tier tier' : Tier} (hplain : Plain id)
    (h : store.lessonPathById tier id = store.lessonPathById tier' id) : tier = tier' := by
  have hplace := congrArg Path.resolve h
  rw [resolve_lessonPathById hplain, resolve_lessonPathById hplain] at hplace
  exact (place_inj hplace).1

/--
A move that gets to its end leaves the new file only.
-/
theorem moveToTier_ends {Q : Outcome FileInterface (Lesson Body) → Disk → Prop} (h : Represents store shelf disk)
    (hsteady : Steady may) (hfits : store.Fits lesson) {newTier : Tier} {now : Instant}
    (hold : ∀ found, shelf lesson.id = some found → found.tier = lesson.tier ∨ found.tier = newTier)
    (hstop : ∀ out, NotDone out → Q out disk)
    (hdone : ∀ disk', Represents store
        (Function.update shelf lesson.id (some { lesson with tier := newTier, updated := now })) disk'
      → Q (some (.ok { lesson with tier := newTier, updated := now })) disk')
    : (store.moveToTier lesson newTier now).Ends handler may Q disk := by
  have hmoved := hfits.moved newTier now
  apply ends_bind
  apply save_ends hmoved
  . intro out hout
    exact hout.passes hstop
  intro text htext
  apply ends_bind
  apply removeOld_ends hsteady
  . intro hsame
    apply hdone
    apply h.move hmoved htext hold
    . exact AList.lookup_insert _
    . intro hne
      cases hsame with
      | inl heq => exact absurd (lessonPathById_tier hfits.plain heq) hne
      | inr hmissing =>
        rw [LessonStore.lessonPath, resolve_lessonPathById hfits.plain] at hmissing
        exact AList.lookup_eq_none.mpr hmissing
    . intro location hnew _
      exact AList.lookup_insert_ne hnew
  . intro hne
    have htier : lesson.tier ≠ newTier := by
      intro heq
      apply hne
      simp only [LessonStore.lessonPath, heq]
    apply hdone
    rw [LessonStore.lessonPath, resolve_lessonPathById hfits.plain]
    apply h.move hmoved htext hold
    . rw [AList.lookup_erase_ne, AList.lookup_insert]
      intro heq
      exact htier (place_inj heq).1.symm
    . intro _
      exact AList.lookup_erase _ _
    . intro location hnew hgone
      rw [AList.lookup_erase_ne hgone]
      exact AList.lookup_insert_ne hnew

end Store

/-! ## Listing -/

section List

theorem mem_names {dir : Posix.Location} {name : String} : name ∈ disk.names dir ↔ dir ++ [name] ∈ disk := by
  rw [Disk.names, List.mem_filterMap, AList.mem_keys]
  constructor
  . rintro ⟨location, hmem, hname⟩
    split at hname
    . next hdir =>
      rw [← hdir, List.dropLast_append_getLast? name hname]
      exact hmem
    . cases hname
  . intro hmem
    refine ⟨_, hmem, ?_⟩
    simp

theorem nodup_names (disk : Disk) (dir : Posix.Location) : (disk.names dir).Nodup := by
  apply List.Nodup.filterMap _ disk.keys_nodup
  intro location location' name hname hname'
  simp only [Option.mem_def] at hname hname'
  split at hname
  . next hdir =>
    split at hname'
    . next hdir' =>
      rw [← List.dropLast_append_getLast? name hname, ← List.dropLast_append_getLast? name hname', hdir, hdir']
    . cases hname'
  . cases hname

theorem Represents.mem_names (h : Represents store shelf disk) {tier : Tier} {name : String}
    : name ∈ disk.names (store.tierDir tier).resolve
      ↔ ∃ lesson, shelf lesson.id = some lesson ∧ lesson.tier = tier ∧ name = lesson.id ++ ".yaml" := by
  rw [Lessons.mem_names, ← AList.lookup_isSome, Option.isSome_iff_exists]
  constructor
  . rintro ⟨text, hfile⟩
    obtain ⟨lesson, _, hshelf, hlocation⟩ := h.read hfile
    obtain ⟨hdir, hname⟩ := List.append_inj' hlocation rfl
    exact ⟨lesson, hshelf, (tierDir_inj hdir).symm, by simpa using hname⟩
  . rintro ⟨lesson, hshelf, rfl, rfl⟩
    obtain ⟨text, hfile, _⟩ := h.file hshelf
    exact ⟨text, hfile⟩

theorem readEntries_ends (h : Represents store shelf disk) {tier : Tier} {names : List String}
    {Q : Outcome FileInterface (List (Lesson Body)) → Disk → Prop}
    (hnames : ∀ name ∈ names, ∃ lesson, shelf lesson.id = some lesson ∧ lesson.tier = tier
      ∧ name = lesson.id ++ ".yaml")
    (hstop : ∀ out, NotDone out → Q out disk)
    (hdone : ∀ lessons, (∀ lesson ∈ lessons, shelf lesson.id = some lesson ∧ lesson.tier = tier)
      → (Readable may → lessons.map (·.id ++ ".yaml") = names) → Q (some (.ok lessons)) disk)
    : (store.readEntries (names.map fun name => store.tierDir tier ++ [name])).Ends handler may Q disk := by
  induction names generalizing Q with
  | nil => exact hdone [] (by simp) (fun _ => rfl)
  | cons name names ih =>
    obtain ⟨lesson, hshelf, htier, hname⟩ := hnames name List.mem_cons_self
    apply ends_attempt
    . intro _
      exact hstop _ notDone_none
    intro choice hchoice
    have hpath : (store.tierDir tier ++ [name] : Path).resolve = store.place tier lesson.id := by
      rw [hname]
      exact Path.resolve_append_name _ (yaml_ne_dots _).1 (yaml_ne_dots _).2
    obtain ⟨text, hfile, hparse⟩ := h.file hshelf
    rw [htier, ← hpath] at hfile
    have hanswer : handler choice (.readEntry (store.tierDir tier ++ [name])) disk = (.error .io, disk)
        ∧ choice.refused = true
        ∨ handler choice (.readEntry (store.tierDir tier ++ [name])) disk = (.ok text, disk) := by
      unfold handler
      split
      . next hrefused => exact .inl ⟨rfl, hrefused⟩
      . right
        simp only [Disk.perform, Disk.fetch, hfile]
        rfl
    apply ends_bind
    rcases hanswer with ⟨hanswer, hrefused⟩ | hanswer
    . rw [hanswer]
      apply ih (fun name hmem => hnames name (List.mem_cons_of_mem _ hmem))
      . intro out hout
        exact hout.passes hstop
      . intro lessons hlessons _
        apply hdone _ hlessons
        intro hreadable
        rw [hreadable _ _ (.inr hchoice)] at hrefused
        cases hrefused
    . rw [hanswer]
      apply ih (fun name hmem => hnames name (List.mem_cons_of_mem _ hmem))
      . intro out hout
        exact hout.passes hstop
      . intro lessons hlessons hall
        have hcons : Q (some (.ok (lesson :: lessons))) disk := by
          apply hdone
          . intro other hother
            cases hother with
            | head => exact ⟨hshelf, htier⟩
            | tail _ hother => exact hlessons other hother
          . intro hreadable
            rw [List.map_cons, hall hreadable, hname]
        have heq : ((Except.toOption (ε := LessonError) (.ok text)).bind store.fromYaml).toList ++ lessons
            = lesson :: lessons := by
          simp [Except.toOption, hparse]
        rw [← heq] at hcons
        exact hcons

/--
The lessons are those of the shelf in some of its tiers, each of them once.
-/
structure Lists (shelf : Shelf Body) (tiers : List Tier) (lessons : List (Lesson Body)) : Prop where
  nodup : (lessons.map (·.id)).Nodup
  complete : ∀ lesson, shelf lesson.id = some lesson → lesson.tier ∈ tiers → lesson ∈ lessons

theorem listTier_ends (h : Represents store shelf disk) (tier : Tier)
    {Q : Outcome FileInterface (List (Lesson Body)) → Disk → Prop}
    (hstop : ∀ out, NotDone out → Q out disk)
    (hdone : ∀ lessons, (∀ lesson ∈ lessons, shelf lesson.id = some lesson ∧ lesson.tier = tier)
      → (Readable may → Lists shelf [tier] lessons) → Q (some (.ok lessons)) disk)
    : (store.listTier tier).Ends handler may Q disk := by
  apply ends_attempt
  . intro _
    exact hstop _ notDone_none
  intro choice hchoice
  have hdisk : (handler choice (.dirExists (store.tierDir tier)) disk).2 = disk := by
    cases handler_cases choice (.dirExists (store.tierDir tier)) disk with
    | inl hrefused => rw [hrefused]
    | inr hperform => rw [hperform]; rfl
  rw [hdisk]
  apply ends_ite
  . intro _
    apply ends_call
    . intro _
      exact hstop _ notDone_none
    intro choice _
    cases handler_cases choice (.readDir (store.tierDir tier)) disk with
    | inl hrefused =>
      rw [hrefused]
      exact hstop _ (notDone_error _)
    | inr hperform =>
      rw [hperform]
      have hperm : (disk.listing (store.tierDir tier) choice.order).Perm
          (disk.names (store.tierDir tier).resolve) := by
        unfold Disk.listing
        split
        . next hperm => exact List.isPerm_iff.mp hperm
        . exact .refl _
      apply readEntries_ends h
      . intro name hname
        exact h.mem_names.mp (hperm.mem_iff.mp (List.mem_filter.mp hname).1)
      . exact hstop
      . intro lessons hlessons hall
        apply hdone lessons hlessons
        intro hreadable
        have hnames := hall hreadable
        constructor
        . apply List.Nodup.of_map (· ++ ".yaml")
          rw [List.map_map]
          show (lessons.map (·.id ++ ".yaml")).Nodup
          rw [hnames]
          exact (hperm.nodup_iff.mpr (nodup_names _ _)).filter _
        . intro lesson hshelf htier
          have hname : lesson.id ++ ".yaml" ∈ lessons.map (·.id ++ ".yaml") := by
            rw [hnames, List.mem_filter]
            refine ⟨hperm.mem_iff.mpr (h.mem_names.mpr ⟨lesson, hshelf, List.mem_singleton.mp htier, rfl⟩), ?_⟩
            exact hasYaml_plain (h.fits hshelf).plain
          obtain ⟨other, hother, heq⟩ := List.mem_map.mp hname
          have hfound := (hlessons other hother).1
          rw [append_yaml_inj heq, hshelf] at hfound
          cases hfound
          exact hother
  . intro hmissing
    apply hdone []
    . simp
    . intro hreadable
      rw [handler_unrefused (hreadable _ _ (.inl hchoice))] at hmissing
      have hempty : disk.names (store.tierDir tier).resolve = [] := by
        simpa [Disk.perform, isThere] using hmissing
      constructor
      . exact List.nodup_nil
      . intro lesson hshelf htier
        have := h.mem_names.mpr ⟨lesson, hshelf, List.mem_singleton.mp htier, rfl⟩
        rw [hempty] at this
        cases this

theorem listTiers_ends (h : Represents store shelf disk) {tiers : List Tier} (hnodup : tiers.Nodup)
    {Q : Outcome FileInterface (List (Lesson Body)) → Disk → Prop}
    (hstop : ∀ out, NotDone out → Q out disk)
    (hdone : ∀ lessons, (∀ lesson ∈ lessons, shelf lesson.id = some lesson ∧ lesson.tier ∈ tiers)
      → (Readable may → Lists shelf tiers lessons) → Q (some (.ok lessons)) disk)
    : (store.listTiers tiers).Ends handler may Q disk := by
  induction tiers generalizing Q with
  | nil => exact hdone [] (by simp) (fun _ => ⟨List.nodup_nil, by simp⟩)
  | cons tier tiers ih =>
    apply ends_bind
    apply listTier_ends h
    . intro out hout
      exact hout.passes hstop
    intro lessons hlessons hall
    apply ends_bind
    apply ih hnodup.of_cons
    . intro out hout
      exact hout.passes hstop
    intro others hothers hall'
    apply hdone
    . intro lesson hmem
      cases List.mem_append.mp hmem with
      | inl hmem =>
        obtain ⟨hshelf, htier⟩ := hlessons lesson hmem
        exact ⟨hshelf, by simp [htier]⟩
      | inr hmem =>
        obtain ⟨hshelf, htier⟩ := hothers lesson hmem
        exact ⟨hshelf, List.mem_cons_of_mem _ htier⟩
    . intro hreadable
      constructor
      . rw [List.map_append]
        apply List.Nodup.append (hall hreadable).nodup (hall' hreadable).nodup
        intro id hid hid'
        obtain ⟨lesson, hmem, rfl⟩ := List.mem_map.mp hid
        obtain ⟨other, hmem', heq⟩ := List.mem_map.mp hid'
        obtain ⟨hshelf, htier⟩ := hlessons lesson hmem
        obtain ⟨hshelf', htier'⟩ := hothers other hmem'
        rw [heq, hshelf] at hshelf'
        cases hshelf'
        rw [htier] at htier'
        exact (List.nodup_cons.mp hnodup).1 htier'
      . intro lesson hshelf htier
        rw [List.mem_append]
        cases List.mem_cons.mp htier with
        | inl htier => exact .inl ((hall hreadable).complete lesson hshelf (by simp [htier]))
        | inr htier => exact .inr ((hall' hreadable).complete lesson hshelf htier)

end List

/-! ## The gate -/

section Gate

theorem delete_held {Q : Outcome FileInterface Unit → Disk → Prop} (h : Represents store shelf disk)
    (hid : shelf lesson.id = some lesson) (hmay : Unrefused may) (hstop : Q none disk)
    (hdone : Q (some (.ok ())) (disk.erase (store.place lesson.tier lesson.id)))
    : (store.delete lesson).Ends handler may Q disk := by
  have hplain := (h.fits hid).plain
  have hmem : (store.lessonPath lesson).resolve ∈ disk := by
    rw [LessonStore.lessonPath, resolve_lessonPathById hplain]
    exact h.holds_iff.mpr ⟨lesson, hid, rfl⟩
  apply ends_attempt
  . intro _
    exact hstop
  intro choice hchoice
  rw [handler_unrefused (hmay _ _ hchoice)]
  apply ends_ite
  . intro _
    constructor
    . intro _
      exact hstop
    intro choice hchoice
    rw [handler_unrefused (hmay _ _ hchoice)]
    have hunlink : disk.unlink (store.lessonPath lesson)
        = (.ok (), disk.erase (store.lessonPath lesson).resolve) := if_pos hmem
    simp only [Disk.perform, hunlink]
    rw [← resolve_lessonPathById hplain] at hdone
    exact hdone
  . intro hmissing
    exact absurd (decide_eq_true hmem) hmissing

/--
What has come of a shelf when lessons were taken from it.
-/
structure RolledBack (shelf : Shelf Body) (ids : List LessonId) (shelf' : Shelf Body) (done : Bool) : Prop where
  rest : ∀ id, shelf' id = shelf id ∨ shelf' id = none
  gone : done = true → ∀ id, shelf' id = if id ∈ ids then none else shelf id

theorem rollBack_ends {Q : Outcome FileInterface Unit → Disk → Prop} (hmay : Unrefused may) {ids : List LessonId}
    (hnodup : ids.Nodup) (h : Represents store shelf disk) (hheld : ∀ id ∈ ids, ∃ lesson, shelf id = some lesson)
    (hdone : ∀ out shelf' disk', Represents store shelf' disk' → RolledBack shelf ids shelf' out.isSome → Q out disk')
    : (RollbackGate.rollBack store ids).Ends handler may Q disk := by
  induction ids generalizing shelf disk with
  | nil =>
    apply hdone _ shelf _ h
    constructor
    . intro id
      exact .inl rfl
    . simp
  | cons id ids ih =>
    obtain ⟨lesson, hid⟩ := hheld id List.mem_cons_self
    have hunchanged : Q none disk := by
      apply hdone _ shelf _ h
      constructor
      . intro other
        exact .inl rfl
      . intro hfalse
        cases hfalse
    apply ends_attempt_bind
    apply loadFrom_held h hid hmay _ _ _ (Tier.mem_all _)
    . intro _
      exact hunchanged
    apply ends_attempt_bind
    apply delete_held h (h.self hid) hmay
    . exact hunchanged
    rw [h.named hid]
    apply ih hnodup.of_cons (h.remove hid)
    . intro other hother
      have hne : other ≠ id := by
        rintro rfl
        exact (List.nodup_cons.mp hnodup).1 hother
      rw [Function.update_of_ne hne]
      exact hheld other (List.mem_cons_of_mem _ hother)
    . intro out shelf' disk' h' hrolled
      apply hdone out shelf' disk' h'
      constructor
      . intro other
        cases hrolled.rest other with
        | inl hrest =>
          rw [hrest]
          by_cases heq : other = id
          . subst heq
            exact .inr (Function.update_self ..)
          . exact .inl (Function.update_of_ne heq ..)
        | inr hnone => exact .inr hnone
      . intro htrue other
        rw [hrolled.gone htrue other]
        by_cases heq : other = id
        . subst heq
          simp
        . simp [heq]

end Gate
end Reactor.Lessons
