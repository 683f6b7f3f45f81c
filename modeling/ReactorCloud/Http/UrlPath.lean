import Mathlib.Data.Bool.AllAny
import Mathlib.Data.List.Infix

/-!
This module contains how the path of an `http` URL is read: dot segments go, with their percent-encoded forms,
and a backslash separates as a slash does.
-/

namespace Http.UrlPath

abbrev Segment := List Char

def isSeparator (c : Char) : Bool :=
  c == '/' || c == '\\'

def isTabOrNewline (c : Char) : Bool :=
  c == '\t' || c == '\n' || c == '\r'

def isC0OrSpace (c : Char) : Bool :=
  c.toNat ≤ 0x20

def startsQuery (c : Char) : Bool :=
  c == '?' || c == '#'

/--
The path in the text after the authority.
-/
def pathText (s : List Char) : List Char :=
  let trimmed := (s.reverse.dropWhile isC0OrSpace).reverse
  (trimmed.filter (fun c => !isTabOrNewline c)).takeWhile (fun c => !startsQuery c)

def segments : List Char → List Segment
  | [] => [[]]
  | c :: cs =>
    if isSeparator c then
      [] :: segments cs
    else
      match segments cs with
      | [] => [[c]]
      | segment :: rest => (c :: segment) :: rest

def isSingleDot (segment : Segment) : Bool :=
  [".".toList, "%2e".toList].contains (segment.map Char.toLower)

def isDoubleDot (segment : Segment) : Bool :=
  ["..".toList, ".%2e".toList, "%2e.".toList, "%2e%2e".toList].contains (segment.map Char.toLower)

/-! ## Dot segments -/

/--
The stack holds the segments in reverse.
-/
def step (stack : List Segment) (segment : Segment) : List Segment :=
  if isDoubleDot segment then stack.tail
  else if isSingleDot segment then stack
  else segment :: stack

/--
A dot segment at the end leaves a segment that is empty.
-/
def walk (stack : List Segment) : List Segment → List Segment
  | [] => stack
  | [last] =>
    if isDoubleDot last then [] :: stack.tail
    else if isSingleDot last then [] :: stack
    else last :: stack
  | segment :: rest => walk (step stack segment) rest

/--
The segments of the path whose text after its first slash is `s`. They are not percent-encoded further, which
only changes segments with characters that have to be.
-/
def normalize (s : List Char) : List Segment :=
  (walk [] (segments (pathText s))).reverse

/--
The path is of something in the directory.
-/
def Below (dir path : List Segment) : Prop :=
  dir <+: path ∧ dir.length < path.length

instance {dir path : List Segment} : Decidable (Below dir path) :=
  inferInstanceAs (Decidable (_ ∧ _))

/--
The segments that are walked through before the last is put on the stack.
-/
def branches (segs : List Segment) : List Segment :=
  segs.dropLast ++ segs.getLast?.toList.filter (fun last => isDoubleDot last || isSingleDot last)

def leaf (segs : List Segment) : Segment :=
  (segs.getLast?.filter (fun last => !(isDoubleDot last || isSingleDot last))).getD []

section Walk

variable {stack segs : List Segment} {segment : Segment}

theorem segments_ne_nil (s : List Char) : segments s ≠ [] := by
  cases s with
  | nil => simp [segments]
  | cons c cs =>
    rw [segments]
    split
    . simp
    . split <;> simp

theorem walk_eq (hne : segs ≠ []) : walk stack segs = leaf segs :: (branches segs).foldl step stack := by
  induction segs generalizing stack with
  | nil => exact absurd rfl hne
  | cons segment rest ih =>
    cases rest with
    | nil =>
      simp only [walk, branches, leaf, List.dropLast_singleton, List.getLast?_singleton, List.nil_append,
        Option.toList_some]
      cases hdouble : isDoubleDot segment with
      | true => simp [hdouble, step, Option.filter]
      | false => cases hsingle : isSingleDot segment <;> simp [hdouble, hsingle, step, Option.filter]
    | cons next rest =>
      rw [walk, ih (by simp)]
      . simp [branches, leaf]
      . simp

/--
How many levels the segments climb above where they start, and what they name there.
-/
def climbStep (pos : Nat × List Segment) (segment : Segment) : Nat × List Segment :=
  if isDoubleDot segment then
    match pos.2 with
    | [] => (pos.1 + 1, [])
    | _ :: stack => (pos.1, stack)
  else if isSingleDot segment then
    pos
  else
    (pos.1, segment :: pos.2)

def climb (s : List Char) : Nat × List Segment :=
  (branches (segments (pathText s))).foldl climbStep (0, [])

theorem foldl_step (dir : List Segment) (up : Nat) (stack segs : List Segment)
    : segs.foldl step (stack ++ dir.drop up)
      = (segs.foldl climbStep (up, stack)).2 ++ dir.drop (segs.foldl climbStep (up, stack)).1 := by
  induction segs generalizing up stack with
  | nil => rfl
  | cons segment rest ih =>
    have hstep : step (stack ++ dir.drop up) segment
        = (climbStep (up, stack) segment).2 ++ dir.drop (climbStep (up, stack) segment).1 := by
      unfold step climbStep
      split
      . cases stack with
        | nil => simp
        | cons top stack => rfl
      . split <;> rfl
    rw [List.foldl_cons, List.foldl_cons, hstep, ih]

end Walk

/--
Without a double dot nothing is climbed.
-/
theorem climb_eq_zero {s : List Char} (h : ∀ segment ∈ segments (pathText s), isDoubleDot segment = false)
    : (climb s).1 = 0 := by
  have hbranches : ∀ segment ∈ branches (segments (pathText s)), isDoubleDot segment = false := by
    intro segment hsegment
    apply h
    rcases List.mem_append.mp hsegment with hmem | hmem
    . exact List.dropLast_subset _ hmem
    . exact List.mem_of_getLast? (Option.mem_toList.mp (List.mem_filter.mp hmem).1)
  have hfold : ∀ (segs : List Segment) (pos : Nat × List Segment),
      (∀ segment ∈ segs, isDoubleDot segment = false) → (segs.foldl climbStep pos).1 = pos.1 := by
    intro segs
    induction segs with
    | nil => exact fun _ _ => rfl
    | cons segment rest ih =>
      intro pos hsegs
      rw [List.foldl_cons, ih _ (fun s hs => hsegs s (List.mem_cons_of_mem _ hs)), climbStep,
        hsegs segment List.mem_cons_self]
      cases isSingleDot segment <;> rfl
  exact hfold _ _ hbranches

/-! ## Keys below a directory -/

/--
A segment that is written as it is read.
-/
structure Plain (segment : Segment) : Prop where
  chars : ∀ c ∈ segment, isSeparator c = false ∧ isTabOrNewline c = false ∧ startsQuery c = false
  noDot : isDoubleDot segment = false ∧ isSingleDot segment = false

/--
The directory with a slash after each of its segments.
-/
def join (dir : List Segment) : List Char :=
  dir.flatMap (· ++ ['/'])

theorem not_dots_of_length {segment : Segment} (h : 6 < segment.length)
    : isDoubleDot segment = false ∧ isSingleDot segment = false := by
  have hlength : ∀ dots : List Char, dots.length ≤ 6 → segment.map Char.toLower ≠ dots := by
    rintro dots hdots rfl
    rw [List.length_map] at hdots
    omega
  constructor
  . simp only [isDoubleDot, List.contains_eq_mem, List.mem_cons, List.not_mem_nil, or_false,
      decide_eq_false_iff_not, not_or]
    refine ⟨?_, ?_, ?_, ?_⟩ <;> exact hlength _ (by decide)
  . simp only [isSingleDot, List.contains_eq_mem, List.mem_cons, List.not_mem_nil, or_false,
      decide_eq_false_iff_not, not_or]
    constructor <;> exact hlength _ (by decide)

section Directory

variable {dir : List Segment} {key : List Char}

theorem mem_join {c : Char} (h : c ∈ join dir) : c = '/' ∨ ∃ segment ∈ dir, c ∈ segment := by
  simp only [join, List.mem_flatMap, List.mem_append, List.mem_singleton] at h
  obtain ⟨segment, hsegment, hc | hc⟩ := h
  . exact .inr ⟨segment, hsegment, hc⟩
  . exact .inl hc

theorem trim_join_append (hne : dir ≠ [])
    : ((join dir ++ key).reverse.dropWhile isC0OrSpace).reverse
      = join dir ++ (key.reverse.dropWhile isC0OrSpace).reverse := by
  have hlast : ∃ text, join dir = text ++ ['/'] := by
    refine ⟨join dir.dropLast ++ dir.getLast hne, ?_⟩
    conv => lhs; rw [← List.dropLast_concat_getLast hne]
    simp [join]
  obtain ⟨text, htext⟩ := hlast
  rw [htext, List.reverse_append, List.dropWhile_append]
  split
  . next hempty =>
    rw [List.isEmpty_iff.mp hempty]
    simp [isC0OrSpace]
  . simp

theorem pathText_join_append (hne : dir ≠ []) (hplain : ∀ segment ∈ dir, Plain segment)
    : pathText (join dir ++ key) = join dir ++ pathText key := by
  have hchars : ∀ c ∈ join dir, isTabOrNewline c = false ∧ startsQuery c = false := by
    intro c hc
    rcases mem_join hc with rfl | ⟨segment, hsegment, hc⟩
    . exact ⟨rfl, rfl⟩
    . exact ((hplain segment hsegment).chars c hc).2
  rw [pathText, trim_join_append hne]
  simp only [List.filter_append]
  rw [List.filter_eq_self.mpr, List.takeWhile_append_of_pos]
  . rfl
  . intro c hc
    rw [(hchars c hc).2]
    rfl
  . intro c hc
    rw [(hchars c hc).1]
    rfl

theorem segments_append_slash {segment : Segment} (h : ∀ c ∈ segment, isSeparator c = false) (rest : List Char)
    : segments (segment ++ '/' :: rest) = segment :: segments rest := by
  induction segment with
  | nil => rfl
  | cons c cs ih =>
    rw [List.cons_append, segments, if_neg (by simp [h c List.mem_cons_self])]
    rw [ih (fun d hd => h d (List.mem_cons_of_mem _ hd))]

theorem segments_join_append (hplain : ∀ segment ∈ dir, Plain segment)
    : segments (join dir ++ key) = dir ++ segments key := by
  induction dir with
  | nil => rfl
  | cons segment dir ih =>
    have hchars := fun c hc => ((hplain segment List.mem_cons_self).chars c hc).1
    rw [join, List.flatMap_cons, List.append_assoc, List.append_assoc, List.singleton_append,
      segments_append_slash hchars, List.cons_append]
    rw [← ih (fun segment hsegment => hplain segment (List.mem_cons_of_mem _ hsegment))]
    rfl

theorem foldl_step_plain (hplain : ∀ segment ∈ dir, Plain segment) (stack : List Segment)
    : dir.foldl step stack = dir.reverse ++ stack := by
  induction dir generalizing stack with
  | nil => rfl
  | cons segment dir ih =>
    have hnoDot := (hplain segment List.mem_cons_self).noDot
    rw [List.foldl_cons, step, hnoDot.1, hnoDot.2, ih (fun s hs => hplain s (List.mem_cons_of_mem _ hs))]
    simp

theorem branches_append {segs : List Segment} (hne : segs ≠ []) : branches (dir ++ segs) = dir ++ branches segs := by
  rw [branches, branches, List.dropLast_append_of_ne_nil hne, List.getLast?_append_of_ne_nil _ hne, List.append_assoc]

/--
The path of a key in a directory: what the key leaves of the directory, what it names there, and its last
segment.
-/
theorem normalize_join_append (hne : dir ≠ []) (hplain : ∀ segment ∈ dir, Plain segment)
    : ∃ last, (normalize (join dir ++ key)).reverse
      = last :: ((climb key).2 ++ dir.reverse.drop (climb key).1) := by
  have hsegments := segments_ne_nil (pathText key)
  refine ⟨leaf (dir ++ segments (pathText key)), ?_⟩
  rw [normalize, List.reverse_reverse, pathText_join_append hne hplain, segments_join_append hplain,
    walk_eq (by simp [hsegments]), branches_append hsegments, List.foldl_append, foldl_step_plain hplain,
    List.append_nil]
  have hfold := foldl_step dir.reverse 0 [] (branches (segments (pathText key)))
  rw [List.nil_append, List.drop_zero] at hfold
  rw [hfold]
  rfl

/--
A key stays in its directory if and only if it names again what it climbs out of.
-/
theorem below_iff (hne : dir ≠ []) (hplain : ∀ segment ∈ dir, Plain segment)
    : Below dir (normalize (join dir ++ key)) ↔ dir.reverse.take (climb key).1 <:+ (climb key).2 := by
  obtain ⟨last, hpath⟩ := @normalize_join_append dir key hne hplain
  generalize hnorm : normalize (join dir ++ key) = path at hpath
  have hsplit := List.take_append_drop (climb key).1 dir.reverse
  constructor
  . rintro ⟨⟨rest, rfl⟩, hlength⟩
    rw [List.reverse_append] at hpath
    cases hrest : rest.reverse with
    | nil =>
      rw [List.reverse_eq_nil_iff.mp hrest] at hlength
      simp at hlength
    | cons head tail =>
      rw [hrest, List.cons_append, List.cons.injEq] at hpath
      exists tail
      have heq : tail ++ (dir.reverse.take (climb key).1 ++ dir.reverse.drop (climb key).1)
          = (climb key).2 ++ dir.reverse.drop (climb key).1 := by
        rw [hsplit]
        exact hpath.2
      rw [← List.append_assoc] at heq
      exact List.append_cancel_right heq
  . rintro ⟨above, habove⟩
    rw [← habove, List.append_assoc, hsplit] at hpath
    have heq : path = dir ++ (above.reverse ++ [last]) := by
      rw [← List.reverse_reverse path, hpath]
      simp
    rw [heq]
    constructor
    . exact List.prefix_append _ _
    . simp

end Directory

end Http.UrlPath
