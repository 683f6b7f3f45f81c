import Mathlib.Data.List.Sublists
import ReactorCloud.Sites.Routes

/-!
This module contains what the placeholders of a target stand for, and when `expandTarget`, which puts in the
values of one parameter after those of another, puts them in as if all at once.
-/

namespace Reactor.Sites

/--
The parameters of a match. The map has every name once and goes through them in any order.
-/
structure Captured where
  entries : List (String × String)
  nodup : (entries.map (·.1)).Nodup

namespace Captured

def names (captured : Captured) : List (List Char) :=
  captured.entries.map (·.1.toList)

def value (captured : Captured) (name : List Char) : List Char :=
  match captured.entries.find? (·.1.toList == name) with
  | some (_, value) => value.toList
  | none => []

end Captured

/-! ## All at once -/

/--
A hole is a placeholder of a parameter, with a dollar or a colon in front.
-/
inductive Segment where
  | lit (c : Char)
  | hole (sign : Char) (name : List Char)
  deriving DecidableEq, Repr

def longer (cs : List Char) (best : Option (List Char)) (name : List Char) : Option (List Char) :=
  if name.isPrefixOf cs && best.all (fun b => decide (b.length < name.length)) then some name else best

/--
The longest name the text starts with.
-/
def longest (names : List (List Char)) (cs : List Char) : Option (List Char) :=
  names.foldl (longer cs) none

/--
The first `skip` characters belong to the placeholder before them.
-/
def segmentsFrom (names : List (List Char)) : Nat → List Char → List Segment
  | _, [] => []
  | skip + 1, _ :: cs => segmentsFrom names skip cs
  | 0, c :: cs =>
    if c == '$' || c == ':' then
      match longest names cs with
      | some name => .hole c name :: segmentsFrom names name.length cs
      | none => .lit c :: segmentsFrom names 0 cs
    else
      .lit c :: segmentsFrom names 0 cs

def Captured.segments (captured : Captured) (target : String) : List Segment :=
  segmentsFrom captured.names 0 target.toList

/--
The text of a segment when some of the holes are filled.
-/
def Segment.text (value : List Char → List Char) (filled : Char → List Char → Bool) : Segment → List Char
  | .lit c => [c]
  | .hole sign name => if filled sign name then value name else sign :: name

def substitute (captured : Captured) (target : String) : String :=
  String.ofList ((captured.segments target).flatMap (Segment.text captured.value fun _ _ => true))

/--
In every order of the parameters the target becomes what it is with all of them put in at once.
-/
def Simultaneous (captured : Captured) (target : String) : Prop :=
  ∀ params, params.Perm captured.entries → expandTarget target params = substitute captured target

example : substitute ⟨[("id", ":x"), ("idx", "9"), ("x", "$id")], by decide⟩ "/$idx/:id.$x:y" = "/9/:x.$id:y" := by
  decide

/--
The value of `id` is put into the placeholder of `idx`.
-/
theorem not_simultaneous : ¬ ∀ captured target, Simultaneous captured target := by
  intro h
  have := h ⟨[("id", "7"), ("idx", "9")], by decide⟩ "/$idx" _ (List.Perm.refl _)
  revert this
  decide

/-! ## When it holds -/

/--
The placeholder starts nowhere but at its own holes.
-/
def OnlyWhole (shown : Segment → List Char) (sign : Char) (name : List Char) : List Segment → Prop
  | [] => True
  | segment :: segments =>
    (segment = .hole sign name
      ∨ ∀ i < (shown segment).length, ¬ (sign :: name) <+: (shown segment ++ segments.flatMap shown).drop i)
    ∧ OnlyWhole shown sign name segments

instance decidableOnlyWhole (shown : Segment → List Char) (sign : Char) (name : List Char)
    : (segments : List Segment) → Decidable (OnlyWhole shown sign name segments)
  | [] => inferInstanceAs (Decidable True)
  | _ :: segments =>
    have := decidableOnlyWhole shown sign name segments
    inferInstanceAs (Decidable (_ ∧ _))

def filledBy (done : List (List Char)) (_ : Char) (name : List Char) : Bool :=
  decide (name ∈ done)

def fill (filled : Char → List Char → Bool) (sign : Char) (name : List Char) : Char → List Char → Bool :=
  fun sign' name' => filled sign' name' || (sign' == sign && name' == name)

/--
However the holes of some names have been filled, the placeholders of another name start in the text at its holes only.
-/
def Clear (captured : Captured) (target : String) : Prop :=
  ∀ done ∈ captured.names.sublists, ∀ name ∈ captured.names, name ∉ done →
    OnlyWhole (Segment.text captured.value (filledBy done)) '$' name (captured.segments target)
    ∧ OnlyWhole (Segment.text captured.value (fill (filledBy done) '$' name)) ':' name (captured.segments target)

instance (captured : Captured) (target : String) : Decidable (Clear captured target) :=
  inferInstanceAs (Decidable (∀ done ∈ captured.names.sublists, ∀ name ∈ captured.names, name ∉ done → _ ∧ _))

/-! The holes of a target -/

variable {names : List (List Char)} {cs name : List Char} {sign : Char}

theorem longest_spec (h : longest names cs = some name) : name ∈ names ∧ name <+: cs := by
  have hall : ∀ name ∈ longest names cs, name ∈ names ∧ name <+: cs := by
    apply List.foldlRecOn (motive := fun best => ∀ name ∈ best, name ∈ names ∧ name <+: cs)
    . nofun
    . intro best hbest name hname name' hname'
      unfold longer at hname'
      split at hname'
      . next hcond =>
        cases hname'
        rw [Bool.and_eq_true, List.isPrefixOf_iff_prefix] at hcond
        exact ⟨hname, hcond.1⟩
      . exact hbest name' hname'
  exact hall name h

theorem mem_segmentsFrom {skip : Nat} (h : .hole sign name ∈ segmentsFrom names skip cs)
    : (sign = '$' ∨ sign = ':') ∧ name ∈ names := by
  induction cs generalizing skip with
  | nil => cases skip <;> cases h
  | cons c cs ih =>
    cases skip with
    | succ skip => exact ih h
    | zero =>
      simp only [segmentsFrom] at h
      split at h
      . next hsign =>
        split at h
        . next name' hlongest =>
          cases h with
          | head =>
            refine ⟨?_, (longest_spec hlongest).1⟩
            simpa only [Bool.or_eq_true, beq_iff_eq] using hsign
          | tail _ h => exact ih h
        . cases h with
          | tail _ h => exact ih h
      . cases h with
        | tail _ h => exact ih h

/--
With no hole filled the segments are the text they come from.
-/
theorem text_segmentsFrom (value : List Char → List Char) (skip : Nat)
    : (segmentsFrom names skip cs).flatMap (Segment.text value (filledBy [])) = cs.drop skip := by
  induction cs generalizing skip with
  | nil => cases skip <;> rfl
  | cons c cs ih =>
    cases skip with
    | succ skip => exact ih skip
    | zero =>
      simp only [segmentsFrom]
      split
      . split
        . next name hlongest =>
          obtain ⟨rest, rfl⟩ := (longest_spec hlongest).2
          rw [List.flatMap_cons, ih, List.drop_left]
          rfl
        . rw [List.flatMap_cons, ih]
          rfl
      . rw [List.flatMap_cons, ih]
        rfl

/-! One replacement -/

theorem replaceFrom_drop (pattern sub : List Char) (skip : Nat) (cs : List Char)
    : replaceFrom pattern sub skip cs = replaceFrom pattern sub 0 (cs.drop skip) := by
  induction cs generalizing skip with
  | nil => cases skip <;> simp only [List.drop_nil, replaceFrom]
  | cons c cs ih =>
    cases skip with
    | zero => rfl
    | succ skip => exact ih skip

/--
Characters at which the pattern does not start stay as they are.
-/
theorem replaceFrom_quiet (pattern sub : List Char) {cs rest : List Char}
    (h : ∀ i < cs.length, ¬ pattern <+: (cs ++ rest).drop i)
    : replaceFrom pattern sub 0 (cs ++ rest) = cs ++ replaceFrom pattern sub 0 rest := by
  induction cs with
  | nil => rfl
  | cons c cs ih =>
    have hhead : ¬ pattern.isPrefixOf (c :: (cs ++ rest)) = true := by
      rw [List.isPrefixOf_iff_prefix]
      exact h 0 (Nat.zero_lt_succ _)
    rw [List.cons_append, replaceFrom, if_neg hhead, ih, List.cons_append]
    intro i hi
    exact h (i + 1) (Nat.succ_lt_succ hi)

theorem replaceFrom_self (sign : Char) (name sub rest : List Char)
    : replaceFrom (sign :: name) sub 0 (sign :: name ++ rest) = sub ++ replaceFrom (sign :: name) sub 0 rest := by
  have hhead : (sign :: name).isPrefixOf (sign :: (name ++ rest)) = true := by
    rw [List.isPrefixOf_iff_prefix]
    exact ⟨rest, rfl⟩
  rw [List.cons_append, replaceFrom, if_pos hhead, replaceFrom_drop, List.length_cons, Nat.add_sub_cancel,
    List.drop_left]

variable {value : List Char → List Char} {filled filled' : Char → List Char → Bool} {segments : List Segment}

theorem Segment.text_congr {segment : Segment}
    (h : ∀ sign name, segment = .hole sign name → filled sign name = filled' sign name)
    : segment.text value filled = segment.text value filled' := by
  cases segment with
  | lit c => rfl
  | hole sign name => rw [Segment.text, Segment.text, h sign name rfl]

theorem flatMap_text_congr (h : ∀ sign name, .hole sign name ∈ segments → filled sign name = filled' sign name)
    : segments.flatMap (Segment.text value filled) = segments.flatMap (Segment.text value filled') := by
  apply List.flatMap_congr
  intro segment hsegment
  apply Segment.text_congr
  rintro sign name rfl
  exact h sign name hsegment

/--
A replacement fills the holes of its placeholder.
-/
theorem replace_text (hunfilled : filled sign name = false)
    (honly : OnlyWhole (Segment.text value filled) sign name segments)
    : replace (sign :: name) (value name) (segments.flatMap (Segment.text value filled))
        =
      segments.flatMap (Segment.text value (fill filled sign name)) := by
  unfold replace
  induction segments with
  | nil => rfl
  | cons segment segments ih =>
    have ih := ih honly.2
    rw [List.flatMap_cons, List.flatMap_cons]
    by_cases hown : segment = .hole sign name
    . subst hown
      have hfilled : Segment.text value (fill filled sign name) (.hole sign name) = value name := by
        simp [Segment.text, fill]
      rw [hfilled, Segment.text, if_neg (by rw [hunfilled]; decide), replaceFrom_self, ih]
    . have hsame : segment.text value (fill filled sign name) = segment.text value filled := by
        apply Segment.text_congr
        rintro sign' name' rfl
        have hne : ¬ (sign' = sign ∧ name' = name) := by
          rintro ⟨rfl, rfl⟩
          exact hown rfl
        simp only [fill, Bool.or_eq_left_iff_imp, Bool.and_eq_true, beq_iff_eq]
        intro heq
        exact absurd heq hne
      rw [replaceFrom_quiet _ _ (honly.1.resolve_left hown), ih, hsame]

/-! All replacements -/

variable {captured : Captured} {target : String}

theorem value_of_mem {key value : String} (h : (key, value) ∈ captured.entries)
    : captured.value key.toList = value.toList := by
  have hperm := captured.nodup
  unfold Captured.value
  cases hfind : captured.entries.find? (·.1.toList == key.toList) with
  | none =>
    have := List.find?_eq_none.mp hfind _ h
    simp only [beq_self_eq_true, not_true_eq_false] at this
  | some entry =>
    have hkey : entry.1 = key := by
      have := List.find?_some hfind
      rw [beq_iff_eq] at this
      exact String.toList_inj.mp this
    have hentry : entry = (key, value) :=
      List.inj_on_of_nodup_map captured.nodup (List.mem_of_find?_eq_some hfind) h hkey
    rw [hentry]

theorem Clear.onlyWhole (h : Clear captured target) {done : List (List Char)} (hdone : done ⊆ captured.names)
    (hname : name ∈ captured.names) (hnew : name ∉ done)
    : OnlyWhole (Segment.text captured.value (filledBy done)) '$' name (captured.segments target)
      ∧ OnlyWhole (Segment.text captured.value (fill (filledBy done) '$' name)) ':' name (captured.segments target) := by
  have hmem : ∀ n, n ∈ captured.names.filter (· ∈ done) ↔ n ∈ done := by
    intro n
    rw [List.mem_filter, decide_eq_true_eq]
    constructor
    . exact fun h => h.2
    . exact fun h => ⟨hdone h, h⟩
  have hfilled : filledBy (captured.names.filter (· ∈ done)) = filledBy done := by
    funext sign n
    simp only [filledBy, hmem]
  rw [← hfilled]
  apply h _ (List.mem_sublists.mpr List.filter_sublist) name hname
  rw [hmem]
  exact hnew

/--
The parameter that comes next fills its holes.
-/
theorem expand_next (h : Clear captured target) {done : List (List Char)} (hdone : done ⊆ captured.names)
    (hname : name ∈ captured.names) (hnew : name ∉ done)
    : replace (':' :: name) (captured.value name) (replace ('$' :: name) (captured.value name)
        ((captured.segments target).flatMap (Segment.text captured.value (filledBy done))))
        =
      (captured.segments target).flatMap (Segment.text captured.value (filledBy (name :: done))) := by
  have honly := h.onlyWhole hdone hname hnew
  have hdollar : filledBy done '$' name = false := decide_eq_false hnew
  have hcolon : fill (filledBy done) '$' name ':' name = false := by
    simp [fill, filledBy, hnew]
  rw [replace_text hdollar honly.1, replace_text hcolon honly.2]
  apply flatMap_text_congr
  intro sign' name' hhole
  have hsign := (mem_segmentsFrom hhole).1
  by_cases hmem : name' ∈ done
  . simp [fill, filledBy, hmem]
  . rcases hsign with rfl | rfl
      <;> simp [fill, filledBy, hmem, Bool.beq_eq_decide_eq]

theorem expand_all (h : Clear captured target) (params : List (String × String)) {done : List (List Char)}
    (hdone : done ⊆ captured.names) (hparams : params ⊆ captured.entries)
    (hnew : ∀ key ∈ params.map (·.1), key.toList ∉ done) (hnodup : (params.map (·.1)).Nodup)
    : params.foldl (fun result (key, value) =>
        replace (':' :: key.toList) value.toList (replace ('$' :: key.toList) value.toList result))
        ((captured.segments target).flatMap (Segment.text captured.value (filledBy done)))
        =
      (captured.segments target).flatMap
        (Segment.text captured.value (filledBy ((params.map (·.1.toList)).reverse ++ done))) := by
  induction params generalizing done with
  | nil => rfl
  | cons param params ih =>
    obtain ⟨key, value⟩ := param
    rw [List.cons_subset] at hparams
    rw [List.map_cons, List.nodup_cons] at hnodup
    have hname : key.toList ∈ captured.names := List.mem_map_of_mem (f := (·.1.toList)) hparams.1
    have hfresh : key.toList ∉ done := hnew key List.mem_cons_self
    have hnext := expand_next h hdone hname hfresh
    rw [value_of_mem hparams.1] at hnext
    rw [List.foldl_cons]
    dsimp only
    rw [hnext, ih (List.cons_subset.mpr ⟨hname, hdone⟩) hparams.2 _ hnodup.2]
    . simp only [List.map_cons, List.reverse_cons, List.append_assoc, List.singleton_append]
    . intro key' hkey' hmem
      rcases List.mem_cons.mp hmem with heq | hmem
      . rw [String.toList_inj.mp heq] at hkey'
        exact hnodup.1 hkey'
      . exact hnew key' (List.mem_cons_of_mem _ hkey') hmem

theorem simultaneous_of_clear (h : Clear captured target) : Simultaneous captured target := by
  intro params hperm
  have hnodup : (params.map (·.1)).Nodup := (hperm.map _).nodup_iff.mpr captured.nodup
  have hall := expand_all h params (List.nil_subset _) hperm.subset (fun _ _ => List.not_mem_nil) hnodup
  have htext : (captured.segments target).flatMap (Segment.text captured.value (filledBy [])) = target.toList :=
    text_segmentsFrom captured.value 0
  unfold expandTarget substitute
  rw [← htext]
  apply congrArg
  refine hall.trans ?_
  apply flatMap_text_congr
  intro sign name hhole
  have hmem := (mem_segmentsFrom hhole).2
  simp only [filledBy, decide_eq_true_eq, List.append_nil, List.mem_reverse]
  rw [Captured.names] at hmem
  exact ((hperm.map _).mem_iff).mpr hmem

theorem simultaneous_of_clear_files
    : Simultaneous ⟨[("id", "a:b$"), ("file", "x")], by decide⟩ "/$id/:file?of=:id" :=
  simultaneous_of_clear (by decide)

end Reactor.Sites
