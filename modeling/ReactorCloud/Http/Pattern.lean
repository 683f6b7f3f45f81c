import Mathlib.Data.List.Lex
import Mathlib.Data.List.MinMax
import Mathlib.Data.List.Pairwise

/-!
This module contains what `matchit` documents of its router. In a pattern `{name}` takes a segment or the rest
of one and `{*name}` all that is left. Static text goes before a parameter, and a parameter before a catch-all.
-/

namespace Http.Pattern

inductive Token where
  | lit (c : Char)
  | param (name : String)
  | catchAll (name : String)
  deriving DecidableEq, Repr

namespace Token

/--
A parameter without its name.
-/
def kind : Token → Token
  | .lit c => .lit c
  | .param _ => .param ""
  | .catchAll _ => .catchAll ""

def rank : Token → Nat
  | .lit _ => 0
  | .param _ => 1
  | .catchAll _ => 2

def named (name : List Char) : Token :=
  match name with
  | '*' :: name => .catchAll (String.ofList name)
  | _ => .param (String.ofList name)

end Token

/--
The tokens of a pattern, `name` being that of the parameter that is open. Doubled braces are static text.
-/
def parse : Option (List Char) → List Char → Option (List Token)
  | none, [] => some []
  | none, '\x7b' :: '\x7b' :: cs => (parse none cs).map (.lit '\x7b' :: ·)
  | none, '\x7d' :: '\x7d' :: cs => (parse none cs).map (.lit '\x7d' :: ·)
  | none, '\x7b' :: cs => parse (some []) cs
  | none, '\x7d' :: _ => none
  | none, c :: cs => (parse none cs).map (.lit c :: ·)
  | some name, '\x7d' :: cs =>
    if name = [] ∨ name = ['*'] then none else (parse none cs).map (.named name :: ·)
  | some _, '\x7b' :: _ => none
  | some _, '/' :: _ => none
  | some name, c :: cs => parse (some (name ++ [c])) cs
  | some _, [] => none

def tokens (pattern : String) : Option (List Token) :=
  parse none pattern.toList

/--
The parameters of a path that a pattern matches. None of them is empty.
-/
def capture : List Token → List Char → Option (List (String × String))
  | [], [] => some []
  | .lit c :: ts, d :: ds => if c = d then capture ts ds else none
  | .param name :: ts, path =>
    let segment := path.takeWhile (· ≠ '/')
    if segment = [] then
      none
    else
      (capture ts (path.dropWhile (· ≠ '/'))).map ((name, String.ofList segment) :: ·)
  | [.catchAll name], path => if path = [] then none else some [(name, String.ofList path)]
  | _, _ => none

def Matches (ts : List Token) (path : List Char) : Prop :=
  (capture ts path).isSome = true

instance {ts : List Token} {path : List Char} : Decidable (Matches ts path) :=
  inferInstanceAs (Decidable (_ = true))

section Matches

variable {c : Char} {name : String} {ts ts' : List Token} {path : List Char}

theorem capture_lit {d : Char} : capture (.lit c :: ts) (d :: path) = if c = d then capture ts path else none := rfl

theorem matches_lit : Matches (.lit c :: ts) path ↔ ∃ rest, path = c :: rest ∧ Matches ts rest := by
  unfold Matches
  cases path with
  | nil =>
    apply iff_of_false Bool.false_ne_true
    intro ⟨rest, heq, _⟩
    cases heq
  | cons d rest =>
    rw [capture_lit]
    constructor
    . intro h
      split at h
      . next heq =>
        subst heq
        exact ⟨rest, rfl, h⟩
      . cases h
    . intro ⟨_, heq, h⟩
      cases heq
      rw [if_pos rfl]
      exact h

theorem capture_param : capture (.param name :: ts) path
    = if path.takeWhile (· ≠ '/') = [] then none
      else (capture ts (path.dropWhile (· ≠ '/'))).map ((name, String.ofList (path.takeWhile (· ≠ '/'))) :: ·) := rfl

theorem matches_param : Matches (.param name :: ts) path
    ↔ path.takeWhile (· ≠ '/') ≠ [] ∧ Matches ts (path.dropWhile (· ≠ '/')) := by
  unfold Matches
  rw [capture_param]
  split
  . next h => exact ⟨nofun, fun h' => absurd h h'.1⟩
  . next h =>
    rw [Option.isSome_map]
    exact ⟨fun h' => ⟨h, h'⟩, fun h' => h'.2⟩

theorem capture_catchAll : capture [.catchAll name] path
    = if path = [] then none else some [(name, String.ofList path)] := rfl

theorem matches_catchAll : Matches (.catchAll name :: ts) path ↔ ts = [] ∧ path ≠ [] := by
  unfold Matches
  cases ts with
  | nil =>
    rw [capture_catchAll]
    split
    . next h => exact iff_of_false Bool.false_ne_true (fun h' => h'.2 h)
    . next h => exact iff_of_true rfl ⟨rfl, h⟩
  | cons t ts => exact iff_of_false Bool.false_ne_true (fun h => List.cons_ne_nil t ts h.1)

/--
Patterns of the same ranks that match one path differ in names only.
-/
theorem kinds_eq_of_ranks (h : Matches ts path) (h' : Matches ts' path)
    (hranks : ts.map Token.rank = ts'.map Token.rank) : ts.map Token.kind = ts'.map Token.kind := by
  induction ts generalizing ts' path with
  | nil =>
    cases ts' with
    | nil => rfl
    | cons t' ts' => cases hranks
  | cons t ts ih =>
    cases ts' with
    | nil => cases hranks
    | cons t' ts' =>
      simp only [List.map_cons, List.cons.injEq] at hranks ⊢
      cases t with
      | lit c =>
        cases t' with
        | lit c' =>
          obtain ⟨rest, rfl, hrest⟩ := matches_lit.mp h
          obtain ⟨rest', heq, hrest'⟩ := matches_lit.mp h'
          cases heq
          exact ⟨rfl, ih hrest hrest' hranks.2⟩
        | param name' => cases hranks.1
        | catchAll name' => cases hranks.1
      | param name =>
        cases t' with
        | lit c' => cases hranks.1
        | param name' => exact ⟨rfl, ih (matches_param.mp h).2 (matches_param.mp h').2 hranks.2⟩
        | catchAll name' => cases hranks.1
      | catchAll name =>
        cases t' with
        | lit c' => cases hranks.1
        | param name' => cases hranks.1
        | catchAll name' =>
          rw [(matches_catchAll.mp h).1, (matches_catchAll.mp h').1]
          exact ⟨rfl, rfl⟩

end Matches

/-! ## Routers -/

inductive InsertError where
  | conflict
  | invalidParam
  | invalidCatchAll
  deriving DecidableEq, Repr

structure PatternRouter where
  Router : Type
  new : Router
  insert : Router → String → Nat → Except InsertError Router
  lookup : Router → String → Option (Nat × List (String × String))

/--
The pattern of the number `i` matches the path.
-/
def MatchesAt (patterns : List String) (i : Nat) (path : String) : Prop :=
  ∃ pattern ts, patterns[i]? = some pattern ∧ tokens pattern = some ts ∧ Matches ts path.toList

def ranksAt (patterns : List String) (i : Nat) : List Nat :=
  ((patterns[i]?.bind tokens).getD []).map Token.rank

/--
The pattern matches the path, and every other one that does is less specific.
-/
def MostSpecific (patterns : List String) (i : Nat) (path : String) : Prop :=
  MatchesAt patterns i path ∧ ∀ j, j ≠ i → MatchesAt patterns j path → ranksAt patterns i < ranksAt patterns j

/--
The patterns are the same but for the names of their parameters.
-/
def SameShape (p q : String) : Prop :=
  ∃ ts ts', tokens p = some ts ∧ tokens q = some ts' ∧ ts.map Token.kind = ts'.map Token.kind

namespace PatternRouter

variable (M : PatternRouter)

/--
The patterns with their numbers, the first of which is `n`.
-/
def insertAll : Nat → List String → M.Router → Except InsertError M.Router
  | _, [], r => .ok r
  | n, pattern :: patterns, r =>
    match M.insert r pattern n with
    | .ok r => insertAll (n + 1) patterns r
    | .error e => .error e

structure Documented : Prop where
  sound : ∀ patterns r path i params, M.insertAll 0 patterns M.new = .ok r →
    M.lookup r path = some (i, params) → MostSpecific patterns i path
  complete : ∀ patterns r path i, M.insertAll 0 patterns M.new = .ok r → MatchesAt patterns i path →
    (M.lookup r path).isSome = true
  conflict : ∀ patterns r, M.insertAll 0 patterns M.new = .ok r →
    patterns.Pairwise (fun p q => ¬ SameShape p q)

end PatternRouter

theorem MostSpecific.unique {patterns : List String} {i j : Nat} {path : String} (h : MostSpecific patterns i path)
    (h' : MostSpecific patterns j path) : i = j := by
  by_contra hne
  have hlt := h.2 j (Ne.symm hne) h'.1
  have hlt' := h'.2 i hne h.1
  exact lt_asymm hlt hlt'

/-! ## A router that looks at all of its patterns -/

def SameKinds (ts ts' : List Token) : Prop :=
  ts.map Token.kind = ts'.map Token.kind

instance {ts ts' : List Token} : Decidable (SameKinds ts ts') :=
  inferInstanceAs (Decidable (_ = _))

abbrev Entry := List Token × Nat

def Entry.ranks (entry : Entry) : List Nat :=
  entry.1.map Token.rank

def listRouter : PatternRouter where
  Router := List Entry
  new := []
  insert entries pattern n :=
    match tokens pattern with
    | none => .error .invalidParam
    | some ts =>
      if ts.dropLast.any (·.rank == 2) then .error .invalidCatchAll
      else if entries.any (fun entry => SameKinds entry.1 ts) then .error .conflict
      else .ok (entries ++ [(ts, n)])
  lookup entries path := do
    let entry ← (entries.filter (fun entry => Matches entry.1 path.toList)).argmin Entry.ranks
    let params ← capture entry.1 path.toList
    some (entry.2, params)

section ListRouter

variable {patterns : List String} {entries entries' : List Entry} {n i j : Nat} {path : String}

theorem listRouter_insert {pattern : String} (h : listRouter.insert entries pattern n = .ok entries')
    : ∃ ts, tokens pattern = some ts ∧ entries' = entries ++ [(ts, n)] ∧ ∀ entry ∈ entries, ¬ SameKinds entry.1 ts := by
  simp only [listRouter] at h
  split at h
  . cases h
  . next ts htokens =>
    split at h
    . cases h
    . split at h
      . cases h
      . next hsame =>
        cases h
        refine ⟨ts, htokens, rfl, ?_⟩
        simpa using hsame

theorem listRouter_insertAll (h : listRouter.insertAll n patterns entries = .ok entries')
    (hdistinct : entries.Pairwise (fun e e' => ¬ SameKinds e.1 e'.1))
    : (∃ tss : List (List Token), patterns.map tokens = tss.map some ∧ entries' = entries ++ tss.zipIdx n)
      ∧ entries'.Pairwise (fun e e' => ¬ SameKinds e.1 e'.1) := by
  induction patterns generalizing n entries with
  | nil =>
    cases h
    exact ⟨⟨[], rfl, by simp⟩, hdistinct⟩
  | cons pattern patterns ih =>
    simp only [PatternRouter.insertAll] at h
    cases hinsert : listRouter.insert entries pattern n with
    | error e =>
      rw [hinsert] at h
      cases h
    | ok next =>
      rw [hinsert] at h
      obtain ⟨ts, htokens, rfl, hfresh⟩ := listRouter_insert hinsert
      have hnext : (entries ++ [(ts, n)]).Pairwise (fun e e' => ¬ SameKinds e.1 e'.1) := by
        apply List.pairwise_append.mpr
        refine ⟨hdistinct, List.pairwise_singleton _ _, ?_⟩
        intro entry hentry new hnew
        rw [List.mem_singleton.mp hnew]
        exact hfresh entry hentry
      obtain ⟨⟨tss, hmap, rfl⟩, hpairwise⟩ := ih h hnext
      refine ⟨⟨ts :: tss, ?_, ?_⟩, hpairwise⟩
      . rw [List.map_cons, List.map_cons, htokens, hmap]
      . rw [List.zipIdx_cons, List.append_assoc, List.singleton_append]

/--
What the router holds are the patterns with their numbers.
-/
theorem listRouter_entries (h : listRouter.insertAll 0 patterns [] = .ok entries)
    : (∀ ts i, (ts, i) ∈ entries ↔ ∃ pattern, patterns[i]? = some pattern ∧ tokens pattern = some ts)
      ∧ ∀ e ∈ entries, ∀ e' ∈ entries, SameKinds e.1 e'.1 → e = e' := by
  obtain ⟨⟨tss, hmap, rfl⟩, hpairwise⟩ := listRouter_insertAll h .nil
  rw [List.nil_append] at hpairwise ⊢
  constructor
  . intro ts i
    have hget : patterns[i]?.map tokens = tss[i]?.map some := by
      rw [← List.getElem?_map, hmap, List.getElem?_map]
    rw [List.mem_zipIdx_iff_getElem?]
    cases hpattern : patterns[i]? with
    | none => cases htss : tss[i]? <;> simp_all
    | some pattern => cases htss : tss[i]? <;> simp_all
  . intro e he e' he' hsame
    by_contra hne
    have : Std.Symm (fun e e' : Entry => ¬ SameKinds e.1 e'.1) := ⟨fun _ _ h h' => h h'.symm⟩
    exact hpairwise.forall he he' hne hsame

theorem ranksAt_eq {ts : List Token} {pattern : String} (hpattern : patterns[i]? = some pattern)
    (htokens : tokens pattern = some ts) : ranksAt patterns i = ts.map Token.rank := by
  rw [ranksAt, hpattern, Option.bind_some, htokens, Option.getD_some]

theorem listRouter_documented : listRouter.Documented where
  sound patterns entries path i params h hlookup := by
    obtain ⟨hentries, hdistinct⟩ := listRouter_entries h
    simp only [listRouter, Option.bind_eq_bind, Option.bind_eq_some_iff, Option.some.injEq, Prod.mk.injEq] at hlookup
    obtain ⟨⟨ts, n⟩, hbest, params', hparams, rfl, rfl⟩ := hlookup
    have hmem := List.mem_filter.mp (List.argmin_mem hbest)
    obtain ⟨pattern, hpattern, htokens⟩ := (hentries ts n).mp hmem.1
    have hmatches : Matches ts path.toList := by simpa using hmem.2
    refine ⟨⟨pattern, ts, hpattern, htokens, hmatches⟩, ?_⟩
    rintro j hne ⟨pattern', ts', hpattern', htokens', hmatches'⟩
    rw [ranksAt_eq hpattern htokens, ranksAt_eq hpattern' htokens']
    have hmem' := (hentries ts' j).mpr ⟨pattern', hpattern', htokens'⟩
    have hle := List.not_lt_of_mem_argmin (List.mem_filter.mpr ⟨hmem', by simpa using hmatches'⟩) hbest
    apply lt_of_le_of_ne (not_lt.mp hle)
    -- of two patterns of the same ranks one would not have been accepted
    intro hranks
    have hsame := hdistinct _ hmem.1 _ hmem' (kinds_eq_of_ranks hmatches hmatches' hranks)
    exact hne (Prod.mk.inj hsame).2.symm
  complete patterns entries path i h hmatches := by
    obtain ⟨pattern, ts, hpattern, htokens, hmatches⟩ := hmatches
    have hmem := ((listRouter_entries h).1 ts i).mpr ⟨pattern, hpattern, htokens⟩
    have hfilter : (ts, i) ∈ entries.filter (fun entry => Matches entry.1 path.toList) :=
      List.mem_filter.mpr ⟨hmem, by simpa using hmatches⟩
    simp only [listRouter]
    cases hbest : (entries.filter (fun entry => Matches entry.1 path.toList)).argmin Entry.ranks with
    | none =>
      rw [List.argmin_eq_none.mp hbest] at hfilter
      cases hfilter
    | some entry =>
      have hentry := (List.mem_filter.mp (List.argmin_mem hbest)).2
      have hcapture : (capture entry.1 path.toList).isSome = true := of_decide_eq_true hentry
      obtain ⟨params, hparams⟩ := Option.isSome_iff_exists.mp hcapture
      simp [hparams]
  conflict patterns entries h := by
    obtain ⟨hentries, hdistinct⟩ := listRouter_entries h
    apply List.pairwise_iff_getElem.mpr
    rintro i j hi hj hlt ⟨ts, ts', htokens, htokens', hkinds⟩
    have hmem := (hentries ts i).mpr ⟨_, List.getElem?_eq_getElem hi, htokens⟩
    have hmem' := (hentries ts' j).mpr ⟨_, List.getElem?_eq_getElem hj, htokens'⟩
    have hsame := hdistinct _ hmem _ hmem' hkinds
    have heq := (Prod.mk.inj hsame).2
    omega

end ListRouter

end Http.Pattern
