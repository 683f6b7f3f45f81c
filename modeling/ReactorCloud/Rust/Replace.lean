import Mathlib.Data.List.Basic

/-!
This module contains a theory of replacing all occurrences in a text, as the `replace_all` of regular expressions
does, for families of recognizers whose occurrences never overlap.
-/

namespace Rust.Replace

variable {α β κ : Type}

/--
What the occurrence at the beginning of a text captures and the text after it.
-/
abbrev Recognizer (α β : Type) := List α → Option (β × List α)

inductive Piece (α β : Type) where
  | text (c : α)
  | found (b : β) (raw : List α)

namespace Piece

def raw : Piece α β → List α
  | text c => [c]
  | found _ raw => raw

/--
The piece with `f` in the place of an occurrence.
-/
def replaced (f : β → List α) : Piece α β → List α
  | text c => [c]
  | found b _ => f b

end Piece

/--
The pieces of a text from left to right, after the first `skip` items.
-/
def piecesFrom (m : Recognizer α β) : Nat → List α → List (Piece α β)
  | _, [] => []
  | skip + 1, _ :: s => piecesFrom m skip s
  | 0, c :: s =>
    match m (c :: s) with
    | some (b, rest) =>
      .found b ((c :: s).take (s.length + 1 - rest.length)) :: piecesFrom m (s.length - rest.length) s
    | none => .text c :: piecesFrom m 0 s

def pieces (m : Recognizer α β) (s : List α) : List (Piece α β) :=
  piecesFrom m 0 s

def replaceAll (m : Recognizer α β) (f : β → List α) (s : List α) : List α :=
  (pieces m s).flatMap (Piece.replaced f)

/--
Nothing occurs in the text.
-/
def Free (m : Recognizer α β) (s : List α) : Prop :=
  ∀ u v, s = u ++ v → m v = none

/--
Whether an occurrence is one does not depend on what follows it, none begins inside another and no two begin at the
same place.
-/
structure Separated (m : κ → Recognizer α β) : Prop where
  nil : ∀ k, m k [] = none
  raw : ∀ {k s b rest}, m k s = some (b, rest) → ∃ raw, s = raw ++ rest ∧ ∀ t, m k (raw ++ t) = some (b, t)
  inside : ∀ {k l u v b}, m k (u ++ v) = some (b, []) → u ≠ [] → v ≠ [] → ∀ t, m l (v ++ t) = none
  unique : ∀ {k l s x y}, m k s = some x → m l s = some y → k = l

@[simp]
theorem pieces_nil (m : Recognizer α β) : pieces m [] = [] := rfl

theorem pieces_text {m : Recognizer α β} {c : α} {s : List α} (h : m (c :: s) = none)
    : pieces m (c :: s) = .text c :: pieces m s := by
  unfold pieces
  rw [piecesFrom]
  simp only [h]

theorem piecesFrom_append (m : Recognizer α β) (u v : List α)
    : piecesFrom m u.length (u ++ v) = pieces m v := by
  induction u with
  | nil => rfl
  | cons c u ih =>
    rw [List.length_cons, List.cons_append, piecesFrom]
    apply ih

@[simp]
theorem replaceAll_nil (m : Recognizer α β) (f : β → List α) : replaceAll m f [] = [] := rfl

theorem replaceAll_text {m : Recognizer α β} {c : α} {s : List α} (f : β → List α) (h : m (c :: s) = none)
    : replaceAll m f (c :: s) = c :: replaceAll m f s := by
  unfold replaceAll
  rw [pieces_text h]
  rfl

theorem Free.of_append {m : Recognizer α β} {u v : List α} (h : Free m (u ++ v)) : Free m v := by
  intro x y hxy
  apply h (u ++ x)
  rw [hxy, List.append_assoc]

namespace Separated

variable {m : κ → Recognizer α β} {k l : κ} {b : β} {raw s u v : List α}

theorem found (h : Separated m) (hs : m k s = some (b, v))
    : ∃ raw, raw ≠ [] ∧ m k raw = some (b, []) ∧ s = raw ++ v := by
  obtain ⟨raw, hraw, hall⟩ := h.raw hs
  have hocc := hall []
  rw [List.append_nil] at hocc
  refine ⟨raw, ?_, hocc, hraw⟩
  intro hnil
  rw [hnil, h.nil] at hocc
  cases hocc

theorem append (h : Separated m) (hraw : m k raw = some (b, [])) (v : List α)
    : m k (raw ++ v) = some (b, v) := by
  obtain ⟨raw', heq, hall⟩ := h.raw hraw
  rw [List.append_nil] at heq
  rw [heq]
  apply hall

theorem ne_nil (h : Separated m) (hraw : m k raw = some (b, [])) : raw ≠ [] := by
  intro hnil
  rw [hnil, h.nil] at hraw
  cases hraw

theorem pieces_found (h : Separated m) (hraw : m k raw = some (b, [])) (v : List α)
    : pieces (m k) (raw ++ v) = .found b raw :: pieces (m k) v := by
  cases raw with
  | nil =>
    rw [h.nil] at hraw
    cases hraw
  | cons c raw =>
    have hfound := h.append hraw v
    rw [List.cons_append] at hfound
    unfold pieces
    rw [List.cons_append, piecesFrom]
    simp only [hfound]
    have hone : (raw ++ v).length + 1 - v.length = (c :: raw).length := by
      simp only [List.length_append, List.length_cons]
      omega
    have hlen : (raw ++ v).length - v.length = raw.length := by
      rw [List.length_append]
      omega
    rw [hone, hlen, ← List.cons_append, List.take_left, piecesFrom_append]
    rfl

theorem replaceAll_found (h : Separated m) (hraw : m k raw = some (b, [])) (f : β → List α) (v : List α)
    : replaceAll (m k) f (raw ++ v) = f b ++ replaceAll (m k) f v := by
  unfold replaceAll
  rw [h.pieces_found hraw]
  rfl

/--
The induction over the pieces of a text.
-/
theorem induct (h : Separated m) (k : κ) {P : List α → Prop} (nil : P [])
    (text : ∀ c s, m k (c :: s) = none → P s → P (c :: s))
    (found : ∀ raw b s, m k raw = some (b, []) → P s → P (raw ++ s)) (s : List α) : P s := by
  induction hn : s.length using Nat.strongRecOn generalizing s with
  | _ n ih =>
    cases s with
    | nil => exact nil
    | cons c s =>
      cases hm : m k (c :: s) with
      | none =>
        apply text c s hm
        apply ih s.length _ s rfl
        rw [← hn, List.length_cons]
        omega
      | some x =>
        obtain ⟨b, rest⟩ := x
        obtain ⟨raw, hne, hraw, heq⟩ := h.found hm
        have hlen := congrArg List.length heq
        have hpos := List.length_pos_iff.mpr hne
        rw [List.length_append] at hlen
        rw [heq]
        apply found raw b rest hraw
        apply ih rest.length _ rest rfl
        omega

/--
Text in which nothing begins stays.
-/
theorem replaceAll_append_of_none (f : β → List α) (v : List α)
    (hnone : ∀ x y, u = x ++ y → y ≠ [] → m k (y ++ v) = none)
    : replaceAll (m k) f (u ++ v) = u ++ replaceAll (m k) f v := by
  induction u with
  | nil => rfl
  | cons c u ih =>
    rw [List.cons_append, replaceAll_text f, ih]
    . rfl
    . intro x y hxy hy
      apply hnone (c :: x) y _ hy
      rw [hxy]
      rfl
    . apply hnone [] (c :: u) rfl
      apply List.cons_ne_nil

/--
An occurrence of another kind stays as it is.
-/
theorem replaceAll_other (h : Separated m) (hraw : m l raw = some (b, [])) (hkl : k ≠ l) (f : β → List α)
    (v : List α) : replaceAll (m k) f (raw ++ v) = raw ++ replaceAll (m k) f v := by
  apply replaceAll_append_of_none
  intro x y hxy hy
  cases x with
  | nil =>
    rw [List.nil_append] at hxy
    rw [← hxy]
    rw [Option.eq_none_iff_forall_ne_some]
    intro z hz
    exact hkl (h.unique hz (h.append hraw v))
  | cons c x =>
    rw [hxy] at hraw
    apply h.inside hraw _ hy
    apply List.cons_ne_nil

/--
An occurrence cuts the text, as no other one reaches into it.
-/
theorem replaceAll_cut (h : Separated m) (hraw : m l raw = some (b, [])) (k : κ) (f : β → List α) (u v : List α)
    : replaceAll (m k) f (u ++ (raw ++ v)) = replaceAll (m k) f u ++ replaceAll (m k) f (raw ++ v) := by
  induction u using h.induct k with
  | nil => rfl
  | text c u hnone ih =>
    rw [replaceAll_text f hnone, List.cons_append, replaceAll_text, ih]
    . rfl
    . rw [Option.eq_none_iff_forall_ne_some]
      intro x hx
      obtain ⟨b', rest⟩ := x
      obtain ⟨raw', -, hraw', heq⟩ := h.found hx
      rw [← List.cons_append, List.append_eq_append_iff] at heq
      cases heq with
      | inl hlong =>
        -- The occurrence would reach into `raw`.
        obtain ⟨y, rfl, hy⟩ := hlong
        have hbegins := h.append hraw v
        cases y with
        | nil =>
          have := h.append hraw' []
          rw [List.append_nil, List.append_nil, hnone] at this
          cases this
        | cons d y =>
          have := h.inside (l := l) hraw' (List.cons_ne_nil _ _) (List.cons_ne_nil _ _) rest
          rw [← hy, hbegins] at this
          cases this
      | inr hshort =>
        obtain ⟨y, hy, -⟩ := hshort
        have := h.append hraw' y
        rw [← hy, hnone] at this
        cases this
  | found raw' b' u hraw' ih =>
    rw [h.replaceAll_found hraw', List.append_assoc, h.replaceAll_found hraw', ih, List.append_assoc]

end Separated

/-! Leaving occurrences out -/

def deleteAll (m : Recognizer α β) (s : List α) : List α :=
  replaceAll m (fun _ => []) s

theorem free_nil {m : Recognizer α β} (h : m [] = none) : Free m [] := by
  intro u v huv
  rw [List.nil_eq_append_iff] at huv
  rw [huv.2]
  exact h

theorem free_cons {m : Recognizer α β} {c : α} {s : List α} (hc : m (c :: s) = none) (hs : Free m s)
    : Free m (c :: s) := by
  intro u v huv
  cases u with
  | nil =>
    rw [List.nil_append] at huv
    rw [← huv]
    exact hc
  | cons d u =>
    rw [List.cons_append, List.cons.injEq] at huv
    exact hs u v huv.2

theorem deleteAll_of_free {m : Recognizer α β} {s : List α} (h : Free m s) : deleteAll m s = s := by
  induction s with
  | nil => rfl
  | cons c s ih =>
    unfold deleteAll at ih ⊢
    rw [replaceAll_text _ (h [] _ rfl), ih]
    exact @Free.of_append _ _ m [c] s h

/--
The texts between the pieces at which a text is cut.
-/
def runsFrom (cut : Piece α β → Bool) (shown : Piece α β → List α) (run : List α)
    : List (Piece α β) → List (List α)
  | [] => [run]
  | p :: ps => if cut p then run :: runsFrom cut shown [] ps else runsFrom cut shown (run ++ shown p) ps

theorem flatten_runsFrom (cut : Piece α β → Bool) (shown : Piece α β → List α) (run : List α)
    (ps : List (Piece α β))
    : (runsFrom cut shown run ps).flatten = run ++ ps.flatMap (fun p => if cut p then [] else shown p) := by
  induction ps generalizing run with
  | nil => simp [runsFrom]
  | cons p ps ih =>
    rw [runsFrom, List.flatMap_cons]
    split
    . rw [List.flatten_cons, ih, List.nil_append]
    . rw [ih, List.append_assoc]

namespace Separated

variable {m : κ → Recognizer α β} {k : κ} {s : List α}

theorem length_deleteAll_le (h : Separated m) (k : κ) (s : List α) : (deleteAll (m k) s).length ≤ s.length := by
  unfold deleteAll
  induction s using h.induct k with
  | nil => exact Nat.le_refl _
  | text c s hnone ih =>
    rw [replaceAll_text _ hnone, List.length_cons, List.length_cons]
    omega
  | found raw b s hraw ih =>
    rw [h.replaceAll_found hraw, List.nil_append, List.length_append]
    omega

theorem free_of_length (h : Separated m) (hlen : (deleteAll (m k) s).length = s.length) : Free (m k) s := by
  unfold deleteAll at hlen
  induction s using h.induct k with
  | nil => apply free_nil (h.nil k)
  | text c s hnone ih =>
    rw [replaceAll_text _ hnone, List.length_cons, List.length_cons, Nat.add_right_cancel_iff] at hlen
    exact free_cons hnone (ih hlen)
  | found raw b s hraw ih =>
    have hle := h.length_deleteAll_le k s
    have hpos := List.length_pos_iff.mpr (h.ne_nil hraw)
    unfold deleteAll at hle
    rw [h.replaceAll_found hraw, List.nil_append, List.length_append] at hlen
    omega

theorem deleteAll_eq_iff (h : Separated m) : deleteAll (m k) s = s ↔ Free (m k) s := by
  constructor
  . intro heq
    apply h.free_of_length
    rw [heq]
  . apply deleteAll_of_free

theorem length_flatMap_deleteAll_le (h : Separated m) (k : κ) (rs : List (List α))
    : (rs.flatMap (deleteAll (m k))).length ≤ rs.flatten.length := by
  induction rs with
  | nil => simp
  | cons r rs ih =>
    have := h.length_deleteAll_le k r
    rw [List.flatMap_cons, List.flatten_cons, List.length_append, List.length_append]
    omega

/--
Only texts in which nothing occurs stay whole together.
-/
theorem flatMap_deleteAll_eq_iff (h : Separated m) {rs : List (List α)}
    : rs.flatMap (deleteAll (m k)) = rs.flatten ↔ ∀ r ∈ rs, Free (m k) r := by
  induction rs with
  | nil => simp
  | cons r rs ih =>
    rw [List.flatMap_cons, List.flatten_cons, List.forall_mem_cons, ← ih, ← h.deleteAll_eq_iff]
    constructor
    . intro heq
      have hlen := congrArg List.length heq
      have hhead := h.length_deleteAll_le k r
      have htail := h.length_flatMap_deleteAll_le k rs
      rw [List.length_append, List.length_append] at hlen
      apply List.append_inj heq
      omega
    . rintro ⟨hhead, htail⟩
      rw [hhead, htail]

theorem deleteAll_runsFrom (h : Separated m) {γ : Type} {cut : Piece α γ → Bool} {shown : Piece α γ → List α}
    {ps : List (Piece α γ)} (hcut : ∀ p ∈ ps, cut p = true → ∃ b, m k p.raw = some (b, [])) (run : List α)
    : deleteAll (m k) (run ++ ps.flatMap (fun p => if cut p then p.raw else shown p))
      = (runsFrom cut shown run ps).flatMap (deleteAll (m k)) := by
  induction ps generalizing run with
  | nil => simp [runsFrom]
  | cons p ps ih =>
    have hrest := fun q hq => hcut q (List.mem_cons_of_mem _ hq)
    rw [runsFrom, List.flatMap_cons]
    split
    next htrue =>
      obtain ⟨b, hraw⟩ := hcut p List.mem_cons_self htrue
      have hnil := ih hrest []
      unfold deleteAll at hnil ⊢
      rw [h.replaceAll_cut hraw, h.replaceAll_found hraw, List.flatMap_cons, ← hnil]
      rfl
    next hfalse => rw [← List.append_assoc, ih hrest]

end Separated

/-! All kinds at once -/

/--
The recognizer of all `kinds` together.
-/
def any (kinds : List κ) (m : κ → Recognizer α β) : Recognizer α (κ × β) := fun s =>
  kinds.findSome? (fun k => (m k s).map (fun x => ((k, x.1), x.2)))

namespace Piece

variable [DecidableEq κ]

/--
The piece with only the occurrences of one kind replaced.
-/
def only (k : κ) (f : β → List α) : Piece α (κ × β) → List α
  | text c => [c]
  | found (l, b) raw => if l = k then f b else raw

end Piece

namespace Separated

variable {m : κ → Recognizer α β} {kinds : List κ} {k : κ} {b : β} {s rest : List α}

theorem any_eq_some (h : Separated m) (hall : ∀ k, k ∈ kinds)
    : any kinds m s = some ((k, b), rest) ↔ m k s = some (b, rest) := by
  constructor
  . intro heq
    obtain ⟨l, -, hl⟩ := List.exists_of_findSome?_eq_some heq
    rw [Option.map_eq_some_iff] at hl
    obtain ⟨x, hx, hout⟩ := hl
    simp only [Prod.mk.injEq] at hout
    obtain ⟨⟨rfl, rfl⟩, rfl⟩ := hout
    exact hx
  . intro hk
    cases hany : any kinds m s with
    | none =>
      unfold any at hany
      rw [List.findSome?_eq_none_iff] at hany
      have := hany k (hall k)
      rw [hk] at this
      cases this
    | some x =>
      obtain ⟨l, -, hl⟩ := List.exists_of_findSome?_eq_some hany
      rw [Option.map_eq_some_iff] at hl
      obtain ⟨y, hy, rfl⟩ := hl
      have := h.unique hk hy
      subst this
      rw [hk, Option.some.injEq] at hy
      rw [← hy]

theorem of_any (h : Separated m) (hall : ∀ k, k ∈ kinds) {x : κ × β} (hs : any kinds m s = some (x, rest))
    : m x.1 s = some (x.2, rest) :=
  (h.any_eq_some hall).mp hs

theorem any_eq_none (h : Separated m) (hall : ∀ k, k ∈ kinds)
    : any kinds m s = none ↔ ∀ k, m k s = none := by
  rw [Option.eq_none_iff_forall_ne_some]
  constructor
  . intro hany k
    rw [Option.eq_none_iff_forall_ne_some]
    intro x hx
    exact hany ((k, x.1), x.2) ((h.any_eq_some hall).mpr hx)
  . intro hnone x hx
    have : m x.1.1 s = some (x.1.2, x.2) := h.of_any hall hx
    rw [hnone] at this
    cases this

protected theorem any (h : Separated m) (hall : ∀ k, k ∈ kinds) : Separated (fun _ : Unit => any kinds m) := by
  constructor
  case nil =>
    intro _
    rw [h.any_eq_none hall]
    exact h.nil
  case raw =>
    intro _ s x rest hs
    obtain ⟨raw, hraw, ht⟩ := h.raw (h.of_any hall hs)
    refine ⟨raw, hraw, ?_⟩
    intro t
    exact (h.any_eq_some hall).mpr (ht t)
  case inside =>
    intro _ _ u v x huv hu hv t
    rw [h.any_eq_none hall]
    intro k
    exact h.inside (h.of_any hall huv) hu hv t
  case unique =>
    intros
    rfl

/--
Replacing the occurrences of one kind leaves the pieces of the other kinds as they are.
-/
theorem replaceAll_eq_only [DecidableEq κ] (h : Separated m) (hall : ∀ k, k ∈ kinds) (k : κ) (f : β → List α)
    (s : List α) : replaceAll (m k) f s = (pieces (any kinds m) s).flatMap (Piece.only k f) := by
  induction s using (h.any hall).induct () with
  | nil => rfl
  | text c s hnone ih =>
    have := (h.any_eq_none hall).mp hnone k
    rw [replaceAll_text f this, pieces_text hnone, ih]
    rfl
  | found raw x s hraw ih =>
    have hfound := h.of_any hall hraw
    rw [(h.any hall).pieces_found (k := ()) hraw, List.flatMap_cons, ← ih]
    unfold Piece.only
    dsimp only
    split
    next heq =>
      subst heq
      apply h.replaceAll_found hfound
    next hne =>
      apply h.replaceAll_other hfound
      exact Ne.symm hne

/--
The occurrences among the pieces of a text are occurrences on their own.
-/
theorem occurs_of_mem_pieces (h : Separated m) {raw : List α} (hmem : .found b raw ∈ pieces (m k) s)
    : m k raw = some (b, []) := by
  induction s using h.induct k with
  | nil => cases hmem
  | text c s hnone ih =>
    rw [pieces_text hnone, List.mem_cons] at hmem
    cases hmem with
    | inl heq => cases heq
    | inr hmem => exact ih hmem
  | found raw' b' s hraw ih =>
    rw [h.pieces_found hraw, List.mem_cons] at hmem
    cases hmem with
    | inl heq =>
      cases heq
      exact hraw
    | inr hmem => exact ih hmem

end Separated
end Rust.Replace
