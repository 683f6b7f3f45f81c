import Mathlib.Data.List.Basic
import ReactorCloud.Policy.Eval

/-!
This module proves that a granted permission matches exactly the permissions it covers, segment by segment.
-/

/-! Patterns of segments -/

namespace Segments

section

variable {α : Type} {star : α} {a b : α} {g p r : List α}

/--
A pattern covers a list of segments. Its last segment may stand for all that remain.
-/
def Covers (star : α) (g r : List α) : Prop :=
  (∀ i, i + 1 < g.length → g[i]? = some star ∨ g[i]? = r[i]?)
    ∧ ((g.length = r.length ∧ (g.getLast? = some star ∨ g.getLast? = r.getLast?))
      ∨ (g.length < r.length ∧ g.getLast? = some star))

theorem covers_single : Covers star [a] (b :: r) ↔ a = star ∨ (a = b ∧ r = []) := by
  unfold Covers
  cases r with
  | nil => simp
  | cons c r =>
    have hinner : ∀ i, i + 1 < [a].length → [a][i]? = some star ∨ [a][i]? = (b :: c :: r)[i]? := by
      intro i hi
      simp at hi
    rw [and_iff_right hinner]
    simp

theorem covers_cons (hne : g ≠ []) : Covers star (a :: g) (b :: r) ↔ (a = star ∨ a = b) ∧ Covers star g r := by
  have hinner : (∀ i, i + 1 < (a :: g).length → (a :: g)[i]? = some star ∨ (a :: g)[i]? = (b :: r)[i]?)
      ↔ (a = star ∨ a = b) ∧ ∀ i, i + 1 < g.length → g[i]? = some star ∨ g[i]? = r[i]? := by
    have hpos := List.length_pos_iff.mpr hne
    constructor
    . intro h
      refine ⟨by simpa using h 0 (by rw [List.length_cons]; omega), ?_⟩
      intro i hi
      simpa using h (i + 1) (by rw [List.length_cons]; omega)
    . intro ⟨hhead, htail⟩ i hi
      cases i with
      | zero => simpa using hhead
      | succ i =>
        rw [List.length_cons] at hi
        simpa using htail i (by omega)
  have hlast : (a :: g).getLast? = g.getLast? := List.getLast?_cons_of_ne_nil hne
  unfold Covers
  rw [hinner, hlast, and_assoc, List.length_cons, List.length_cons, Nat.add_right_cancel_iff, Nat.add_lt_add_iff_right]
  cases r with
  | nil =>
    have hlen : g.length ≠ 0 := fun h => hne (List.length_eq_zero_iff.mp h)
    simp [hlen]
  | cons c r => rw [@List.getLast?_cons_of_ne_nil _ b (c :: r) (by simp)]

theorem not_covers_nil (hne : g ≠ []) : ¬ Covers star g [] := by
  intro ⟨_, hlast⟩
  have hpos := List.length_pos_iff.mpr hne
  rw [List.length_nil] at hlast
  omega

theorem covers_refl (g : List α) : Covers star g g :=
  ⟨fun _ _ => .inr rfl, .inl ⟨rfl, .inr rfl⟩⟩

theorem Covers.trans (hne : g ≠ []) (hgp : Covers star g p) (hpr : Covers star p r) : Covers star g r := by
  induction g generalizing p r with
  | nil => exact absurd rfl hne
  | cons a g ih =>
    cases p with
    | nil => exact absurd hgp (not_covers_nil hne)
    | cons b p =>
    cases r with
    | nil => exact absurd hpr (not_covers_nil (List.cons_ne_nil b p))
    | cons c r =>
      by_cases hg : g = []
      . subst hg
        rw [covers_single] at hgp ⊢
        rcases hgp with hstar | ⟨rfl, rfl⟩
        . exact .inl hstar
        . exact covers_single.mp hpr
      . rw [covers_cons hg] at hgp
        have hp : p ≠ [] := by
          rintro rfl
          exact not_covers_nil hg hgp.2
        rw [covers_cons hp] at hpr
        rw [covers_cons hg]
        refine ⟨?_, ih hg hgp.2 hpr.2⟩
        rcases hgp.1 with hstar | rfl
        . exact .inl hstar
        . exact hpr.1

/--
Only the wildcard alone covers the wildcard alone.
-/
theorem eq_of_covers_star (hne : g ≠ []) (h : Covers star g [star]) : g = [star] := by
  cases g with
  | nil => exact absurd rfl hne
  | cons a g =>
    by_cases hg : g = []
    . subst hg
      rw [covers_single] at h
      rcases h with rfl | ⟨rfl, _⟩ <;> rfl
    . rw [covers_cons hg] at h
      exact absurd h.2 (not_covers_nil hg)

end

end Segments

/-! Permissions -/

namespace Reactor.Permissions

open Segments

def segments (permission : String) : List String :=
  Rust.Str.splitOnChar ':' permission

theorem segments_ne_nil (permission : String) : segments permission ≠ [] := by
  unfold segments Rust.Str.splitOnChar
  rw [ne_eq, List.map_eq_nil_iff]
  exact List.splitOnP_ne_nil _ _

theorem segments_eq_star {permission : String} (h : segments permission = ["*"]) : permission = "*" := by
  have hsplit : permission.toList.splitOn ':' = [['*']] := by
    have hmap := congrArg (List.map String.toList) h
    unfold segments Rust.Str.splitOnChar at hmap
    rw [List.map_map] at hmap
    have hid : String.toList ∘ String.ofList = id := by
      funext s
      exact String.toList_ofList
    rw [hid, List.map_id] at hmap
    exact hmap
  have hjoin := @List.intercalate_splitOn _ permission.toList _ _ ':'
  rw [hsplit] at hjoin
  apply String.toList_inj.mp
  rw [← hjoin]
  rfl

/--
The loop over the segments, which compares the lengths before it starts.
-/
theorem matchParts_iff {g r : List String} (hne : g ≠ []) (hle : g.length ≤ r.length)
    : matchParts g r = true ↔ Covers "*" g r := by
  induction g generalizing r with
  | nil => exact absurd rfl hne
  | cons a g ih =>
    cases r with
    | nil =>
      rw [List.length_cons, List.length_nil] at hle
      omega
    | cons b r =>
      rw [List.length_cons, List.length_cons] at hle
      rw [matchParts]
      by_cases hg : g = []
      . subst hg
        rw [covers_single]
        split
        . next hstar => exact iff_of_true rfl (.inl hstar)
        . next hstar => simp [matchParts, hstar]
      . rw [covers_cons hg, ← ih hg (by omega)]
        split
        . next hstar => simp [hstar, hg]
        . next hstar => simp [hstar]

theorem permMatches_eq_covers (granted requested : String)
    : permMatches granted requested = true ↔ granted = "*" ∨ Covers "*" (segments granted) (segments requested) := by
  unfold permMatches
  split
  . next hstar => exact iff_of_true rfl (.inl hstar)
  . next hstar =>
    rw [or_iff_right hstar]
    dsimp only
    split
    . next hlt =>
      apply iff_of_false Bool.false_ne_true
      intro ⟨_, hlast⟩
      unfold segments at hlast
      omega
    . next hle => exact matchParts_iff (segments_ne_nil granted) (Nat.le_of_not_lt hle)

theorem permMatches_trans {g p r : String} (hgp : permMatches g p = true) (hpr : permMatches p r = true)
    : permMatches g r = true := by
  rw [permMatches_eq_covers] at *
  rcases hgp with hstar | hgp
  . exact .inl hstar
  . rcases hpr with rfl | hpr
    . exact .inl (segments_eq_star (eq_of_covers_star (segments_ne_nil g) hgp))
    . exact .inr (hgp.trans (segments_ne_nil g) hpr)

/--
A permission matches what it covers, which is a preorder, and none but `*` matches `*`.
-/
theorem permMatches_coverage
    : (∀ granted requested,
          permMatches granted requested = true
            ↔ granted = "*" ∨ Covers "*" (segments granted) (segments requested))
        ∧ (∀ g, permMatches g g = true)
        ∧ (∀ g p r, permMatches g p = true → permMatches p r = true → permMatches g r = true)
        ∧ ∀ g, permMatches g "*" = true ↔ g = "*" := by
  refine ⟨permMatches_eq_covers, ?_, fun _ _ _ => permMatches_trans, ?_⟩
  . intro g
    rw [permMatches_eq_covers]
    exact .inr (covers_refl _)
  . intro g
    rw [permMatches_eq_covers]
    constructor
    . rintro (hstar | hcovers)
      . exact hstar
      . exact segments_eq_star (eq_of_covers_star (segments_ne_nil g) hcovers)
    . exact .inl

end Reactor.Permissions
