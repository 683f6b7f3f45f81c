import Mathlib.Data.List.Basic

/-!
This module contains tables with uniqueness constraints, the statements that read and write them, and how
a table can evolve.
-/

namespace Relational

/--
Two rows that conflict cannot both be in a table.
-/
class Constrained (ρ : Type) where
  conflict : ρ → ρ → Bool
  conflict_comm : ∀ r s, conflict r s = conflict s r

open Constrained

structure Table (ρ : Type) [Constrained ρ] where
  rows : List ρ
  unique : rows.Pairwise (fun r s => conflict r s = false)

namespace Table

variable {ρ : Type} [Constrained ρ]

instance : Membership ρ (Table ρ) where
  mem t r := r ∈ t.rows

theorem mem_def {t : Table ρ} {r : ρ} : r ∈ t ↔ r ∈ t.rows := Iff.rfl

def empty : Table ρ := ⟨[], .nil⟩

theorem not_mem_empty (r : ρ) : r ∉ (empty : Table ρ) := List.not_mem_nil

/--
Rows that conflict are one row.
-/
theorem eq_of_conflict {t : Table ρ} {r s : ρ} (hr : r ∈ t) (hs : s ∈ t)
    (h : conflict r s = true) : r = s := by
  obtain ⟨rows, unique⟩ := t
  simp only [mem_def] at hr hs
  induction unique with
  | nil => cases hr
  | @cons x xs hx _ ih =>
    cases hr with
    | head =>
      cases hs with
      | head => rfl
      | tail _ hs => simp [hx s hs] at h
    | tail _ hr =>
      cases hs with
      | head =>
        rw [conflict_comm] at h
        simp [hx r hr] at h
      | tail _ hs => exact ih hr hs

/--
The row of a query for at most one row.
-/
def find? (t : Table ρ) (p : ρ → Bool) : Option ρ :=
  t.rows.find? p

theorem mem_of_find? {t : Table ρ} {p : ρ → Bool} {r : ρ} (h : t.find? p = some r) : r ∈ t :=
  List.mem_of_find?_eq_some h

theorem prop_of_find? {t : Table ρ} {p : ρ → Bool} {r : ρ} (h : t.find? p = some r) : p r = true :=
  List.find?_some h

theorem find?_eq_none {t : Table ρ} {p : ρ → Bool} (h : t.find? p = none) {r : ρ} (hr : r ∈ t)
    : p r = false := by
  have := List.find?_eq_none.mp h r hr
  simpa using this

theorem find?_isSome {t : Table ρ} {p : ρ → Bool} {r : ρ} (hr : r ∈ t) (h : p r = true)
    : (t.find? p).isSome = true := by
  rw [find?, List.find?_isSome]
  exists r

/--
Where only one row can match, the query finds it.
-/
theorem find?_eq_some {t : Table ρ} {p : ρ → Bool} {r : ρ} (hr : r ∈ t) (h : p r = true)
    (hp : ∀ s, p s = true → conflict r s = true) : t.find? p = some r := by
  cases hfind : t.find? p with
  | none =>
    have := find?_eq_none hfind hr
    simp [h] at this
  | some s =>
    rw [eq_of_conflict hr (mem_of_find? hfind) (hp s (prop_of_find? hfind))]

def select (t : Table ρ) (p : ρ → Bool) : List ρ :=
  t.rows.filter p

theorem mem_select {t : Table ρ} {p : ρ → Bool} {r : ρ} : r ∈ t.select p ↔ r ∈ t ∧ p r = true := by
  rw [select, List.mem_filter]
  rfl

def count (t : Table ρ) (p : ρ → Bool) : Nat :=
  t.rows.countP p

theorem count_ne_zero {t : Table ρ} {p : ρ → Bool} : t.count p ≠ 0 ↔ ∃ r ∈ t, p r = true := by
  rw [count, ← Nat.pos_iff_ne_zero, List.countP_pos_iff]
  rfl

def any (t : Table ρ) (p : ρ → Bool) : Bool :=
  t.rows.any p

theorem any_eq_true {t : Table ρ} {p : ρ → Bool} : t.any p = true ↔ ∃ r ∈ t, p r = true :=
  List.any_eq_true

theorem any_eq_false {t : Table ρ} {p : ρ → Bool} : t.any p = false ↔ ∀ r ∈ t, p r = false := by
  simp [any, mem_def]

/--
A row that conflicts with one of the table is not inserted.
-/
def insert (t : Table ρ) (r : ρ) : Option (Table ρ) :=
  if h : t.rows.all (fun s => !conflict r s) then
    some ⟨r :: t.rows, by
      apply List.Pairwise.cons
      . intro s hs
        have := List.all_eq_true.mp h s hs
        simpa using this
      . exact t.unique⟩
  else
    none

theorem mem_insert {t t' : Table ρ} {r s : ρ} (h : t.insert r = some t')
    : s ∈ t' ↔ s = r ∨ s ∈ t := by
  unfold insert at h
  split at h
  . cases h
    exact List.mem_cons
  . cases h

theorem insert_isSome {t : Table ρ} {r : ρ}
    : (t.insert r).isSome = true ↔ ∀ s ∈ t, conflict r s = false := by
  unfold insert
  split
  . next h => simpa [mem_def] using h
  . next h => simpa [mem_def] using h

/--
Change the rows that match in a way that no constraint can see.
-/
def modify (t : Table ρ) (p : ρ → Bool) (f : ρ → ρ) (hf : ∀ r s, conflict (f r) s = conflict r s)
    : Table ρ where
  rows := t.rows.map (fun r => if p r then f r else r)
  unique := by
    have hkeep : ∀ r s, conflict (if p r then f r else r) s = conflict r s := by
      intro r s
      split
      . exact hf r s
      . rfl
    rw [List.pairwise_map]
    apply t.unique.imp
    intro r s h
    rw [hkeep, conflict_comm, hkeep, conflict_comm]
    exact h

theorem mem_modify {t : Table ρ} {p : ρ → Bool} {f : ρ → ρ}
    {hf : ∀ r s, conflict (f r) s = conflict r s} {s : ρ}
    : s ∈ t.modify p f hf ↔ ∃ r ∈ t, (if p r then f r else r) = s :=
  List.mem_map

theorem mem_modify_of_mem {t : Table ρ} {p : ρ → Bool} {f : ρ → ρ}
    {hf : ∀ r s, conflict (f r) s = conflict r s} {r : ρ} (h : r ∈ t)
    : (if p r then f r else r) ∈ t.modify p f hf :=
  mem_modify.mpr ⟨r, h, rfl⟩

/--
A query that the change does not touch.
-/
theorem find?_modify {t : Table ρ} {p q : ρ → Bool} {f : ρ → ρ}
    {hf : ∀ r s, conflict (f r) s = conflict r s} (hq : ∀ r, q (f r) = q r)
    : (t.modify p f hf).find? q = (t.find? q).map (fun r => if p r then f r else r) := by
  have hkeep : q ∘ (fun r => if p r then f r else r) = q := by
    funext r
    simp only [Function.comp_apply]
    split
    . exact hq r
    . rfl
  simp only [find?, modify, List.find?_map, hkeep]

theorem find?_insert {t t' : Table ρ} {r : ρ} {q : ρ → Bool} (h : t.insert r = some t')
    : t'.find? q = if q r then some r else t.find? q := by
  unfold insert at h
  split at h
  . cases h
    rw [find?, List.find?_cons]
    cases q r <;> rfl
  . cases h

/--
An update of constrained columns can fail.
-/
def update (t : Table ρ) (p : ρ → Bool) (f : ρ → ρ) : Option (Table ρ) :=
  if h : (t.rows.map (fun r => if p r then f r else r)).Pairwise
      (fun r s => conflict r s = false) then
    some ⟨t.rows.map (fun r => if p r then f r else r), h⟩
  else
    none

theorem mem_update {t t' : Table ρ} {p : ρ → Bool} {f : ρ → ρ} (h : t.update p f = some t') {s : ρ}
    : s ∈ t' ↔ ∃ r ∈ t, (if p r then f r else r) = s := by
  unfold update at h
  split at h
  . cases h
    exact List.mem_map
  . cases h

def delete (t : Table ρ) (p : ρ → Bool) : Table ρ where
  rows := t.rows.filter (fun r => !p r)
  unique := t.unique.filter _

theorem mem_delete {t : Table ρ} {p : ρ → Bool} {r : ρ}
    : r ∈ t.delete p ↔ r ∈ t ∧ p r = false := by
  simp [delete, mem_def]

end Table
end Relational

/-! Which rows can be new and what can become of a row -/

namespace Relational

open Constrained

variable {ρ : Type} [Constrained ρ]

/--
Every row is still there in a form that `R` allows, and `N` holds of every other row.
-/
structure Table.Evolves (N : ρ → Prop) (R : ρ → ρ → Prop) (t t' : Table ρ) : Prop where
  forward : ∀ r ∈ t, ∃ r' ∈ t', R r r'
  backward : ∀ r' ∈ t', N r' ∨ ∃ r ∈ t, R r r'

namespace Table.Evolves

variable {N N' : ρ → Prop} {R R' : ρ → ρ → Prop} {t t' t'' : Table ρ}

theorem refl (hR : ∀ r, R r r) (t : Table ρ) : Evolves N R t t where
  forward r hr := ⟨r, hr, hR r⟩
  backward r hr := .inr ⟨r, hr, hR r⟩

theorem of_eq (hR : ∀ r, R r r) (h : t' = t) : Evolves N R t t' := by
  rw [h]
  exact refl hR t

theorem trans (hN : ∀ r r', N r → R r r' → N r') (hR : ∀ r r' r'', R r r' → R r' r'' → R r r'')
    (h : Evolves N R t t') (h' : Evolves N R t' t'') : Evolves N R t t'' where
  forward r hr := by
    obtain ⟨r', hr', hrr'⟩ := h.forward r hr
    obtain ⟨r'', hr'', hrr''⟩ := h'.forward r' hr'
    exact ⟨r'', hr'', hR r r' r'' hrr' hrr''⟩
  backward r'' hr'' := by
    cases h'.backward r'' hr'' with
    | inl hnew => exact .inl hnew
    | inr hold =>
      obtain ⟨r', hr', hrr''⟩ := hold
      cases h.backward r' hr' with
      | inl hnew => exact .inl (hN r' r'' hnew hrr'')
      | inr hold =>
        obtain ⟨r, hr, hrr'⟩ := hold
        exact .inr ⟨r, hr, hR r r' r'' hrr' hrr''⟩

theorem mono (h : Evolves N R t t') (hN : ∀ r, N r → N' r) (hR : ∀ r r', R r r' → R' r r')
    : Evolves N' R' t t' where
  forward r hr := by
    obtain ⟨r', hr', hrr'⟩ := h.forward r hr
    exact ⟨r', hr', hR r r' hrr'⟩
  backward r' hr' := by
    cases h.backward r' hr' with
    | inl hnew => exact .inl (hN r' hnew)
    | inr hold =>
      obtain ⟨r, hr, hrr'⟩ := hold
      exact .inr ⟨r, hr, hR r r' hrr'⟩

theorem insert {r : ρ} (hR : ∀ r, R r r) (hN : N r) (h : t.insert r = some t') : Evolves N R t t' where
  forward s hs := ⟨s, (mem_insert h).mpr (.inr hs), hR s⟩
  backward s hs := by
    cases (mem_insert h).mp hs with
    | inl heq =>
      subst heq
      exact .inl hN
    | inr hs => exact .inr ⟨s, hs, hR s⟩

theorem modify {p : ρ → Bool} {f : ρ → ρ} {hf : ∀ r s, conflict (f r) s = conflict r s}
    (hR : ∀ r ∈ t, R r (if p r then f r else r)) : Evolves N R t (t.modify p f hf) where
  forward r hr := ⟨_, mem_modify_of_mem hr, hR r hr⟩
  backward r' hr' := by
    obtain ⟨r, hr, heq⟩ := mem_modify.mp hr'
    subst heq
    exact .inr ⟨r, hr, hR r hr⟩

theorem update {p : ρ → Bool} {f : ρ → ρ} (hR : ∀ r ∈ t, R r (if p r then f r else r))
    (h : t.update p f = some t') : Evolves N R t t' where
  forward r hr := ⟨_, (mem_update h).mpr ⟨r, hr, rfl⟩, hR r hr⟩
  backward r' hr' := by
    obtain ⟨r, hr, heq⟩ := (mem_update h).mp hr'
    subst heq
    exact .inr ⟨r, hr, hR r hr⟩

end Table.Evolves
end Relational
