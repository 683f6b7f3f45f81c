import Mathlib

/-!
This module contains the maps of `std::collections` with strings as keys. The entries are a list in
the order in which the map iterates over them.
-/

namespace Rust

abbrev HashMap (α : Type) := AList fun _ : String => α

namespace HashMap

variable {α : Type}

/--
Insert entries one after another.
-/
def extend (m : HashMap α) (entries : List (Σ _ : String, α)) : HashMap α :=
  entries.foldl (fun m e => m.insert e.1 e.2) m

@[simp]
theorem extend_nil (m : HashMap α) : extend m [] = m := rfl

@[simp]
theorem extend_cons (m : HashMap α) (e : Σ _ : String, α) (entries : List (Σ _ : String, α))
    : extend m (e :: entries) = extend (m.insert e.1 e.2) entries := rfl

theorem lookup_extend_of_notMem {key : String} {entries : List (Σ _ : String, α)} (m : HashMap α)
    (h : key ∉ entries.keys) : (extend m entries).lookup key = m.lookup key := by
  induction entries generalizing m with
  | nil => rfl
  | cons e entries ih =>
    rw [List.keys_cons, List.mem_cons, not_or] at h
    rw [extend_cons, ih _ h.2, AList.lookup_insert_ne h.1]

/--
The order of the insertions makes no difference when every key occurs once.
-/
theorem lookup_extend {entries : List (Σ _ : String, α)} (h : entries.NodupKeys) (m : HashMap α)
    (key : String)
    : (extend m entries).lookup key = (entries.dlookup key).or (m.lookup key) := by
  induction entries generalizing m with
  | nil => simp
  | cons e entries ih =>
    rw [List.nodupKeys_cons] at h
    cases eq_or_ne key e.1 with
    | inl heq =>
      subst heq
      rw [extend_cons, lookup_extend_of_notMem _ h.1, AList.lookup_insert, List.dlookup_cons_eq]
      rfl
    | inr hne => rw [extend_cons, ih h.2, AList.lookup_insert_ne hne, List.dlookup_cons_ne _ _ hne]

theorem lookup_extend_cases {entries : List (Σ _ : String, α)} {m : HashMap α} {key : String} {a : α}
    (h : (extend m entries).lookup key = some a) : ⟨key, a⟩ ∈ entries ∨ m.lookup key = some a := by
  induction entries generalizing m with
  | nil => exact .inr h
  | cons e entries ih =>
    cases ih h with
    | inl hmem => exact .inl (List.mem_cons_of_mem _ hmem)
    | inr hold =>
      cases eq_or_ne key e.1 with
      | inl heq =>
        subst heq
        rw [AList.lookup_insert] at hold
        cases hold
        exact .inl List.mem_cons_self
      | inr hne =>
        rw [AList.lookup_insert_ne hne] at hold
        exact .inr hold

theorem isSome_lookup_extend {entries : List (Σ _ : String, α)} {m : HashMap α} {key : String}
    (h : key ∈ entries.keys ∨ (m.lookup key).isSome = true)
    : ((extend m entries).lookup key).isSome = true := by
  induction entries generalizing m with
  | nil =>
    cases h with
    | inl h => cases h
    | inr h => exact h
  | cons e entries ih =>
    rw [List.keys_cons, List.mem_cons] at h
    apply ih
    cases eq_or_ne key e.1 with
    | inl heq =>
      right
      rw [heq, AList.lookup_insert]
      rfl
    | inr hne =>
      rw [AList.lookup_insert_ne hne]
      rcases h with (h | h) | h
      . exact absurd h hne
      . exact .inl h
      . exact .inr h

/--
The entries but for those of one key.
-/
theorem dlookup_filter_ne (entries : List (Σ _ : String, α)) (key name : String)
    : (entries.filter fun e => e.1 != key).dlookup name
        =
      if name = key then none else entries.dlookup name := by
  induction entries with
  | nil => simp
  | cons e entries ih =>
    obtain ⟨k, a⟩ := e
    cases eq_or_ne k key with
    | inl heq =>
      subst heq
      rw [List.filter_cons_of_neg (by simp), ih]
      split
      . rfl
      . next hne => rw [List.dlookup_cons_ne _ _ hne]
    | inr hkey =>
      rw [List.filter_cons_of_pos (by simpa using hkey)]
      cases eq_or_ne name k with
      | inl heq =>
        subst heq
        simp [hkey]
      | inr hne => rw [List.dlookup_cons_ne _ _ hne, List.dlookup_cons_ne _ _ hne, ih]

/-! Sums -/

def sumOf (f : α → Nat) (m : HashMap α) : Nat :=
  (m.entries.map (fun e => f e.2)).sum

theorem sum_kerase (f : α → Nat) (key : String) (entries : List (Σ _ : String, α))
    : ((entries.kerase key).map (fun e => f e.2)).sum + (entries.dlookup key).elim 0 f
        = (entries.map (fun e => f e.2)).sum := by
  induction entries with
  | nil => rfl
  | cons e entries ih =>
    cases eq_or_ne key e.1 with
    | inl heq =>
      subst heq
      rw [List.kerase_cons_eq rfl, List.dlookup_cons_eq, List.map_cons, List.sum_cons, Option.elim_some]
      omega
    | inr hne =>
      rw [List.kerase_cons_ne hne, List.dlookup_cons_ne _ _ hne, List.map_cons, List.sum_cons, List.map_cons,
        List.sum_cons]
      omega

theorem sumOf_insert (f : α → Nat) (m : HashMap α) (key : String) (a : α)
    : sumOf f (m.insert key a) + (m.lookup key).elim 0 f = sumOf f m + f a := by
  have hsum := sum_kerase f key m.entries
  unfold sumOf
  rw [AList.entries_insert, List.map_cons, List.sum_cons]
  show f a + _ + (m.entries.dlookup key).elim 0 f = _
  omega

theorem flatMap_filter_key {entries : List (Σ _ : String, List α)} (h : entries.NodupKeys) (key : String)
    : (entries.filter (·.1 == key)).flatMap (·.2) = (entries.dlookup key).getD [] := by
  induction entries with
  | nil => rfl
  | cons e entries ih =>
    rw [List.nodupKeys_cons] at h
    cases eq_or_ne key e.1 with
    | inl heq =>
      subst heq
      have hnone : entries.dlookup e.1 = none := List.dlookup_eq_none.mpr h.1
      rw [List.filter_cons_of_pos (by simp), List.flatMap_cons, ih h.2, hnone, List.dlookup_cons_eq]
      exact List.append_nil _
    | inr hne => rw [List.filter_cons_of_neg (by simpa using hne.symm), ih h.2, List.dlookup_cons_ne _ _ hne]

end HashMap
end Rust
