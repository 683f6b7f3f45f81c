import ReactorCloud.Storage.Semantics

/-!
This module proves that the `LIKE` of `reactor-storage` matches no more than that of SQL, and no less
if the pattern is simple.
-/

namespace Reactor.Storage
namespace likeMatch

open Sql.Like

theorem tail_dropLast {pattern : List Char} (hne : pattern ≠ ['%'])
    (hhead : pattern.head? = some '%') (hlast : pattern.getLast? = some '%')
    : pattern = '%' :: (pattern.tail.dropLast ++ ['%']) := by
  cases pattern with
  | nil => simp at hhead
  | cons c rest =>
    have hc : c = '%' := by simpa using hhead
    subst hc
    have hrest : rest ≠ [] := by
      intro h
      exact hne (by rw [h])
    have : rest.getLast? = some '%' := by
      rw [List.getLast?_cons] at hlast
      cases hr : rest.getLast? with
      | none => exact absurd (List.getLast?_eq_none_iff.mp hr) hrest
      | some d => rw [hr] at hlast; simpa using hlast
    have := List.dropLast_append_getLast? _ this
    rw [List.tail_cons, this]

theorem isMatch_infix {part s : List Char} (h : part <:+: s)
    : isMatch ('%' :: (part ++ ['%'])) s = true := by
  obtain ⟨before, after, rfl⟩ := h
  rw [isMatch_percent]
  exists part ++ after
  constructor
  . rw [List.append_assoc]
    exact List.suffix_append _ _
  . apply isMatch_append
    exact isMatch_any after

theorem isMatch_suffix {part s : List Char} (h : part <:+ s) : isMatch ('%' :: part) s = true := by
  rw [isMatch_percent]
  exact ⟨part, h, isMatch_self part⟩

theorem isMatch_prefix {part s : List Char} (h : part <+: s) : isMatch (part ++ ['%']) s = true := by
  obtain ⟨after, rfl⟩ := h
  apply isMatch_append
  exact isMatch_any after

theorem any_tails {part s : List Char}
    : s.tails.any part.isPrefixOf = true ↔ part <:+: s := by
  rw [List.any_eq_true]
  constructor
  . rintro ⟨rest, hmem, hpre⟩
    rw [List.mem_tails] at hmem
    rw [List.isPrefixOf_iff_prefix] at hpre
    exact hpre.isInfix.trans hmem.isInfix
  . rintro ⟨before, after, rfl⟩
    exists part ++ after
    rw [List.mem_tails, List.isPrefixOf_iff_prefix, List.append_assoc]
    exact ⟨List.suffix_append _ _, List.prefix_append _ _⟩

theorem sound {s pattern : List Char} (h : likeMatch s pattern = true)
    : isMatch pattern s = true := by
  unfold likeMatch at h
  split at h
  . next heq =>
    rw [heq]
    exact isMatch_any s
  . next hne =>
    split at h
    . have : s = pattern := by simpa using h
      rw [this]
      exact isMatch_self pattern
    . split at h
      . next hends =>
        rw [tail_dropLast hne hends.1 hends.2]
        exact isMatch_infix (any_tails.mp h)
      . split at h
        . next hhead =>
          rw [← List.cons_head?_tail hhead]
          exact isMatch_suffix (List.isSuffixOf_iff_suffix.mp h)
        . split at h
          . next hlast =>
            rw [← List.dropLast_append_getLast? _ hlast]
            exact isMatch_prefix (List.isPrefixOf_iff_prefix.mp h)
          . have : s = pattern := by simpa using h
            rw [this]
            exact isMatch_self pattern

theorem literal_of_simple {before part after : List Char}
    (h : SimplePattern (before ++ part ++ after))
    (hinner : ∀ l r, part = l ++ '%' :: r → before ++ l ≠ [] ∧ r ++ after ≠ []) : Literal part := by
  constructor
  . intro hmem
    obtain ⟨l, r, rfl⟩ := List.append_of_mem hmem
    have ⟨hl, hr⟩ := hinner l r rfl
    have := h.2 (before ++ l) (r ++ after) (by simp)
    exact this.elim hl hr
  . intro hmem
    apply h.1
    simp [hmem]

theorem complete {s pattern : List Char} (hsimple : SimplePattern pattern)
    (h : isMatch pattern s = true) : likeMatch s pattern = true := by
  unfold likeMatch
  split
  . rfl
  . next hne =>
    split
    . next hnot =>
      have hlit : Literal pattern := ⟨hnot, hsimple.1⟩
      simpa using (isMatch_literal hlit s).mp h
    . next hmem =>
      split
      . next hends =>
        rw [any_tails]
        have heq := tail_dropLast hne hends.1 hends.2
        generalize pattern.tail.dropLast = part at heq
        subst heq
        have hlit : Literal part := by
          have hsimple' : SimplePattern (['%'] ++ part ++ ['%']) := hsimple
          exact literal_of_simple hsimple' (by simp)
        rw [isMatch_percent] at h
        obtain ⟨rest, hrest, h⟩ := h
        rw [isMatch_literal_append hlit] at h
        obtain ⟨after, rfl, _⟩ := h
        exact (List.prefix_append _ _).isInfix.trans hrest.isInfix
      . next hends =>
        split
        . next hhead =>
          rw [List.isSuffixOf_iff_suffix]
          have heq := List.cons_head?_tail hhead
          generalize pattern.tail = part at heq
          subst heq
          have hlit : Literal part := by
            have hsimple' : SimplePattern (['%'] ++ part ++ []) := by simpa using hsimple
            apply literal_of_simple hsimple'
            rintro l r rfl
            have hr : r ≠ [] := by
              rintro rfl
              apply hends
              constructor
              . rfl
              . rw [← List.cons_append]
                exact List.getLast?_concat
            simp [hr]
          rw [isMatch_percent] at h
          obtain ⟨rest, hrest, h⟩ := h
          rw [isMatch_literal hlit] at h
          rw [← h]
          exact hrest
        . next hhead =>
          split
          . next hlast =>
            rw [List.isPrefixOf_iff_prefix]
            have heq := List.dropLast_append_getLast? _ hlast
            generalize pattern.dropLast = part at heq
            subst heq
            have hlit : Literal part := by
              have hsimple' : SimplePattern ([] ++ part ++ ['%']) := hsimple
              apply literal_of_simple hsimple'
              rintro l r rfl
              have hl : l ≠ [] := by
                rintro rfl
                apply hhead
                simp
              simp [hl]
            rw [isMatch_literal_append hlit] at h
            obtain ⟨after, rfl, _⟩ := h
            exact List.prefix_append _ _
          . next hlast =>
            simp only [Decidable.not_not] at hmem
            obtain ⟨l, r, rfl⟩ := List.append_of_mem hmem
            cases hsimple.2 l r rfl with
            | inl hl =>
              subst hl
              simp at hhead
            | inr hr =>
              subst hr
              simp at hlast

/--
A text that matches a pattern and has none of its wildcards.
-/
def filled (pattern : List Char) : List Char :=
  pattern.filterMap (fun c => if c = '%' then none else some (if c = '_' then 'a' else c))

theorem isMatch_filled (pattern : List Char) : isMatch pattern (filled pattern) = true := by
  induction pattern with
  | nil => rfl
  | cons c pattern ih =>
    by_cases hc : c = '%'
    . subst hc
      rw [isMatch_percent]
      exact ⟨filled pattern, List.suffix_rfl, ih⟩
    . by_cases hone : c = '_'
      . simp [filled, isMatch, hone] at ih ⊢
        exact ih
      . simp [filled, isMatch, hc, hone] at ih ⊢
        exact ih

theorem literal_filled (pattern : List Char) : Literal (filled pattern) := by
  constructor
  . intro hmem
    rw [filled, List.mem_filterMap] at hmem
    have ⟨c, _, hc⟩ := hmem
    split at hc
    . cases hc
    . next hne =>
      split at hc
      . cases hc
      . exact hne (Option.some.inj hc)
  . intro hmem
    rw [filled, List.mem_filterMap] at hmem
    have ⟨c, _, hc⟩ := hmem
    split at hc
    . cases hc
    . split at hc
      . cases hc
      . next hne => exact hne (Option.some.inj hc)

/--
The part that is looked for in a text without wildcards has none itself.
-/
theorem literal_of_part {part pattern : List Char} (h : part <:+: filled pattern) : Literal part :=
  ⟨fun hmem => (literal_filled pattern).1 (h.subset hmem), fun hmem => (literal_filled pattern).2 (h.subset hmem)⟩

theorem nil_after_percent {part after l r : List Char} (hpart : Literal part)
    (hafter : after = [] ∨ after = ['%']) (h : part ++ after = l ++ '%' :: r) : r = [] := by
  cases r using List.reverseRecOn with
  | nil => rfl
  | append_singleton r c =>
    rw [← List.cons_append, ← List.append_assoc] at h
    cases hafter with
    | inl hnil =>
      subst hnil
      rw [List.append_nil] at h
      exact absurd (by simp [h]) hpart.1
    | inr hone =>
      subst hone
      have := List.append_inj_left' h rfl
      exact absurd (by simp [this]) hpart.1

theorem simple_of_literal {before part after : List Char} (hbefore : before = [] ∨ before = ['%'])
    (hafter : after = [] ∨ after = ['%']) (hpart : Literal part)
    : SimplePattern (before ++ part ++ after) := by
  constructor
  . intro hmem
    rw [List.mem_append, List.mem_append] at hmem
    rcases hmem with (hmem | hmem) | hmem
    . rcases hbefore with rfl | rfl <;> simp at hmem
    . exact hpart.2 hmem
    . rcases hafter with rfl | rfl <;> simp at hmem
  . intro l r heq
    rw [List.append_assoc] at heq
    cases hbefore with
    | inl hnil =>
      subst hnil
      exact Or.inr (nil_after_percent hpart hafter heq)
    | inr hone =>
      subst hone
      cases l with
      | nil => exact Or.inl rfl
      | cons c l =>
        simp only [List.cons_append, List.nil_append, List.cons.injEq] at heq
        exact Or.inr (nil_after_percent hpart hafter heq.2)

/--
The text that stands for a pattern is only matched if the pattern is simple.
-/
theorem simple_of_filled {pattern : List Char} (h : likeMatch (filled pattern) pattern = true)
    : SimplePattern pattern := by
  have hself (heq : filled pattern = pattern) : SimplePattern pattern := by
    have hpart : Literal pattern := by
      rw [← heq]
      exact literal_filled pattern
    have := simple_of_literal (Or.inl rfl) (Or.inl rfl) hpart
    simpa using this
  unfold likeMatch at h
  split at h
  . next heq =>
    rw [heq]
    exact simple_of_literal (Or.inl rfl) (Or.inr rfl) ⟨List.not_mem_nil, List.not_mem_nil⟩
  . next hne =>
    split at h
    . exact hself (by simpa using h)
    . split at h
      . next hends =>
        have hpart := literal_of_part (any_tails.mp h)
        have := simple_of_literal (Or.inr rfl) (Or.inr rfl) hpart
        rw [tail_dropLast hne hends.1 hends.2]
        simpa using this
      . split at h
        . next hhead =>
          have hpart := literal_of_part (List.isSuffixOf_iff_suffix.mp h).isInfix
          have := simple_of_literal (Or.inr rfl) (Or.inl rfl) hpart
          rw [← List.cons_head?_tail hhead]
          simpa using this
        . split at h
          . next hlast =>
            have hpart := literal_of_part (List.isPrefixOf_iff_prefix.mp h).isInfix
            have := simple_of_literal (Or.inl rfl) (Or.inr rfl) hpart
            rw [← List.dropLast_append_getLast? _ hlast]
            simpa using this
          . exact hself (by simpa using h)

/--
The patterns on which the function is the `LIKE` of SQL.
-/
theorem matches_sql_iff (pattern : List Char)
    : (∀ s, likeMatch s pattern = true ↔ isMatch pattern s = true) ↔ SimplePattern pattern := by
  constructor
  . intro h
    apply simple_of_filled
    rw [h]
    exact isMatch_filled pattern
  . intro hsimple s
    exact ⟨sound, complete hsimple⟩

/--
`_` is no wildcard, and neither is a `%` in the middle.
-/
theorem not_matches_sql
    : ¬ ∀ s pattern : List Char, '\\' ∉ pattern →
        (likeMatch s pattern = true ↔ isMatch pattern s = true) := by
  intro h
  have := h ['a', 'b'] ['a', '_'] (by decide)
  simp [likeMatch, isMatch] at this

end likeMatch
end Reactor.Storage
