import Mathlib.Data.List.Infix

/-!
This module contains the patterns of `LIKE`, where `%` stands for any text and `_` for any character, and
the three-valued logic of SQL. A truth value is an `Option Bool`, where `none` is UNKNOWN, and a condition
only holds if it is `some true`.
-/

namespace Sql
namespace Like

/--
Whether a pattern matches a whole text.
-/
def isMatch : List Char → List Char → Bool
  | [], text => text.isEmpty
  | p :: pattern, text =>
    if p = '%' then
      text.tails.any (isMatch pattern)
    else
      match text with
      | [] => false
      | c :: text => (p = '_' || p = c) && isMatch pattern text

/--
A part of a pattern that only matches itself.
-/
def Literal (part : List Char) : Prop :=
  '%' ∉ part ∧ '_' ∉ part

@[simp]
theorem isMatch_nil (text : List Char) : isMatch [] text = true ↔ text = [] := by
  simp [isMatch]

theorem isMatch_percent (pattern text : List Char)
    : isMatch ('%' :: pattern) text = true ↔ ∃ rest, rest <:+ text ∧ isMatch pattern rest = true := by
  simp [isMatch, List.any_eq_true]

theorem isMatch_append (part pattern text : List Char) (h : isMatch pattern text = true)
    : isMatch (part ++ pattern) (part ++ text) = true := by
  induction part with
  | nil => exact h
  | cons p part ih =>
    by_cases hp : p = '%'
    . subst hp
      rw [List.cons_append, isMatch_percent]
      exists part ++ text
      exact ⟨List.suffix_cons _ _, ih⟩
    . simp [isMatch, hp, ih]

theorem isMatch_self (text : List Char) : isMatch text text = true := by
  have := isMatch_append text [] [] rfl
  simpa using this

theorem isMatch_any (text : List Char) : isMatch ['%'] text = true := by
  rw [isMatch_percent]
  exists []
  simp

theorem isMatch_literal_append {part : List Char} (hpart : Literal part) (pattern text : List Char)
    : isMatch (part ++ pattern) text = true
        ↔
      ∃ rest, text = part ++ rest ∧ isMatch pattern rest = true := by
  induction part generalizing text with
  | nil => simp
  | cons p part ih =>
    have hne : p ≠ '%' ∧ p ≠ '_' := by
      have ⟨h1, h2⟩ := hpart
      simp only [List.mem_cons, not_or] at h1 h2
      exact ⟨Ne.symm h1.1, Ne.symm h2.1⟩
    have hrest : Literal part := by
      have ⟨h1, h2⟩ := hpart
      simp only [List.mem_cons, not_or] at h1 h2
      exact ⟨h1.2, h2.2⟩
    cases text with
    | nil => simp [isMatch, hne]
    | cons c text =>
      simp only [List.cons_append, isMatch, hne, if_false, decide_false, Bool.false_or,
        Bool.and_eq_true, decide_eq_true_eq, ih hrest, List.cons.injEq]
      constructor
      . rintro ⟨rfl, rest, h1, h2⟩
        exact ⟨rest, ⟨rfl, h1⟩, h2⟩
      . rintro ⟨rest, ⟨h1, h2⟩, h3⟩
        exact ⟨h1.symm, rest, h2, h3⟩

theorem isMatch_literal {part : List Char} (hpart : Literal part) (text : List Char)
    : isMatch part text = true ↔ text = part := by
  have := isMatch_literal_append hpart [] text
  simpa using this

end Like

/-! Truth values -/

abbrev Truth := Option Bool

namespace Truth

/--
Whether a condition with this truth value selects a row.
-/
def Holds (t : Truth) : Prop := t = some true

instance (t : Truth) : Decidable t.Holds :=
  inferInstanceAs (Decidable (t = some true))

def and (lhs rhs : Truth) : Truth :=
  match lhs, rhs with
  | some true, t => t
  | some false, _ => some false
  | none, some false => some false
  | none, _ => none

def or (lhs rhs : Truth) : Truth :=
  match lhs, rhs with
  | some false, t => t
  | some true, _ => some true
  | none, some true => some true
  | none, _ => none

def not (t : Truth) : Truth :=
  t.map Bool.not

/--
The conjunction of a list, TRUE if the list is empty.
-/
def all (ts : List Truth) : Truth :=
  ts.foldr and (some true)

/--
The disjunction of a list, FALSE if the list is empty.
-/
def any (ts : List Truth) : Truth :=
  ts.foldr or (some false)

@[simp]
theorem holds_some (b : Bool) : Holds (some b) ↔ b = true := by
  simp [Holds]

@[simp]
theorem and_holds (lhs rhs : Truth) : (and lhs rhs).Holds ↔ lhs.Holds ∧ rhs.Holds := by
  rcases lhs with _ | _ | _ <;> rcases rhs with _ | _ | _ <;> decide

@[simp]
theorem or_holds (lhs rhs : Truth) : (or lhs rhs).Holds ↔ lhs.Holds ∨ rhs.Holds := by
  rcases lhs with _ | _ | _ <;> rcases rhs with _ | _ | _ <;> decide

@[simp]
theorem true_and (t : Truth) : and (some true) t = t := rfl

@[simp]
theorem and_true (t : Truth) : and t (some true) = t := by
  rcases t with _ | _ | _ <;> rfl

@[simp]
theorem false_and (t : Truth) : and (some false) t = some false := rfl

@[simp]
theorem and_false (t : Truth) : and t (some false) = some false := by
  rcases t with _ | _ | _ <;> rfl

@[simp]
theorem false_or (t : Truth) : or (some false) t = t := rfl

@[simp]
theorem or_false (t : Truth) : or t (some false) = t := by
  rcases t with _ | _ | _ <;> rfl

@[simp]
theorem true_or (t : Truth) : or (some true) t = some true := rfl

@[simp]
theorem or_true (t : Truth) : or t (some true) = some true := by
  rcases t with _ | _ | _ <;> rfl

@[simp]
theorem not_some (b : Bool) : not (some b) = some (!b) := rfl

@[simp]
theorem not_none : not none = none := rfl

@[simp]
theorem all_nil : all [] = some true := rfl

@[simp]
theorem all_cons (t : Truth) (ts : List Truth) : all (t :: ts) = and t (all ts) := rfl

@[simp]
theorem any_nil : any [] = some false := rfl

@[simp]
theorem any_cons (t : Truth) (ts : List Truth) : any (t :: ts) = or t (any ts) := rfl

theorem all_holds (ts : List Truth) : (all ts).Holds ↔ ∀ t ∈ ts, t.Holds := by
  induction ts with
  | nil => simp
  | cons t ts ih => simp [ih]

theorem any_holds (ts : List Truth) : (any ts).Holds ↔ ∃ t ∈ ts, t.Holds := by
  induction ts with
  | nil => simp
  | cons t ts ih => simp [ih]

theorem any_eq (ts : List Truth)
    : any ts = if some true ∈ ts then some true else if none ∈ ts then none else some false := by
  induction ts with
  | nil => simp
  | cons t ts ih =>
    rw [any_cons, ih]
    rcases t with _ | _ | _ <;> by_cases htrue : some true ∈ ts <;> by_cases hnone : none ∈ ts
      <;> simp [htrue, hnone, or]

theorem all_eq (ts : List Truth)
    : all ts = if some false ∈ ts then some false else if none ∈ ts then none else some true := by
  induction ts with
  | nil => simp
  | cons t ts ih =>
    rw [all_cons, ih]
    rcases t with _ | _ | _ <;> by_cases hfalse : some false ∈ ts <;> by_cases hnone : none ∈ ts
      <;> simp [hfalse, hnone, and]

/--
`t` is decided as `s` is, where `s` is decided at all.
-/
def Agrees (s t : Truth) : Prop :=
  ∀ b, s = some b → t = some b

@[simp]
theorem none_agrees (t : Truth) : Agrees none t := by
  simp [Agrees]

@[simp]
theorem some_agrees (b : Bool) (t : Truth) : Agrees (some b) t ↔ t = some b := by
  simp [Agrees]

theorem Agrees.and {s s' t t' : Truth} (h : Agrees s t) (h' : Agrees s' t')
    : Agrees (Truth.and s s') (Truth.and t t') := by
  have hnone : Truth.and none none = none := rfl
  rcases s with _ | _ | _ <;> rcases s' with _ | _ | _ <;> simp_all

theorem Agrees.or {s s' t t' : Truth} (h : Agrees s t) (h' : Agrees s' t')
    : Agrees (Truth.or s s') (Truth.or t t') := by
  have hnone : Truth.or none none = none := rfl
  rcases s with _ | _ | _ <;> rcases s' with _ | _ | _ <;> simp_all

theorem Agrees.not {s t : Truth} (h : Agrees s t) : Agrees (Truth.not s) (Truth.not t) := by
  cases s <;> simp_all

section

variable {α : Type} {f g : α → Truth} {as : List α}

theorem Agrees.all (h : ∀ a ∈ as, Agrees (f a) (g a)) : Agrees (all (as.map f)) (all (as.map g)) := by
  induction as with
  | nil => simp
  | cons a as ih =>
    rw [List.forall_mem_cons] at h
    exact h.1.and (ih h.2)

theorem Agrees.any (h : ∀ a ∈ as, Agrees (f a) (g a)) : Agrees (any (as.map f)) (any (as.map g)) := by
  induction as with
  | nil => simp
  | cons a as ih =>
    rw [List.forall_mem_cons] at h
    exact h.1.or (ih h.2)

end

end Truth
end Sql
