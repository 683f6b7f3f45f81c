import Mathlib

/-!
This module contains the rules for computations that may fail, and arithmetic on `u32` that keeps track
of overflows.
-/

namespace Rust

instance decidableEqExcept {ε α : Type} [DecidableEq ε] [DecidableEq α] : DecidableEq (Except ε α)
  | .ok a, .ok b => decidable_of_iff (a = b) ⟨congrArg Except.ok, Except.ok.inj⟩
  | .error a, .error b => decidable_of_iff (a = b) ⟨congrArg Except.error, Except.error.inj⟩
  | .ok _, .error _ => isFalse nofun
  | .error _, .ok _ => isFalse nofun

theorem bind_eq_ok {ε α β : Type} {x : Except ε α} {f : α → Except ε β} {b : β}
    : (x >>= f) = .ok b ↔ ∃ a, x = .ok a ∧ f a = .ok b := by
  cases x with
  | error e => simp [bind, Except.bind]
  | ok a => simp [bind, Except.bind]

theorem bind_eq_error {ε α β : Type} {x : Except ε α} {f : α → Except ε β} {e : ε}
    : (x >>= f) = .error e ↔ x = .error e ∨ ∃ a, x = .ok a ∧ f a = .error e := by
  cases x with
  | error e => simp [bind, Except.bind]
  | ok a => simp [bind, Except.bind]

theorem map_eq_ok {ε α β : Type} {x : Except ε α} {f : α → β} {b : β}
    : x.map f = .ok b ↔ ∃ a, x = .ok a ∧ f a = b := by
  cases x with
  | error e => simp [Except.map]
  | ok a => simp [Except.map]

theorem toOption_eq_some {ε α : Type} {x : Except ε α} {a : α} : x.toOption = some a ↔ x = .ok a := by
  cases x with
  | error e => simp [Except.toOption]
  | ok a => simp [Except.toOption]

theorem mapError_eq_ok {ε ε' α : Type} {x : Except ε α} {f : ε → ε'} {a : α}
    : x.mapError f = .ok a ↔ x = .ok a := by
  cases x with
  | error e => simp [Except.mapError]
  | ok a => simp [Except.mapError]

theorem bind_unit_eq_ok {ε β : Type} {x : Except ε Unit} {f : Unit → Except ε β} {b : β}
    : (x >>= f) = .ok b ↔ x = .ok () ∧ f () = .ok b := by
  rw [bind_eq_ok]
  constructor
  . rintro ⟨_, hx, hf⟩
    exact ⟨hx, hf⟩
  . rintro ⟨hx, hf⟩
    exact ⟨(), hx, hf⟩

theorem forM_eq_ok {ε α : Type} {f : α → Except ε Unit} {as : List α}
    : as.forM f = .ok () ↔ ∀ a ∈ as, f a = .ok () := by
  induction as with
  | nil => simp [pure, Except.pure]
  | cons a as ih =>
    show (f a >>= fun _ => as.forM f) = .ok () ↔ _
    rw [bind_unit_eq_ok, ih, List.forall_mem_cons]

theorem mapM_cons_eq_ok {ε α β : Type} {f : α → Except ε β} {a : α} {as : List α} {bs : List β}
    : (a :: as).mapM f = .ok bs ↔ ∃ b rest, f a = .ok b ∧ as.mapM f = .ok rest ∧ bs = b :: rest := by
  rw [List.mapM_cons]
  simp only [bind_eq_ok, pure, Except.pure, Except.ok.injEq, exists_and_left]
  simp only [eq_comm]

theorem mapM_eq_ok {ε α β : Type} {f : α → Except ε β} {as : List α} {bs : List β}
    (h : as.mapM f = .ok bs) : List.Forall₂ (fun a b => f a = .ok b) as bs := by
  induction as generalizing bs with
  | nil =>
    simp only [List.mapM_nil, pure, Except.pure, Except.ok.injEq] at h
    subst h
    exact .nil
  | cons a as ih =>
    have ⟨b, rest, hb, hrest, heq⟩ := mapM_cons_eq_ok.mp h
    subst heq
    exact .cons hb (ih hrest)

theorem exists_mem_of_mapM_eq_ok {ε α β : Type} {f : α → Except ε β} {as : List α} {bs : List β}
    {a : α} (h : as.mapM f = .ok bs) (ha : a ∈ as) : ∃ b ∈ bs, f a = .ok b := by
  have hall := mapM_eq_ok h
  clear h
  induction hall with
  | nil => simp at ha
  | cons hhead _ ih =>
    cases List.mem_cons.mp ha with
    | inl heq =>
      subst heq
      exact ⟨_, List.mem_cons_self, hhead⟩
    | inr hmem =>
      have ⟨b, hb, hf⟩ := ih hmem
      exact ⟨b, List.mem_cons_of_mem _ hb, hf⟩

/-! Overflows -/

/--
A value and whether an operation on the way to it left its type. There a debug build panics, and a
release build goes on with the wrapped value.
-/
structure Overflowing (α : Type) where
  value : α
  overflowed : Bool
deriving DecidableEq, Repr

namespace Overflowing

instance : Monad Overflowing where
  pure a := ⟨a, false⟩
  bind x f := ⟨(f x.value).value, x.overflowed || (f x.value).overflowed⟩

variable {α β : Type}

@[simp]
theorem value_pure (a : α) : (pure a : Overflowing α).value = a := rfl

@[simp]
theorem overflowed_pure (a : α) : (pure a : Overflowing α).overflowed = false := rfl

@[simp]
theorem value_bind (x : Overflowing α) (f : α → Overflowing β)
    : (x >>= f).value = (f x.value).value := rfl

@[simp]
theorem overflowed_bind (x : Overflowing α) (f : α → Overflowing β)
    : (x >>= f).overflowed = (x.overflowed || (f x.value).overflowed) := rfl

@[simp]
theorem value_map (f : α → β) (x : Overflowing α) : (f <$> x).value = f x.value := rfl

@[simp]
theorem overflowed_map (f : α → β) (x : Overflowing α)
    : (f <$> x).overflowed = x.overflowed := by
  show (x.overflowed || false) = x.overflowed
  rw [Bool.or_false]

end Overflowing

def addU32 (a b : UInt32) : Overflowing UInt32 :=
  ⟨a + b, 2 ^ 32 ≤ a.toNat + b.toNat⟩

def subU32 (a b : UInt32) : Overflowing UInt32 :=
  ⟨a - b, a.toNat < b.toNat⟩

theorem addU32_fits {a b : UInt32}
    : (addU32 a b).overflowed = false ↔ a.toNat + b.toNat < 2 ^ 32 := by
  simp [addU32]

theorem toNat_addU32 {a b : UInt32} (h : a.toNat + b.toNat < 2 ^ 32)
    : (addU32 a b).value.toNat = a.toNat + b.toNat := by
  rw [addU32, UInt32.toNat_add]
  exact Nat.mod_eq_of_lt h

theorem subU32_fits {a b : UInt32} : (subU32 a b).overflowed = false ↔ b.toNat ≤ a.toNat := by
  simp [subU32]

theorem toNat_subU32 {a b : UInt32} (h : b.toNat ≤ a.toNat)
    : (subU32 a b).value.toNat = a.toNat - b.toNat := by
  rw [subU32, UInt32.toNat_sub_of_le]
  exact h

/--
`a.saturating_sub(b)`
-/
def saturatingSub (a b : UInt32) : UInt32 :=
  if a < b then 0 else a - b

theorem toNat_saturatingSub (a b : UInt32) : (saturatingSub a b).toNat = a.toNat - b.toNat := by
  rw [saturatingSub]
  split
  . next h =>
    have : a.toNat < b.toNat := h
    rw [Nat.sub_eq_zero_of_le (by omega)]
    rfl
  . next h =>
    rw [UInt32.toNat_sub_of_le]
    exact Nat.le_of_not_lt h

end Rust
