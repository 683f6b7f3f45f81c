import ReactorCloud.Rust.F64

/-!
This module contains rounding to 15 significant decimal digits, and what is left of the integers that
are doubled first.
-/

namespace Rust
namespace F64

/--
`r` is the nearest number to `q` with 15 significant digits.
-/
def Rounds15 (q r : Rat) : Prop :=
  ∀ k : Int, 10 ^ k ≤ |q| → |q| < 10 ^ (k + 1) →
    (∃ m : Int, r = m * 10 ^ (k - 14)) ∧ |q - r| ≤ 10 ^ (k - 14) / 2

def round15 (q : Rat) : Rat :=
  let unit := (10 : Rat) ^ (Int.log 10 |q| - 14)
  roundEven (q / unit) * unit

theorem abs_sub_roundEven_le (q : Rat) : |q - roundEven q| ≤ 1 / 2 := by
  have hlow := Int.floor_le q
  have hhigh := Int.lt_floor_add_one q
  rw [roundEven, abs_le]
  split
  . next h =>
    constructor <;> linarith
  . next h =>
    split
    . next heq =>
      have hmod : ⌊q⌋ % 2 = 0 ∨ ⌊q⌋ % 2 = 1 := Int.emod_two_eq_zero_or_one _
      rcases hmod with hmod | hmod <;> rw [hmod] <;> push_cast <;> constructor <;> linarith
    . next hne =>
      have := lt_of_le_of_ne (not_lt.mp h) (Ne.symm hne)
      push_cast
      constructor <;> linarith

theorem abs_sub_roundEven_mul_le (q : Rat) {unit : Rat} (hunit : 0 < unit)
    : |q - roundEven (q / unit) * unit| ≤ unit / 2 := by
  have h := abs_sub_roundEven_le (q / unit)
  have heq : q - roundEven (q / unit) * unit = (q / unit - roundEven (q / unit)) * unit := by
    rw [sub_mul, div_mul_cancel₀ _ hunit.ne']
  rw [heq, abs_mul, abs_of_pos hunit]
  have := mul_le_mul_of_nonneg_right h hunit.le
  linarith

theorem rounds15_round15 (q : Rat) : Rounds15 q (round15 q) := by
  intro k hlow hhigh
  have hpos : 0 < |q| := lt_of_lt_of_le (by positivity) hlow
  have hlog : Int.log 10 |q| = k := by
    apply le_antisymm
    . have := (Int.lt_zpow_iff_log_lt (b := 10) (by decide) hpos).mp (by exact_mod_cast hhigh)
      omega
    . exact (Int.zpow_le_iff_le_log (b := 10) (by decide) hpos).mp (by exact_mod_cast hlow)
  rw [round15, hlog]
  exact ⟨⟨_, rfl⟩, abs_sub_roundEven_mul_le q (by positivity)⟩

/-! Integers from `2 ^ 63` on -/

theorem abs_sub_nearest_le {n : Nat} (hn : n < 2 ^ 64) : |(n : Rat) - nearest n| ≤ 1024 := by
  have hcast : (n : Rat) < 2 ^ 53 * 2 ^ (11 : Int) := by
    have : (n : Rat) < 2 ^ 64 := by exact_mod_cast hn
    calc (n : Rat)
      _ < 2 ^ 64 := this
      _ = 2 ^ 53 * 2 ^ (11 : Int) := by norm_num
  rcases Nat.eq_zero_or_pos n with hzero | hpos
  . subst hzero
    simp [nearest, roundPos_zero]
  . have hpos : (0 : Rat) < n := by exact_mod_cast hpos
    have hexp := ulpExp_le_of_lt hpos (by decide) hcast
    have herr := abs_sub_roundEven_mul_le (n : Rat) (two_zpow_pos (ulpExp n))
    have hpow : (2 : Rat) ^ ulpExp n ≤ 2 ^ (11 : Int) := zpow_le_zpow_right₀ (by norm_num) hexp
    rw [nearest, if_neg (not_lt.mpr hpos.le), roundPos]
    have : (2 : Rat) ^ (11 : Int) = 2048 := by norm_num
    linarith

section

variable {n : Nat} {r : Rat}

theorem nearest_ge {m : Nat} (hm : nearest m = m) (h : m ≤ n) : (m : Rat) ≤ nearest n := by
  rw [← hm]
  apply nearest_mono
  exact_mod_cast h

theorem nearest_le {m : Nat} (hm : nearest m = m) (h : n ≤ m) : nearest n ≤ (m : Rat) := by
  rw [← hm]
  apply nearest_mono
  exact_mod_cast h

/--
A multiple of the unit is only left as it is, and is left as it is if the unit is coarse.
-/
theorem eq_iff_dvd {unit : Nat} (hunit : 2048 < unit) {f : Rat} (hf : |(n : Rat) - f| ≤ 1024)
    (hmul : ∃ m : Int, r = m * unit) (herr : |f - r| ≤ unit / 2) : r = n ↔ unit ∣ n := by
  have ⟨m, hm⟩ := hmul
  constructor
  . intro heq
    rw [heq] at hm
    have : (n : Int) = m * unit := by exact_mod_cast hm
    exact Int.natCast_dvd_natCast.mp ⟨m, by rw [this, mul_comm]⟩
  . rintro ⟨j, hj⟩
    have hclose : |r - n| < unit := by
      have hunit' : (2048 : Rat) < unit := by exact_mod_cast hunit
      rw [abs_le] at hf herr
      rw [abs_lt]
      constructor <;> linarith
    have hdiff : r - n = ((m - j : Int) : Rat) * unit := by
      rw [hm, hj]
      push_cast
      ring
    have hpos : (0 : Rat) < unit := by
      have : 0 < unit := by omega
      exact_mod_cast this
    rw [hdiff, abs_mul, abs_of_pos hpos] at hclose
    have hone : |((m - j : Int) : Rat)| < 1 := by
      by_contra hge
      have := mul_le_mul_of_nonneg_right (not_lt.mp hge) hpos.le
      linarith
    have hzero : m - j = 0 := by
      have : |m - j| < 1 := by exact_mod_cast hone
      exact Int.abs_lt_one_iff.mp this
    rw [hzero, Int.cast_zero, zero_mul] at hdiff
    linarith

/--
The integers from `2 ^ 63` on that are the same when they are doubled and rounded to 15 digits.
-/
theorem rounds15_eq_iff (hlow : 2 ^ 63 ≤ n) (hhigh : n < 2 ^ 64) (hr : Rounds15 (nearest n) r)
    : r = n ↔ n < 10 ^ 19 ∧ 10 ^ 4 ∣ n ∨ 10 ^ 19 ≤ n ∧ 10 ^ 5 ∣ n := by
  have h63 : nearest ((2 ^ 63 : Nat) : Rat) = ((2 ^ 63 : Nat) : Rat) := by decide +kernel
  have h64 : nearest ((2 ^ 64 : Nat) : Rat) = ((2 ^ 64 : Nat) : Rat) := by decide +kernel
  have h19 : nearest ((10 ^ 19 : Nat) : Rat) = ((10 ^ 19 : Nat) : Rat) := by decide +kernel
  have hge := nearest_ge h63 hlow
  have hle := nearest_le h64 hhigh.le
  have herr := abs_sub_nearest_le hhigh
  have habs : |nearest n| = nearest n := abs_of_nonneg (nearest_nonneg (Nat.cast_nonneg n))
  push_cast at hge hle
  rw [Rounds15, habs] at hr
  -- numbers of 20 digits have the unit 10 ^ 5
  have htwenty (hf : (10 : Rat) ^ 19 ≤ nearest n) : r = n ↔ 10 ^ 5 ∣ n := by
    have hbelow : nearest n < 10 ^ ((19 : Int) + 1) := by
      norm_num
      linarith
    have ⟨hmul, hclose⟩ := hr 19 (by exact_mod_cast hf) hbelow
    have hunit : (10 : Rat) ^ ((19 : Int) - 14) = ((10 ^ 5 : Nat) : Rat) := by norm_num
    rw [hunit] at hmul hclose
    exact eq_iff_dvd (by decide) herr hmul hclose
  by_cases hn : n < 10 ^ 19
  . have hle19 := nearest_le h19 hn.le
    push_cast at hle19
    by_cases hf : nearest n < 10 ^ 19
    . have ⟨hmul, hclose⟩ := hr 18 (by linarith) (by exact_mod_cast hf)
      have hunit : (10 : Rat) ^ ((18 : Int) - 14) = ((10 ^ 4 : Nat) : Rat) := by norm_num
      rw [hunit] at hmul hclose
      rw [eq_iff_dvd (by decide) herr hmul hclose]
      omega
    . -- the double is 10 ^ 19, which is too close to be a multiple of a unit
      have hnear : 10 ^ 19 ≤ n + 1024 := by
        have := (abs_le.mp herr).1
        have : (10 : Rat) ^ 19 ≤ n + 1024 := by linarith
        exact_mod_cast this
      rw [htwenty (not_lt.mp hf)]
      omega
  . have hge19 := nearest_ge h19 (not_lt.mp hn)
    push_cast at hge19
    rw [htwenty hge19]
    omega

end

end F64
end Rust
