import Mathlib.Algebra.Order.Field.Power
import Mathlib.Algebra.Order.Ring.Abs
import Mathlib.Data.Int.Log
import Mathlib.Data.Rat.Floor
import Mathlib.Tactic.Linarith
import Mathlib.Tactic.Positivity
import Mathlib.Tactic.Ring

/-!
This module contains the part of Rust's `f64` that the modelled code depends on: rounding to the
nearest double, the order and the `Display` text. A finite double is represented by its value, the
signs of zero and infinity and NaN do not occur. At its end stands `str::parse` for the number types.
-/

namespace Rust
namespace F64

-- Ties go to the even neighbour.
def roundEven (q : Rat) : Int :=
  let floor := ⌊q⌋
  let rem := q - floor
  if rem < 1 / 2 then
    floor
  else if rem = 1 / 2 then
    floor + floor % 2
  else
    floor + 1

/--
The exponent of the last place of a double near `q`. Subnormal numbers stop at `2 ^ -1074`.
-/
def ulpExp (q : Rat) : Int :=
  max (Int.log 2 q - 52) (-1074)

def roundPos (q : Rat) : Rat :=
  roundEven (q / 2 ^ ulpExp q) * 2 ^ ulpExp q

def nearest (q : Rat) : Rat :=
  if q < 0 then -roundPos (-q) else roundPos q

theorem roundEven_mono {p q : Rat} (h : p ≤ q) : roundEven p ≤ roundEven q := by
  have hf : ⌊p⌋ ≤ ⌊q⌋ := Int.floor_mono h
  rcases Int.lt_or_eq_of_le hf with hlt | heq
  . have hp : roundEven p ≤ ⌊p⌋ + 1 := by
      unfold roundEven; grind
    have hq : ⌊q⌋ ≤ roundEven q := by
      unfold roundEven; grind
    omega
  . unfold roundEven
    rw [heq]
    grind

theorem roundEven_intCast (n : Int) : roundEven n = n := by
  simp [roundEven]

theorem le_roundEven {n : Int} {q : Rat} (h : (n : Rat) ≤ q) : n ≤ roundEven q := by
  rw [← roundEven_intCast n]
  exact roundEven_mono h

theorem roundEven_le {n : Int} {q : Rat} (h : q ≤ n) : roundEven q ≤ n := by
  rw [← roundEven_intCast n]
  exact roundEven_mono h

theorem ulpExp_mono {p q : Rat} (hp : 0 < p) (h : p ≤ q) : ulpExp p ≤ ulpExp q := by
  have := Int.log_mono_right (b := 2) hp h
  unfold ulpExp
  omega

theorem two_zpow_pos (e : Int) : (0 : Rat) < 2 ^ e := by positivity

theorem lt_pow_ulpExp {q : Rat} : q < 2 ^ 53 * 2 ^ ulpExp q := by
  have h1 := Int.lt_zpow_succ_log_self (b := 2) (by decide) q
  have h2 : (2 : Rat) ^ (Int.log 2 q + 1) ≤ 2 ^ (53 + ulpExp q) := by
    apply zpow_le_zpow_right₀ (by norm_num)
    unfold ulpExp
    omega
  rw [zpow_add₀ (by norm_num) 53] at h2
  exact lt_of_lt_of_le (by exact_mod_cast h1) h2

theorem pow_ulpExp_le {q : Rat} (hq : 0 < q) (h : -1074 < ulpExp q) :
    2 ^ 52 * 2 ^ ulpExp q ≤ q := by
  have h1 := Int.zpow_log_le_self (b := 2) (by decide) hq
  have h2 : (2 : Rat) ^ (52 + ulpExp q) ≤ 2 ^ (Int.log 2 q) := by
    apply zpow_le_zpow_right₀ (by norm_num)
    unfold ulpExp at h ⊢
    omega
  rw [zpow_add₀ (by norm_num)] at h2
  exact h2.trans (by exact_mod_cast h1)

theorem roundPos_le {q : Rat} : roundPos q ≤ 2 ^ 53 * 2 ^ ulpExp q := by
  have h : roundEven (q / 2 ^ ulpExp q) ≤ (2 ^ 53 : Int) := by
    apply roundEven_le
    rw [div_le_iff₀ (two_zpow_pos _)]
    exact_mod_cast lt_pow_ulpExp.le
  unfold roundPos
  have : (roundEven (q / 2 ^ ulpExp q) : Rat) ≤ 2 ^ 53 := by exact_mod_cast h
  gcongr

theorem le_roundPos {q : Rat} (hq : 0 < q) (h : -1074 < ulpExp q) :
    2 ^ 52 * 2 ^ ulpExp q ≤ roundPos q := by
  have h : (2 ^ 52 : Int) ≤ roundEven (q / 2 ^ ulpExp q) := by
    apply le_roundEven
    rw [le_div_iff₀ (two_zpow_pos _)]
    exact_mod_cast pow_ulpExp_le hq h
  unfold roundPos
  have : (2 ^ 52 : Rat) ≤ roundEven (q / 2 ^ ulpExp q) := by exact_mod_cast h
  gcongr

theorem roundPos_mono {p q : Rat} (hp : 0 < p) (h : p ≤ q) : roundPos p ≤ roundPos q := by
  rcases Int.lt_or_eq_of_le (ulpExp_mono hp h) with hlt | heq
  . have hq : 0 < q := lt_of_lt_of_le hp h
    have hlow : -1074 < ulpExp q := lt_of_le_of_lt (le_max_right _ _) hlt
    calc roundPos p
      _ ≤ 2 ^ 53 * 2 ^ ulpExp p := roundPos_le
      _ = 2 ^ 52 * 2 ^ (ulpExp p + 1) := by
        rw [zpow_add₀ (by norm_num)]; ring
      _ ≤ 2 ^ 52 * 2 ^ ulpExp q := by
        gcongr
        . norm_num
        . omega
      _ ≤ roundPos q := le_roundPos hq hlow
  . unfold roundPos
    rw [heq]
    have := roundEven_mono (div_le_div_of_nonneg_right h (two_zpow_pos (ulpExp q)).le)
    gcongr

theorem roundPos_nonneg {q : Rat} (hq : 0 ≤ q) : 0 ≤ roundPos q := by
  have h : (0 : Int) ≤ roundEven (q / 2 ^ ulpExp q) := by
    apply le_roundEven
    have := two_zpow_pos (ulpExp q)
    simp only [Int.cast_zero]
    positivity
  unfold roundPos
  have : (0 : Rat) ≤ roundEven (q / 2 ^ ulpExp q) := by exact_mod_cast h
  positivity

theorem roundPos_eq_self {q : Rat} {n : Int} (h : q = n * 2 ^ ulpExp q) : roundPos q = q := by
  have hne : (2 : Rat) ^ ulpExp q ≠ 0 := (two_zpow_pos _).ne'
  have : q / 2 ^ ulpExp q = n := by
    rw [div_eq_iff hne]
    exact h
  unfold roundPos
  rw [this, roundEven_intCast, ← h]

theorem ulpExp_le_of_lt {q : Rat} {e : Int} (hq : 0 < q) (he : -1074 ≤ e)
    (h : q < 2 ^ 53 * 2 ^ e) : ulpExp q ≤ e := by
  have h1 : q < (2 : Nat) ^ (53 + e) := by
    rw [zpow_add₀ (by norm_num)]
    exact_mod_cast h
  have h2 := (Int.lt_zpow_iff_log_lt (by decide) hq).mp h1
  unfold ulpExp
  omega

theorem exists_mul_zpow {d e : Int} (h : d ≤ e) (n : Int) :
    ∃ m : Int, (n : Rat) * 2 ^ e = m * 2 ^ d := by
  refine ⟨n * 2 ^ (e - d).toNat, ?_⟩
  push_cast
  rw [mul_assoc, ← zpow_natCast, ← zpow_add₀ (by norm_num)]
  congr 2
  omega

theorem roundPos_roundPos {q : Rat} (hq : 0 < q) : roundPos (roundPos q) = roundPos q := by
  by_cases h0 : roundPos q = 0
  . rw [h0]
    simp [roundPos, roundEven]
  . have hpos : 0 < roundPos q := lt_of_le_of_ne (roundPos_nonneg hq.le) (Ne.symm h0)
    have hmin : -1074 ≤ ulpExp q := le_max_right _ _
    rcases lt_or_eq_of_le roundPos_le with hlt | heq
    . obtain ⟨m, hm⟩ := exists_mul_zpow (ulpExp_le_of_lt hpos hmin hlt)
        (roundEven (q / 2 ^ ulpExp q))
      exact roundPos_eq_self hm
    . have hexp : ulpExp (roundPos q) ≤ ulpExp q + 1 := by
        apply ulpExp_le_of_lt hpos (by omega)
        rw [heq, zpow_add₀ (by norm_num)]
        have := two_zpow_pos (ulpExp q)
        linarith
      obtain ⟨m, hm⟩ := exists_mul_zpow hexp (2 ^ 52)
      apply roundPos_eq_self (n := m)
      rw [← hm, heq, zpow_add₀ (by norm_num)]
      push_cast
      ring

theorem roundPos_zero : roundPos 0 = 0 := by
  simp [roundPos, roundEven]

theorem nearest_nonneg {q : Rat} (hq : 0 ≤ q) : 0 ≤ nearest q := by
  unfold nearest
  rw [if_neg (not_lt.mpr hq)]
  exact roundPos_nonneg hq

theorem nearest_nonpos {q : Rat} (hq : q ≤ 0) : nearest q ≤ 0 := by
  unfold nearest
  split
  . have := roundPos_nonneg (q := -q) (by linarith)
    linarith
  . have : q = 0 := by linarith
    rw [this, roundPos_zero]

theorem nearest_mono {p q : Rat} (h : p ≤ q) : nearest p ≤ nearest q := by
  rcases lt_trichotomy p 0 with hp | hp | hp
  . rcases lt_or_ge q 0 with hq | hq
    . have := roundPos_mono (p := -q) (q := -p) (by linarith) (by linarith)
      unfold nearest
      rw [if_pos hp, if_pos hq]
      linarith
    . exact (nearest_nonpos hp.le).trans (nearest_nonneg hq)
  . subst hp
    have : nearest 0 = 0 := by simp [nearest, roundPos_zero]
    rw [this]
    exact nearest_nonneg h
  . unfold nearest
    rw [if_neg (by linarith), if_neg (by linarith)]
    exact roundPos_mono hp h

theorem lt_of_nearest_lt {p q : Rat} (h : nearest p < nearest q) : p < q := by
  apply lt_of_not_ge
  intro hle
  have := nearest_mono hle
  linarith

theorem nearest_nearest (q : Rat) : nearest (nearest q) = nearest q := by
  rcases lt_trichotomy q 0 with hq | hq | hq
  . have hle := nearest_nonpos hq.le
    rcases lt_or_eq_of_le hle with hlt | heq
    . have : nearest q = -roundPos (-q) := by simp [nearest, hq]
      rw [this] at hlt ⊢
      unfold nearest
      rw [if_pos hlt, neg_neg, roundPos_roundPos (by linarith)]
    . rw [heq]
      simp [nearest, roundPos_zero]
  . subst hq
    simp [nearest, roundPos_zero]
  . have hge := nearest_nonneg hq.le
    have : nearest q = roundPos q := by simp [nearest, hq.le]
    rw [this] at hge ⊢
    unfold nearest
    rw [if_neg (not_lt.mpr hge), roundPos_roundPos hq]

def IsDouble (q : Rat) : Prop :=
  nearest q = q ∧ |q| < 2 ^ 1024

instance (q : Rat) : Decidable (IsDouble q) :=
  inferInstanceAs (Decidable (_ ∧ _))

end F64

inductive F64 where
  | finite (value : Rat) (h : F64.IsDouble value)
  | infinite

namespace F64

instance : DecidableEq F64
  | .finite p _, .finite q _ =>
    if h : p = q then
      isTrue (by
        subst h
        rfl)
    else
      isFalse (by
        intro heq
        cases heq
        exact h rfl)
  | .finite _ _, .infinite => isFalse (by
      intro heq
      cases heq)
  | .infinite, .finite _ _ => isFalse (by
      intro heq
      cases heq)
  | .infinite, .infinite => isTrue rfl

def round (q : Rat) : F64 :=
  if h : |nearest q| < 2 ^ 1024 then .finite (nearest q) ⟨nearest_nearest q, h⟩ else .infinite

def ofInt (n : Int) : F64 :=
  round n

theorem ofInt_eq {n : Int} (hlow : -2 ^ 64 ≤ n) (hhigh : n ≤ 2 ^ 64)
    : ∃ h, ofInt n = .finite (nearest n) h := by
  have hpow : nearest (2 ^ 64) = 2 ^ 64 := by decide +kernel
  have hpow' : nearest (-2 ^ 64) = -2 ^ 64 := by decide +kernel
  have h1 : nearest n ≤ 2 ^ 64 := by
    rw [← hpow]
    apply nearest_mono
    exact_mod_cast hhigh
  have h2 : -2 ^ 64 ≤ nearest n := by
    rw [← hpow']
    apply nearest_mono
    exact_mod_cast hlow
  have h3 : |nearest n| ≤ 2 ^ 64 := abs_le.mpr ⟨h2, h1⟩
  have hfin : |nearest n| < 2 ^ 1024 := lt_of_le_of_lt h3 (by decide +kernel)
  exists ⟨nearest_nearest n, hfin⟩
  simp [ofInt, round, hfin]

def isFinite : F64 → Bool
  | .finite .. => true
  | .infinite => false

def lt : F64 → F64 → Bool
  | .finite l _, .finite r _ => l < r
  | .finite .., .infinite => true
  | .infinite, _ => false

/--
A decimal `mant * 10 ^ -frac`.
-/
structure Decimal where
  mant : Nat
  frac : Nat
  deriving DecidableEq, Repr

def Decimal.value (d : Decimal) : Rat :=
  (d.mant : Rat) / (10 ^ d.frac : Nat)

def nearestDecimal (q : Rat) (frac : Nat) : Decimal :=
  ⟨(roundEven (q * 10 ^ frac)).toNat, frac⟩

def nearestMultiple (q : Rat) (zeros : Nat) : Decimal :=
  ⟨(roundEven (q / 10 ^ zeros)).toNat * 10 ^ zeros, 0⟩

/--
The decimal with the fewest digits that rounds to `q`: drop as many trailing integer digits as
possible, else keep as few digits after the point as possible. The exact value of a double has at
most 1074 digits after the point.
-/
def shortest (q : Rat) : Decimal :=
  let multiples := (List.range 310).reverse.map (nearestMultiple q)
  let fractions := (List.range 1075).map (nearestDecimal q)
  ((multiples ++ fractions).find? (fun d => nearest d.value = q)).getD (nearestDecimal q 1074)

/--
The digits of a decimal number, `frac` of them after the point.
-/
def digitsText (d : Decimal) : String :=
  let text := Nat.repr (d.mant / 10 ^ d.frac)
  if d.frac = 0 then
    text
  else
    let frac := Nat.toDigits 10 (d.mant % 10 ^ d.frac)
    text ++ "." ++ String.ofList (List.replicate (d.frac - frac.length) '0' ++ frac)

/--
The `Display` text of a double. Rust never uses an exponent here.
-/
def toString : F64 → String
  | .finite value _ =>
    let text := digitsText (shortest |value|)
    if value < 0 then "-" ++ text else text
  | .infinite => "inf"

end F64

/-! ## Parsing -/

def digitsValue (digits : List Char) : Nat :=
  digits.foldl (fun acc c => 10 * acc + (c.toNat - '0'.toNat)) 0

def parseNat (digits : List Char) : Option Nat :=
  if digits ≠ [] ∧ digits.all Char.isDigit then some (digitsValue digits) else none

def parseInt : List Char → Option Int
  | '-' :: digits => (parseNat digits).map (fun n => -(n : Int))
  | '+' :: digits => (parseNat digits).map (fun n => (n : Int))
  | digits => (parseNat digits).map (fun n => (n : Int))

/--
`text.parse::<i64>()`
-/
def parseI64 (text : List Char) : Option Int64 := do
  let n ← parseInt text
  if -2 ^ 63 ≤ n ∧ n < 2 ^ 63 then some (Int64.ofInt n) else none

/--
`text.parse::<u64>()`
-/
def parseU64 (text : List Char) : Option Nat := do
  let digits := match text with
    | '+' :: digits => digits
    | digits => digits
  let n ← parseNat digits
  if n < 2 ^ 64 then some n else none

/--
`text.parse::<u32>()`
-/
def parseU32 (text : List Char) : Option UInt32 := do
  let digits := match text with
    | '+' :: digits => digits
    | digits => digits
  let n ← parseNat digits
  if n < 2 ^ 32 then some (UInt32.ofNat n) else none

theorem isDigit_of_parseNat {digits : List Char} {n : Nat} (h : parseNat digits = some n)
    : ∀ c ∈ digits, c.isDigit = true := by
  rw [parseNat] at h
  split at h
  . next hdigits => simpa using hdigits.2
  . cases h

theorem plus_or_digit_of_parseU32 {text : List Char} {n : UInt32} (h : parseU32 text = some n)
    : ∀ c ∈ text, c = '+' ∨ c.isDigit = true := by
  intro c hc
  simp only [parseU32, Option.bind_eq_bind, Option.bind_eq_some_iff] at h
  have ⟨m, hm, _⟩ := h
  split at hm
  . cases List.mem_cons.mp hc with
    | inl hplus => exact Or.inl hplus
    | inr hc => exact Or.inr (isDigit_of_parseNat hm c hc)
  . exact Or.inr (isDigit_of_parseNat hm c hc)

/--
The digits of a number with an optional point and at least one digit.
-/
def parseDecimal (text : List Char) : Option F64.Decimal :=
  let whole := text.takeWhile Char.isDigit
  match text.dropWhile Char.isDigit with
  | [] => if whole ≠ [] then some ⟨digitsValue whole, 0⟩ else none
  | '.' :: frac =>
    if frac.all Char.isDigit ∧ (whole ≠ [] ∨ frac ≠ []) then
      some ⟨digitsValue (whole ++ frac), frac.length⟩
    else
      none
  | _ => none

/--
`text.parse::<f64>()` on texts that start with a digit or a point.
-/
def parseF64 (text : List Char) : Option F64 :=
  let isExp := fun c => c = 'e' || c = 'E'
  let mant := text.takeWhile (fun c => !isExp c)
  match text.dropWhile (fun c => !isExp c) with
  | [] => (parseDecimal mant).map (fun d => .round d.value)
  | _ :: exp => do
    let d ← parseDecimal mant
    let e ← parseInt exp
    some (.round (d.value * 10 ^ e))

end Rust
