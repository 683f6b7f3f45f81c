import ReactorCloud.Rust.F64

/-!
This module contains the comparisons of `f64` with all its values and how they are parsed.
-/

namespace Rust

namespace F64

theorem not_lt_trans {x y z : F64} (hxy : x.lt y = false) (hyz : y.lt z = false) : x.lt z = false := by
  cases x with
  | infinite => rfl
  | finite p hp =>
    cases y with
    | infinite => cases hxy
    | finite q hq =>
      cases z with
      | infinite => cases hyz
      | finite r hr =>
        simp only [lt, decide_eq_false_iff_not, not_lt] at hxy hyz ⊢
        exact le_trans hyz hxy

/--
The quotient of two counters.
-/
def ratio (m n : Nat) : F64 :=
  round (nearest m / nearest n)

end F64

inductive Double where
  | nan
  | negInfinite
  | of (x : F64)
  deriving DecidableEq

namespace Double

def lt : Double → Double → Bool
  | .of x, .of y => x.lt y
  | .negInfinite, .of _ => true
  | _, _ => false

def ge : Double → Double → Bool
  | .of x, .of y => !x.lt y
  | .of _, .negInfinite => true
  | .negInfinite, .negInfinite => true
  | _, _ => false

theorem ge_trans_not_lt {x y z : Double} (hxy : x.ge y = true) (hyz : y.ge z = true) : x.lt z = false := by
  cases x with
  | nan => rfl
  | negInfinite =>
    cases y with
    | negInfinite => cases z <;> first | rfl | cases hyz
    | nan => cases hxy
    | of y => cases hxy
  | of x =>
    cases z with
    | nan => rfl
    | negInfinite => rfl
    | of z =>
      cases y with
      | nan => cases hxy
      | negInfinite => cases hyz
      | of y =>
        simp only [ge, Bool.not_eq_true'] at hxy hyz
        exact F64.not_lt_trans hxy hyz

end Double

/-! Parsing -/

inductive Float64 where
  | negZero
  | of (x : Double)
  deriving DecidableEq

namespace Float64

/--
The negation of a double that is not negative.
-/
def neg : F64 → Float64
  | .finite value _ => if value = 0 then .negZero else .of (.of (.round (-value)))
  | .infinite => .of .negInfinite

def parseSpecial (body : List Char) : Option Double :=
  let lower := body.map Char.toLower
  if lower = "inf".toList ∨ lower = "infinity".toList then
    some (.of .infinite)
  else if lower = "nan".toList then
    some .nan
  else
    none

def negSpecial : Double → Double
  | .of _ => .negInfinite
  | x => x

/--
`text.parse::<f64>()`
-/
def parse (text : List Char) : Option Float64 :=
  let (negative, body) := match text with
    | '-' :: body => (true, body)
    | '+' :: body => (false, body)
    | body => (false, body)
  match parseSpecial body with
  | some x => some (.of (if negative then negSpecial x else x))
  | none => (parseF64 body).map (fun x => if negative then neg x else .of (.of x))

end Float64
end Rust
