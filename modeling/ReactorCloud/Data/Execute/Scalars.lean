import ReactorCloud.Data.Execute.Format
import ReactorCloud.Rust.Decimal15

/-!
This module contains what is stored for the strings and the integers of a request.
-/

namespace Reactor.Data.Execute

open Rust (F64 Json Number Uuid)

/--
A string or an integer of a JSON body.
-/
inductive Scalar where
  | text (s : String)
  | unsigned (n : UInt64)
  | negative (n : Int64)

namespace Scalar

def json : Scalar → Json
  | .text s => .string s
  | .unsigned n => .number (.posInt n)
  | .negative n => .number (.negInt n)

end Scalar

/--
The cast of the database from `float8` to `numeric`, which keeps 15 digits.
-/
structure NumericCast where
  cast : F64 → Rat
  rounds : ∀ q h, F64.Rounds15 q (cast (.finite q h))

def NumericCast.halfEven : NumericCast where
  cast
    | .finite q _ => F64.round15 q
    | .infinite => 0
  rounds q _ := F64.rounds15_round15 q

/--
The text that a parameter leaves in a column of the type text.
-/
def storedText : SqlValue → Option String
  | .text s => some s
  | .uuid id => some id.hyphenated
  | _ => none

/--
The number that a parameter leaves in a column of the type numeric.
-/
def storedNumeric (c : NumericCast) : SqlValue → Option Rat
  | .int i => some i.toInt
  | .float (.of (.of x)) => some (c.cast x)
  | _ => none

def StoredUnchanged (c : NumericCast) : Scalar → Prop
  | .text s => storedText (jsonToSqlValue (some (Scalar.text s).json)) = some s
  | .unsigned n => storedNumeric c (jsonToSqlValue (some (Scalar.unsigned n).json)) = some (n.toNat : Rat)
  | .negative n => storedNumeric c (jsonToSqlValue (some (Scalar.negative n).json)) = some (n.toInt : Rat)

/--
A text that is no UUID unless it is written as UUIDs are, or an integer that is an `i64` or has no more
than 15 significant digits.
-/
def Scalar.Safe : Scalar → Prop
  | .text s => Uuid.parseStr s = none ∨ ∃ id : Uuid, s = id.hyphenated
  | .unsigned n =>
    n.toNat < 2 ^ 63 ∨ n.toNat < 10 ^ 19 ∧ 10 ^ 4 ∣ n.toNat ∨ 10 ^ 19 ≤ n.toNat ∧ 10 ^ 5 ∣ n.toNat
  | .negative _ => True

theorem storedUnchanged_text (c : NumericCast) (s : String)
    : StoredUnchanged c (.text s) ↔ (Scalar.text s).Safe := by
  show storedText (textToSql s) = some s ↔ _
  rw [textToSql]
  cases h : Uuid.parseStr s with
  | none => exact ⟨fun _ => .inl h, fun _ => rfl⟩
  | some id =>
    constructor
    . intro hstored
      exact .inr ⟨id, (Option.some.inj hstored).symm⟩
    . rintro (hnone | ⟨id', rfl⟩)
      . rw [h] at hnone
        cases hnone
      . rw [Uuid.parseStr_hyphenated] at h
        cases h
        rfl

theorem storedUnchanged_unsigned (c : NumericCast) (n : UInt64)
    : StoredUnchanged c (.unsigned n) ↔ (Scalar.unsigned n).Safe := by
  have hlt := n.toNat_lt
  show storedNumeric c (jsonToSqlValue (some (.number (.posInt n)))) = some (n.toNat : Rat) ↔ _
  rw [Scalar.Safe, jsonToSqlValue, Number.asI64]
  by_cases hsmall : n.toNat < 2 ^ 63
  . have hint : n.toInt64.toInt = n.toNat := by
      rw [Int64.toInt, UInt64.toBitVec_toInt64, BitVec.toInt_eq_toNat_of_lt]
      . rfl
      . show 2 * n.toNat < 2 ^ 64
        omega
    rw [if_pos hsmall]
    refine ⟨fun _ => .inl hsmall, fun _ => ?_⟩
    rw [storedNumeric, hint, Int.cast_natCast]
  . obtain ⟨hdouble, hof⟩ := @F64.ofInt_eq n.toNat (by omega) (by omega)
    have hround := c.rounds _ hdouble
    rw [if_neg hsmall]
    simp only [storedNumeric, Number.asF64, hof, Option.some.injEq]
    generalize c.cast (.finite _ hdouble) = r at hround
    rw [Int.cast_natCast] at hround
    rw [F64.rounds15_eq_iff (not_lt.mp hsmall) hlt hround, or_iff_right hsmall]

theorem storedUnchanged_negative (c : NumericCast) (n : Int64)
    : StoredUnchanged c (.negative n) ↔ (Scalar.negative n).Safe :=
  ⟨fun _ => trivial, fun _ => rfl⟩

/--
The scalars that are stored as they are.
-/
theorem storedUnchanged_iff (c : NumericCast) (x : Scalar) : StoredUnchanged c x ↔ x.Safe := by
  cases x with
  | text s => exact storedUnchanged_text c s
  | unsigned n => exact storedUnchanged_unsigned c n
  | negative n => exact storedUnchanged_negative c n

/--
`18446744073709551615` is no `i64` and is rounded.
-/
theorem not_storedUnchanged : ¬ ∀ c x, StoredUnchanged c x := by
  intro h
  have := (storedUnchanged_unsigned .halfEven 18446744073709551615).mp (h .halfEven _)
  revert this
  rw [Scalar.Safe]
  decide

end Reactor.Data.Execute
