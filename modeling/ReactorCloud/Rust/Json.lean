import ReactorCloud.Rust.F64

/-!
This module contains the values of `serde_json`. The members of an object are a list in the order in
which the map iterates over its keys.
-/

namespace Rust

/--
The three representations of a JSON number. `negInt` only holds negative numbers.
-/
inductive Number where
  | posInt (n : UInt64)
  | negInt (n : Int64)
  | float (value : Rat) (h : F64.IsDouble value)
  deriving DecidableEq

namespace Number

def ofI64 (n : Int64) : Number :=
  if 0 ≤ n then .posInt n.toUInt64 else .negInt n

def asF64 : Number → F64
  | .posInt n => .ofInt n.toNat
  | .negInt n => .ofInt n.toInt
  | .float value h => .finite value h

/--
The number a JSON number stands for.
-/
def toRat : Number → Rat
  | .posInt n => n.toNat
  | .negInt n => n.toInt
  | .float value _ => value

@[simp]
theorem toRat_ofI64 (n : Int64) : (ofI64 n).toRat = n.toInt := by
  unfold ofI64
  split
  . next h =>
    have hnat := Int64.toNat_toUInt64_of_le h
    have hpos : 0 ≤ n.toInt := by
      simpa using Int64.le_iff_toInt_le.mp h
    have key : (n.toUInt64.toNat : Int) = n.toInt := by
      rw [hnat, ← Int64.toNat_toInt]
      omega
    simp only [toRat]
    exact_mod_cast key
  . rfl

/--
A number becomes the double nearest to it.
-/
theorem asF64_eq (n : Number) : ∃ h, n.asF64 = .finite (F64.nearest n.toRat) h := by
  cases n with
  | posInt n =>
    exact F64.ofInt_eq (n := n.toNat) (by omega) (by simpa using n.toNat_lt.le)
  | negInt n => exact F64.ofInt_eq (by have := n.le_toInt; omega) (by have := n.toInt_lt; omega)
  | float value h =>
    have : F64.nearest (float value h).toRat = value := h.1
    simp only [this]
    exact ⟨h, rfl⟩

theorem asF64_lt (l r : Number)
    : F64.lt l.asF64 r.asF64 = true ↔ F64.nearest l.toRat < F64.nearest r.toRat := by
  obtain ⟨_, hl⟩ := l.asF64_eq
  obtain ⟨_, hr⟩ := r.asF64_eq
  simp [hl, hr, F64.lt]

end Number

inductive Json where
  | null
  | bool (b : Bool)
  | number (n : Number)
  | string (s : String)
  | array (items : List Json)
  | object (members : List (String × Json))

namespace Json

mutual

/--
The derived `PartialEq` of `serde_json::Value`.
-/
def beq : Json → Json → Bool
  | .null, .null => true
  | .bool l, .bool r => l == r
  | .number l, .number r => l == r
  | .string l, .string r => l == r
  | .array l, .array r => beqList l r
  | .object l, .object r => beqMembers l r
  | _, _ => false

def beqList : List Json → List Json → Bool
  | [], [] => true
  | l :: ls, r :: rs => beq l r && beqList ls rs
  | _, _ => false

def beqMembers : List (String × Json) → List (String × Json) → Bool
  | [], [] => true
  | (k, l) :: ls, (k', r) :: rs => k == k' && beq l r && beqMembers ls rs
  | _, _ => false

end

instance : BEq Json := ⟨beq⟩

theorem beq_iff (l r : Json) : beq l r = true ↔ l = r := by
  induction l, r using beq.induct
    (motive_2 := fun ls rs => beqMembers ls rs = true ↔ ls = rs)
    (motive_3 := fun ls rs => beqList ls rs = true ↔ ls = rs) with
  | case7 l r => cases l <;> cases r <;> simp_all [beq]
  | case10 ls rs _ h =>
    cases ls with
    | nil => cases rs <;> simp_all [beqList]
    | cons l ls =>
      cases rs with
      | nil => simp [beqList]
      | cons r rs => exact (h l ls r rs rfl rfl).elim
  | case13 ls rs _ h =>
    cases ls with
    | nil => cases rs <;> simp_all [beqMembers]
    | cons l ls =>
      cases rs with
      | nil => simp [beqMembers]
      | cons r rs => exact (h l.1 l.2 ls r.1 r.2 rs rfl rfl).elim
  | _ => simp_all [beq, beqList, beqMembers]

instance : DecidableEq Json := fun l r =>
  decidable_of_iff (beq l r = true) (beq_iff l r)

/--
`value.get(key)`, which only finds something in an object.
-/
def get (key : String) : Json → Option Json
  | .object members => members.lookup key
  | _ => none

def asStr : Json → Option String
  | .string s => some s
  | _ => none

def asArray : Json → Option (List Json)
  | .array items => some items
  | _ => none

def asBool : Json → Option Bool
  | .bool b => some b
  | _ => none

def isNull : Json → Bool
  | .null => true
  | _ => false

def asF64 : Json → Option F64
  | .number n => some n.asF64
  | _ => none

end Json
end Rust
