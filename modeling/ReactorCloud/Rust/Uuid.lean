import Mathlib.Algebra.Group.Nat.Defs

/-!
This module contains the identifiers of `reactor_core::id` and their canonical text, which is read back.
-/

namespace Rust

abbrev Uuid := BitVec 128

namespace Uuid

instance lawfulBEq : LawfulBEq Uuid := inferInstance

def nibble (id : Uuid) (i : Nat) : Char :=
  Nat.digitChar (id.toNat / 16 ^ (31 - i) % 16)

def nibbles (id : Uuid) (start len : Nat) : List Char :=
  (List.range' start len).map (nibble id)

/--
The 36 characters of the hyphenated lower case form.
-/
def hyphenated (id : Uuid) : String :=
  String.ofList
    (nibbles id 0 8 ++ '-' :: nibbles id 8 4 ++ '-' :: nibbles id 12 4 ++ '-' :: nibbles id 16 4
      ++ '-' :: nibbles id 20 12)

theorem digitChar_mem {n : Nat} (h : n < 16) :
    Nat.digitChar n ∈ "0123456789abcdef".toList := by
  have : n ∈ List.range 16 := List.mem_range.mpr h
  revert n
  decide

theorem mem_hyphenated {id : Uuid} {c : Char} (h : c ∈ (hyphenated id).toList)
    : c ∈ "-0123456789abcdef".toList := by
  have key : ∀ start len, c ∈ nibbles id start len → c ∈ "0123456789abcdef".toList := by
    intro start len hmem
    simp only [nibbles, List.mem_map] at hmem
    obtain ⟨i, _, rfl⟩ := hmem
    apply digitChar_mem
    apply Nat.mod_lt
    decide
  have sub : "0123456789abcdef".toList ⊆ "-0123456789abcdef".toList := by
    simp
  simp only [hyphenated, String.toList_ofList, List.mem_append, List.mem_cons] at h
  grind

theorem digitChar_inj {m n : Nat} (hm : m < 16) (hn : n < 16) (h : Nat.digitChar m = Nat.digitChar n)
    : m = n := by
  have key : ∀ m ∈ List.range 16, ∀ n ∈ List.range 16, Nat.digitChar m = Nat.digitChar n → m = n := by
    decide
  exact key m (List.mem_range.mpr hm) n (List.mem_range.mpr hn) h

theorem length_hyphenated (id : Uuid) : (hyphenated id).toList.length = 36 := by
  simp [hyphenated, nibbles]

theorem nibble_eq_of_nibbles_append {id id' : Uuid} {start len : Nat} {cs cs' : List Char}
    (h : nibbles id start len ++ cs = nibbles id' start len ++ cs')
    : (∀ i, start ≤ i → i < start + len → nibble id i = nibble id' i) ∧ cs = cs' := by
  obtain ⟨hnibbles, hrest⟩ := List.append_inj h (by simp [nibbles])
  refine ⟨?_, hrest⟩
  intro i hstart hlen
  exact List.map_inj_left.mp hnibbles i (by simp [List.mem_range'_1, hstart, hlen])

theorem hyphenated_inj {id id' : Uuid} (h : hyphenated id = hyphenated id') : id = id' := by
  have hnibble : ∀ i < 32, nibble id i = nibble id' i := by
    have hlists := congrArg String.toList h
    simp only [hyphenated, String.toList_ofList, List.append_assoc, List.cons_append] at hlists
    obtain ⟨h₁, hlists⟩ := nibble_eq_of_nibbles_append hlists
    obtain ⟨h₂, hlists⟩ := nibble_eq_of_nibbles_append (List.cons.inj hlists).2
    obtain ⟨h₃, hlists⟩ := nibble_eq_of_nibbles_append (List.cons.inj hlists).2
    obtain ⟨h₄, hlists⟩ := nibble_eq_of_nibbles_append (List.cons.inj hlists).2
    have hlast := (List.cons.inj hlists).2
    rw [← List.append_nil (nibbles id 20 12), ← List.append_nil (nibbles id' 20 12)] at hlast
    obtain ⟨h₅, _⟩ := nibble_eq_of_nibbles_append hlast
    intro i hi
    grind
  -- the last digits are those of the remainder
  have hmod : ∀ m ≤ 32, id.toNat % 16 ^ m = id'.toNat % 16 ^ m := by
    intro m
    induction m with
    | zero => omega
    | succ m ih =>
      intro hm
      have := digitChar_inj (Nat.mod_lt _ (by decide)) (Nat.mod_lt _ (by decide))
        (hnibble (31 - m) (by omega))
      rw [show 31 - (31 - m) = m by omega] at this
      rw [Nat.mod_pow_succ, Nat.mod_pow_succ, ih (by omega), this]
  have hall := hmod 32 (Nat.le_refl _)
  have hlt : id.toNat < 16 ^ 32 := id.isLt
  have hlt' : id'.toNat < 16 ^ 32 := id'.isLt
  rw [Nat.mod_eq_of_lt hlt, Nat.mod_eq_of_lt hlt'] at hall
  exact BitVec.eq_of_toNat_eq hall

def hexValue (c : Char) : Option Nat :=
  if c.isDigit then
    some (c.toNat - '0'.toNat)
  else if 'a' ≤ c ∧ c ≤ 'f' then
    some (c.toNat - 'a'.toNat + 10)
  else if 'A' ≤ c ∧ c ≤ 'F' then
    some (c.toNat - 'A'.toNat + 10)
  else
    none

def parseSimple (s : List Char) : Option Uuid := do
  let digits ← s.mapM hexValue
  if digits.length = 32 then some (.ofNat 128 (digits.foldl (16 * · + ·) 0)) else none

def parseHyphenated (s : List Char) : Option Uuid :=
  if s.length = 36 ∧ [8, 13, 18, 23].all (fun i => s[i]? == some '-') then
    parseSimple (s.filter (· ≠ '-'))
  else
    none

/--
`Uuid::parse_str`: the simple form, the hyphenated one, and the latter in braces or as a URN.
-/
def parseStr (s : String) : Option Uuid :=
  let cs := s.toList
  if cs.length = 32 then
    parseSimple cs
  else if cs.length = 38 ∧ cs.head? = some '{' ∧ cs.getLast? = some '}' then
    parseHyphenated cs.tail.dropLast
  else if "urn:uuid:".toList.isPrefixOf cs then
    parseHyphenated (cs.drop 9)
  else
    parseHyphenated cs

/--
The bytes of a number, the most significant first.
-/
def bytesOf : Nat → Nat → List UInt8
  | 0, _ => []
  | k + 1, n => bytesOf k (n / 256) ++ [UInt8.ofNat n]

def ofBytes (bytes : List UInt8) : Nat :=
  bytes.foldl (fun n b => n * 256 + b.toNat) 0

def asBytes (id : Uuid) : List UInt8 :=
  bytesOf 16 id.toNat

def fromSlice (bytes : List UInt8) : Option Uuid :=
  if bytes.length = 16 then some (BitVec.ofNat 128 (ofBytes bytes)) else none

end Uuid
end Rust

/-! The text is read back -/

namespace Rust.Uuid

theorem hexValue_digitChar {n : Nat} (h : n < 16) : hexValue (Nat.digitChar n) = some n := by
  have : ∀ n ∈ List.range 16, hexValue (Nat.digitChar n) = some n := by decide
  exact this n (List.mem_range.mpr h)

def digits (n len : Nat) : List Nat :=
  (List.range len).map (fun i => n / 16 ^ (len - 1 - i) % 16)

theorem foldl_digits (n len : Nat) : (digits n len).foldl (16 * · + ·) 0 = n % 16 ^ len := by
  induction len generalizing n with
  | zero => simp [digits, Nat.mod_one]
  | succ len ih =>
    have hinit : (List.range len).map (fun i => n / 16 ^ (len - i) % 16) = digits (n / 16) len := by
      apply List.map_congr_left
      intro i hi
      rw [List.mem_range] at hi
      rw [Nat.div_div_eq_div_mul, ← Nat.pow_succ']
      congr 3
      omega
    rw [digits, List.range_succ, List.map_append, List.foldl_append, Nat.add_sub_cancel, hinit, ih]
    simp only [List.map_cons, List.map_nil, List.foldl_cons, List.foldl_nil, Nat.sub_self, Nat.pow_zero,
      Nat.div_one]
    rw [Nat.pow_succ', Nat.mod_mul, Nat.add_comm]

theorem mapM_hexValue {is : List Nat} {f : Nat → Char} {g : Nat → Nat}
    (h : ∀ i ∈ is, hexValue (f i) = some (g i)) : (is.map f).mapM hexValue = some (is.map g) := by
  induction is with
  | nil => rfl
  | cons i is ih =>
    rw [List.forall_mem_cons] at h
    rw [List.map_cons, List.mapM_cons, h.1, ih h.2]
    rfl

theorem parseSimple_nibbles (id : Uuid) : parseSimple (nibbles id 0 32) = some id := by
  have hmap : (nibbles id 0 32).mapM hexValue = some (digits id.toNat 32) := by
    rw [nibbles, ← List.range_eq_range']
    apply mapM_hexValue
    intro i _
    exact hexValue_digitChar (Nat.mod_lt _ (by decide))
  have hlength : (digits id.toNat 32).length = 32 := by simp [digits]
  have hlt : id.toNat < 16 ^ 32 := id.isLt
  rw [parseSimple, hmap]
  simp only [Option.bind_eq_bind, Option.bind_some]
  rw [if_pos hlength, foldl_digits, Nat.mod_eq_of_lt hlt]
  simp

theorem nibbles_append (id : Uuid) (start len len' : Nat)
    : nibbles id start len ++ nibbles id (start + len) len' = nibbles id start (len + len') := by
  rw [nibbles, nibbles, nibbles, ← List.map_append, List.range'_append_1]

theorem mem_nibbles {id : Uuid} {start len : Nat} {c : Char} (h : c ∈ nibbles id start len)
    : c ∈ "0123456789abcdef".toList := by
  obtain ⟨i, _, rfl⟩ := List.mem_map.mp h
  exact digitChar_mem (Nat.mod_lt _ (by decide))

theorem filter_nibbles (id : Uuid) (start len : Nat)
    : (nibbles id start len).filter (fun c => c ≠ '-') = nibbles id start len := by
  rw [List.filter_eq_self]
  intro c hc
  have hmem := mem_nibbles hc
  rw [decide_eq_true_eq]
  rintro rfl
  revert hmem
  decide

theorem parseHyphenated_hyphenated (id : Uuid) : parseHyphenated (hyphenated id).toList = some id := by
  have hfilter : (hyphenated id).toList.filter (fun c => c ≠ '-') = nibbles id 0 32 := by
    rw [hyphenated, String.toList_ofList]
    simp only [List.filter_append, List.filter_cons, filter_nibbles, ne_eq, not_true, decide_false,
      Bool.false_eq_true, if_false]
    rw [nibbles_append id 0 8 4, nibbles_append id 0 12 4, nibbles_append id 0 16 4,
      nibbles_append id 0 20 12]
  rw [parseHyphenated, if_pos, hfilter, parseSimple_nibbles]
  refine ⟨length_hyphenated id, ?_⟩
  rw [hyphenated, String.toList_ofList]
  simp [nibbles]

/--
The canonical text of an identifier is read as this identifier.
-/
theorem parseStr_hyphenated (id : Uuid) : parseStr (hyphenated id) = some id := by
  have hurn : "urn:uuid:".toList.isPrefixOf (hyphenated id).toList = false := by
    rw [Bool.eq_false_iff]
    intro hpre
    rw [List.isPrefixOf_iff_prefix] at hpre
    have hmem : 'u' ∈ (hyphenated id).toList := hpre.subset (by decide)
    have := mem_hyphenated hmem
    revert this
    decide
  have hlength := length_hyphenated id
  rw [parseStr]
  simp only [hlength, hurn]
  rw [if_neg (by decide), if_neg (by simp), if_neg (by decide), parseHyphenated_hyphenated]

end Rust.Uuid
