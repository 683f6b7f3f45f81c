import Mathlib.Data.List.Basic
import Mathlib.Data.Nat.Digits.Defs

/-!
This module contains the string literals of `serde_json`.
-/

namespace Rust
namespace JsonText

/--
The characters that are escaped by a letter.
-/
def letters : List (Char × Char) :=
  [('"', '"'), ('\\', '\\'), (Char.ofNat 8, 'b'), (Char.ofNat 12, 'f'), (Char.ofNat 10, 'n'),
    (Char.ofNat 13, 'r'), (Char.ofNat 9, 't')]

def letter? (c : Char) : Option Char :=
  (letters.find? (·.1 == c)).map Prod.snd

def escape (c : Char) : List Char :=
  match letter? c with
  | some letter => ['\\', letter]
  | none =>
    if c.toNat < 32 then
      ['\\', 'u', '0', '0', Nat.digitChar (c.toNat / 16), Nat.digitChar (c.toNat % 16)]
    else
      [c]

def quote (s : String) : List Char :=
  '"' :: (s.toList.flatMap escape ++ ['"'])

def unletter? (letter : Char) : Option Char :=
  ((('/', '/') :: letters).find? (·.2 == letter)).map Prod.fst

def hexValue? (c : Char) : Option Nat :=
  (List.range 16).find? (fun n => Nat.digitChar n == c || (Nat.digitChar n).toUpper == c)

/--
The characters up to the closing quote and what stands behind it. A surrogate is not read.
-/
def readChars : List Char → Option (List Char × List Char)
  | '"' :: rest => some ([], rest)
  | '\\' :: 'u' :: a :: b :: c :: d :: rest =>
    match hexValue? a, hexValue? b, hexValue? c, hexValue? d with
    | some a, some b, some c, some d =>
      if ((a * 16 + b) * 16 + c) * 16 + d < 0xD800 ∨ 0xE000 ≤ ((a * 16 + b) * 16 + c) * 16 + d then
        (readChars rest).map fun r => (Char.ofNat (((a * 16 + b) * 16 + c) * 16 + d) :: r.1, r.2)
      else
        none
    | _, _, _, _ => none
  | '\\' :: letter :: rest =>
    match unletter? letter with
    | some c => (readChars rest).map fun r => (c :: r.1, r.2)
    | none => none
  | c :: rest => if c.toNat < 32 then none else (readChars rest).map fun r => (c :: r.1, r.2)
  | [] => none

def readString : List Char → Option (String × List Char)
  | '"' :: rest => (readChars rest).map fun r => (String.ofList r.1, r.2)
  | _ => none

/--
Read what has to stand here.
-/
def expect (p s : List Char) : Option (List Char) :=
  if p <+: s then some (s.drop p.length) else none

theorem expect_append (p s : List Char) : expect p (p ++ s) = some s := by
  rw [expect, if_pos (List.prefix_append p s), List.drop_left]

theorem hexValue?_digitChar {n : Nat} (h : n < 16) : hexValue? (Nat.digitChar n) = some n := by
  have hmem := List.mem_range.mpr h
  revert n
  decide

theorem unletter?_letter? {c letter : Char} (h : letter? c = some letter)
    : letter ≠ 'u' ∧ unletter? letter = some c := by
  rw [letter?, Option.map_eq_some_iff] at h
  obtain ⟨p, hp, rfl⟩ := h
  have hc := List.find?_some hp
  have hmem := List.mem_of_find?_eq_some hp
  rw [beq_iff_eq] at hc
  subst hc
  clear hp
  revert p
  decide

theorem readChars_escape (c : Char) (s : List Char)
    : readChars (escape c ++ s) = (readChars s).map fun r => (c :: r.1, r.2) := by
  unfold escape
  split
  . next letter hletter =>
    obtain ⟨hne, hread⟩ := unletter?_letter? hletter
    simp [readChars, hne, hread]
  . next hnone =>
    split
    . next hlt =>
      have hhigh : c.toNat / 16 < 16 := by omega
      have hlow : c.toNat % 16 < 16 := by omega
      have hcode : c.toNat / 16 * 16 + c.toNat % 16 = c.toNat := by omega
      have hzero : hexValue? '0' = some 0 := by decide
      simp only [List.cons_append, List.nil_append, readChars, hexValue?_digitChar hhigh,
        hexValue?_digitChar hlow, hzero]
      rw [if_pos (by omega)]
      simp [hcode]
    . next hge =>
      have hquote : c ≠ '"' := by
        rintro rfl
        revert hnone
        decide
      have hback : c ≠ '\\' := by
        rintro rfl
        revert hnone
        decide
      rw [List.singleton_append, readChars, if_neg hge]
      . intro heq
        exact absurd heq hquote
      . intro a b d e rest heq
        exact absurd heq hback
      . intro letter rest heq
        exact absurd heq hback

theorem readChars_flatMap (cs s : List Char)
    : readChars (cs.flatMap escape ++ '"' :: s) = some (cs, s) := by
  induction cs with
  | nil => rw [List.flatMap_nil, List.nil_append, readChars]
  | cons c cs ih =>
    rw [List.flatMap_cons, List.append_assoc, readChars_escape, ih]
    rfl

/--
What is quoted is read back.
-/
theorem readString_quote (s : String) (rest : List Char) : readString (quote s ++ rest) = some (s, rest) := by
  rw [quote, List.cons_append, readString, List.append_assoc, List.singleton_append, readChars_flatMap]
  simp

theorem ne_feed_of_mem_escape {c d : Char} (h : d ∈ escape c) : d ≠ '\n' := by
  have hdigit : ∀ n < 16, Nat.digitChar n ≠ '\n' := by decide
  unfold escape at h
  split at h
  . next letter hletter =>
    rw [letter?, Option.map_eq_some_iff] at hletter
    obtain ⟨p, hp, rfl⟩ := hletter
    have hmem := List.mem_of_find?_eq_some hp
    have hne : ∀ p ∈ letters, p.2 ≠ '\n' := by decide
    simp only [List.mem_cons, List.not_mem_nil, or_false] at h
    cases h with
    | inl heq => rw [heq]; decide
    | inr heq => rw [heq]; exact hne p hmem
  . split at h
    . next hlt =>
      simp only [List.mem_cons, List.not_mem_nil, or_false] at h
      rcases h with rfl | rfl | rfl | rfl | rfl | rfl
      . decide
      . decide
      . decide
      . decide
      . exact hdigit _ (by omega)
      . exact hdigit _ (by omega)
    . next hge =>
      rw [List.mem_singleton] at h
      subst h
      rintro rfl
      exact hge (by decide)

/--
A literal has no line feed.
-/
theorem feed_not_mem_quote (s : String) : '\n' ∉ quote s := by
  intro hmem
  simp only [quote, List.mem_cons, List.mem_append, List.mem_flatMap, List.not_mem_nil, or_false] at hmem
  rcases hmem with heq | ⟨c, _, hc⟩ | heq
  . cases heq
  . exact ne_feed_of_mem_escape hc rfl
  . cases heq

/-! ## Objects of strings -/

/--
The members of an object whose values are strings.
-/
def members : List (String × String) → List Char
  | [] => []
  | [(key, value)] => quote key ++ ':' :: quote value
  | (key, value) :: next :: rest => quote key ++ ':' :: (quote value ++ ',' :: members (next :: rest))

/--
Read the members with these keys, in this order.
-/
def readMembers : List String → List Char → Option (List String × List Char)
  | [], s => some ([], s)
  | [key], s => do
    let s ← expect (quote key ++ [':']) s
    let (value, s) ← readString s
    some ([value], s)
  | key :: next :: rest, s => do
    let s ← expect (quote key ++ [':']) s
    let (value, s) ← readString s
    let s ← expect [','] s
    let (values, s) ← readMembers (next :: rest) s
    some (value :: values, s)

theorem readMembers_members (fields : List (String × String)) (s : List Char)
    : readMembers (fields.map Prod.fst) (members fields ++ s) = some (fields.map Prod.snd, s) := by
  induction fields with
  | nil => rfl
  | cons field rest ih =>
    obtain ⟨key, value⟩ := field
    cases rest with
    | nil =>
      have hkey := expect_append (quote key ++ [':']) (quote value ++ s)
      simp only [List.append_assoc, List.singleton_append] at hkey
      simp [readMembers, members, hkey, readString_quote]
    | cons next rest =>
      have hkey := expect_append (quote key ++ [':']) (quote value ++ ',' :: (members (next :: rest) ++ s))
      have hcomma := expect_append [','] (members (next :: rest) ++ s)
      simp only [List.append_assoc, List.singleton_append, List.map_cons] at hkey hcomma ih
      simp [readMembers, members, hkey, hcomma, readString_quote, ih]

theorem feed_not_mem_members (fields : List (String × String)) : '\n' ∉ members fields := by
  induction fields with
  | nil => exact List.not_mem_nil
  | cons field rest ih =>
    obtain ⟨key, value⟩ := field
    cases rest with
    | nil => simp [members, feed_not_mem_quote]
    | cons next rest => simp [members, feed_not_mem_quote, ih]

end JsonText
end Rust
