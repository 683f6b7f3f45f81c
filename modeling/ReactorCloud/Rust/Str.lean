/-!
This module contains the functions of Rust's `str` that the modelled code uses and Lean lacks, with rules
about prefixes of texts and about trimming.
-/

namespace Rust

theorem isAlpha_iff {c : Char}
    : c.isAlpha = true
      ↔ (65 ≤ c.toNat ∧ c.toNat ≤ 90) ∨ (97 ≤ c.toNat ∧ c.toNat ≤ 122) := by
  have halpha : c.isAlpha = (decide (c.val ≥ 'A'.val ∧ c.val ≤ 'Z'.val)
      || (decide (c.val ≥ 'a'.val) && decide (c.val ≤ 'z'.val))) := rfl
  rw [halpha]
  simp only [Bool.or_eq_true, Bool.and_eq_true, decide_eq_true_eq, ge_iff_le,
    UInt32.le_iff_toNat_le]
  rfl

namespace Str

/--
`s.replace(c, with)` for a single character.
-/
def replaceChar (c : Char) (sub : List Char) (s : String) : String :=
  String.ofList (s.toList.flatMap (fun d => if d = c then sub else [d]))

/--
The text of `s` after each `c` is doubled.
-/
def doubled (c : Char) (s : String) : String :=
  replaceChar c [c, c] s

def joinWith (sep : String) : List String → String
  | [] => ""
  | [s] => s
  | s :: ss => s ++ sep ++ joinWith sep ss

def splitOnChar (c : Char) (s : String) : List String :=
  (s.toList.splitOn c).map String.ofList

/--
`c.is_whitespace()`, the White_Space property of Unicode.
-/
def isWhitespace (c : Char) : Bool :=
  let n := c.toNat
  (9 ≤ n && n ≤ 13) || n == 32 || n == 0x85 || n == 0xA0 || n == 0x1680
    || (0x2000 ≤ n && n ≤ 0x200A) || n == 0x2028 || n == 0x2029 || n == 0x202F || n == 0x205F
    || n == 0x3000

def trimStart (s : List Char) : List Char :=
  s.dropWhile isWhitespace

def trimEnd (s : List Char) : List Char :=
  (s.reverse.dropWhile isWhitespace).reverse

def trim (s : String) : String :=
  String.ofList (trimEnd (trimStart s.toList))

def stripPrefix (start : String) (s : String) : Option String :=
  if start.toList.isPrefixOf s.toList then
    some (String.ofList (s.toList.drop start.length))
  else
    none

end Str

end Rust

/-! Prefixes and trimming -/

namespace Rust.Str

section

variable {p : Char → Bool} {s rest : List Char}

theorem takeWhile_append (h : ∀ c ∈ s, p c = true) (hrest : ∀ c ∈ rest.head?, p c = false)
    : (s ++ rest).takeWhile p = s := by
  rw [List.takeWhile_append_of_pos h]
  cases rest with
  | nil => simp
  | cons c cs => simp [hrest c rfl]

theorem dropWhile_append (h : ∀ c ∈ s, p c = true) (hrest : ∀ c ∈ rest.head?, p c = false)
    : (s ++ rest).dropWhile p = rest := by
  rw [List.dropWhile_append_of_pos h]
  cases rest with
  | nil => rfl
  | cons c cs => simp [hrest c rfl]

end

def Blank (s : List Char) : Prop :=
  ∀ c ∈ s, isWhitespace c = true

/--
The text does not start with a white space.
-/
def Starts (s : List Char) : Prop :=
  ∀ c ∈ s.head?, isWhitespace c = false

/--
The text does not end with a white space.
-/
def Ends (s : List Char) : Prop :=
  ∀ c ∈ s.getLast?, isWhitespace c = false

theorem Ends.append {s t : List Char} (hs : Ends s) (ht : Ends t) : Ends (s ++ t) := by
  intro c hc
  rw [List.getLast?_append] at hc
  cases h : t.getLast? with
  | none =>
    rw [h] at hc
    exact hs c hc
  | some d =>
    rw [h] at hc
    exact ht c (h ▸ hc)

theorem Ends.append_of_ne_nil {t : List Char} (s : List Char) (ht : Ends t) (hne : t ≠ [])
    : Ends (s ++ t) := by
  intro c hc
  rw [List.getLast?_append] at hc
  cases h : t.getLast? with
  | none => exact absurd (List.getLast?_eq_none_iff.mp h) hne
  | some d =>
    rw [h] at hc
    exact ht c (h ▸ hc)

theorem Starts.append {s t : List Char} (hs : Starts s) (hne : s ≠ []) : Starts (s ++ t) := by
  cases s with
  | nil => contradiction
  | cons c cs => exact hs

theorem trimStart_append {g s : List Char} (hg : Blank g) (hs : Starts s)
    : trimStart (g ++ s) = s :=
  dropWhile_append hg hs

theorem trimEnd_append {g s : List Char} (hg : Blank g) (hs : Ends s)
    : trimEnd (s ++ g) = s := by
  unfold trimEnd
  rw [List.reverse_append, dropWhile_append, List.reverse_reverse]
  . intro c hc
    exact hg c (List.mem_reverse.mp hc)
  . rw [List.head?_reverse]
    exact hs

end Rust.Str
