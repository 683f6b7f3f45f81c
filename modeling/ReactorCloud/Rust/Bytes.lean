import Mathlib.Data.Bool.AllAny
import ReactorCloud.Rust.Str
import ReactorCloud.Rust.Uuid

/-!
This module contains the bytes of texts, and the text of JSON strings as `serde_json` writes them.
-/

namespace Rust.Str

/--
`s.as_bytes()`
-/
def bytes (s : String) : List UInt8 :=
  s.toByteArray.data.toList

theorem bytes_eq (s : String) : bytes s = s.toList.flatMap String.utf8EncodeChar := by
  rw [bytes, ← String.utf8Encode_toList, List.utf8Encode, List.toList_data_toByteArray]

theorem bytes_append (s t : String) : bytes (s ++ t) = bytes s ++ bytes t := by
  rw [bytes_eq, bytes_eq, bytes_eq, String.toList_append, List.flatMap_append]

theorem bytes_ofList (cs : List Char) : bytes (String.ofList cs) = cs.flatMap String.utf8EncodeChar := by
  rw [bytes_eq, String.toList_ofList]

theorem bytes_inj {s t : String} (h : bytes s = bytes t) : s = t := by
  rw [← String.toByteArray_inj]
  exact ByteArray.ext (Array.toList_inj.mp h)

theorem utf8EncodeChar_ascii {c : Char} (h : c.toNat < 128)
    : String.utf8EncodeChar c = [UInt8.ofNat c.toNat] := by
  have hle : c.val.toNat ≤ 127 := Nat.le_of_lt_succ h
  simp only [String.utf8EncodeChar, if_pos hle]
  rfl

/--
A byte below 128 only stands for its own character.
-/
theorem toNat_of_mem_utf8EncodeChar {c : Char} {b : UInt8} (h : b ∈ String.utf8EncodeChar c)
    : b.toNat = c.toNat ∨ 128 ≤ b.toNat := by
  by_cases hc : c.toNat < 128
  . rw [utf8EncodeChar_ascii hc, List.mem_singleton] at h
    left
    rw [h, UInt8.toNat_ofNat']
    omega
  . right
    have hgt : ¬ c.val.toNat ≤ 127 := fun hle => hc (Nat.lt_succ_of_le hle)
    simp only [String.utf8EncodeChar, if_neg hgt] at h
    -- one case for each length of the encoding
    split at h
    . simp only [List.mem_cons, List.not_mem_nil, or_false] at h
      rcases h with rfl | rfl <;> rw [UInt8.toNat_ofNat'] <;> omega
    . split at h
      . simp only [List.mem_cons, List.not_mem_nil, or_false] at h
        rcases h with rfl | rfl | rfl <;> rw [UInt8.toNat_ofNat'] <;> omega
      . simp only [List.mem_cons, List.not_mem_nil, or_false] at h
        rcases h with rfl | rfl | rfl | rfl <;> rw [UInt8.toNat_ofNat'] <;> omega

theorem exists_mem_of_mem_bytes {s : String} {b : UInt8} (h : b ∈ bytes s) (hb : b.toNat < 128)
    : ∃ c ∈ s.toList, b.toNat = c.toNat := by
  rw [bytes_eq] at h
  obtain ⟨c, hc, hmem⟩ := List.mem_flatMap.mp h
  refine ⟨c, hc, (toNat_of_mem_utf8EncodeChar hmem).resolve_right ?_⟩
  exact Nat.not_le_of_lt hb

theorem mem_bytes_of_mem {s : String} {c : Char} (h : c ∈ s.toList) (hc : c.toNat < 128)
    : UInt8.ofNat c.toNat ∈ bytes s := by
  rw [bytes_eq]
  apply List.mem_flatMap.mpr
  refine ⟨c, h, ?_⟩
  rw [utf8EncodeChar_ascii hc, List.mem_singleton]

/--
The text of ASCII bytes has these bytes.
-/
theorem bytes_ascii {bs : List UInt8} (h : ∀ b ∈ bs, b.toNat < 128)
    : bytes (String.ofList (bs.map (fun b => Char.ofNat b.toNat))) = bs := by
  rw [bytes_ofList]
  induction bs with
  | nil => rfl
  | cons b bs ih =>
    have hb := h b List.mem_cons_self
    have hval : (Char.ofNat b.toNat).toNat = b.toNat := by
      have hvalid : b.toNat.isValidChar := .inl (by omega)
      rw [Char.ofNat, dif_pos hvalid]
      rfl
    rw [List.map_cons, List.flatMap_cons, ih (fun b hb => h b (List.mem_cons_of_mem _ hb)),
      utf8EncodeChar_ascii (by omega), hval, UInt8.ofNat_toNat]
    rfl

/--
The characters with a short escape.
-/
def shortEscapes : List (Char × Char) :=
  [('"', '"'), ('\\', '\\'), ('\x08', 'b'), ('\t', 't'), ('\n', 'n'), ('\x0c', 'f'), ('\r', 'r')]

/--
A character as it stands between the quotes of a string.
-/
def escapeChar (c : Char) : List Char :=
  match shortEscapes.lookup c with
  | some e => ['\\', e]
  | none =>
    if c.toNat < 32 then
      ['\\', 'u', '0', '0', Nat.digitChar (c.toNat / 16), Nat.digitChar (c.toNat % 16)]
    else
      [c]

def jsonString (s : String) : String :=
  String.ofList ('"' :: s.toList.flatMap escapeChar ++ ['"'])

/--
The characters of an escape are not control characters.
-/
theorem mem_escapeChar {c d : Char} (h : d ∈ escapeChar c)
    : 32 ≤ d.toNat ∧ (d.toNat = 127 → d = c) := by
  have hfixed : ∀ d ∈ '\\' :: 'u' :: '0' :: shortEscapes.map (·.2), 32 ≤ d.toNat ∧ d.toNat ≠ 127 :=
    List.all_iff_forall_prop.mp (by decide)
  have hdigit : ∀ n < 16, 32 ≤ (Nat.digitChar n).toNat ∧ (Nat.digitChar n).toNat ≠ 127 := by
    decide
  have hwhole : ∀ {d : Char}, 32 ≤ d.toNat ∧ d.toNat ≠ 127 → 32 ≤ d.toNat ∧ (d.toNat = 127 → d = c) :=
    fun h => ⟨h.1, fun heq => absurd heq h.2⟩
  unfold escapeChar at h
  split at h
  . next e he =>
    have hmem : e ∈ shortEscapes.map (·.2) := by
      obtain ⟨front, back, heq, _⟩ := List.lookup_eq_some_iff.mp he
      rw [heq]
      simp
    simp only [List.mem_cons, List.not_mem_nil, or_false] at h
    rcases h with rfl | rfl
    . exact hwhole (hfixed _ (by decide))
    . apply hwhole (hfixed _ _)
      simp only [List.mem_cons]
      exact .inr (.inr (.inr hmem))
  . split at h
    . simp only [List.mem_cons, List.not_mem_nil, or_false] at h
      rcases h with rfl | rfl | rfl | rfl | rfl | rfl
      . exact hwhole (hfixed _ (by decide))
      . exact hwhole (hfixed _ (by decide))
      . exact hwhole (hfixed _ (by decide))
      . exact hwhole (hfixed _ (by decide))
      . exact hwhole (hdigit _ (by omega))
      . exact hwhole (hdigit _ (by omega))
    . rw [List.mem_singleton] at h
      subst h
      exact ⟨by omega, fun _ => rfl⟩

/--
The characters of a JSON string are not control characters, except for DEL.
-/
theorem mem_jsonString {s : String} {c : Char} (h : c ∈ (jsonString s).toList)
    : 32 ≤ c.toNat ∧ (c.toNat = 127 → c ∈ s.toList) := by
  simp only [jsonString, String.toList_ofList, List.mem_append, List.mem_cons, List.not_mem_nil,
    or_false, List.mem_flatMap] at h
  rcases h with (rfl | ⟨d, hd, hc⟩) | rfl
  . exact ⟨by decide, fun heq => absurd heq (by decide)⟩
  . obtain ⟨hle, hdel⟩ := mem_escapeChar hc
    refine ⟨hle, fun heq => ?_⟩
    rw [hdel heq]
    exact hd
  . exact ⟨by decide, fun heq => absurd heq (by decide)⟩

theorem del_mem_jsonString {s : String} (h : '\x7f' ∈ s.toList) : '\x7f' ∈ (jsonString s).toList := by
  simp only [jsonString, String.toList_ofList, List.mem_append, List.mem_cons, List.not_mem_nil,
    or_false, List.mem_flatMap]
  refine .inl (.inr ⟨_, h, ?_⟩)
  decide

theorem mem_joinWith {sep : String} {ss : List String} {c : Char}
    (h : c ∈ (joinWith sep ss).toList) : c ∈ sep.toList ∨ ∃ s ∈ ss, c ∈ s.toList := by
  induction ss with
  | nil => cases h
  | cons s ss ih =>
    cases ss with
    | nil => exact .inr ⟨s, List.mem_cons_self, h⟩
    | cons s' ss =>
      simp only [joinWith, String.toList_append, List.mem_append] at h
      rcases h with (h | h) | h
      . exact .inr ⟨s, List.mem_cons_self, h⟩
      . exact .inl h
      . cases ih h with
        | inl h => exact .inl h
        | inr h =>
          obtain ⟨t, ht, hc⟩ := h
          exact .inr ⟨t, List.mem_cons_of_mem _ ht, hc⟩

theorem mem_joinWith_of_mem {sep : String} {ss : List String} {s : String} {c : Char} (hs : s ∈ ss)
    (h : c ∈ s.toList) : c ∈ (joinWith sep ss).toList := by
  induction ss with
  | nil => cases hs
  | cons t ss ih =>
    cases ss with
    | nil =>
      rw [List.mem_singleton] at hs
      rw [← hs]
      exact h
    | cons s' ss =>
      simp only [joinWith, String.toList_append, List.mem_append]
      cases hs with
      | head => exact .inl (.inl h)
      | tail _ hs => exact .inr (ih hs)

end Rust.Str

/-! ## `String::from_utf8_lossy` -/

namespace Rust.Lossy

open Str (bytes)

abbrev Bytes := List UInt8

def isContinuation (b : UInt8) : Bool :=
  0x80 ≤ b && b ≤ 0xBF

/--
The bytes that may follow the first one of three or four.
-/
def isSecond (first second : UInt8) : Bool :=
  if first = 0xE0 then 0xA0 ≤ second && second ≤ 0xBF
  else if first = 0xED then 0x80 ≤ second && second ≤ 0x9F
  else if first = 0xF0 then 0x90 ≤ second && second ≤ 0xBF
  else if first = 0xF4 then 0x80 ≤ second && second ≤ 0x8F
  else isContinuation second

def low (b : UInt8) : Nat :=
  b.toNat % 64

def replacement : Char :=
  Char.ofNat 0xFFFD

/--
The character that starts with a byte, and how many of the bytes behind it belong to it.
-/
def decodeOne (first : UInt8) (rest : Bytes) : Char × Nat :=
  let second := rest.getD 0 0
  let third := rest.getD 1 0
  let fourth := rest.getD 2 0
  if first < 0x80 then
    (Char.ofNat first.toNat, 0)
  else if 0xC2 ≤ first && first ≤ 0xDF then
    if isContinuation second then (Char.ofNat (first.toNat % 32 * 64 + low second), 1) else (replacement, 0)
  else if 0xE0 ≤ first && first ≤ 0xEF then
    if isSecond first second then
      if isContinuation third then
        (Char.ofNat ((first.toNat % 16 * 64 + low second) * 64 + low third), 2)
      else
        (replacement, 1)
    else
      (replacement, 0)
  else if 0xF0 ≤ first && first ≤ 0xF4 then
    if isSecond first second then
      if isContinuation third then
        if isContinuation fourth then
          (Char.ofNat (((first.toNat % 8 * 64 + low second) * 64 + low third) * 64 + low fourth), 3)
        else
          (replacement, 2)
      else
        (replacement, 1)
    else
      (replacement, 0)
  else
    (replacement, 0)

def fromUtf8Lossy : Bytes → List Char
  | [] => []
  | first :: rest => (decodeOne first rest).1 :: fromUtf8Lossy (rest.drop (decodeOne first rest).2)
termination_by bytes => bytes.length
decreasing_by
  rw [List.length_drop, List.length_cons]
  omega

theorem isSecond_of_low {first second : UInt8} (h : second < 0x80) : isSecond first second = false := by
  have hlow (n : UInt8) (hn : 0x80 ≤ n) : (decide (n ≤ second)) = false := by
    rw [decide_eq_false_iff_not, UInt8.not_le]
    exact UInt8.lt_of_lt_of_le h hn
  unfold isSecond isContinuation
  rw [hlow 0xA0 (by decide), hlow 0x80 (by decide), hlow 0x90 (by decide)]
  simp only [Bool.false_and, ite_self]

/--
A byte below 128 belongs to no other character.
-/
theorem decodeOne_append {c : UInt8} (hc : c < 0x80) (first : UInt8) (rest more : Bytes)
    : decodeOne first (rest ++ c :: more) = decodeOne first rest := by
  have hfeed : isContinuation c = false := by
    unfold isContinuation
    rw [Bool.and_eq_false_iff, decide_eq_false_iff_not, UInt8.not_le]
    exact .inl hc
  have hnone : isContinuation 0 = false := by decide
  have hfeed' : isSecond first c = false := isSecond_of_low hc
  have hnone' : isSecond first 0 = false := isSecond_of_low (by decide)
  unfold decodeOne
  match rest with
  | [] =>
    simp only [List.nil_append, List.getD_cons_zero, List.getD_nil, hfeed, hnone, hfeed', hnone', Bool.false_eq_true,
      if_false]
  | [x] =>
    simp only [List.cons_append, List.nil_append, List.getD_cons_zero, List.getD_cons_succ, List.getD_nil, hfeed,
      hnone, Bool.false_eq_true, if_false]
  | [x, y] =>
    simp only [List.cons_append, List.nil_append, List.getD_cons_zero, List.getD_cons_succ, List.getD_nil, hfeed,
      hnone, Bool.false_eq_true, if_false]
  | x :: y :: z :: rest =>
    simp only [List.cons_append, List.getD_cons_zero, List.getD_cons_succ]

theorem lt_of_isContinuation {rest : Bytes} {k : Nat} (h : isContinuation (rest.getD k 0) = true)
    : k < rest.length := by
  apply Nat.lt_of_not_le
  intro hge
  rw [List.getD_eq_getElem?_getD, List.getElem?_eq_none hge] at h
  exact absurd h (by decide)

theorem pos_of_isSecond {first : UInt8} {rest : Bytes} (h : isSecond first (rest.getD 0 0) = true)
    : 0 < rest.length := by
  apply Nat.lt_of_not_le
  intro hge
  rw [List.getD_eq_getElem?_getD, List.getElem?_eq_none hge, Option.getD_none,
    isSecond_of_low (by decide)] at h
  cases h

/--
No more bytes belong to a character than there are.
-/
theorem decodeOne_le (first : UInt8) (rest : Bytes) : (decodeOne first rest).2 ≤ rest.length := by
  unfold decodeOne
  dsimp only
  split
  . exact Nat.zero_le _
  split
  . split
    . next h => exact lt_of_isContinuation h
    . exact Nat.zero_le _
  split
  . split
    . next hsecond =>
      split
      . next hthird => exact lt_of_isContinuation hthird
      . exact pos_of_isSecond hsecond
    . exact Nat.zero_le _
  split
  . split
    . next hsecond =>
      split
      . next hthird =>
        split
        . next hfourth => exact lt_of_isContinuation hfourth
        . exact lt_of_isContinuation hthird
      . exact pos_of_isSecond hsecond
    . exact Nat.zero_le _
  . exact Nat.zero_le _

theorem decodeOne_ascii {b : UInt8} (h : b < 0x80) (rest : Bytes) : decodeOne b rest = (Char.ofNat b.toNat, 0) := by
  unfold decodeOne
  rw [if_pos h]

theorem fromUtf8Lossy_nil : fromUtf8Lossy [] = [] := by
  rw [fromUtf8Lossy]

theorem fromUtf8Lossy_cons {b : UInt8} (h : b < 0x80) (rest : Bytes)
    : fromUtf8Lossy (b :: rest) = Char.ofNat b.toNat :: fromUtf8Lossy rest := by
  rw [fromUtf8Lossy, decodeOne_ascii h]
  rfl

/--
Bytes can be cut at every byte below 128.
-/
theorem fromUtf8Lossy_cut {c : UInt8} (hc : c < 0x80) (a b : Bytes)
    : fromUtf8Lossy (a ++ c :: b) = fromUtf8Lossy a ++ Char.ofNat c.toNat :: fromUtf8Lossy b := by
  induction hlen : a.length using Nat.strongRecOn generalizing a with
  | _ n ih =>
    cases a with
    | nil =>
      rw [List.nil_append, fromUtf8Lossy_cons hc, fromUtf8Lossy_nil]
      rfl
    | cons first rest =>
      have hdrop : (rest ++ c :: b).drop (decodeOne first rest).2 = rest.drop (decodeOne first rest).2 ++ c :: b :=
        List.drop_append_of_le_length (decodeOne_le first rest)
      have hlt : (rest.drop (decodeOne first rest).2).length < n := by
        rw [List.length_drop, ← hlen, List.length_cons]
        omega
      rw [List.cons_append, fromUtf8Lossy, fromUtf8Lossy, decodeOne_append hc, hdrop, ih _ hlt _ rfl]
      rfl

theorem fromUtf8Lossy_feed (a b : Bytes)
    : fromUtf8Lossy (a ++ 10 :: b) = fromUtf8Lossy a ++ '\n' :: fromUtf8Lossy b :=
  fromUtf8Lossy_cut (by decide) a b

theorem fromUtf8Lossy_append {a : Bytes} (h : ∀ x ∈ a, x < 0x80) (b : Bytes)
    : fromUtf8Lossy (a ++ b) = a.map (fun x => Char.ofNat x.toNat) ++ fromUtf8Lossy b := by
  induction a with
  | nil => rfl
  | cons x a ih =>
    rw [List.cons_append, fromUtf8Lossy_cons (h x List.mem_cons_self), ih fun y hy => h y (List.mem_cons_of_mem _ hy)]
    rfl

theorem isContinuation_iff {b : UInt8} : isContinuation b = true ↔ 128 ≤ b.toNat ∧ b.toNat ≤ 191 := by
  simp only [isContinuation, Bool.and_eq_true, decide_eq_true_eq, UInt8.le_iff_toNat_le]
  exact Iff.rfl

theorem isSecond_iff {first second : UInt8}
    : isSecond first second = true
      ↔ 128 ≤ second.toNat ∧ second.toNat ≤ 191
        ∧ (first.toNat = 224 → 160 ≤ second.toNat) ∧ (first.toNat = 237 → second.toNat ≤ 159)
        ∧ (first.toNat = 240 → 144 ≤ second.toNat) ∧ (first.toNat = 244 → second.toNat ≤ 143) := by
  have heq (n : UInt8) : first = n ↔ first.toNat = n.toNat := UInt8.toNat_inj.symm
  have h224 : (0xE0 : UInt8).toNat = 224 := rfl
  have h237 : (0xED : UInt8).toNat = 237 := rfl
  have h240 : (0xF0 : UInt8).toNat = 240 := rfl
  have h244 : (0xF4 : UInt8).toNat = 244 := rfl
  have h160 : (0xA0 : UInt8).toNat = 160 := rfl
  have h159 : (0x9F : UInt8).toNat = 159 := rfl
  have h144 : (0x90 : UInt8).toNat = 144 := rfl
  have h143 : (0x8F : UInt8).toNat = 143 := rfl
  have h128 : (0x80 : UInt8).toNat = 128 := rfl
  have h191 : (0xBF : UInt8).toNat = 191 := rfl
  unfold isSecond
  simp only [heq, h224, h237, h240, h244]
  split
  . simp only [Bool.and_eq_true, decide_eq_true_eq, UInt8.le_iff_toNat_le, h160, h191]
    omega
  split
  . simp only [Bool.and_eq_true, decide_eq_true_eq, UInt8.le_iff_toNat_le, h128, h159]
    omega
  split
  . simp only [Bool.and_eq_true, decide_eq_true_eq, UInt8.le_iff_toNat_le, h144, h191]
    omega
  split
  . simp only [Bool.and_eq_true, decide_eq_true_eq, UInt8.le_iff_toNat_le, h128, h143]
    omega
  . rw [isContinuation_iff]
    omega

theorem toNat_ofNat {n : Nat} (h : n < 0xD800 ∨ 0xDFFF < n ∧ n < 0x110000) : (Char.ofNat n).toNat = n := by
  rw [Char.ofNat, dif_pos h]
  rfl

/--
A byte from 128 on makes no character below.
-/
theorem le_decodeOne {first : UInt8} (h : ¬ first < 0x80) (rest : Bytes) : 128 ≤ (decodeOne first rest).1.toNat := by
  have hreplacement : 128 ≤ replacement.toNat := by decide
  unfold decodeOne low
  dsimp only
  rw [if_neg h]
  simp only [UInt8.le_iff_toNat_le, Bool.and_eq_true, decide_eq_true_eq]
  split
  next h2 =>
    have h2 : 194 ≤ first.toNat ∧ first.toNat ≤ 223 := h2
    split
    next hsecond =>
      rw [isContinuation_iff] at hsecond
      rw [toNat_ofNat (by omega)]
      omega
    . exact hreplacement
  split
  next h3 =>
    have h3 : 224 ≤ first.toNat ∧ first.toNat ≤ 239 := h3
    split
    next hsecond =>
      rw [isSecond_iff] at hsecond
      split
      next hthird =>
        rw [isContinuation_iff] at hthird
        rw [toNat_ofNat (by omega)]
        omega
      . exact hreplacement
    . exact hreplacement
  split
  next h4 =>
    have h4 : 240 ≤ first.toNat ∧ first.toNat ≤ 244 := h4
    split
    next hsecond =>
      rw [isSecond_iff] at hsecond
      split
      next hthird =>
        rw [isContinuation_iff] at hthird
        split
        next hfourth =>
          rw [isContinuation_iff] at hfourth
          rw [toNat_ofNat (by omega)]
          omega
        . exact hreplacement
      . exact hreplacement
    . exact hreplacement
  . exact hreplacement

theorem mem_fromUtf8Lossy {bs : Bytes} {c : Char} (h : c ∈ fromUtf8Lossy bs) (hc : c.toNat < 128)
    : ∃ b ∈ bs, b.toNat = c.toNat := by
  induction hlen : bs.length using Nat.strongRecOn generalizing bs with
  | _ n ih =>
    cases bs with
    | nil =>
      rw [fromUtf8Lossy_nil] at h
      cases h
    | cons first rest =>
      rw [fromUtf8Lossy, List.mem_cons] at h
      cases h with
      | inl heq =>
        by_cases hfirst : first < 0x80
        . refine ⟨first, List.mem_cons_self, ?_⟩
          have hlt : first.toNat < 128 := hfirst
          rw [heq, decodeOne_ascii hfirst, toNat_ofNat (by omega)]
        . have := le_decodeOne hfirst rest
          rw [← heq] at this
          omega
      | inr hmem =>
        have hlt : (rest.drop (decodeOne first rest).2).length < n := by
          rw [List.length_drop, ← hlen, List.length_cons]
          omega
        obtain ⟨b, hb, hbc⟩ := ih _ hlt hmem rfl
        exact ⟨b, List.mem_cons_of_mem _ (List.mem_of_mem_drop hb), hbc⟩

theorem fromUtf8Lossy_encode (c : Char) (rest : Bytes)
    : fromUtf8Lossy (String.utf8EncodeChar c ++ rest) = c :: fromUtf8Lossy rest := by
  have hvalid : c.toNat < 0xD800 ∨ 0xDFFF < c.toNat ∧ c.toNat < 0x110000 := c.valid
  have hval : c.val.toNat = c.toNat := rfl
  have hdecoded {first : UInt8} {more : Bytes} (h : decodeOne first (more ++ rest) = (c, more.length))
      : fromUtf8Lossy (first :: more ++ rest) = c :: fromUtf8Lossy rest := by
    rw [List.cons_append, fromUtf8Lossy, h, List.drop_left]
  have hnat {x : Nat} (hx : x < 256) : (UInt8.ofNat x).toNat = x := by
    rw [UInt8.toNat_ofNat']
    exact Nat.mod_eq_of_lt hx
  unfold String.utf8EncodeChar
  dsimp only
  rw [hval]
  generalize hv : c.toNat = v at hvalid
  have hchar : Char.ofNat v = c := by rw [← hv, Char.ofNat_toNat]
  split
  next hle =>
    apply hdecoded
    have hfirst := @hnat v (by omega)
    rw [decodeOne_ascii, hfirst, hchar]
    . rfl
    . rw [UInt8.lt_iff_toNat_lt, hfirst]
      exact Nat.lt_succ_of_le hle
  have hthird := @hnat (v % 64 + 128) (by omega)
  have hcont : isContinuation (UInt8.ofNat (v % 64 + 128)) = true := by
    rw [isContinuation_iff, hthird]
    omega
  split
  next hgt hle =>
    apply hdecoded
    have hfirst := @hnat (v / 64 % 32 + 192) (by omega)
    have hhigh : ¬ UInt8.ofNat (v / 64 % 32 + 192) < 0x80 := by
      rw [UInt8.lt_iff_toNat_lt, hfirst]
      show ¬ _ < 128
      omega
    have htwo : (0xC2 : UInt8) ≤ UInt8.ofNat (v / 64 % 32 + 192) ∧ UInt8.ofNat (v / 64 % 32 + 192) ≤ 0xDF := by
      rw [UInt8.le_iff_toNat_le, UInt8.le_iff_toNat_le, hfirst]
      show 194 ≤ _ ∧ _ ≤ 223
      omega
    unfold decodeOne low
    simp only [List.cons_append, List.nil_append, List.getD_cons_zero, hhigh, htwo.1, htwo.2, hcont, hfirst, hthird,
      decide_true, Bool.and_true, if_true, if_false]
    have : (v / 64 % 32 + 192) % 32 * 64 + (v % 64 + 128) % 64 = v := by omega
    rw [this, hchar]
    rfl
  have hmiddle := @hnat (v / 64 % 64 + 128) (by omega)
  have hcont' : isContinuation (UInt8.ofNat (v / 64 % 64 + 128)) = true := by
    rw [isContinuation_iff, hmiddle]
    omega
  split
  next hgt' hgt hle =>
    apply hdecoded
    have hfirst := @hnat (v / 4096 % 16 + 224) (by omega)
    have hhigh : ¬ UInt8.ofNat (v / 4096 % 16 + 224) < 0x80 := by
      rw [UInt8.lt_iff_toNat_lt, hfirst]
      show ¬ _ < 128
      omega
    have htwo : ¬ UInt8.ofNat (v / 4096 % 16 + 224) ≤ 0xDF := by
      rw [UInt8.le_iff_toNat_le, hfirst]
      show ¬ _ ≤ 223
      omega
    have hthree : (0xE0 : UInt8) ≤ UInt8.ofNat (v / 4096 % 16 + 224) ∧ UInt8.ofNat (v / 4096 % 16 + 224) ≤ 0xEF := by
      rw [UInt8.le_iff_toNat_le, UInt8.le_iff_toNat_le, hfirst]
      show 224 ≤ _ ∧ _ ≤ 239
      omega
    have hsecond : isSecond (UInt8.ofNat (v / 4096 % 16 + 224)) (UInt8.ofNat (v / 64 % 64 + 128)) = true := by
      rw [isSecond_iff, hfirst, hmiddle]
      omega
    unfold decodeOne low
    simp only [List.cons_append, List.nil_append, List.getD_cons_zero, List.getD_cons_succ, hhigh, htwo, hthree.1,
      hthree.2, hsecond, hcont, hfirst, hmiddle, hthird, decide_true, decide_false, Bool.and_true, Bool.and_false,
      Bool.false_eq_true, if_true, if_false]
    have : ((v / 4096 % 16 + 224) % 16 * 64 + (v / 64 % 64 + 128) % 64) * 64 + (v % 64 + 128) % 64 = v := by omega
    rw [this, hchar]
    rfl
  next hgt'' hgt' hgt =>
    apply hdecoded
    have hfirst := @hnat (v / 262144 % 8 + 240) (by omega)
    have hupper := @hnat (v / 4096 % 64 + 128) (by omega)
    have hhigh : ¬ UInt8.ofNat (v / 262144 % 8 + 240) < 0x80 := by
      rw [UInt8.lt_iff_toNat_lt, hfirst]
      show ¬ _ < 128
      omega
    have htwo : ¬ UInt8.ofNat (v / 262144 % 8 + 240) ≤ 0xDF := by
      rw [UInt8.le_iff_toNat_le, hfirst]
      show ¬ _ ≤ 223
      omega
    have hthree : ¬ UInt8.ofNat (v / 262144 % 8 + 240) ≤ 0xEF := by
      rw [UInt8.le_iff_toNat_le, hfirst]
      show ¬ _ ≤ 239
      omega
    have hfour : (0xF0 : UInt8) ≤ UInt8.ofNat (v / 262144 % 8 + 240)
        ∧ UInt8.ofNat (v / 262144 % 8 + 240) ≤ 0xF4 := by
      rw [UInt8.le_iff_toNat_le, UInt8.le_iff_toNat_le, hfirst]
      show 240 ≤ _ ∧ _ ≤ 244
      omega
    have hsecond : isSecond (UInt8.ofNat (v / 262144 % 8 + 240)) (UInt8.ofNat (v / 4096 % 64 + 128)) = true := by
      rw [isSecond_iff, hfirst, hupper]
      omega
    unfold decodeOne low
    simp only [List.cons_append, List.nil_append, List.getD_cons_zero, List.getD_cons_succ, hhigh, htwo, hthree,
      hfour.1, hfour.2, hsecond, hcont, hcont', hfirst, hupper, hmiddle, hthird, decide_true, decide_false,
      Bool.and_true, Bool.and_false, Bool.false_eq_true, if_true, if_false]
    have : (((v / 262144 % 8 + 240) % 8 * 64 + (v / 4096 % 64 + 128) % 64) * 64 + (v / 64 % 64 + 128) % 64) * 64
        + (v % 64 + 128) % 64 = v := by omega
    rw [this, hchar]
    rfl

/--
Text is read back as it was written.
-/
theorem fromUtf8Lossy_bytes (s : String) : fromUtf8Lossy (bytes s) = s.toList := by
  rw [Str.bytes_eq]
  induction s.toList with
  | nil => exact fromUtf8Lossy_nil
  | cons c cs ih => rw [List.flatMap_cons, fromUtf8Lossy_encode, ih]

end Rust.Lossy
