import Mathlib.Data.Bool.AllAny
import Mathlib.Data.List.DropRight
import Mathlib.Data.List.TakeWhile

/-!
This module contains messages as HTTP/1.1 puts them on the wire: the grammar by which requests with a body whose
length is stated are read, what can be told of the text from what was read, and the text of responses, whose body is
framed by its length, in chunks or by the end of the connection.
-/

namespace Http.Wire

abbrev Bytes := List UInt8

/-! ## Grammar -/

def isAlpha (b : UInt8) : Bool :=
  (65 ≤ b && b ≤ 90) || (97 ≤ b && b ≤ 122)

def isDigit (b : UInt8) : Bool :=
  48 ≤ b && b ≤ 57

def lowerByte (b : UInt8) : UInt8 :=
  if 65 ≤ b && b ≤ 90 then b + 32 else b

/--
A letter, a digit or one of ``!#$%&'*+-.^_`|~``.
-/
def isTchar (b : UInt8) : Bool :=
  isAlpha b || isDigit b || [33, 35, 36, 37, 38, 39, 42, 43, 45, 46, 94, 95, 96, 124, 126].contains b

def isToken (bs : Bytes) : Bool :=
  !bs.isEmpty && bs.all isTchar

/--
The white space that may stand around the value of a field.
-/
def isOws (b : UInt8) : Bool :=
  b == 9 || b == 32

def isFieldByte (b : UInt8) : Bool :=
  isOws b || (33 ≤ b && b != 127)

def trimOws (bs : Bytes) : Bytes :=
  (bs.dropWhile isOws).rdropWhile isOws

/--
What a path holds besides encoded bytes: letters, digits and ``-._~!$&'()*+,;=:@/``.
-/
def isPathByte (b : UInt8) : Bool :=
  isAlpha b || isDigit b
    || [45, 46, 95, 126, 33, 36, 38, 39, 40, 41, 42, 43, 44, 59, 61, 58, 64, 47].contains b

def isQueryByte (b : UInt8) : Bool :=
  isPathByte b || b == 63

def hexDigit (b : UInt8) : Option UInt8 :=
  if isDigit b then some (b - 48)
  else if 65 ≤ b && b ≤ 70 then some (b - 55)
  else if 97 ≤ b && b ≤ 102 then some (b - 87)
  else none

/--
A `%` stands before two digits, and all else is of the given kind.
-/
def percentDecode (ok : UInt8 → Bool) : Bytes → Option Bytes
  | [] => some []
  | b :: bs =>
    if b == 37 then
      match bs with
      | h :: l :: bs => do
        let h ← hexDigit h
        let l ← hexDigit l
        let rest ← percentDecode ok bs
        some ((16 * h + l) :: rest)
      | _ => none
    else if ok b then
      (percentDecode ok bs).map (b :: ·)
    else
      none

/--
A path that starts with a slash, and a query.
-/
def parseTarget (target : Bytes) : Option (Bytes × Option Bytes) :=
  if target.head? = some 47 then
    match percentDecode isPathByte (target.takeWhile (· != 63)), target.dropWhile (· != 63) with
    | some path, [] => some (path, none)
    | some path, _ :: query => (percentDecode isQueryByte query).map (fun _ => (path, some query))
    | none, _ => none
  else
    none

/--
The text up to the first line break, and what is after it.
-/
def splitLine : Bytes → Option (Bytes × Bytes)
  | [] => none
  | b :: bs =>
    if b == 13 && bs.head? == some 10 then
      some ([], bs.tail)
    else
      (splitLine bs).map (fun (line, rest) => (b :: line, rest))

/--
The lines in front of the first empty one, and what is after it. There are fewer of them than `fuel`.
-/
def headLines : Nat → Bytes → Option (List Bytes × Bytes)
  | 0, _ => none
  | fuel + 1, input => do
    let (line, rest) ← splitLine input
    if line.isEmpty then
      some ([], rest)
    else
      let (lines, rest) ← headLines fuel rest
      some (line :: lines, rest)

/--
`HTTP/1.1`
-/
def version : Bytes :=
  [72, 84, 84, 80, 47, 49, 46, 49]

/--
The method and the target, each in front of a single space.
-/
def parseRequestLine (line : Bytes) : Option (Bytes × Bytes) :=
  let method := line.takeWhile (· != 32)
  let rest := (line.dropWhile (· != 32)).tail
  let target := rest.takeWhile (· != 32)
  if isToken method && (rest.dropWhile (· != 32)).tail == version then some (method, target) else none

/--
Names are the same in upper and in lower case.
-/
def parseField (line : Bytes) : Option (Bytes × Bytes) :=
  let name := line.takeWhile (· != 58)
  let value := trimOws (line.dropWhile (· != 58)).tail
  if isToken name && line.contains 58 && value.all isFieldByte then
    some (name.map lowerByte, value)
  else
    none

def digitsValue (bs : Bytes) : Nat :=
  bs.foldl (fun n b => 10 * n + (b.toNat - 48)) 0

def valuesOf (name : Bytes) (fields : List (Bytes × Bytes)) : List Bytes :=
  (fields.filter (·.1 == name)).map (·.2)

/--
`host`
-/
def host : Bytes :=
  [104, 111, 115, 116]

/--
`content-length`
-/
def contentLength : Bytes :=
  [99, 111, 110, 116, 101, 110, 116, 45, 108, 101, 110, 103, 116, 104]

/--
`transfer-encoding`
-/
def transferEncoding : Bytes :=
  [116, 114, 97, 110, 115, 102, 101, 114, 45, 101, 110, 99, 111, 100, 105, 110, 103]

/--
The length of the body, which has to be stated once at most.
-/
def bodyLength (fields : List (Bytes × Bytes)) : Option Nat :=
  match valuesOf contentLength fields with
  | [] => some 0
  | [v] => if !v.isEmpty && v.all isDigit then some (digitsValue v) else none
  | _ => none

structure Request where
  method : Bytes
  path : Bytes
  query : Option Bytes
  fields : List (Bytes × Bytes)
  body : Bytes

/--
The first request of the text, and what is after it. The host has to be stated exactly once, and bodies
in chunks are not read.
-/
def parseRequest (input : Bytes) : Option (Request × Bytes) := do
  let (lines, rest) ← headLines (input.length + 1) input
  let line ← lines.head?
  let (method, target) ← parseRequestLine line
  let (path, query) ← parseTarget target
  let fields ← lines.tail.mapM parseField
  let length ← bodyLength fields
  if (valuesOf host fields).length = 1 ∧ valuesOf transferEncoding fields = [] ∧ length ≤ rest.length then
    some (⟨method, path, query, fields, rest.take length⟩, rest.drop length)
  else
    none

/-! ## Lines -/

section Lines

variable {line rest input : Bytes}

theorem splitLine_append (h : 13 ∉ line) : splitLine (line ++ 13 :: 10 :: rest) = some (line, rest) := by
  induction line with
  | nil => rfl
  | cons b bs ih =>
    rw [List.mem_cons, not_or] at h
    rw [List.cons_append, splitLine, ih h.2]
    have hb : (b == 13) = false := by simpa using Ne.symm h.1
    simp [hb]

/--
The line ends at the first line break.
-/
theorem splitLine_eq_some (h : splitLine input = some (line, rest))
    : line <+: input ∧ ∀ a b, input = a ++ 13 :: 10 :: b → line.length ≤ a.length := by
  induction input generalizing line rest with
  | nil => cases h
  | cons c cs ih =>
    rw [splitLine] at h
    split at h
    . cases h
      constructor
      . exact List.nil_prefix
      . intro a b _
        exact Nat.zero_le _
    . next hbreak =>
      rw [Option.map_eq_some_iff] at h
      obtain ⟨⟨l, r⟩, hrest, heq⟩ := h
      cases heq
      obtain ⟨hstart, hfirst⟩ := ih hrest
      constructor
      . rw [List.cons_prefix_cons]
        exact ⟨rfl, hstart⟩
      . intro a b hab
        cases a with
        | nil =>
          cases hab
          exact absurd rfl hbreak
        | cons x xs =>
          cases hab
          exact Nat.succ_le_succ (hfirst xs b rfl)

theorem headLines_cons {fuel : Nat} (hline : line ≠ []) (h : 13 ∉ line)
    : headLines (fuel + 1) (line ++ 13 :: 10 :: rest)
        =
      (headLines fuel rest).map (fun (lines, rest) => (line :: lines, rest)) := by
  rw [headLines, splitLine_append h]
  have hempty : line.isEmpty = false := by simpa using hline
  simp only [Option.bind_eq_bind, Option.bind_some, hempty, Bool.false_eq_true, if_false]
  cases headLines fuel rest <;> rfl

/--
The text of lines, each with its line break.
-/
def unlines (lines : List Bytes) : Bytes :=
  lines.flatMap (· ++ [13, 10])

theorem unlines_cons (lines : List Bytes) : unlines (line :: lines) = line ++ 13 :: 10 :: unlines lines := by
  simp [unlines]

theorem unlines_append (lines lines' : List Bytes)
    : unlines (lines ++ lines') = unlines lines ++ unlines lines' :=
  List.flatMap_append

theorem length_unlines (lines : List Bytes) : lines.length ≤ (unlines lines).length := by
  induction lines with
  | nil => exact Nat.zero_le _
  | cons line lines ih =>
    rw [unlines_cons, List.length_append, List.length_cons, List.length_cons, List.length_cons]
    omega

theorem headLines_unlines {lines : List Bytes} {fuel : Nat} (h : ∀ l ∈ lines, l ≠ [] ∧ 13 ∉ l)
    (hfuel : lines.length < fuel)
    : headLines fuel (unlines lines ++ 13 :: 10 :: rest) = some (lines, rest) := by
  induction lines generalizing fuel with
  | nil =>
    cases fuel with
    | zero => cases hfuel
    | succ fuel => rfl
  | cons line lines ih =>
    cases fuel with
    | zero => cases hfuel
    | succ fuel =>
      obtain ⟨hne, hline⟩ := h line List.mem_cons_self
      rw [unlines_cons, List.append_assoc, List.cons_append, List.cons_append,
        headLines_cons hne hline, ih]
      . rfl
      . intro l hl
        exact h l (List.mem_cons_of_mem _ hl)
      . exact Nat.lt_of_succ_lt_succ hfuel

/--
The first line of a head that was read.
-/
theorem headLines_eq_some {fuel : Nat} {lines : List Bytes}
    (h : headLines (fuel + 1) input = some (line :: lines, rest))
    : ∃ next, splitLine input = some (line, next) ∧ headLines fuel next = some (lines, rest) := by
  rw [headLines] at h
  cases hsplit : splitLine input with
  | none => simp [hsplit] at h
  | some p =>
    obtain ⟨l, next⟩ := p
    simp only [hsplit, Option.bind_eq_bind, Option.bind_some] at h
    split at h
    . cases h
    . cases hnext : headLines fuel next with
      | none => simp [hnext] at h
      | some q =>
        simp only [hnext, Option.bind_some] at h
        cases h
        exact ⟨next, rfl, hnext⟩

end Lines

/-! ## White space and tokens -/

section Tokens

variable {bs : Bytes} {b : UInt8}

theorem length_trimOws (bs : Bytes) : (trimOws bs).length ≤ bs.length :=
  Nat.le_trans (List.rdropWhile_prefix _ _).length_le (List.length_dropWhile_le _ _)

theorem mem_trimOws (h : b ∈ trimOws bs) : b ∈ bs :=
  (List.dropWhile_suffix _).subset ((List.rdropWhile_prefix _ _).subset h)

theorem mem_or_isOws (h : b ∈ bs) : b ∈ trimOws bs ∨ isOws b = true := by
  rw [← List.takeWhile_append_dropWhile (p := isOws) (l := bs), List.mem_append] at h
  cases h with
  | inl h => exact .inr (List.mem_takeWhile_imp h)
  | inr h =>
    rw [← List.rdropWhile_append_rtakeWhile (p := isOws) (l := bs.dropWhile isOws),
      List.mem_append] at h
    cases h with
    | inl h => exact .inl h
    | inr h => exact .inr (List.mem_rtakeWhile_imp h)

theorem trimOws_cons (h : isOws b = true) : trimOws (b :: bs) = trimOws bs := by
  unfold trimOws
  rw [List.dropWhile_cons_of_pos h]

theorem trimOws_eq_self (hfirst : ∀ b ∈ bs.head?, isOws b = false)
    (hlast : ∀ b ∈ bs.getLast?, isOws b = false) : trimOws bs = bs := by
  have hdrop : bs.dropWhile isOws = bs := by
    cases bs with
    | nil => rfl
    | cons b bs => rw [List.dropWhile_cons_of_neg (by simp [hfirst b rfl])]
  unfold trimOws
  rw [hdrop, List.rdropWhile_eq_self_iff]
  intro hne
  simp [hlast _ (List.getLast?_eq_some_getLast hne)]

theorem isToken_iff : isToken bs = true ↔ bs ≠ [] ∧ ∀ b ∈ bs, isTchar b = true := by
  simp [isToken, List.all_eq_true]

theorem not_isTchar (hb : b ∈ ([9, 10, 13, 32, 58] : Bytes)) : isTchar b = false := by
  have hall : ∀ b ∈ ([9, 10, 13, 32, 58] : Bytes), isTchar b = false := List.all_iff_forall_prop.mp (by decide)
  exact hall b hb

theorem isToken_notMem (h : isToken bs = true) (hb : b ∈ ([9, 10, 13, 32, 58] : Bytes)) : b ∉ bs := by
  intro hmem
  have := (isToken_iff.mp h).2 b hmem
  rw [not_isTchar hb] at this
  cases this

end Tokens

/-! ## The parts of the head -/

section Parts

variable {name value method target path line : Bytes}

theorem takeWhile_ne {x : UInt8} {bs rest : Bytes} (h : x ∉ bs)
    : (bs ++ x :: rest).takeWhile (· != x) = bs ∧ (bs ++ x :: rest).dropWhile (· != x) = x :: rest := by
  have hall : ∀ b ∈ bs, (b != x) = true := by
    intro b hb
    rw [bne_iff_ne]
    rintro rfl
    exact h hb
  constructor
  . rw [List.takeWhile_append_of_pos hall, List.takeWhile_cons_of_neg (by simp), List.append_nil]
  . rw [List.dropWhile_append_of_pos hall, List.dropWhile_cons_of_neg (by simp)]

theorem parseField_line (hname : isToken name = true) (value : Bytes)
    : parseField (name ++ 58 :: 32 :: value)
        =
      if (trimOws value).all isFieldByte then some (name.map lowerByte, trimOws value) else none := by
  have hmem := isToken_notMem hname (b := 58) (by decide)
  have hcolon : (name ++ 58 :: 32 :: value).contains 58 = true := by simp
  have htrim : trimOws (32 :: value) = trimOws value := trimOws_cons rfl
  simp only [parseField, takeWhile_ne hmem, List.tail_cons, htrim, hname, hcolon, Bool.true_and]

/--
What a line that starts in the same way reads as.
-/
theorem parseField_prefix {k v : Bytes} (hname : isToken name = true)
    (hline : line <+: name ++ 58 :: 32 :: value) (h : parseField line = some (k, v))
    : k = name.map lowerByte ∧ ∃ y, y <+: value ∧ v = trimOws y ∧ ∀ b ∈ v, isFieldByte b = true := by
  have hcolon := isToken_notMem hname (b := 58) (by decide)
  rw [parseField] at h
  split at h
  . next hok =>
    cases h
    simp only [Bool.and_eq_true, List.contains_eq_mem, decide_eq_true_eq] at hok
    obtain ⟨⟨_, hmem⟩, hall⟩ := hok
    have hlong : name.length < line.length := by
      apply Nat.lt_of_not_le
      intro hle
      have hpre := List.prefix_of_prefix_length_le hline (List.prefix_append _ _) hle
      exact hcolon (hpre.subset hmem)
    have hfirst : name ++ [58] <+: name ++ 58 :: 32 :: value := ⟨32 :: value, by simp⟩
    have hpre := List.prefix_of_prefix_length_le hfirst hline (by simpa using Nat.succ_le_of_lt hlong)
    obtain ⟨y, rfl⟩ := hpre
    rw [List.append_assoc, List.singleton_append] at hline hall ⊢
    rw [(takeWhile_ne hcolon).2, List.tail_cons, List.all_eq_true] at hall
    rw [(takeWhile_ne hcolon).1, (takeWhile_ne hcolon).2, List.tail_cons]
    rw [List.prefix_append_right_inj, List.cons_prefix_cons] at hline
    refine ⟨rfl, ?_⟩
    cases y with
    | nil => exact ⟨[], List.nil_prefix, rfl, hall⟩
    | cons b y =>
      rw [List.cons_prefix_cons] at hline
      obtain ⟨_, rfl, hy⟩ := hline
      have htrim : trimOws (32 :: y) = trimOws y := trimOws_cons rfl
      rw [htrim] at hall ⊢
      exact ⟨y, hy, rfl, hall⟩
  . cases h

theorem parseRequestLine_line (hmethod : isToken method = true) (htarget : 32 ∉ target)
    : parseRequestLine (method ++ 32 :: (target ++ 32 :: version)) = some (method, target) := by
  have hspace := isToken_notMem hmethod (b := 32) (by decide)
  simp [parseRequestLine, takeWhile_ne hspace, takeWhile_ne htarget, hmethod]

/--
A target has no space, so it cannot be longer than what was meant to be one.
-/
theorem parseRequestLine_prefix {method' target' rest : Bytes} (hmethod : isToken method = true)
    (hline : line <+: method ++ 32 :: (target ++ 32 :: rest))
    (h : parseRequestLine line = some (method', target')) : target' <+: target := by
  have hspace := isToken_notMem hmethod (b := 32) (by decide)
  rw [parseRequestLine] at h
  split at h
  . next hok =>
    cases h
    simp only [Bool.and_eq_true, beq_iff_eq] at hok
    by_cases hlong : method.length < line.length
    . -- the line goes beyond the first space
      have hfirst : method ++ [32] <+: method ++ 32 :: (target ++ 32 :: rest) :=
        ⟨target ++ 32 :: rest, by simp⟩
      have hpre : method ++ [32] <+: line :=
        List.prefix_of_prefix_length_le hfirst hline (by simpa using Nat.succ_le_of_lt hlong)
      obtain ⟨y, rfl⟩ := hpre
      rw [List.append_assoc, List.singleton_append] at hline ⊢
      rw [(takeWhile_ne hspace).2, List.tail_cons]
      rw [List.prefix_append_right_inj, List.cons_prefix_cons] at hline
      have htaken := (List.takeWhile_prefix (l := y) (· != 32)).trans hline.2
      have hmem : 32 ∉ y.takeWhile (· != 32) := by
        intro hmem
        simpa using List.mem_takeWhile_imp hmem
      by_cases hle : (y.takeWhile (· != 32)).length ≤ target.length
      . exact List.prefix_of_prefix_length_le htaken (List.prefix_append _ _) hle
      . -- the space after the target would be part of it
        exfalso
        have hsecond : target ++ [32] <+: target ++ 32 :: rest := ⟨rest, by simp⟩
        have hpre : target ++ [32] <+: y.takeWhile (· != 32) := by
          apply List.prefix_of_prefix_length_le hsecond htaken
          simp only [List.length_append, List.length_singleton]
          omega
        apply hmem
        apply hpre.subset
        simp
    . -- without a space there is no version
      exfalso
      have hpre : line <+: method :=
        List.prefix_of_prefix_length_le hline (List.prefix_append _ _) (by omega)
      have hnil : line.dropWhile (· != 32) = [] := by
        rw [List.dropWhile_eq_nil_iff]
        intro b hb
        rw [bne_iff_ne]
        rintro rfl
        exact hspace (hpre.subset hb)
      rw [hnil] at hok
      cases hok.2
  . cases h

theorem percentDecode_cons {ok : UInt8 → Bool} {b : UInt8} (hb : (b == 37) = false) (bs : Bytes)
    : percentDecode ok (b :: bs) = if ok b then (percentDecode ok bs).map (b :: ·) else none := by
  cases bs with
  | nil => simp [percentDecode, hb]
  | cons c cs => cases cs <;> simp [percentDecode, hb]

theorem percentDecode_length {ok : UInt8 → Bool} {bs ds : Bytes} (h : percentDecode ok bs = some ds)
    : ds.length ≤ bs.length ∧ (bs.length ≤ ds.length → ds = bs ∧ ∀ b ∈ bs, ok b = true) := by
  induction bs using percentDecode.induct ok generalizing ds with
  | case1 =>
    cases h
    exact ⟨Nat.le_refl _, fun _ => ⟨rfl, nofun⟩⟩
  | case2 b hb h' l bs ih =>
    rw [percentDecode, if_pos hb] at h
    cases hh : hexDigit h' with
    | none => simp [hh] at h
    | some u =>
      cases hl : hexDigit l with
      | none => simp [hh, hl] at h
      | some v =>
        cases hrest : percentDecode ok bs with
        | none => simp [hh, hl, hrest] at h
        | some rest =>
          simp only [hh, hl, hrest, Option.bind_eq_bind, Option.bind_some, Option.some.injEq] at h
          subst h
          have := (ih hrest).1
          simp only [List.length_cons]
          omega
  | case3 b bs hb hshort =>
    rw [percentDecode, if_pos hb] at h
    . cases h
    . exact hshort
  | case4 b bs hb hok ih =>
    rw [percentDecode_cons (by simpa using hb), if_pos hok, Option.map_eq_some_iff] at h
    obtain ⟨rest, hrest, heq⟩ := h
    subst heq
    obtain ⟨hle, hsame⟩ := ih hrest
    simp only [List.length_cons, Nat.succ_le_succ_iff, List.mem_cons, forall_eq_or_imp]
    refine ⟨hle, fun hge => ?_⟩
    obtain ⟨rfl, hall⟩ := hsame hge
    exact ⟨rfl, hok, hall⟩
  | case5 b bs hb hok =>
    rw [percentDecode_cons (by simpa using hb), if_neg hok] at h
    cases h

theorem percentDecode_plain {ok : UInt8 → Bool} {bs : Bytes} (hok : ok 37 = false)
    (h : ∀ b ∈ bs, ok b = true) : percentDecode ok bs = some bs := by
  induction bs with
  | nil => rfl
  | cons b bs ih =>
    have hb : (b == 37) = false := by
      rw [beq_eq_false_iff_ne]
      rintro rfl
      rw [h 37 List.mem_cons_self] at hok
      cases hok
    rw [percentDecode_cons hb, if_pos (h b List.mem_cons_self),
      ih (fun b hb => h b (List.mem_cons_of_mem _ hb))]
    rfl

theorem not_isPathByte {b : UInt8} (hb : b ∈ ([13, 32, 37, 63] : Bytes)) : isPathByte b = false := by
  have hall : ∀ b ∈ ([13, 32, 37, 63] : Bytes), isPathByte b = false := List.all_iff_forall_prop.mp (by decide)
  exact hall b hb

theorem parseTarget_path (hslash : path.head? = some 47) (h : ∀ b ∈ path, isPathByte b = true)
    : parseTarget path = some (path, none) := by
  have hall : ∀ b ∈ path, (b != 63) = true := by
    intro b hb
    rw [bne_iff_ne]
    rintro rfl
    have := h 63 hb
    rw [not_isPathByte (by decide)] at this
    cases this
  have htake : path.takeWhile (· != 63) = path := List.takeWhile_eq_self_iff.mpr hall
  have hdrop : path.dropWhile (· != 63) = [] := List.dropWhile_eq_nil_iff.mpr hall
  simp only [parseTarget, hslash, htake, hdrop, percentDecode_plain (not_isPathByte (by decide)) h,
    if_true]

/--
A target that reads as a path of at least its own length is that path.
-/
theorem parseTarget_eq_some {query : Option Bytes} (h : parseTarget target = some (path, query))
    (hle : target.length ≤ path.length)
    : target = path ∧ query = none ∧ ∀ b ∈ path, isPathByte b = true := by
  have hdecoded : percentDecode isPathByte (target.takeWhile (· != 63)) = some path := by
    rw [parseTarget] at h
    split at h
    . split at h
      . next hpath _ =>
        cases h
        exact hpath
      . next hpath _ =>
        rw [Option.map_eq_some_iff] at h
        obtain ⟨_, _, heq⟩ := h
        cases heq
        exact hpath
      . cases h
    . cases h
  obtain ⟨hlength, hsame⟩ := percentDecode_length hdecoded
  have htake : target.takeWhile (· != 63) = target :=
    (List.takeWhile_prefix _).eq_of_length_le (Nat.le_trans hle hlength)
  rw [htake] at hsame
  obtain ⟨rfl, hall⟩ := hsame hle
  have hslash : path.head? = some 47 := by
    rw [parseTarget] at h
    split at h
    . assumption
    . cases h
  rw [parseTarget_path hslash hall] at h
  cases h
  exact ⟨rfl, rfl, hall⟩

end Parts

/-! ## Numbers -/

def numeral (n : Nat) : Bytes :=
  (Nat.toDigits 10 n).map (fun c => UInt8.ofNat c.toNat)

theorem toNat_digit {c : Char} (hc : c.isDigit = true)
    : (UInt8.ofNat c.toNat).toNat = c.toNat ∧ 48 ≤ c.toNat ∧ c.toNat ≤ 57 := by
  have h48 : 48 ≤ c.toNat ∧ c.toNat ≤ 57 := by
    simp only [Char.isDigit, Bool.and_eq_true, decide_eq_true_eq] at hc
    exact hc
  rw [UInt8.toNat_ofNat']
  omega

theorem digitsValue_numeral (n : Nat) : digitsValue (numeral n) = n := by
  have hfold : ∀ (cs : List Char) (init : Nat), (∀ c ∈ cs, c.isDigit = true) →
      (cs.map (fun c => UInt8.ofNat c.toNat)).foldl (fun n b => 10 * n + (b.toNat - 48)) init
        = Nat.ofDigitChars 10 cs init := by
    intro cs
    induction cs with
    | nil => simp
    | cons c cs ih =>
      intro init h
      rw [List.map_cons, List.foldl_cons, Nat.ofDigitChars_cons,
        ih _ (fun c hc => h c (List.mem_cons_of_mem _ hc)), (toNat_digit (h c List.mem_cons_self)).1]
      rfl
  rw [digitsValue, numeral, hfold _ _ (fun c hc => Nat.isDigit_of_mem_toDigits (by decide) (by decide) hc)]
  exact Nat.ofDigitChars_ten_toDigits

theorem isDigit_numeral {n : Nat} {b : UInt8} (h : b ∈ numeral n) : isDigit b = true := by
  obtain ⟨c, hc, rfl⟩ := List.mem_map.mp h
  have := toNat_digit (Nat.isDigit_of_mem_toDigits (by decide) (by decide) hc)
  simp only [isDigit, Bool.and_eq_true, decide_eq_true_eq, UInt8.le_iff_toNat_le]
  exact ⟨by rw [this.1]; exact this.2.1, by rw [this.1]; exact this.2.2⟩

theorem numeral_ne_nil (n : Nat) : numeral n ≠ [] := by
  simp [numeral, Nat.toDigits_ne_nil]

/-! ## Requests -/

section Requests

variable {fields fields' : List (Bytes × Bytes)} {name : Bytes}

theorem valuesOf_perm (h : fields.Perm fields') : (valuesOf name fields).Perm (valuesOf name fields') :=
  (h.filter _).map _

theorem valuesOf_cons (name : Bytes) (f : Bytes × Bytes) (fields : List (Bytes × Bytes))
    : valuesOf name (f :: fields) = if f.1 == name then f.2 :: valuesOf name fields else valuesOf name fields := by
  unfold valuesOf
  rw [List.filter_cons]
  split <;> rfl

theorem mem_valuesOf {v : Bytes} : v ∈ valuesOf name fields ↔ (name, v) ∈ fields := by
  simp [valuesOf]

theorem valuesOf_eq_nil : valuesOf name fields = [] ↔ ∀ f ∈ fields, f.1 ≠ name := by
  simp [valuesOf]

theorem bodyLength_numeral {n : Nat} (h : valuesOf contentLength fields = [numeral n])
    : bodyLength fields = some n := by
  have hall : (numeral n).all isDigit = true := List.all_eq_true.mpr fun b hb => isDigit_numeral hb
  have hne : (numeral n).isEmpty = false := by simpa using numeral_ne_nil n
  simp [bodyLength, h, hall, hne, digitsValue_numeral]

/--
How the text has to read for a request to be what it starts with.
-/
theorem parseRequest_eq_some {input rest : Bytes} {r : Request}
    : parseRequest input = some (r, rest)
        ↔
      ∃ line lines text target length,
        headLines (input.length + 1) input = some (line :: lines, text)
          ∧ parseRequestLine line = some (r.method, target)
          ∧ parseTarget target = some (r.path, r.query)
          ∧ lines.mapM parseField = some r.fields
          ∧ bodyLength r.fields = some length
          ∧ (valuesOf host r.fields).length = 1 ∧ valuesOf transferEncoding r.fields = []
          ∧ length ≤ text.length ∧ r.body = text.take length ∧ rest = text.drop length := by
  constructor
  . intro h
    simp only [parseRequest, Option.bind_eq_bind, Option.bind_eq_some_iff] at h
    obtain ⟨⟨lines, text⟩, hhead, line, hline, ⟨method, target⟩, hfirst, ⟨path, query⟩, htarget,
      fields, hfields, length, hlength, h⟩ := h
    split at h
    . next hok =>
      cases h
      cases lines with
      | nil => cases hline
      | cons l lines =>
        cases hline
        exact ⟨line, lines, text, target, length, hhead, hfirst, htarget, hfields, hlength, hok.1,
          hok.2.1, hok.2.2, rfl, rfl⟩
    . cases h
  . rintro ⟨line, lines, text, target, length, hhead, hfirst, htarget, hfields, hlength, hhost, hte,
      hle, hbody, rfl⟩
    obtain ⟨method, path, query, fields, body⟩ := r
    subst hbody
    simp [parseRequest, hhead, hfirst, htarget, hfields, hlength, hhost, hte, hle]

end Requests

theorem mapM_eq_some {α β : Type} {f : α → Option β} {p : α → Bool} {g : α → β} {xs : List α}
    {ys : List β} (hf : ∀ x ∈ xs, f x = if p x then some (g x) else none)
    : xs.mapM f = some ys ↔ (∀ x ∈ xs, p x = true) ∧ ys = xs.map g := by
  induction xs generalizing ys with
  | nil =>
    constructor
    . intro h
      cases h
      exact ⟨nofun, rfl⟩
    . rintro ⟨_, rfl⟩
      rfl
  | cons x xs ih =>
    have ih := fun ys => @ih ys (fun x hx => hf x (List.mem_cons_of_mem _ hx))
    rw [List.mapM_cons, hf x List.mem_cons_self]
    by_cases hx : p x = true
    . simp only [hx, if_true, Option.bind_eq_bind, Option.bind_some, Option.bind_eq_some_iff,
        List.mem_cons, forall_eq_or_imp, true_and, List.map_cons]
      constructor
      . rintro ⟨zs, hzs, heq⟩
        cases heq
        obtain ⟨hall, rfl⟩ := (ih zs).mp hzs
        exact ⟨hall, rfl⟩
      . rintro ⟨hall, rfl⟩
        exact ⟨xs.map g, (ih _).mpr ⟨hall, rfl⟩, rfl⟩
    . simp [hx]

/-! ## Texts that are put together -/

def fieldLine (field : Bytes × Bytes) : Bytes :=
  field.1 ++ 58 :: 32 :: field.2

def readField (field : Bytes × Bytes) : Bytes × Bytes :=
  (field.1.map lowerByte, trimOws field.2)

section Texts

variable {method target path body rest : Bytes} {r : Request}

/--
A head without stray line breaks is read as it was put together.
-/
theorem parseRequest_text {pairs : List (Bytes × Bytes)} (hmethod : isToken method = true)
    (htarget : 32 ∉ target ∧ 13 ∉ target)
    (hpairs : ∀ p ∈ pairs, isToken p.1 = true ∧ 13 ∉ p.2)
    : parseRequest
        (unlines ((method ++ 32 :: (target ++ 32 :: version)) :: pairs.map fieldLine) ++ 13 :: 10 :: body)
        = some (r, rest)
        ↔
      (∀ p ∈ pairs, (trimOws p.2).all isFieldByte = true) ∧ r.fields = pairs.map readField
        ∧ r.method = method ∧ parseTarget target = some (r.path, r.query)
        ∧ ∃ length, bodyLength r.fields = some length
          ∧ (valuesOf host r.fields).length = 1 ∧ valuesOf transferEncoding r.fields = []
          ∧ length ≤ body.length ∧ r.body = body.take length ∧ rest = body.drop length := by
  have hhead := @headLines_unlines body ((method ++ 32 :: (target ++ 32 :: version)) :: pairs.map fieldLine)
    ((unlines ((method ++ 32 :: (target ++ 32 :: version)) :: pairs.map fieldLine)
      ++ 13 :: 10 :: body).length + 1)
    (by
      have hcr := isToken_notMem hmethod (b := 13) (by decide)
      intro l hl
      cases hl with
      | head =>
        refine ⟨by simp, ?_⟩
        simp [hcr, htarget.2, version]
      | tail _ hl =>
        obtain ⟨p, hp, rfl⟩ := List.mem_map.mp hl
        have hname := isToken_notMem (hpairs p hp).1 (b := 13) (by decide)
        refine ⟨by simp [fieldLine], ?_⟩
        simp [fieldLine, hname, (hpairs p hp).2])
    (by
      rw [List.length_append]
      have := length_unlines ((method ++ 32 :: (target ++ 32 :: version)) :: pairs.map fieldLine)
      omega)
  have hfields : ∀ fields, (pairs.map fieldLine).mapM parseField = some fields
      ↔ (∀ p ∈ pairs, (trimOws p.2).all isFieldByte = true) ∧ fields = pairs.map readField := by
    intro fields
    rw [List.mapM_map]
    apply mapM_eq_some
    intro p hp
    exact parseField_line (hpairs p hp).1 p.2
  rw [parseRequest_eq_some]
  constructor
  . rintro ⟨line, lines, text, target', length, hhead', hline, htarget', hmapM, hrest⟩
    rw [hhead] at hhead'
    cases hhead'
    rw [parseRequestLine_line hmethod htarget.1] at hline
    cases hline
    obtain ⟨hall, heq⟩ := (hfields _).mp hmapM
    exact ⟨hall, heq, rfl, htarget', length, hrest⟩
  . rintro ⟨hall, heq, hm, htarget', length, hrest⟩
    refine ⟨_, _, body, target, length, hhead, ?_, htarget', (hfields _).mpr ⟨hall, heq⟩, hrest⟩
    rw [parseRequestLine_line hmethod htarget.1, hm]

/--
Whatever stands in place of the path, only a path can be read back.
-/
theorem path_of_parseRequest {more : Bytes} (hmethod : isToken method = true)
    (h : parseRequest (method ++ 32 :: (path ++ 32 :: more)) = some (r, rest)) (hpath : r.path = path)
    : r.query = none ∧ ∀ b ∈ path, isPathByte b = true := by
  obtain ⟨line, lines, text, target, length, hhead, hline, htarget, _⟩ := parseRequest_eq_some.mp h
  obtain ⟨next, hsplit, _⟩ := headLines_eq_some hhead
  have hpre := parseRequestLine_prefix hmethod (splitLine_eq_some hsplit).1 hline
  rw [hpath] at htarget
  obtain ⟨_, hquery, hall⟩ := parseTarget_eq_some htarget hpre.length_le
  exact ⟨hquery, hall⟩

/--
Whatever stands in place of the first value, only the value of a field can be read back.
-/
theorem value_of_parseRequest {line name value more : Bytes} (hline : line ≠ [] ∧ 13 ∉ line)
    (hname : isToken name = true)
    (h : parseRequest (line ++ 13 :: 10 :: (name ++ 58 :: 32 :: (value ++ 13 :: 10 :: more)))
      = some (r, rest))
    (hvalue : ∀ v fields, r.fields = (name.map lowerByte, v) :: fields → v = value)
    (hne : r.fields ≠ [])
    : (∀ b ∈ value, isFieldByte b = true) ∧ trimOws value = value := by
  obtain ⟨first, lines, text, target, length, hhead, _, _, hfields, _⟩ := parseRequest_eq_some.mp h
  rw [headLines_cons hline.1 hline.2, Option.map_eq_some_iff] at hhead
  obtain ⟨⟨lines', text'⟩, hnext, heq⟩ := hhead
  cases heq
  cases hlines : lines with
  | nil =>
    rw [hlines] at hfields
    have hfields : some [] = some r.fields := hfields
    exact absurd (Option.some.inj hfields).symm hne
  | cons second lines =>
    rw [hlines] at hnext hfields
    rw [List.length_append, List.length_cons, ← Nat.add_assoc] at hnext
    obtain ⟨_, hsplit, _⟩ := headLines_eq_some hnext
    obtain ⟨hpre, hfirst⟩ := splitLine_eq_some hsplit
    -- the line does not go beyond the first line break
    have hwhole : name ++ 58 :: 32 :: value
        <+: name ++ 58 :: 32 :: (value ++ 13 :: 10 :: more) := by simp
    have hpre := List.prefix_of_prefix_length_le hpre hwhole (hfirst _ more (by simp))
    rw [List.mapM_cons] at hfields
    cases hsecond : parseField second with
    | none => simp [hsecond] at hfields
    | some field =>
      obtain ⟨k, v⟩ := field
      cases hrest : lines.mapM parseField with
      | none => simp [hsecond, hrest] at hfields
      | some fields =>
        simp only [hsecond, hrest, Option.bind_eq_bind, Option.bind_some] at hfields
        obtain ⟨hk, y, hy, hv, hall⟩ := parseField_prefix hname hpre hsecond
        have heq := hvalue v fields (by rw [← hk]; exact (Option.some.inj hfields).symm)
        subst heq
        refine ⟨hall, ?_⟩
        have hlong : y = v := hy.eq_of_length_le (hv ▸ length_trimOws y)
        rw [hlong] at hv
        exact hv.symm

end Texts

example : (parseRequest ("GET /a%20b?c HTTP/1.1\r\nHost:  x \r\nContent-Length: 2\r\n\r\nhiPOST".toUTF8.toList)).map
      (fun (r, rest) => (r.path, r.query, valuesOf host r.fields, r.body, rest))
    = some ([47, 97, 32, 98], some [99], [[120]], [104, 105], [80, 79, 83, 84]) := by
  decide +kernel

/-! ## Responses -/

/--
`chunked`
-/
def chunkedCoding : Bytes :=
  [99, 104, 117, 110, 107, 101, 100]

/--
A field with the white space around its value.
-/
structure Field where
  name : Bytes
  before : Bytes
  value : Bytes
  after : Bytes

namespace Field

def line (f : Field) : Bytes :=
  f.name ++ 58 :: (f.before ++ (f.value ++ f.after))

def pair (f : Field) : Bytes × Bytes :=
  (f.name.map lowerByte, f.value)

structure WellFormed (f : Field) : Prop where
  name : isToken f.name = true
  before : ∀ b ∈ f.before, isOws b = true
  value : ∀ b ∈ f.value, isFieldByte b = true
  trimmed : trimOws f.value = f.value
  after : ∀ b ∈ f.after, isOws b = true

end Field

/--
The value of hexadecimal digits.
-/
def hexValue (bs : Bytes) : Option Nat :=
  bs.foldlM (fun n b => (hexDigit b).map (fun d => 16 * n + d.toNat)) 0

structure Chunk where
  size : Bytes
  extension : Bytes
  data : Bytes

namespace Chunk

def sizeLine (c : Chunk) : Bytes :=
  c.size ++ c.extension

def text (c : Chunk) : Bytes :=
  c.sizeLine ++ 13 :: 10 :: (c.data ++ [13, 10])

structure WellFormed (c : Chunk) : Prop where
  nonempty : c.size ≠ []
  size : hexValue c.size = some c.data.length
  extension : (c.extension = [] ∨ c.extension.head? = some 59) ∧ ∀ b ∈ c.extension, isFieldByte b = true

end Chunk

inductive Framing where
  | length
  | chunked (chunks : List Chunk) (last : Chunk) (trailers : List Field)
  | close

structure Response where
  status : Nat
  reason : Bytes
  fields : List Field
  framing : Framing
  body : Bytes

namespace Response

def statusLine (r : Response) : Bytes :=
  version ++ 32 :: (numeral r.status ++ 32 :: r.reason)

def lines (r : Response) : List Bytes :=
  r.statusLine :: r.fields.map Field.line

def head (r : Response) : Bytes :=
  unlines r.lines ++ [13, 10]

def pairs (r : Response) : List (Bytes × Bytes) :=
  r.fields.map Field.pair

/--
What follows the head.
-/
def payload (r : Response) : Bytes :=
  match r.framing with
  | .chunked chunks last trailers =>
    chunks.flatMap Chunk.text ++ (last.sizeLine ++ 13 :: 10 :: (unlines (trailers.map Field.line) ++ [13, 10]))
  | _ => r.body

def wire (r : Response) : Bytes :=
  r.head ++ r.payload

/--
How many bytes there have to be before the connection may end.
-/
def least (r : Response) : Nat :=
  match r.framing with
  | .close => r.head.length
  | _ => r.wire.length

/--
A response with this status has no body.
-/
def bodyless (r : Response) : Bool :=
  r.status < 200 || r.status == 204 || r.status == 304

/--
The fields say how the body is framed.
-/
def Framed (r : Response) : Prop :=
  match r.framing with
  | .length =>
    (∃ digits, valuesOf contentLength r.pairs = [digits] ∧ digits ≠ [] ∧ (∀ b ∈ digits, isDigit b = true)
      ∧ digitsValue digits = r.body.length)
      ∧ valuesOf transferEncoding r.pairs = []
  | .chunked chunks last trailers =>
    valuesOf contentLength r.pairs = []
      ∧ (∃ coding, valuesOf transferEncoding r.pairs = [coding] ∧ coding.map lowerByte = chunkedCoding)
      ∧ (∀ c ∈ chunks, c.WellFormed ∧ c.data ≠ []) ∧ (last.WellFormed ∧ last.data = [])
      ∧ (∀ f ∈ trailers, f.WellFormed) ∧ r.body = chunks.flatMap Chunk.data ∧ r.bodyless = false
  | .close => valuesOf contentLength r.pairs = [] ∧ valuesOf transferEncoding r.pairs = []

structure WellFormed (r : Response) : Prop where
  status : 100 ≤ r.status ∧ r.status ≤ 999
  reason : ∀ b ∈ r.reason, isFieldByte b = true
  fields : ∀ f ∈ r.fields, f.WellFormed
  framed : r.Framed
  bodyless : r.bodyless = true → r.body = []

end Response

section Responses

variable {r : Response}

theorem isFieldByte_ne {b c : UInt8} (h : isFieldByte b = true) (hc : c = 10 ∨ c = 13) : b ≠ c := by
  rintro rfl
  rcases hc with rfl | rfl <;> cases h

theorem isOws_ne {b c : UInt8} (h : isOws b = true) (hc : c = 10 ∨ c = 13) : b ≠ c := by
  rintro rfl
  rcases hc with rfl | rfl <;> cases h

theorem Field.WellFormed.line {f : Field} (h : f.WellFormed) {c : UInt8} (hc : c = 10 ∨ c = 13) : c ∉ f.line := by
  unfold Field.line
  simp only [List.mem_append, List.mem_cons, not_or]
  refine ⟨?_, ?_, ?_, ?_, ?_⟩
  . apply isToken_notMem h.name
    rcases hc with rfl | rfl <;> decide
  . rcases hc with rfl | rfl <;> decide
  . intro hmem
    exact isOws_ne (h.before c hmem) hc rfl
  . intro hmem
    exact isFieldByte_ne (h.value c hmem) hc rfl
  . intro hmem
    exact isOws_ne (h.after c hmem) hc rfl

theorem Field.line_ne_nil (f : Field) : f.line ≠ [] := by
  simp [Field.line]

/--
No line of the head has a line break in it.
-/
theorem Response.WellFormed.lines (h : r.WellFormed) {line : Bytes} (hline : line ∈ r.lines) {c : UInt8}
    (hc : c = 10 ∨ c = 13) : line ≠ [] ∧ c ∉ line := by
  unfold Response.lines at hline
  rw [List.mem_cons, List.mem_map] at hline
  rcases hline with rfl | ⟨f, hf, rfl⟩
  . unfold Response.statusLine
    constructor
    . simp [version]
    . simp only [List.mem_append, List.mem_cons, not_or]
      refine ⟨?_, ?_, ?_, ?_, ?_⟩
      . rcases hc with rfl | rfl <;> decide
      . rcases hc with rfl | rfl <;> decide
      . intro hmem
        have := isDigit_numeral hmem
        rcases hc with rfl | rfl <;> cases this
      . rcases hc with rfl | rfl <;> decide
      . intro hmem
        exact isFieldByte_ne (h.reason c hmem) hc rfl
  . exact ⟨f.line_ne_nil, (h.fields f hf).line hc⟩

theorem length_data_lt (chunks : List Chunk) (rest : Bytes) (hrest : rest ≠ [])
    : (chunks.flatMap Chunk.data).length < (chunks.flatMap Chunk.text ++ rest).length := by
  induction chunks with
  | nil =>
    exact List.length_pos_iff.mpr hrest
  | cons c chunks ih =>
    rw [List.flatMap_cons, List.flatMap_cons, List.append_assoc, List.length_append, List.length_append]
    have : c.data.length ≤ c.text.length := by
      simp only [Chunk.text, List.length_append, List.length_cons]
      omega
    omega

/--
A body in chunks takes more bytes than there are in it.
-/
theorem Response.length_body_lt {chunks : List Chunk} {last : Chunk} {trailers : List Field}
    (hf : r.framing = .chunked chunks last trailers) (h : r.Framed) : r.body.length < r.payload.length := by
  unfold Response.Framed at h
  unfold Response.payload
  rw [hf] at h ⊢
  dsimp only at h ⊢
  rw [h.2.2.2.2.2.1]
  apply length_data_lt
  simp

end Responses

end Http.Wire
