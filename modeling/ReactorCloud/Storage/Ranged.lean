import Mathlib.Data.Set.Function
import ReactorCloud.Interleave.Machine
import ReactorCloud.Rust.F64
import ReactorCloud.Rust.Str

/-!
This module contains the download of a part of an object. The object is opened twice, to learn its size and to read
the part, and may have been replaced in between.
-/

namespace Reactor.Storage.Ranged

open Interleave (Machine)
open Rust (parseU64 digitsValue)
open Rust.Str (stripPrefix)

abbrev Bytes := List UInt8

/--
`start..end`
-/
structure Range where
  start : Nat
  stop : Nat
  deriving DecidableEq

/--
An operation on `u64` whose result is none.
-/
inductive Overflow where
  | overflow
  deriving DecidableEq

def addOne (x : Nat) : Except Overflow Nat :=
  if x + 1 < 2 ^ 64 then .ok (x + 1) else .error .overflow

def sub (x y : Nat) : Except Overflow Nat :=
  if y ≤ x then .ok (x - y) else .error .overflow

/-! ## The header -/

def clamp (start stop totalSize : Nat) : Option Range :=
  if totalSize ≤ start ∨ stop ≤ start then none else some ⟨start, min stop totalSize⟩

/--
The part behind `bytes=`. `saturating_sub` is the subtraction of natural numbers.
-/
def parseParts (totalSize : Nat) : List (List Char) → Except Overflow (Option Range)
  | [[], last] => .ok ((parseU64 last).bind (fun suffix => clamp (totalSize - suffix) totalSize totalSize))
  | [first, []] => .ok ((parseU64 first).bind (fun start => clamp start totalSize totalSize))
  | [first, last] =>
    match parseU64 first, parseU64 last with
    | some start, some last => (addOne last).map (fun stop => clamp start stop totalSize)
    | _, _ => .ok none
  | _ => .ok none

def parseRangeHeader (value : String) (totalSize : Nat) : Except Overflow (Option Range) :=
  match stripPrefix "bytes=" value with
  | some rest => parseParts totalSize (rest.toList.splitOn '-')
  | none => .ok none

/-! ## The store -/

structure BlobMeta where
  contentLength : Nat
  etag : String

section

variable (computeEtag : Bytes → String)

/--
`FsBlobStore::get` on the content that is there when the file is opened.
-/
def blobGet (content : Bytes) (range : Option Range) : Except Overflow (Bytes × BlobMeta) :=
  let totalSize := content.length
  let (start, stop) := match range with
    | some r => (r.start, min r.stop totalSize)
    | none => (0, totalSize)
  (sub stop start).map (fun readSize =>
    let bytes := (content.drop start).take readSize
    (bytes, ⟨totalSize, computeEtag bytes⟩))

end

/-! ## The route -/

inductive StatusCode where
  | ok
  | partialContent
  deriving DecidableEq

/--
`bytes first-last/size`
-/
structure ContentRange where
  first : Nat
  last : Nat
  size : Nat
  deriving DecidableEq

structure Response where
  status : StatusCode
  contentRange : Option ContentRange
  contentLength : Nat
  etag : String
  body : Bytes

inductive Request where
  | waiting
  | opened (first : Bytes) (range : Range) (info : BlobMeta)
  | done (first second : Bytes) (outcome : Except Overflow Response)

structure State where
  content : Bytes
  request : Request := .waiting

inductive Action where
  | put (data : Bytes)
  | openWhole
  | openPart

inductive Event where
  | put (data : Bytes)
  | opened
  | answered

section

variable (computeEtag : Bytes → String) (header : Option String)

def whole (content : Bytes) (info : BlobMeta) : Response :=
  ⟨.ok, none, info.contentLength, info.etag, content⟩

def part (bytes : Bytes) (range : Range) (info : BlobMeta) : Response :=
  ⟨.partialContent, some ⟨range.start, range.stop - 1, info.contentLength⟩, range.stop - range.start, info.etag,
    bytes⟩

def parseHeader (totalSize : Nat) : Except Overflow (Option Range) :=
  header.elim (.ok none) (fun value => parseRangeHeader value totalSize)

/--
The first access, from the opening of the object to the decision about the second one.
-/
def openWhole (content : Bytes) : Request :=
  match blobGet computeEtag content none with
  | .error e => .done content content (.error e)
  | .ok (bytes, info) =>
    match parseHeader header info.contentLength with
    | .error e => .done content content (.error e)
    | .ok none => .done content content (.ok (whole bytes info))
    | .ok (some range) => .opened content range info

def openPart (first : Bytes) (range : Range) (info : BlobMeta) (second : Bytes) : Request :=
  .done first second ((blobGet computeEtag second (some range)).map (fun (bytes, _) => part bytes range info))

def step (action : Action) (s : State) : Option (Event × State) :=
  match action, s.request with
  | .put data, _ => some (.put data, { s with content := data })
  | .openWhole, .waiting => some (.opened, { s with request := openWhole computeEtag header s.content })
  | .openPart, .opened first range info =>
    some (.answered, { s with request := openPart computeEtag first range info s.content })
  | _, _ => none

/--
One download and the uploads of the same key. An upload replaces the object at once, when its file is renamed.
-/
def machine (content : Bytes) : Machine State Action Event :=
  ⟨{ content }, step computeEtag header⟩

end

/-! ## What a range response should be -/

def IsNumber (digits : List Char) : Prop :=
  digits ≠ [] ∧ digits.all Char.isDigit = true

/--
A single well-formed range whose first byte is there, and the first and the last byte it asks for.
-/
inductive Asks (size : Nat) : List Char → Nat → Nat → Prop where
  | fromTo (first last : List Char) (hfirst : IsNumber first) (hlast : IsNumber last)
      (hle : digitsValue first ≤ digitsValue last) (hlt : digitsValue first < size)
    : Asks size (first ++ '-' :: last) (digitsValue first) (min (digitsValue last) (size - 1))
  | onwards (first : List Char) (hfirst : IsNumber first) (hlt : digitsValue first < size)
    : Asks size (first ++ ['-']) (digitsValue first) (size - 1)
  | suffix (last : List Char) (hlast : IsNumber last) (hpos : 0 < digitsValue last) (hsize : 0 < size)
    : Asks size ('-' :: last) (size - digitsValue last) (size - 1)

def AsksHeader (header : Option String) (size first last : Nat) : Prop :=
  ∃ rest, header = some ("bytes=" ++ String.ofList rest) ∧ Asks size rest first last

/--
The objects that a key has held in a run.
-/
def versions (content : Bytes) : List Event → List Bytes
  | [] => [content]
  | .put data :: events => data :: versions content events
  | _ :: events => versions content events

/--
The response holds the bytes from `first` to `last` of the version.
-/
structure IsSlice (computeEtag : Bytes → String) (version : Bytes) (response : Response) (range : ContentRange)
    : Prop where
  contentRange : response.contentRange = some range
  first : range.first ≤ range.last
  last : range.last < range.size
  size : version.length = range.size
  etag : computeEtag version = response.etag
  contentLength : response.contentLength = range.last - range.first + 1
  body : response.body = (version.drop range.first).take (range.last - range.first + 1)

structure Exact (computeEtag : Bytes → String) (header : Option String) (versions : List Bytes) (first : Bytes)
    (outcome : Except Overflow Response) : Prop where
  noOverflow : outcome ≠ .error .overflow
  slice : ∀ response, outcome = .ok response → response.status = .partialContent
    → ∃ version ∈ versions, ∃ range, IsSlice computeEtag version response range
  answered : ∀ a b, AsksHeader header first.length a b
    → ∃ response, outcome = .ok response ∧ response.status = .partialContent
      ∧ response.contentRange = some ⟨a, b, first.length⟩

/-! ## When it is -/

/--
The last position is the highest number of 64 bits.
-/
def Highest (header : Option String) : Prop :=
  ∃ value rest first last, header = some value ∧ stripPrefix "bytes=" value = some rest
    ∧ rest.toList.splitOn '-' = [first, last] ∧ first ≠ [] ∧ last ≠ [] ∧ (parseU64 first).isSome = true
    ∧ parseU64 last = some (2 ^ 64 - 1)

structure Meets (header : Option String) (first second : Bytes) : Prop where
  highest : ¬ Highest header
  numbers : ∀ rest a b, header = some ("bytes=" ++ String.ofList rest) → Asks first.length rest a b
    → ∀ number ∈ rest.splitOn '-', number ≠ [] → (parseU64 number).isSome = true
  same : ∀ r, parseHeader header first.length = .ok (some r)
    → (second.drop r.start).take (r.stop - r.start) = (first.drop r.start).take (r.stop - r.start)

/-! ## The parser -/

theorem splitOn_dash {first last : List Char} (hfirst : '-' ∉ first) (hlast : '-' ∉ last)
    : (first ++ '-' :: last).splitOn '-' = [first, last] := by
  have hne (c : Char) (cs : List Char) (h : '-' ∉ cs) (hc : c ∈ cs) : (c == '-') = false := by
    rw [beq_eq_false_iff_ne]
    rintro rfl
    exact h hc
  have hsplit : (first ++ '-' :: last).splitOn '-' = first :: last.splitOn '-' := by
    apply List.splitOnP_append_cons_of_forall_mem
    . exact fun c hc => hne c first hfirst hc
    . rfl
  have hrest : last.splitOn '-' = [last] := by
    apply List.splitOnP_eq_singleton
    exact fun c hc => hne c last hlast hc
  rw [hsplit, hrest]

theorem IsNumber.noDash {digits : List Char} (h : IsNumber digits) : '-' ∉ digits := by
  intro hmem
  exact absurd (List.all_eq_true.mp h.2 _ hmem) (by decide)

theorem parseU64_number {digits : List Char} (h : IsNumber digits)
    : parseU64 digits = if digitsValue digits < 2 ^ 64 then some (digitsValue digits) else none := by
  have hnat : Rust.parseNat digits = some (digitsValue digits) := if_pos h
  unfold parseU64
  split
  . next rest =>
    exact absurd (List.all_eq_true.mp h.2 '+' List.mem_cons_self) (by decide)
  . dsimp only
    rw [hnat]
    rfl

theorem parseU64_lt {text : List Char} {n : Nat} (h : parseU64 text = some n) : n < 2 ^ 64 := by
  unfold parseU64 at h
  obtain ⟨m, -, hm⟩ := Option.bind_eq_some_iff.mp h
  split at hm
  . next hlt =>
    cases hm
    exact hlt
  . cases hm

theorem eq_of_isSome {digits : List Char} (h : IsNumber digits) (hsome : (parseU64 digits).isSome = true)
    : parseU64 digits = some (digitsValue digits) := by
  rw [parseU64_number h] at hsome ⊢
  split at hsome
  . next hlt => rw [if_pos hlt]
  . cases hsome

theorem clamp_eq_some {start stop totalSize : Nat} {r : Range} (h : clamp start stop totalSize = some r)
    : r.start < r.stop ∧ r.stop ≤ totalSize := by
  unfold clamp at h
  split at h
  . cases h
  . next hlt =>
    cases h
    dsimp only
    omega

theorem clamp_eq {start stop totalSize : Nat} (hstart : start < totalSize) (hstop : start < stop)
    : clamp start stop totalSize = some ⟨start, min stop totalSize⟩ := by
  unfold clamp
  rw [if_neg]
  omega

theorem addOne_eq_error_iff {x : Nat} : addOne x = .error .overflow ↔ 2 ^ 64 ≤ x + 1 := by
  unfold addOne
  split
  . next hlt => simp only [reduceCtorEq, false_iff, not_le, hlt]
  . next hlt => simp only [not_lt.mp hlt]

/--
How the parts of a header are read when they are.
-/
inductive Reads (totalSize : Nat) : List (List Char) → Range → Prop where
  | suffix (last : List Char) (n : Nat) (r : Range) (hlast : parseU64 last = some n)
      (hr : clamp (totalSize - n) totalSize totalSize = some r) : Reads totalSize [[], last] r
  | onwards (first : List Char) (n : Nat) (r : Range) (hfirst : parseU64 first = some n)
      (hr : clamp n totalSize totalSize = some r) : Reads totalSize [first, []] r
  | fromTo (first last : List Char) (m n stop : Nat) (r : Range) (hfirst : parseU64 first = some m)
      (hlast : parseU64 last = some n) (hr : clamp m stop totalSize = some r) : Reads totalSize [first, last] r

theorem reads_of_parseParts {totalSize : Nat} {parts : List (List Char)} {r : Range}
    (h : parseParts totalSize parts = .ok (some r)) : Reads totalSize parts r := by
  unfold parseParts at h
  split at h
  . next last =>
    obtain ⟨n, hn, hr⟩ := Option.bind_eq_some_iff.mp (Except.ok.inj h)
    exact .suffix last n r hn hr
  . next first _ =>
    obtain ⟨n, hn, hr⟩ := Option.bind_eq_some_iff.mp (Except.ok.inj h)
    exact .onwards first n r hn hr
  . next first last _ _ =>
    split at h
    . next m n hm hn =>
      unfold addOne at h
      split at h
      . exact .fromTo first last m n (n + 1) r hm hn (Except.ok.inj h)
      . cases h
    . cases h
  . cases h

theorem Reads.bounds {totalSize : Nat} {parts : List (List Char)} {r : Range} (h : Reads totalSize parts r)
    : r.start < r.stop ∧ r.stop ≤ totalSize := by
  cases h with
  | suffix _ _ _ _ hr => exact clamp_eq_some hr
  | onwards _ _ _ _ hr => exact clamp_eq_some hr
  | fromTo _ _ _ _ _ _ _ _ hr => exact clamp_eq_some hr

theorem Reads.isSome {totalSize : Nat} {parts : List (List Char)} {r : Range} (h : Reads totalSize parts r)
    : ∀ number ∈ parts, number ≠ [] → (parseU64 number).isSome = true := by
  intro number hnumber hne
  cases h with
  | suffix last n _ hlast =>
    rcases List.mem_pair.mp hnumber with rfl | rfl
    . exact absurd rfl hne
    . rw [hlast]
      rfl
  | onwards first n _ hfirst =>
    rcases List.mem_pair.mp hnumber with rfl | rfl
    . rw [hfirst]
      rfl
    . exact absurd rfl hne
  | fromTo first last m n _ _ hfirst hlast =>
    rcases List.mem_pair.mp hnumber with rfl | rfl
    . rw [hfirst]
      rfl
    . rw [hlast]
      rfl

theorem stripPrefix_bytes (rest : List Char)
    : stripPrefix "bytes=" ("bytes=" ++ String.ofList rest) = some (String.ofList rest) := by
  have htext : ("bytes=" ++ String.ofList rest).toList = "bytes=".toList ++ rest := by
    rw [String.toList_append, @String.toList_ofList rest]
  unfold stripPrefix
  rw [htext, if_pos]
  . exact congrArg (fun text => some (String.ofList text)) (List.drop_left' rfl)
  . exact List.isPrefixOf_iff_prefix.mpr (List.prefix_append _ _)

section

variable {header : Option String} {totalSize : Nat} {r : Range}

theorem parseHeader_bytes {rest : List Char} (h : header = some ("bytes=" ++ String.ofList rest))
    : parseHeader header totalSize = parseParts totalSize (rest.splitOn '-') := by
  subst h
  unfold parseHeader parseRangeHeader
  rw [Option.elim_some, stripPrefix_bytes]
  dsimp only
  rw [String.toList_ofList]

theorem exists_reads (h : parseHeader header totalSize = .ok (some r))
    : ∃ value rest, header = some value ∧ stripPrefix "bytes=" value = some rest
      ∧ Reads totalSize (rest.toList.splitOn '-') r := by
  unfold parseHeader at h
  cases header with
  | none => cases h
  | some value =>
    rw [Option.elim_some] at h
    unfold parseRangeHeader at h
    split at h
    . next rest hrest => exact ⟨value, rest, rfl, hrest, reads_of_parseParts h⟩
    . cases h

theorem bounds_of_parseHeader (h : parseHeader header totalSize = .ok (some r))
    : r.start < r.stop ∧ r.stop ≤ totalSize := by
  obtain ⟨_, _, _, _, hreads⟩ := exists_reads h
  exact hreads.bounds

/--
Only the highest last position overflows, whatever the size is.
-/
theorem parseParts_eq_error_iff {parts : List (List Char)}
    : parseParts totalSize parts = .error .overflow
        ↔
      ∃ first last, parts = [first, last] ∧ first ≠ [] ∧ last ≠ [] ∧ (parseU64 first).isSome = true
        ∧ parseU64 last = some (2 ^ 64 - 1) := by
  constructor
  . intro h
    unfold parseParts at h
    split at h
    . cases h
    . cases h
    . next first last hlast hfirst =>
      split at h
      . next m n hm hn =>
        have hfull := parseU64_lt hn
        have hoverflow : addOne n = .error .overflow := by
          unfold addOne at h ⊢
          split at h
          . cases h
          . next hge => rw [if_neg hge]
        rw [addOne_eq_error_iff] at hoverflow
        refine ⟨first, last, rfl, ?_, ?_, ?_, ?_⟩
        . rintro rfl
          exact hlast rfl
        . rintro rfl
          exact hfirst rfl
        . rw [hm]
          rfl
        . rw [hn]
          congr 1
          omega
      . cases h
    . cases h
  . rintro ⟨first, last, rfl, hfirst, hlast, hm, hn⟩
    obtain ⟨m, hm⟩ := Option.isSome_iff_exists.mp hm
    rw [parseParts, hm, hn]
    . rfl
    . exact hfirst
    . exact hlast

theorem parseHeader_eq_error_iff : parseHeader header totalSize = .error .overflow ↔ Highest header := by
  constructor
  . intro h
    unfold parseHeader at h
    cases header with
    | none => cases h
    | some value =>
      rw [Option.elim_some] at h
      unfold parseRangeHeader at h
      split at h
      . next rest hrest =>
        obtain ⟨first, last, hparts⟩ := parseParts_eq_error_iff.mp h
        exact ⟨value, rest, first, last, rfl, hrest, hparts⟩
      . cases h
  . rintro ⟨value, rest, first, last, rfl, hrest, hparts⟩
    unfold parseHeader parseRangeHeader
    rw [Option.elim_some, hrest]
    exact parseParts_eq_error_iff.mpr ⟨first, last, hparts⟩

/--
A header that asks for a part whose numbers can be read gets it.
-/
theorem parseHeader_of_asks {rest : List Char} {a b : Nat} (hheader : header = some ("bytes=" ++ String.ofList rest))
    (h : Asks totalSize rest a b) (hhighest : ¬ Highest header)
    (hnumbers : ∀ number ∈ rest.splitOn '-', number ≠ [] → (parseU64 number).isSome = true)
    : parseHeader header totalSize = .ok (some ⟨a, b + 1⟩) := by
  have herror : parseHeader header totalSize ≠ .error .overflow := fun h => hhighest (parseHeader_eq_error_iff.mp h)
  rw [parseHeader_bytes hheader] at herror ⊢
  cases h with
  | fromTo first last hfirst hlast hle hlt =>
    rw [splitOn_dash hfirst.noDash hlast.noDash] at hnumbers herror ⊢
    have hm := eq_of_isSome hfirst (hnumbers first List.mem_cons_self hfirst.1)
    have hn := eq_of_isSome hlast (hnumbers last (List.mem_cons_of_mem _ (List.mem_singleton_self _)) hlast.1)
    have hparse : parseParts totalSize [first, last]
        = (addOne (digitsValue last)).map (fun stop => clamp (digitsValue first) stop totalSize) := by
      rw [parseParts, hm, hn]
      . exact hfirst.1
      . exact hlast.1
    rw [hparse] at herror ⊢
    unfold addOne at herror ⊢
    split
    . change Except.ok (clamp (digitsValue first) (digitsValue last + 1) totalSize) = _
      rw [clamp_eq hlt (by omega)]
      congr 3
      omega
    . next hge =>
      rw [if_neg hge] at herror
      exact absurd rfl herror
  | onwards first hfirst hlt =>
    rw [splitOn_dash hfirst.noDash List.not_mem_nil] at hnumbers ⊢
    have hm := eq_of_isSome hfirst (hnumbers first List.mem_cons_self hfirst.1)
    have hparse : parseParts totalSize [first, []]
        = .ok (clamp (digitsValue first) totalSize totalSize) := by
      rw [parseParts, hm]
      . rfl
      . exact hfirst.1
    rw [hparse, clamp_eq hlt hlt]
    congr 3
    omega
  | suffix last hlast hpos hsize =>
    have hsplit := splitOn_dash List.not_mem_nil hlast.noDash
    rw [List.nil_append] at hsplit
    rw [hsplit] at hnumbers ⊢
    have hn := eq_of_isSome hlast (hnumbers last (List.mem_cons_of_mem _ (List.mem_singleton_self _)) hlast.1)
    have hparse : parseParts totalSize [[], last]
        = .ok (clamp (totalSize - digitsValue last) totalSize totalSize) := by
      rw [parseParts, hn]
      rfl
    rw [hparse, clamp_eq (by omega) (by omega)]
    congr 3
    omega

end

/-! ## The download as a function of what is found by both accesses -/

section

variable (computeEtag : Bytes → String) (header : Option String)

def infoOf (content : Bytes) : BlobMeta :=
  ⟨content.length, computeEtag content⟩

def download (first second : Bytes) : Except Overflow Response :=
  match parseHeader header first.length with
  | .error e => .error e
  | .ok none => .ok (whole first (infoOf computeEtag first))
  | .ok (some range) =>
    (blobGet computeEtag second (some range)).map (fun (bytes, _) => part bytes range (infoOf computeEtag first))

/--
What is known of the request: the first access has found a version, and the second one another or the same.
-/
def Known (versions : List Bytes) : Request → Prop
  | .waiting => True
  | .opened first range info => first ∈ versions ∧ parseHeader header first.length = .ok (some range)
    ∧ info = infoOf computeEtag first
  | .done first second outcome => first ∈ versions ∧ second ∈ versions
    ∧ outcome = download computeEtag header first second

end

section

variable {computeEtag : Bytes → String} {header : Option String}

theorem blobGet_none (content : Bytes)
    : blobGet computeEtag content none = .ok (content, infoOf computeEtag content) := by
  unfold blobGet sub infoOf
  dsimp only
  rw [if_pos (Nat.zero_le _)]
  change Except.ok ((content.drop 0).take (content.length - 0), _) = _
  rw [List.drop_zero, Nat.sub_zero, List.take_length]

theorem known_openWhole {versions : List Bytes} {content : Bytes} (h : content ∈ versions)
    : Known computeEtag header versions (openWhole computeEtag header content) := by
  unfold openWhole
  rw [blobGet_none]
  dsimp only [infoOf]
  split
  . next e hparse =>
    refine ⟨h, h, ?_⟩
    unfold download
    rw [hparse]
  . next hparse =>
    refine ⟨h, h, ?_⟩
    unfold download
    rw [hparse]
    rfl
  . next range hparse => exact ⟨h, hparse, rfl⟩

theorem Known.openPart {versions : List Bytes} {first second : Bytes} {range : Range} {info : BlobMeta}
    (h : Known computeEtag header versions (.opened first range info)) (hsecond : second ∈ versions)
    : Known computeEtag header versions (openPart computeEtag first range info second) := by
  obtain ⟨hfirst, hparse, rfl⟩ := h
  refine ⟨hfirst, hsecond, ?_⟩
  unfold download
  rw [hparse]

theorem Known.mono {versions versions' : List Bytes} {request : Request}
    (h : Known computeEtag header versions request) (hsubset : ∀ version ∈ versions, version ∈ versions') : Known computeEtag header versions' request := by
  cases request with
  | waiting => trivial
  | opened first range info => exact ⟨hsubset _ h.1, h.2⟩
  | done first second outcome => exact ⟨hsubset _ h.1, hsubset _ h.2.1, h.2.2⟩

/--
What a step leaves: the content is a version, and so is what the request has found.
-/
theorem known_step {content : Bytes} {action : Action} {s s' : State} {trace : List Event} {e : Event}
    (hcontent : s.content ∈ versions content trace)
    (h : Known computeEtag header (versions content trace) s.request)
    (hstep : step computeEtag header action s = some (e, s'))
    : s'.content ∈ versions content (e :: trace)
      ∧ Known computeEtag header (versions content (e :: trace)) s'.request := by
  unfold step at hstep
  split at hstep
  . cases hstep
    exact ⟨List.mem_cons_self, h.mono fun version hversion => List.mem_cons_of_mem _ hversion⟩
  . cases hstep
    exact ⟨hcontent, known_openWhole hcontent⟩
  . next first range info hopened =>
    cases hstep
    rw [hopened] at h
    exact ⟨hcontent, h.openPart hcontent⟩
  . cases hstep

theorem known_of_run {content : Bytes} {actions : List Action} {w : Machine.World State Event}
    (hrun : (machine computeEtag header content).run actions (machine computeEtag header content).first = some w)
    : Known computeEtag header (versions content w.trace) w.state.request := by
  have hreached := Machine.Reached.run .first (Machine.along_true actions _) hrun
  have hall : w.state.content ∈ versions content w.trace
      ∧ Known computeEtag header (versions content w.trace) w.state.request := by
    apply hreached.invariant
    . exact ⟨List.mem_singleton_self _, trivial⟩
    . rintro action ⟨s, trace⟩ e s' ⟨hcontent, h⟩ - hstep
      exact known_step hcontent h hstep
  exact hall.2

/-! ## When the response is exact -/

theorem length_take_drop {content : Bytes} {r : Range} (h : r.stop ≤ content.length) (hlt : r.start < r.stop)
    : ((content.drop r.start).take (r.stop - r.start)).length = r.stop - r.start := by
  rw [List.length_take, List.length_drop]
  omega

/--
The second access gets what is left of the part.
-/
theorem blobGet_some {content : Bytes} {r : Range} (h : r.start ≤ min r.stop content.length)
    : ∃ info, blobGet computeEtag content (some r)
      = .ok ((content.drop r.start).take (r.stop - r.start), info) := by
  have htake : (content.drop r.start).take (min r.stop content.length - r.start)
      = (content.drop r.start).take (r.stop - r.start) := by
    rw [List.take_eq_take_iff, List.length_drop]
    omega
  unfold blobGet sub
  dsimp only
  rw [if_pos h]
  exact ⟨_, congrArg (fun bytes => Except.ok (bytes, _)) htake⟩

theorem blobGet_error {content : Bytes} {r : Range} (h : ¬ r.start ≤ min r.stop content.length)
    : blobGet computeEtag content (some r) = .error .overflow := by
  unfold blobGet sub
  dsimp only
  rw [if_neg h]
  rfl

theorem download_of_error (second : Bytes) {first : Bytes} {e : Overflow}
    (h : parseHeader header first.length = .error e)
    : download computeEtag header first second = .error e := by
  unfold download
  rw [h]

theorem download_of_none (second : Bytes) {first : Bytes} (h : parseHeader header first.length = .ok none)
    : download computeEtag header first second = .ok (whole first (infoOf computeEtag first)) := by
  unfold download
  rw [h]

theorem download_of_some {first second : Bytes} {r : Range} (h : parseHeader header first.length = .ok (some r))
    (hstart : r.start ≤ min r.stop second.length)
    : download computeEtag header first second
        =
      .ok (part ((second.drop r.start).take (r.stop - r.start)) r (infoOf computeEtag first)) := by
  obtain ⟨info, hget⟩ := @blobGet_some computeEtag second r hstart
  unfold download
  rw [h]
  dsimp only
  rw [hget]
  rfl

theorem download_of_shorter {first second : Bytes} {r : Range} (h : parseHeader header first.length = .ok (some r))
    (hstart : ¬ r.start ≤ min r.stop second.length)
    : download computeEtag header first second = .error .overflow := by
  unfold download
  rw [h]
  dsimp only
  rw [blobGet_error hstart]
  rfl

/--
A part has been sent: the header was read.
-/
theorem exists_range {first second : Bytes} {response : Response}
    (h : download computeEtag header first second = .ok response) (hstatus : response.status = .partialContent)
    : ∃ r, parseHeader header first.length = .ok (some r) := by
  cases hparse : parseHeader header first.length with
  | error e =>
    rw [download_of_error second hparse] at h
    cases h
  | ok found =>
    cases found with
    | none =>
      rw [download_of_none second hparse] at h
      cases h
      cases hstatus
    | some r => exact ⟨r, rfl⟩

theorem le_of_same {first second : Bytes} {r : Range} (hlt : r.start < r.stop) (hle : r.stop ≤ first.length)
    (h : (second.drop r.start).take (r.stop - r.start) = (first.drop r.start).take (r.stop - r.start))
    : r.stop ≤ second.length := by
  have hlength := congrArg List.length h
  rw [length_take_drop hle hlt, List.length_take, List.length_drop] at hlength
  omega

theorem Meets.exact {versions : List Bytes} {first second : Bytes} (h : Meets header first second)
    (hfirst : first ∈ versions)
    : Exact computeEtag header versions first (download computeEtag header first second) := by
  have hpart (r : Range) (hparse : parseHeader header first.length = .ok (some r))
      : download computeEtag header first second
        = .ok (part ((first.drop r.start).take (r.stop - r.start)) r (infoOf computeEtag first)) := by
    obtain ⟨hlt, hle⟩ := bounds_of_parseHeader hparse
    have hsecond := le_of_same hlt hle (h.same r hparse)
    rw [download_of_some hparse (by omega), h.same r hparse]
  constructor
  . intro herror
    cases hparse : parseHeader header first.length with
    | error e => exact h.highest (parseHeader_eq_error_iff.mp (by rw [hparse]))
    | ok found =>
      cases found with
      | none =>
        rw [download_of_none second hparse] at herror
        cases herror
      | some r =>
        rw [hpart r hparse] at herror
        cases herror
  . intro response hresponse hstatus
    obtain ⟨r, hparse⟩ := exists_range hresponse hstatus
    obtain ⟨hlt, hle⟩ := bounds_of_parseHeader hparse
    rw [hpart r hparse] at hresponse
    cases hresponse
    have hcount : r.stop - 1 - r.start + 1 = r.stop - r.start := by omega
    refine ⟨first, hfirst, ⟨r.start, r.stop - 1, first.length⟩, ⟨rfl, ?_, ?_, rfl, rfl, hcount.symm, ?_⟩⟩
    . dsimp only
      omega
    . dsimp only
      omega
    . dsimp only
      rw [hcount]
      rfl
  . rintro a b ⟨rest, hheader, hasks⟩
    have hparse := parseHeader_of_asks hheader hasks h.highest (h.numbers rest a b hheader hasks)
    exact ⟨_, hpart _ hparse, rfl, rfl⟩

theorem Exact.meets {versions : List Bytes} {first second : Bytes}
    (hinj : ∀ version ∈ versions, computeEtag version = computeEtag first → version = first)
    (h : Exact computeEtag header versions first (download computeEtag header first second))
    : Meets header first second := by
  constructor
  . intro hhighest
    exact h.noOverflow (download_of_error second (parseHeader_eq_error_iff.mpr hhighest))
  . intro rest a b hheader hasks
    obtain ⟨response, hresponse, hstatus, -⟩ := h.answered a b ⟨rest, hheader, hasks⟩
    obtain ⟨r, hparse⟩ := exists_range hresponse hstatus
    rw [parseHeader_bytes hheader] at hparse
    exact (reads_of_parseParts hparse).isSome
  . intro r hparse
    obtain ⟨hlt, hle⟩ := bounds_of_parseHeader hparse
    by_cases hstart : r.start ≤ min r.stop second.length
    . obtain ⟨version, hversion, range, hslice⟩ := h.slice _ (download_of_some hparse hstart) rfl
      have hrange := Option.some.inj hslice.contentRange
      have hbody := hslice.body
      rw [← hrange, hinj version hversion hslice.etag] at hbody
      have hcount : r.stop - 1 - r.start + 1 = r.stop - r.start := by omega
      dsimp only [part] at hbody
      rwa [hcount] at hbody
    . exact absurd (download_of_shorter hparse hstart) h.noOverflow

/--
In every run of one download and any uploads.
-/
theorem exact_iff {content : Bytes} {actions : List Action} {w : Machine.World State Event} {first second : Bytes}
    {outcome : Except Overflow Response}
    (hrun : (machine computeEtag header content).run actions (machine computeEtag header content).first = some w)
    (hdone : w.state.request = .done first second outcome)
    (hinj : ∀ version ∈ versions content w.trace, computeEtag version = computeEtag first → version = first)
    : Exact computeEtag header (versions content w.trace) first outcome ↔ Meets header first second := by
  have hknown := known_of_run hrun
  rw [hdone] at hknown
  obtain ⟨hfirst, -, rfl⟩ := hknown
  exact ⟨Exact.meets hinj, fun h => h.exact hfirst⟩

end

section Examples

/--
The last two bytes of three.
-/
theorem parseHeader_last : parseHeader (some "bytes=-2") 3 = .ok (some ⟨1, 3⟩) := by
  decide

def etag (_ : Bytes) : String :=
  "\"039058c6f2c0cb492c533b0a4d14ef77cc0f78abccced5287d84a1a2011cfb81\""

theorem openWhole_last
    : openWhole etag (some "bytes=-2") [1, 2, 3] = .opened [1, 2, 3] ⟨1, 3⟩ (infoOf etag [1, 2, 3]) := by
  unfold openWhole
  rw [blobGet_none]
  dsimp only [infoOf]
  rw [show ([1, 2, 3] : Bytes).length = 3 from rfl, parseHeader_last]

/--
Nobody uploads in between.
-/
theorem exact_last
    : Exact etag (some "bytes=-2") [[1, 2, 3]] [1, 2, 3] (download etag (some "bytes=-2") [1, 2, 3] [1, 2, 3])
        ↔
      Meets (some "bytes=-2") [1, 2, 3] [1, 2, 3] := by
  have hdone : openPart etag [1, 2, 3] ⟨1, 3⟩ (infoOf etag [1, 2, 3]) [1, 2, 3]
      = .done [1, 2, 3] [1, 2, 3] (download etag (some "bytes=-2") [1, 2, 3] [1, 2, 3]) := by
    unfold download
    rw [show ([1, 2, 3] : Bytes).length = 3 from rfl, parseHeader_last]
    rfl
  have hrun : (machine etag (some "bytes=-2") [1, 2, 3]).run [.openWhole, .openPart]
      (machine etag (some "bytes=-2") [1, 2, 3]).first
        = some ⟨⟨[1, 2, 3], openPart etag [1, 2, 3] ⟨1, 3⟩ (infoOf etag [1, 2, 3]) [1, 2, 3]⟩,
          [.answered, .opened]⟩ := by
    simp only [Machine.run, Machine.next, Machine.first, machine, step, openWhole_last, Option.map_some,
      Option.bind_some]
  exact exact_iff hrun hdone (fun version hversion _ => List.mem_singleton.mp hversion)

/--
An empty object is uploaded in between, and the length of the part underflows.
-/
theorem not_exact
    : ¬ ∀ (computeEtag : Bytes → String) (header : Option String) (content : Bytes) (actions : List Action)
        (w : Machine.World State Event) (first second : Bytes) (outcome : Except Overflow Response),
        (machine computeEtag header content).run actions (machine computeEtag header content).first = some w
          → w.state.request = .done first second outcome
          → Exact computeEtag header (versions content w.trace) first outcome := by
  intro h
  have hget : blobGet etag [] (some ⟨1, 3⟩) = .error .overflow := blobGet_error (by decide)
  have hrun : (machine etag (some "bytes=-2") [1, 2, 3]).run [.openWhole, .put [], .openPart]
      (machine etag (some "bytes=-2") [1, 2, 3]).first
        = some ⟨⟨[], .done [1, 2, 3] [] (.error .overflow)⟩, [.answered, .put [], .opened]⟩ := by
    simp only [Machine.run, Machine.next, Machine.first, machine, step, openWhole_last, openPart, hget,
      Except.map, Option.map_some, Option.bind_some]
  exact (h _ _ _ _ _ _ _ _ hrun rfl).noOverflow rfl

end Examples

end Reactor.Storage.Ranged
