import ReactorCloud.Data.Execute.Format
import ReactorCloud.Http.Service
import ReactorCloud.Rust.HashMap
import ReactorCloud.Rust.Result

/-!
This module contains the pages of a query, from `limit` and `offset` or from the `Range` header, and
the `Content-Range` header of the response.
-/

namespace Reactor.Data.Query

open Execute (Pagination)
open Http (Message headerStr)
open Rust (HashMap Overflowing addU32 parseU32 saturatingSub subU32)

structure DataConfig where
  maxLimit : UInt32
  defaultLimit : UInt32

def supportsUnit (m : Message) : Except DataError Unit :=
  match (m.header "range-unit").bind headerStr with
  | some unit =>
    if eqIgnoreAsciiCase unit.toList "items" then
      .ok ()
    else
      .error (.invalidFilter ("unsupported Range-Unit: " ++ unit))
  | none => .ok ()

/--
The text of a range without `items=`.
-/
def rangePart (range : List Char) : List Char :=
  if "items=".toList.isPrefixOf range then range.drop 6 else range

def parseBound (what : String) (bound : List Char) : Except DataError UInt32 :=
  match parseU32 bound with
  | some n => .ok n
  | none => .error (.invalidFilter ("invalid Range " ++ what ++ ": " ++ String.ofList bound))

def parseBounds (range : List Char) : Except DataError (UInt32 × UInt32) :=
  match (rangePart range).splitOn '-' with
  | [first, last] => do
    let start ← parseBound "start" first
    let stop ← parseBound "end" last
    if stop < start then
      .error (.invalidFilter "Range end must be >= start")
    else
      .ok (start, stop)
  | _ => .error (.invalidFilter ("invalid Range format: " ++ String.ofList range))

def parseRangeHeader (m : Message) : Except DataError (Option (Overflowing Pagination)) :=
  match m.header "range" with
  | none => .ok none
  | some value =>
    match headerStr value with
    | none => .error (.invalidFilter "invalid Range header")
    | some range => do
      supportsUnit m
      let (start, stop) ← parseBounds range.toList
      .ok (some (do
        let length ← subU32 stop start
        let limit ← addU32 length 1
        pure ⟨limit, start⟩))

def clampPagination (pagination : Pagination) (config : DataConfig) : Pagination :=
  if config.maxLimit < pagination.limit then
    { pagination with limit := config.maxLimit }
  else
    pagination

def parseParam (params : HashMap String) (name : String) (default : UInt32)
    : Except DataError UInt32 :=
  match params.lookup name with
  | some s =>
    match parseU32 s.toList with
    | some n => .ok n
    | none => .error (.invalidFilter ("invalid " ++ name ++ " value: " ++ s))
  | none => .ok default

def parsePagination (params : HashMap String) (m : Message) (config : DataConfig)
    : Except DataError (Overflowing Pagination) := do
  match ← parseRangeHeader m with
  | some range => .ok ((clampPagination · config) <$> range)
  | none =>
    let limit ← parseParam params "limit" config.defaultLimit
    let offset ← parseParam params "offset" 0
    .ok (pure (clampPagination ⟨limit, offset⟩ config))

structure QueryResult where
  rowsReturned : UInt32
  totalCount : Option UInt64

/--
The `Content-Range` header that `get_table` adds.
-/
def contentRange (pagination : Pagination) (result : QueryResult) : Option (Overflowing String) :=
  result.totalCount.map fun total => do
    let last ← addU32 pagination.offset (saturatingSub result.rowsReturned 1)
    pure (Nat.repr pagination.offset.toNat ++ "-" ++ Nat.repr last.toNat ++ "/"
      ++ Nat.repr total.toNat)

/-! The page that a request asks for -/

/--
The request has a `Range` header from `a` to `b`.
-/
structure Ranged (m : Message) (a b : UInt32) : Prop where
  unit : ∀ value, m.header "range-unit" = some value →
    ∀ unit, headerStr value = some unit → eqIgnoreAsciiCase unit.toList "items" = true
  range : ∃ value first last, m.header "range" = some value
    ∧ headerStr value = some value
    ∧ (value.toList = first ++ '-' :: last ∨ value.toList = "items=".toList ++ first ++ '-' :: last)
    ∧ parseU32 first = some a
    ∧ parseU32 last = some b
  le : a ≤ b

/--
A parameter is given or has its default.
-/
def Given (params : HashMap String) (name : String) (default n : UInt32) : Prop :=
  (∃ s, params.lookup name = some s ∧ parseU32 s.toList = some n)
    ∨ (params.lookup name = none ∧ n = default)

/--
The offset and the length of the page that a request asks for.
-/
inductive Asks (params : HashMap String) (m : Message) (config : DataConfig) : Nat → Nat → Prop
  | range (a b : UInt32) (h : Ranged m a b) : Asks params m config a.toNat (b.toNat - a.toNat + 1)
  | params (limit offset : UInt32) (hrange : m.header "range" = none)
    (hlimit : Given params "limit" config.defaultLimit limit)
    (hoffset : Given params "offset" 0 offset) : Asks params m config offset.toNat limit.toNat

/-! Both readings of the `Range` header are the same -/

theorem head_of_parseU32 {text : List Char} {n : UInt32} (h : parseU32 text = some n)
    : text.head? ≠ some 'i' := by
  intro hhead
  have hmem : 'i' ∈ text := List.mem_of_mem_head? hhead
  have := Rust.plus_or_digit_of_parseU32 h 'i' hmem
  revert this
  decide

theorem dash_of_parseU32 {text : List Char} {n : UInt32} (h : parseU32 text = some n)
    : '-' ∉ text := by
  intro hmem
  have := Rust.plus_or_digit_of_parseU32 h '-' hmem
  revert this
  decide

theorem ne_nil_of_parseU32 {text : List Char} {n : UInt32} (h : parseU32 text = some n)
    : text ≠ [] := by
  rintro rfl
  simp [parseU32, Rust.parseNat] at h

theorem rangePart_bounds {first last : List Char} {a : UInt32} (ha : parseU32 first = some a)
    : rangePart (first ++ '-' :: last) = first ++ '-' :: last := by
  rw [rangePart, if_neg]
  intro hpre
  have hitems : "items=".toList = ['i', 't', 'e', 'm', 's', '='] := by decide
  rw [List.isPrefixOf_iff_prefix, hitems] at hpre
  cases first with
  | nil => exact ne_nil_of_parseU32 ha rfl
  | cons c first =>
    apply head_of_parseU32 ha
    have := List.cons_prefix_cons.mp hpre
    rw [List.head?_cons, this.1]

theorem rangePart_items (text : List Char) : rangePart ("items=".toList ++ text) = text := by
  rw [rangePart, if_pos]
  . rfl
  . rw [List.isPrefixOf_iff_prefix]
    exact List.prefix_append _ _

theorem text_of_rangePart {text rest : List Char} (h : rangePart text = rest)
    : text = rest ∨ text = "items=".toList ++ rest := by
  rw [rangePart] at h
  split at h
  . next hpre =>
    right
    rw [List.isPrefixOf_iff_prefix] at hpre
    have ⟨tail, htail⟩ := hpre
    rw [← h, ← htail]
    rfl
  . exact Or.inl h

theorem parseBound_eq_ok {what : String} {text : List Char} {n : UInt32}
    : parseBound what text = .ok n ↔ parseU32 text = some n := by
  rw [parseBound]
  split
  . next heq => rw [heq, Except.ok.injEq, Option.some.injEq]
  . next heq => rw [heq]; simp

theorem splitOn_bounds {first last : List Char} {a b : UInt32} (ha : parseU32 first = some a)
    (hb : parseU32 last = some b) : (first ++ '-' :: last).splitOn '-' = [first, last] := by
  have hdash : ∀ text ∈ [first, last], '-' ∉ text := by
    intro text htext
    rw [List.mem_cons, List.mem_singleton] at htext
    rcases htext with rfl | rfl
    . exact dash_of_parseU32 ha
    . exact dash_of_parseU32 hb
  have := List.splitOn_intercalate '-' hdash (by simp)
  simpa [List.intercalate] using this

theorem parseBounds_eq_ok {text : List Char} {a b : UInt32}
    : parseBounds text = .ok (a, b) ↔
        ∃ first last, (text = first ++ '-' :: last ∨ text = "items=".toList ++ first ++ '-' :: last)
          ∧ parseU32 first = some a ∧ parseU32 last = some b ∧ a ≤ b := by
  constructor
  . intro h
    rw [parseBounds] at h
    split at h
    . next first last hsplit =>
      have ⟨start, hstart, h⟩ := Rust.bind_eq_ok.mp h
      have ⟨stop, hstop, h⟩ := Rust.bind_eq_ok.mp h
      split at h
      . cases h
      . next hle =>
        rw [Except.ok.injEq, Prod.mk.injEq] at h
        have ⟨rfl, rfl⟩ := h
        have htext : ['-'].intercalate ((rangePart text).splitOn '-') = rangePart text :=
          List.intercalate_splitOn '-'
        rw [hsplit] at htext
        have htext : rangePart text = first ++ '-' :: last := by
          simpa [List.intercalate] using htext.symm
        refine ⟨first, last, ?_, parseBound_eq_ok.mp hstart, parseBound_eq_ok.mp hstop,
          UInt32.not_lt.mp hle⟩
        rw [List.append_assoc]
        exact text_of_rangePart htext
    . cases h
  . rintro ⟨first, last, htext, ha, hb, hle⟩
    have hpart : rangePart text = first ++ '-' :: last := by
      rcases htext with rfl | rfl
      . exact rangePart_bounds ha
      . rw [List.append_assoc]
        exact rangePart_items _
    simp only [parseBounds, hpart, splitOn_bounds ha hb, parseBound_eq_ok.mpr ha,
      parseBound_eq_ok.mpr hb, bind, Except.bind]
    rw [if_neg (UInt32.not_lt.mpr hle)]

/--
The page of a range, with the overflow of its length.
-/
def rangePage (a b : UInt32) : Overflowing Pagination := do
  let length ← subU32 b a
  let limit ← addU32 length 1
  pure ⟨limit, a⟩

theorem supportsUnit_eq_ok {m : Message}
    : supportsUnit m = .ok () ↔
        ∀ value, m.header "range-unit" = some value →
          ∀ unit, headerStr value = some unit → eqIgnoreAsciiCase unit.toList "items" = true := by
  rw [supportsUnit]
  cases hheader : m.header "range-unit" with
  | none => simp
  | some value =>
    rw [Option.bind_some]
    cases hunit : headerStr value with
    | none => simp [hunit]
    | some unit =>
      by_cases hitems : eqIgnoreAsciiCase unit.toList "items" = true
      . simp [hunit, hitems]
      . simp [hunit, hitems]

theorem eq_of_headerStr {value text : String} (h : headerStr value = some text) : text = value := by
  rw [headerStr] at h
  split at h
  . exact (Option.some.inj h).symm
  . cases h

theorem parseRangeHeader_eq_some {m : Message} {page : Overflowing Pagination}
    : parseRangeHeader m = .ok (some page) ↔ ∃ a b, Ranged m a b ∧ page = rangePage a b := by
  constructor
  . intro h
    rw [parseRangeHeader] at h
    split at h
    . cases h
    . next value hvalue =>
      split at h
      . cases h
      . next range hrange =>
        cases eq_of_headerStr hrange
        have ⟨hunit, h⟩ := Rust.bind_unit_eq_ok.mp h
        have ⟨(a, b), hbounds, h⟩ := Rust.bind_eq_ok.mp h
        have ⟨first, last, htext, ha, hb, hle⟩ := parseBounds_eq_ok.mp hbounds
        rw [Except.ok.injEq, Option.some.injEq] at h
        exact ⟨a, b, ⟨supportsUnit_eq_ok.mp hunit, ⟨value, first, last, hvalue, hrange, htext, ha, hb⟩,
          hle⟩, h.symm⟩
  . rintro ⟨a, b, ⟨hunit, ⟨value, first, last, hvalue, hrange, htext, ha, hb⟩, hle⟩, rfl⟩
    have hbounds := parseBounds_eq_ok.mpr ⟨first, last, htext, ha, hb, hle⟩
    rw [parseRangeHeader, hvalue]
    simp only [hrange]
    rw [Rust.bind_unit_eq_ok]
    refine ⟨supportsUnit_eq_ok.mpr hunit, ?_⟩
    rw [Rust.bind_eq_ok]
    exact ⟨(a, b), hbounds, rfl⟩

theorem parseRangeHeader_eq_none {m : Message}
    : parseRangeHeader m = .ok none ↔ m.header "range" = none := by
  rw [parseRangeHeader]
  constructor
  . intro h
    split at h
    . next hnone => exact hnone
    . next value hvalue =>
      split at h
      . cases h
      . have ⟨_, h⟩ := Rust.bind_unit_eq_ok.mp h
        have ⟨_, _, h⟩ := Rust.bind_eq_ok.mp h
        cases h
  . intro h
    rw [h]

theorem parseParam_eq_ok {params : HashMap String} {name : String} {default n : UInt32}
    : parseParam params name default = .ok n ↔ Given params name default n := by
  rw [parseParam, Given]
  cases params.lookup name with
  | none => simp [eq_comm]
  | some s =>
    cases h : parseU32 s.toList with
    | none => simp [h]
    | some k => simp [h]

theorem overflowed_rangePage {a b : UInt32} (h : a ≤ b)
    : (rangePage a b).overflowed = false ↔ b.toNat - a.toNat + 1 < 2 ^ 32 := by
  have hle : a.toNat ≤ b.toNat := h
  have hlen := Rust.toNat_subU32 hle
  have hfits := Rust.subU32_fits.mpr hle
  simp only [rangePage, Rust.Overflowing.overflowed_bind, Rust.Overflowing.overflowed_pure,
    Bool.or_false, Bool.or_eq_false_iff, hfits, true_and]
  rw [Rust.addU32_fits, hlen]
  rfl

theorem limit_rangePage {a b : UInt32} (h : a ≤ b) (hfits : b.toNat - a.toNat + 1 < 2 ^ 32)
    : (rangePage a b).value.limit.toNat = b.toNat - a.toNat + 1 := by
  have hle : a.toNat ≤ b.toNat := h
  have hlen := Rust.toNat_subU32 hle
  show (addU32 (subU32 b a).value 1).value.toNat = _
  rw [Rust.toNat_addU32]
  . rw [hlen]; rfl
  . rw [hlen]; exact hfits

theorem limit_clampPagination (pagination : Pagination) (config : DataConfig)
    : (clampPagination pagination config).limit.toNat
        = min pagination.limit.toNat config.maxLimit.toNat := by
  rw [clampPagination]
  split
  . next h =>
    have : config.maxLimit.toNat < pagination.limit.toNat := h
    show config.maxLimit.toNat = _
    omega
  . next h =>
    have : ¬ config.maxLimit.toNat < pagination.limit.toNat := h
    omega

theorem offset_clampPagination (pagination : Pagination) (config : DataConfig)
    : (clampPagination pagination config).offset = pagination.offset := by
  rw [clampPagination]
  split <;> rfl

theorem contentRange_fits {pagination : Pagination} {result : QueryResult}
    : (∀ range, contentRange pagination result = some range → range.overflowed = false)
      ↔ (result.totalCount.isSome = true
          → pagination.offset.toNat + (result.rowsReturned.toNat - 1) < 2 ^ 32) := by
  rw [contentRange]
  cases result.totalCount with
  | none => simp
  | some total =>
    simp only [Option.map_some, Option.some.injEq, forall_eq', Rust.Overflowing.overflowed_bind,
      Rust.Overflowing.overflowed_pure, Bool.or_false, Option.isSome_some, true_imp_iff]
    rw [Rust.addU32_fits, Rust.toNat_saturatingSub]
    rfl

section

variable (params : HashMap String) (m : Message) (config : DataConfig) (result : QueryResult)

/--
No operation overflows, and the page is the one that the request asks for.
-/
def PageExact : Prop :=
  ∀ offset limit, Asks params m config offset limit →
    ∃ page, parsePagination params m config = .ok page
      ∧ page.overflowed = false
      ∧ page.value.offset.toNat = offset
      ∧ page.value.limit.toNat = min limit config.maxLimit.toNat
      ∧ ∀ range, contentRange page.value result = some range → range.overflowed = false

variable {params m config}

theorem parsePagination_range {a b : UInt32} (h : Ranged m a b)
    : parsePagination params m config
        = .ok ((clampPagination · config) <$> rangePage a b) := by
  rw [parsePagination, parseRangeHeader_eq_some.mpr ⟨a, b, h, rfl⟩]
  rfl

theorem parsePagination_params {limit offset : UInt32} (hrange : m.header "range" = none)
    (hlimit : Given params "limit" config.defaultLimit limit)
    (hoffset : Given params "offset" 0 offset)
    : parsePagination params m config = .ok (pure (clampPagination ⟨limit, offset⟩ config)) := by
  rw [parsePagination, parseRangeHeader_eq_none.mpr hrange]
  show (parseParam params "limit" config.defaultLimit >>= _) = _
  rw [Rust.bind_eq_ok]
  refine ⟨limit, parseParam_eq_ok.mpr hlimit, ?_⟩
  rw [Rust.bind_eq_ok]
  exact ⟨offset, parseParam_eq_ok.mpr hoffset, rfl⟩

/--
The requests that are accepted.
-/
theorem parsePagination_isOk
    : (∃ page, parsePagination params m config = .ok page)
        ↔ ∃ offset limit, Asks params m config offset limit := by
  constructor
  . rintro ⟨page, h⟩
    rw [parsePagination] at h
    have ⟨range, hrange, h⟩ := Rust.bind_eq_ok.mp h
    cases range with
    | some range =>
      have ⟨a, b, hasks, _⟩ := parseRangeHeader_eq_some.mp hrange
      exact ⟨_, _, .range a b hasks⟩
    | none =>
      have ⟨limit, hlimit, h⟩ := Rust.bind_eq_ok.mp h
      have ⟨offset, hoffset, _⟩ := Rust.bind_eq_ok.mp h
      exact ⟨_, _, .params limit offset (parseRangeHeader_eq_none.mp hrange)
        (parseParam_eq_ok.mp hlimit) (parseParam_eq_ok.mp hoffset)⟩
  . rintro ⟨_, _, hasks⟩
    cases hasks with
    | range a b h => exact ⟨_, parsePagination_range h⟩
    | params limit offset hrange hlimit hoffset =>
      exact ⟨_, parsePagination_params hrange hlimit hoffset⟩

variable (params m config)

/--
The length of a range has to be a `u32`, and so has the last row.
-/
theorem pageExact_iff
    : PageExact params m config result ↔
        ∀ offset limit, Asks params m config offset limit →
          limit < 2 ^ 32
            ∧ (result.totalCount.isSome = true → offset + (result.rowsReturned.toNat - 1) < 2 ^ 32) := by
  constructor
  . intro h offset limit hasks
    have ⟨page, hpage, hover, hoffset, _, hrange⟩ := h offset limit hasks
    rw [← hoffset]
    refine ⟨?_, contentRange_fits.mp hrange⟩
    cases hasks with
    | range a b hranged =>
      rw [parsePagination_range hranged] at hpage
      cases hpage
      rw [Rust.Overflowing.overflowed_map] at hover
      exact (overflowed_rangePage hranged.le).mp hover
    | params limit => exact limit.toNat_lt
  . intro h offset limit hasks
    have ⟨hfits, hlast⟩ := h offset limit hasks
    cases hasks with
    | range a b hranged =>
      refine ⟨_, parsePagination_range hranged, ?_, ?_, ?_, ?_⟩
      . rw [Rust.Overflowing.overflowed_map]
        exact (overflowed_rangePage hranged.le).mpr hfits
      . rw [Rust.Overflowing.value_map, offset_clampPagination]
        rfl
      . rw [Rust.Overflowing.value_map, limit_clampPagination, limit_rangePage hranged.le hfits]
      . apply contentRange_fits.mpr
        rw [Rust.Overflowing.value_map, offset_clampPagination]
        exact hlast
    | params limit offset hrange hlimit hoffset =>
      refine ⟨_, parsePagination_params hrange hlimit hoffset, rfl, ?_, ?_, ?_⟩
      . rw [Rust.Overflowing.value_pure, offset_clampPagination]
      . rw [Rust.Overflowing.value_pure, limit_clampPagination]
      . apply contentRange_fits.mpr
        rw [Rust.Overflowing.value_pure, offset_clampPagination]
        exact hlast

end

/--
The range of all rows has one row too many.
-/
theorem not_pageExact : ¬ ∀ params m config result, PageExact params m config result := by
  intro h
  let m : Message := ⟨.get, "/data/v1/posts", none, [("range", "0-4294967295")], []⟩
  have hranged : Ranged m 0 4294967295 := by
    refine ⟨?_, ⟨"0-4294967295", ['0'], "4294967295".toList, rfl, ?_, Or.inl ?_, ?_, ?_⟩, by decide⟩
    . intro value hvalue
      cases hvalue
    . decide
    . decide
    . decide
    . decide
  have ⟨page, hpage, hover, _⟩ := h ∅ m ⟨1000, 100⟩ ⟨0, none⟩ _ _ (.range 0 4294967295 hranged)
  rw [parsePagination_range hranged] at hpage
  cases hpage
  revert hover
  decide

end Reactor.Data.Query
