import ReactorCloud.Data.Execute.Format

/-!
This module proves which filters are compared with the values that are written in them. The text of
a double is that of the database and a parameter.
-/

namespace Reactor.Data.Execute

open Query
open Dialect (trimChars)
open Rust (Float64 Uuid)

/--
An operator that compares with a value.
-/
structure OpWord where
  text : List Char
  op : FilterOp
  spells : FilterOp.parse text = some op
  compares : op ≠ .is ∧ op ≠ .fts

def filterText (negated : Bool) (word : OpWord) (s : List Char) : List Char :=
  (if negated then "not.".toList else []) ++ (word.text ++ '.' :: s)

section

variable (shown : Float64 → List Char)

/--
The value, written out, is the text. A null stands for the text that is null.
-/
def Denotes : SqlValue → List Char → Prop
  | .null, s => eqIgnoreAsciiCase s "null" = true
  | .bool b, s => s = (if b then "true" else "false").toList
  | .int i, s => s = (toString i.toInt).toList
  | .float x, s => s = shown x
  | .text t, s => s = t.toList
  | .uuid id, s => s = (Uuid.hyphenated id).toList
  | .json _, _ => False

def takesList : FilterOp → Bool
  | .in => true
  | .cs => true
  | .cd => true
  | .ov => true
  | _ => false

/--
The values that a filter is written to compare with.
-/
def written (op : FilterOp) (s : List Char) : List (List Char) :=
  if takesList op then listItems (trimChars s) else [s]

/--
The parameters are the written values, a null is written as such.
-/
def Carries (op : FilterOp) (s : List Char) (params : List SqlValue) : Prop :=
  List.Forall₂ (Denotes shown) params (written op s)
    ∧ (.null ∈ params → op = .in ∨ eqIgnoreAsciiCase s "null" = true)

def AsWritten (column : String) (negated : Bool) (word : OpWord) (s : List Char) : Prop :=
  ∀ filter, parseFilter column (filterText negated word s) = .ok filter
    → ∀ pre paramOffset sql params, buildFilterExprWith pre filter paramOffset = .ok (sql, params)
    → Carries shown word.op s params

/--
Not another spelling of a boolean, a number or a UUID.
-/
def Canonical (s : List Char) : Prop :=
  if eqIgnoreAsciiCase s "null" then
    True
  else if eqIgnoreAsciiCase s "true" then
    s = "true".toList
  else if eqIgnoreAsciiCase s "false" then
    s = "false".toList
  else
    match Rust.parseI64 s, Float64.parse s, Uuid.parseStr (String.ofList s) with
    | some i, _, _ => s = (toString i.toInt).toList
    | none, some x, _ => s = shown x
    | none, none, some id => s = (Uuid.hyphenated id).toList
    | none, none, none => True

/--
A list of canonical items for `IN`, and a canonical value for the operators without a list.
-/
def WrittenPlainly (op : FilterOp) (s : List Char) : Prop :=
  if takesList op then
    isWrapped (trimChars s) = true →
      op = .in ∧ ∀ item ∈ listItems (trimChars s), Canonical shown item
  else
    Canonical shown s

theorem denotes_parse_iff (s : List Char)
    : Denotes shown (filterValueToSql (FilterValue.parse s)) s ↔ Canonical shown s := by
  unfold FilterValue.parse Canonical
  by_cases hnull : eqIgnoreAsciiCase s "null" = true
  . simp [hnull, filterValueToSql, Denotes]
  . by_cases htrue : eqIgnoreAsciiCase s "true" = true
    . simp [hnull, htrue, filterValueToSql, Denotes]
    . by_cases hfalse : eqIgnoreAsciiCase s "false" = true
      . simp [hnull, htrue, hfalse, filterValueToSql, Denotes]
      . simp only [hnull, htrue, hfalse, Bool.false_eq_true, if_false]
        cases Rust.parseI64 s with
        | some i => rfl
        | none =>
          cases Float64.parse s with
          | some x => rfl
          | none =>
            simp only [filterValueToSql, textToSql]
            cases Uuid.parseStr (String.ofList s) with
            | some id => rfl
            | none => simp [Denotes]

/-! Reading a filter -/

def opNames : List String :=
  ["eq", "neq", "gt", "gte", "lt", "lte", "like", "ilike", "in", "is", "cs", "cd", "ov", "fts"]

theorem mem_opNames {word : List Char} {op : FilterOp} (h : FilterOp.parse word = some op)
    : String.ofList (word.map Dialect.lowerChar) ∈ opNames := by
  unfold FilterOp.parse at h
  generalize String.ofList (word.map Dialect.lowerChar) = name at h ⊢
  split at h
  case h_15 => cases h
  all_goals decide

namespace OpWord

variable (word : OpWord)

theorem no_dot : '.' ∉ word.text := by
  intro hdot
  have hnames : ∀ name ∈ opNames, '.' ∉ name.toList := by decide
  apply hnames _ (mem_opNames word.spells)
  rw [String.toList_ofList]
  exact List.mem_map.mpr ⟨'.', hdot, rfl⟩

theorem ne_not : word.text ≠ "not".toList := by
  intro hnot
  have hmem := mem_opNames word.spells
  rw [hnot] at hmem
  revert hmem
  decide

end OpWord

theorem stripNot_filterText (negated : Bool) (word : OpWord) (s : List Char)
    : stripNot (filterText negated word s) = (negated, word.text ++ '.' :: s) := by
  cases negated with
  | true => rfl
  | false =>
    have hfront : "not.".toList.isPrefixOf (word.text ++ '.' :: s) = false := by
      rw [← Bool.not_eq_true, List.isPrefixOf_iff_prefix]
      rintro ⟨t, ht⟩
      -- the first point is that after the operator
      have hsplit := congrArg (List.takeWhile (· ≠ '.')) ht
      have hword : ∀ c ∈ word.text, decide (c ≠ '.') = true := by
        intro c hc
        rw [decide_eq_true_eq]
        rintro rfl
        exact word.no_dot hc
      rw [Rust.Str.takeWhile_append hword (by simp)] at hsplit
      exact word.ne_not hsplit.symm
    simp only [stripNot, filterText, Bool.false_eq_true, if_false, List.nil_append, hfront]

theorem parseFilter_filterText (column : String) (negated : Bool) (word : OpWord) (s : List Char)
    : parseFilter column (filterText negated word s)
        =
      (word.op.parseValue s).map (fun value => ⟨column, word.op, value, negated⟩) := by
  have hword : ∀ c ∈ word.text, decide (c ≠ '.') = true := by
    intro c hc
    rw [decide_eq_true_eq]
    rintro rfl
    exact word.no_dot hc
  have hpoint : ∀ c ∈ ('.' :: s).head?, decide (c ≠ '.') = false := by simp
  unfold parseFilter
  simp only [stripNot_filterText, Rust.Str.dropWhile_append hword hpoint,
    Rust.Str.takeWhile_append hword hpoint, word.spells]
  cases word.op.parseValue s <;> rfl

/-! The parameters of a filter -/

/--
All operators but `IN` and `IS` bind one value.
-/
theorem buildFilterExprWith_single {filter : FilterExpr} (hin : filter.op ≠ .in) (his : filter.op ≠ .is)
    (pre : String) (paramOffset : Nat)
    : ∃ sql, buildFilterExprWith pre filter paramOffset
        = .ok (sql, [filterValueToSql filter.value]) := by
  have ⟨column, op, value, negated⟩ := filter
  cases op
  case «in» => contradiction
  case is => contradiction
  all_goals exact ⟨_, rfl⟩

theorem buildFilterExprWith_in {filter : FilterExpr} {items : List FilterValue} (hin : filter.op = .in)
    (hvalue : filter.value = .list items) (pre : String) (paramOffset : Nat)
    : ∃ sql, buildFilterExprWith pre filter paramOffset = .ok (sql, items.map filterValueToSql) := by
  unfold buildFilterExprWith
  simp only [hin, hvalue]
  exact ⟨_, rfl⟩

/--
A filter that is accepted binds the same values wherever it stands.
-/
theorem asWritten_iff_carries {column : String} {negated : Bool} {word : OpWord} {s : List Char}
    {value : FilterValue} {params : List SqlValue} (hparse : word.op.parseValue s = .ok value)
    (hbuild : ∀ pre paramOffset, ∃ sql,
      buildFilterExprWith pre ⟨column, word.op, value, negated⟩ paramOffset = .ok (sql, params))
    : AsWritten shown column negated word s ↔ Carries shown word.op s params := by
  unfold AsWritten
  rw [parseFilter_filterText, hparse]
  constructor
  . intro h
    have ⟨sql, hsql⟩ := hbuild "" 0
    exact h _ rfl _ _ _ _ hsql
  . intro h filter hfilter pre paramOffset sql params' hparams
    cases hfilter
    have ⟨sql', hsql⟩ := hbuild pre paramOffset
    rw [hsql] at hparams
    cases hparams
    exact h

theorem parseValue_single {op : FilterOp} (hlist : takesList op = false) (his : op ≠ .is) (s : List Char)
    : op.parseValue s = .ok (FilterValue.parse s) := by
  cases op <;> first | rfl | contradiction

theorem parseValue_list {op : FilterOp} (hlist : takesList op = true) (s : List Char)
    : op.parseValue s = FilterValue.parseList s := by
  cases op <;> first | rfl | contradiction

theorem denotes_null {s : List Char} (h : Denotes shown .null s)
    : eqIgnoreAsciiCase s "null" = true :=
  h

theorem carries_single_iff {op : FilterOp} (hlist : takesList op = false) (s : List Char) (value : SqlValue)
    : Carries shown op s [value] ↔ Denotes shown value s := by
  have hwritten : written op s = [s] := by
    unfold written
    rw [hlist]
    rfl
  unfold Carries
  rw [hwritten]
  simp only [List.forall₂_cons, List.Forall₂.nil, and_true, List.mem_singleton]
  constructor
  . exact And.left
  . intro h
    refine ⟨h, fun hnull => .inr ?_⟩
    subst hnull
    exact denotes_null shown h

theorem carries_in_iff (s : List Char)
    : Carries shown .in s ((listItems (trimChars s)).map (filterValueToSql ∘ FilterValue.parse))
        ↔ ∀ item ∈ listItems (trimChars s), Canonical shown item := by
  have hwritten : written .in s = listItems (trimChars s) := rfl
  unfold Carries
  rw [hwritten]
  simp only [true_or, implies_true, and_true, List.forall₂_map_left_iff, Function.comp_apply]
  generalize listItems (trimChars s) = items
  rw [List.forall₂_same]
  simp only [denotes_parse_iff]

theorem trimChars_sublist (s : List Char) : (trimChars s).Sublist s := by
  have hend : (Rust.Str.trimEnd (Rust.Str.trimStart s)).Sublist (Rust.Str.trimStart s) := by
    have := (List.dropWhile_sublist Rust.Str.isWhitespace (l := (Rust.Str.trimStart s).reverse)).reverse
    rwa [List.reverse_reverse] at this
  exact hend.trans (List.dropWhile_sublist _)

/--
A null that the operator compares with is not the list.
-/
theorem not_carries_null {op : FilterOp} (hin : op ≠ .in) {s : List Char}
    (hwrapped : isWrapped (trimChars s) = true) : ¬ Carries shown op s [.null] := by
  intro h
  cases h.2 (List.mem_singleton.mpr rfl) with
  | inl heq => exact hin heq
  | inr hnull =>
    have hopen : '(' ∈ s := by
      rw [isWrapped, Bool.and_eq_true, decide_eq_true_eq] at hwrapped
      apply (trimChars_sublist s).mem
      exact List.mem_of_mem_head? hwrapped.1
    rw [eqIgnoreAsciiCase, decide_eq_true_eq] at hnull
    have hlower : '(' ∈ "null".toList := hnull ▸ List.mem_map.mpr ⟨'(', hopen, rfl⟩
    revert hlower
    decide

/--
A filter compares with the values that are written in it, exactly if these are canonical and a list
is for `IN`.
-/
theorem asWritten_iff (column : String) (negated : Bool) (word : OpWord) (s : List Char)
    : AsWritten shown column negated word s ↔ WrittenPlainly shown word.op s := by
  unfold WrittenPlainly
  cases hlist : takesList word.op with
  | false =>
    have hin : word.op ≠ .in := by
      intro hin
      rw [hin] at hlist
      cases hlist
    have hbuild := @buildFilterExprWith_single ⟨column, word.op, FilterValue.parse s, negated⟩ hin
      word.compares.1
    rw [asWritten_iff_carries shown (parseValue_single hlist word.compares.1 s) hbuild,
      carries_single_iff shown hlist, denotes_parse_iff]
    rfl
  | true =>
    rw [if_pos rfl]
    cases hwrapped : isWrapped (trimChars s) with
    | false =>
      simp only [Bool.false_eq_true, false_implies, iff_true]
      intro filter hfilter
      rw [parseFilter_filterText, parseValue_list hlist, FilterValue.parseList, hwrapped] at hfilter
      cases hfilter
    | true =>
      have hparse : word.op.parseValue s = .ok (.list ((listItems (trimChars s)).map FilterValue.parse)) := by
        rw [parseValue_list hlist, FilterValue.parseList, hwrapped]
        rfl
      by_cases hin : word.op = .in
      . have hbuild := @buildFilterExprWith_in
          ⟨column, word.op, .list ((listItems (trimChars s)).map FilterValue.parse), negated⟩ _ hin rfl
        rw [asWritten_iff_carries shown hparse hbuild, hin, List.map_map, carries_in_iff]
        simp
      . have hbuild := @buildFilterExprWith_single
          ⟨column, word.op, .list ((listItems (trimChars s)).map FilterValue.parse), negated⟩ hin
          word.compares.1
        rw [asWritten_iff_carries shown hparse hbuild]
        simp only [true_implies, hin, false_and, iff_false]
        exact not_carries_null shown hin hwrapped

-- The number is bound without its zeros.
theorem not_asWritten
    : ¬ ∃ shown : Float64 → List Char,
        ∀ (column : String) (negated : Bool) (word : OpWord) (s : List Char),
          AsWritten shown column negated word s := by
  intro ⟨shown, h⟩
  have hfilter := h "code" false ⟨"eq".toList, .eq, by decide, by decide⟩ "007".toList
    ⟨"code", .eq, .int 7, false⟩ rfl "" 0 _ _ rfl
  cases hfilter.1 with
  | cons hdenotes =>
    have hseven : "007".toList = (toString (7 : Int64).toInt).toList := hdenotes
    revert hseven
    decide

end

end Reactor.Data.Execute
