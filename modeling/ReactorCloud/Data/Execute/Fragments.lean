import ReactorCloud.Data.Execute.Format
import ReactorCloud.Sql.Placeholders

/-!
This module contains the tokens of the parts of a statement when no name or fragment breaks out of its
place in the text. The builder does not double the quotes in a name.
-/

namespace Reactor.Data.Execute

open Query
open Policy (PolicyDecision)
open Rust (Json)
open Rust.Str (joinWith)
open Sql (Token Lexes LexesOpen Fills FillsOpen Breaking paired bindings numbered still stillOpen stillWord
  paramTokens)

/--
The columns of a filter with the values that are bound for them.
-/
def filterItems (filter : FilterExpr) : List (String × SqlValue) :=
  match filter.op, filter.value with
  | .is, _ => []
  | .in, .list items => items.map (fun item => (filter.column, filterValueToSql item))
  | .in, _ => []
  | _, value => [(filter.column, filterValueToSql value)]

def planItems (plan : QueryPlan) : List (String × SqlValue) :=
  plan.filters.flatMap filterItems

def setItems (updates : List (String × Json)) : List (String × SqlValue) :=
  updates.map (fun (col, val) => (col, jsonToSqlValue (some val)))

/-! Names and fragments that stay in their place -/

def Quotable (name : String) : Prop :=
  paired '"' name.toList = true

instance (name : String) : Decidable (Quotable name) :=
  inferInstanceAs (Decidable (_ = _))

/--
A prefix without placeholders.
-/
def Prefix (pre : String) : Prop :=
  ∃ toks, LexesOpen pre toks ∧ toks.all (!·.isParam) = true

theorem prefix_empty : Prefix "" :=
  ⟨[], rfl, rfl⟩

theorem prefix_alias {aliasName : String} (h : Quotable aliasName) : Prefix (aliasPrefix aliasName) :=
  ⟨_, Sql.lexesOpen_ident_dot h, rfl⟩

theorem Prefix.fillsOpen {pre : String} (h : Prefix pre) : FillsOpen pre [] := by
  have ⟨toks, hlexes, hparam⟩ := h
  exact ⟨toks, hlexes, Sql.bindings_of_no_param hparam⟩

theorem fills_quoted {name : String} (h : Quotable name) : Fills (quoted name) [] :=
  Sql.fills_ident h

theorem fills_prefix_quoted {pre name : String} (hpre : Prefix pre) (h : Quotable name)
    : Fills (pre ++ quoted name) [] :=
  hpre.fillsOpen.append (fills_quoted h)

section

variable {pre name : String} (hpre : Prefix pre) (hname : Quotable name)
include hpre hname

/--
The placeholders after a column are for it.
-/
theorem fills_column {t : String} {toks : List Token} (hbreak : Breaking t) (ht : Lexes t toks)
    : Fills (pre ++ quoted name ++ t) (bindings name toks) := by
  have ⟨preToks, hlexes, hparam⟩ := hpre
  have hcolumn := hlexes.append (Sql.lexes_ident hname)
  refine ⟨preToks ++ [Token.ident name] ++ toks, hcolumn.append hbreak ht, ?_⟩
  intro last
  rw [List.append_assoc, Sql.bindings_append, Sql.bindings_of_no_param hparam]
  rfl

theorem fills_isExpr (negated : Bool) {value : String} (hvalue : stillWord value = true)
    : Fills (isExpr (pre ++ quoted name) negated value) [] := by
  have hop : stillOpen (if negated then " IS NOT " else " IS ") = true
      ∧ Breaking (if negated then " IS NOT " else " IS ") := by
    cases negated <;> decide
  unfold isExpr
  rw [String.append_assoc]
  exact (fills_prefix_quoted hpre hname).append (hop.2.append value)
    ((Sql.fillsOpen_of_still hop.1).append (Sql.fills_of_still hvalue))

theorem fills_comparison (op : FilterOp) (paramOffset : Nat)
    : Fills (pre ++ quoted name ++ " " ++ op.toSql ++ " " ++ placeholder (paramOffset + 1))
        (numbered paramOffset [name]) := by
  have hop : stillOpen (" " ++ op.toSql ++ " ") = true := by
    cases op <;> decide
  have ⟨toks, hlexes, hstill⟩ := Sql.stillOpen_spec hop
  have hbreak : Breaking (" " ++ op.toSql ++ " " ++ placeholder (paramOffset + 1)) := by
    apply Breaking.append
    apply Breaking.append
    apply Breaking.append
    decide
  have hfills := fills_column hpre hname hbreak (hlexes.append (Sql.lexes_param (paramOffset + 1)))
  rw [Sql.bindings_append, (Sql.bindings_still hstill name).1, (Sql.bindings_still hstill name).2] at hfills
  simp only [String.append_assoc] at hfills ⊢
  exact hfills

theorem fills_in (negated : Bool) (n paramOffset : Nat)
    : Fills (pre ++ quoted name ++ (if negated then " NOT IN (" else " IN (")
        ++ joinWith ", " ((List.range n).map (fun i => placeholder (paramOffset + (i + 1)))) ++ ")")
        (numbered paramOffset (List.replicate n name)) := by
  have hop : stillOpen (if negated then " NOT IN (" else " IN (") = true
      ∧ Breaking (if negated then " NOT IN (" else " IN (") := by
    cases negated <;> decide
  have ⟨toks, hlexes, hstill⟩ := Sql.stillOpen_spec hop.1
  have hcomma : LexesOpen ", " [.punct ','] := rfl
  have hclose : LexesOpen ")" [.punct ')'] := rfl
  have hlist := Sql.lexes_joinWith hcomma (by decide) (Sql.forall₂_paramTokens n paramOffset)
  have htail := hlexes.append (hlist.append_open (by decide) hclose).lexes
  have hfills := fills_column hpre hname (hop.2.append _) htail
  have hparams := Sql.bindings_paramTokens n paramOffset name
  rw [Sql.bindings_append, (Sql.bindings_still hstill name).1, (Sql.bindings_still hstill name).2,
    Sql.bindings_append, hparams.1, hparams.2] at hfills
  simp only [bindings, List.nil_append, List.append_nil] at hfills
  simp only [String.append_assoc] at hfills ⊢
  exact hfills

end

/-! Filters -/

theorem buildFilterExprWith_spec {pre : String} (hpre : Prefix pre) {filter : FilterExpr}
    (hname : Quotable filter.column) {paramOffset : Nat} {sql : String} {params : List SqlValue}
    (h : buildFilterExprWith pre filter paramOffset = .ok (sql, params))
    : Fills sql (numbered paramOffset ((filterItems filter).map Prod.fst))
        ∧ params = (filterItems filter).map Prod.snd := by
  have ⟨column, op, value, negated⟩ := filter
  have hsingle {expr : String} (hexpr : Fills expr (numbered paramOffset [column]))
      : Fills (if negated then "NOT (" ++ expr ++ ")" else expr) (numbered paramOffset [column]) := by
    cases negated with
    | false => exact hexpr
    | true =>
      have hopen := (Sql.fillsOpen_of_still (s := "NOT (") (by decide)).append hexpr
      have hclose := hopen.append_open (by decide) (Sql.fillsOpen_of_still (s := ")") (by decide))
      simpa using hclose.fills
  cases op
  case is =>
    unfold buildFilterExprWith at h
    simp only at h
    split at h
    case h_4 => cases h
    all_goals
      cases h
      exact ⟨fills_isExpr hpre hname negated (by decide), rfl⟩
  case «in» =>
    unfold buildFilterExprWith at h
    simp only at h
    split at h
    case h_2 => cases h
    case h_1 items =>
      cases h
      have hitems : (filterItems ⟨column, .in, .list items, negated⟩).map Prod.fst
          = List.replicate items.length column := by
        simp [filterItems, Function.comp_def]
      rw [hitems]
      refine ⟨fills_in hpre hname negated items.length paramOffset, ?_⟩
      simp [filterItems, Function.comp_def]
  all_goals
    cases h
    exact ⟨hsingle (fills_comparison hpre hname _ paramOffset), rfl⟩

theorem whereParts_spec {pre : String} (hpre : Prefix pre) {filters : List FilterExpr}
    (hnames : ∀ filter ∈ filters, Quotable filter.column) {paramOffset : Nat} {parts : List String}
    {params : List SqlValue} (h : whereParts pre filters paramOffset = .ok (parts, params))
    : ∃ itemss, List.Forall₂ Fills parts itemss
        ∧ itemss.flatten = numbered paramOffset ((filters.flatMap filterItems).map Prod.fst)
        ∧ params = (filters.flatMap filterItems).map Prod.snd := by
  induction filters generalizing paramOffset parts params with
  | nil =>
    cases h
    exact ⟨[], .nil, rfl, rfl⟩
  | cons filter filters ih =>
    rw [List.forall_mem_cons] at hnames
    unfold whereParts at h
    cases hfilter : buildFilterExprWith pre filter paramOffset with
    | error e =>
      rw [hfilter] at h
      cases h
    | ok result =>
      have ⟨expr, filterParams⟩ := result
      rw [hfilter] at h
      have ⟨hexpr, hparams⟩ := buildFilterExprWith_spec hpre hnames.1 hfilter
      simp only [bind, Except.bind] at h
      cases hrest : whereParts pre filters (paramOffset + filterParams.length) with
      | error e =>
        rw [hrest] at h
        cases h
      | ok result =>
        have ⟨rest, restParams⟩ := result
        rw [hrest] at h
        cases h
        have ⟨itemss, hparts, hitems, hrestParams⟩ := ih hnames.2 hrest
        refine ⟨_ :: itemss, .cons hexpr hparts, ?_, ?_⟩
        . have hlength : filterParams.length = ((filterItems filter).map Prod.fst).length := by
            rw [hparams, List.length_map, List.length_map]
          rw [List.flatten_cons, hitems, List.flatMap_cons, List.map_append, Sql.numbered_append, hlength]
        . rw [hparams, hrestParams, List.flatMap_cons, List.map_append]

/-! Clauses -/

/--
A fragment of SQL that is a text of its own without placeholders.
-/
def Fragment (sql : String) : Prop :=
  Fills sql []

theorem fills_parens {sql : String} (h : Fragment sql) : Fills ("(" ++ sql ++ ")") [] := by
  have hopen := (Sql.fillsOpen_of_still (s := "(") (by decide)).append h
  exact (hopen.append_open (by decide) (Sql.fillsOpen_of_still (s := ")") (by decide))).fills

/--
A clause that starts with a keyword.
-/
theorem clause_keyword (keyword : String) {sql : String} {items : List (String × String)}
    (hkeyword : stillOpen keyword = true) (hbreak : Breaking keyword) (h : Fills sql items)
    : Sql.Clause (keyword ++ sql) items :=
  ⟨(Sql.fillsOpen_of_still hkeyword).append h, .inr (hbreak.append sql)⟩

structure QueryPlan.WhereTame (plan : QueryPlan) : Prop where
  filters : ∀ filter ∈ plan.filters, Quotable filter.column
  policy : ∀ policy ∈ plan.policyPredicate, Fragment policy

theorem whereClause_spec {pre : String} (hpre : Prefix pre) {plan : QueryPlan} (htame : plan.WhereTame)
    {paramOffset : Nat} {sql : String} {params : List SqlValue}
    (h : whereClause pre plan paramOffset = .ok (sql, params))
    : Sql.Clause sql (numbered paramOffset ((planItems plan).map Prod.fst))
        ∧ params = (planItems plan).map Prod.snd := by
  have hpolicy : ∀ part ∈ plan.policyPredicate.toList.map (fun policy => "(" ++ policy ++ ")"),
      Fills part [] := by
    intro part hpart
    have ⟨policy, hmem, heq⟩ := List.mem_map.mp hpart
    subst heq
    exact fills_parens (htame.policy policy (by simpa using hmem))
  have hwhere {parts : List String} {itemss : List (List (String × String))}
      (hparts : List.Forall₂ Fills parts itemss)
      : Sql.Clause (" WHERE " ++ joinWith " AND " parts) itemss.flatten :=
    clause_keyword _ (by decide) (by decide) (Sql.fills_joinWith (by decide) (by decide) hparts)
  have hparts : List.Forall₂ Fills (plan.policyPredicate.toList.map (fun policy => "(" ++ policy ++ ")"))
      ((plan.policyPredicate.toList.map (fun policy => "(" ++ policy ++ ")")).map (fun _ => [])) := by
    rw [List.forall₂_map_right_iff, List.forall₂_same]
    exact hpolicy
  have hflat : ((plan.policyPredicate.toList.map (fun policy => "(" ++ policy ++ ")")).map
      (fun _ => ([] : List (String × String)))).flatten = [] := by
    simp
  unfold whereClause at h
  unfold planItems
  generalize plan.policyPredicate.toList.map (fun policy => "(" ++ policy ++ ")") = policy at h hparts hflat
  have hfilters := htame.filters
  generalize plan.filters = filters at h hfilters
  cases filters with
  | nil =>
    cases policy with
    | nil =>
      cases h
      exact ⟨Sql.clause_empty, rfl⟩
    | cons part policy =>
      cases h
      have hclause := hwhere hparts
      rw [hflat] at hclause
      exact ⟨hclause, rfl⟩
  | cons filter filters =>
    simp only [buildWhereWith, bind, Except.bind] at h
    cases hbuild : whereParts pre (filter :: filters) paramOffset with
    | error e =>
      rw [hbuild] at h
      cases h
    | ok result =>
      have ⟨parts, filterParams⟩ := result
      rw [hbuild] at h
      cases h
      have ⟨itemss, hforall, hitems, hparams⟩ := whereParts_spec hpre hfilters hbuild
      refine ⟨?_, hparams⟩
      have hclause : Fills (joinWith " AND " parts) itemss.flatten :=
        Sql.fills_joinWith (by decide) (by decide) hforall
      have := hwhere (.cons hclause hparts)
      rw [List.flatten_cons, hflat, List.append_nil, hitems] at this
      exact this

theorem fills_orderPart {pre : String} (hpre : Prefix pre) {o : OrderColumn} (hname : Quotable o.column)
    : Fills (orderPart pre o) [] := by
  have hdirection : stillWord (" " ++ o.direction.asSql) = true := by
    cases o.direction <;> decide
  have hpart : Fills (pre ++ quoted o.column ++ " " ++ o.direction.asSql) [] := by
    have hbreak : Breaking (" " ++ o.direction.asSql) := by
      apply Breaking.append
      decide
    have := (fills_prefix_quoted hpre hname).append hbreak (Sql.fills_of_still hdirection)
    simp only [String.append_assoc] at this ⊢
    exact this
  unfold orderPart
  cases o.nulls with
  | none => exact hpart
  | some nulls =>
    have hnulls : stillWord (" " ++ nulls.asSql) = true := by
      cases nulls <;> decide
    have hbreak : Breaking (" " ++ nulls.asSql) := by
      apply Breaking.append
      decide
    have := hpart.append hbreak (Sql.fills_of_still hnulls)
    simp only [String.append_assoc] at this ⊢
    exact this

theorem clause_orderClause {pre : String} (hpre : Prefix pre) {order : List OrderColumn}
    (hnames : ∀ o ∈ order, Quotable o.column) : Sql.Clause (orderClause pre order) [] := by
  unfold orderClause
  split
  . exact Sql.clause_empty
  . apply clause_keyword _ (by decide) (by decide)
    apply Sql.fills_joinWith_nil (by decide) (by decide)
    intro part hpart
    have ⟨o, hmem, heq⟩ := List.mem_map.mp hpart
    subst heq
    exact fills_orderPart hpre (hnames o hmem)

theorem fills_nat (n : Nat) : Fills (Nat.repr n) [] :=
  ⟨_, Sql.lexes_nat n, fun _ => rfl⟩

theorem clause_limitClause (pagination : Pagination) : Sql.Clause (limitClause pagination) [] := by
  have hlimit : Sql.Clause (" LIMIT " ++ Nat.repr pagination.limit.toNat) [] :=
    clause_keyword _ (by decide) (by decide) (fills_nat _)
  have hoffset : Sql.Clause
      (if 0 < pagination.offset then " OFFSET " ++ Nat.repr pagination.offset.toNat else "") [] := by
    split
    . exact clause_keyword _ (by decide) (by decide) (fills_nat _)
    . exact Sql.clause_empty
  exact hlimit.append hoffset

/-! Selected columns -/

def SelectColumn.Tame : SelectColumn → Prop
  | .column name => Quotable name
  | .aliased aliasName source => Quotable aliasName ∧ Quotable source
  | _ => True

/--
The names that are put into the text, none for `*`.
-/
def SelectTame (columns : List SelectColumn) : Prop :=
  columns.any SelectColumn.isAll = false → ∀ c ∈ columns, c.Tame

theorem fills_buildSelectColumnsWith {pre : String} (hpre : Prefix pre) {columns : List SelectColumn}
    (htame : SelectTame columns) : Fills (buildSelectColumnsWith pre columns) [] := by
  have hstar : Fills (pre ++ "*") [] := hpre.fillsOpen.append (Sql.fills_of_still (by decide))
  unfold buildSelectColumnsWith
  simp only
  split
  . exact hstar
  . next hcolumns =>
    rw [Bool.or_eq_true, not_or, Bool.not_eq_true] at hcolumns
    apply Sql.fills_joinWith_nil (by decide) (by decide)
    intro part hpart
    have ⟨c, hmem, heq⟩ := List.mem_map.mp hpart
    rw [List.mem_filter] at hmem
    have hc := htame hcolumns.1 c hmem.1
    subst heq
    cases c with
    | all => exact hstar
    | column name => exact fills_prefix_quoted hpre hc
    | aliased aliasName column =>
      have has := (Sql.fillsOpen_of_still (s := " AS ") (by decide)).append (fills_quoted hc.1)
      have hbreak : Breaking (" AS " ++ quoted aliasName) := by
        apply Breaking.append
        decide
      have := (fills_prefix_quoted hpre hc.2).append hbreak has
      simpa [selectColumnText, String.append_assoc] using this
    | embed spec => exact Sql.fills_empty

theorem clause_returningClause {prefer : Prefer} {plan : QueryPlan}
    (htame : prefer.returnMode = .representation → SelectTame plan.select)
    : Sql.Clause (returningClause prefer plan) [] := by
  unfold returningClause
  split
  . next hmode =>
    exact clause_keyword _ (by decide) (by decide) (fills_buildSelectColumnsWith prefix_empty (htame hmode))
  . exact Sql.clause_empty

/-! Embedded resources -/

def EmbedColumnTame : SelectColumn → Prop
  | .column name => paired '\'' name.toList = true ∧ Quotable name
  | .aliased aliasName source => paired '\'' aliasName.toList = true ∧ Quotable source
  | _ => True

namespace ResolvedEmbed

/--
The names in the subquery.
-/
structure SourceTame (embed : ResolvedEmbed) : Prop where
  schema : Quotable embed.refTable.schema
  name : Quotable embed.refTable.name
  fkCol : ∀ c ∈ embed.fk.columns.head?, Quotable c
  refCol : ∀ c ∈ embed.fk.refColumns.head?, Quotable c
  columns : ∀ c ∈ embed.spec.columns, EmbedColumnTame c

structure Tame (decide : String → Except DataError PolicyDecision) (embed : ResolvedEmbed) : Prop where
  sqlAlias : Quotable embed.sqlAlias
  outputName : Quotable (embed.spec.aliasName.getD embed.spec.name)
  -- the reason stands in a comment
  denied : ∀ reason, decide embed.refTable.name = .ok (.alwaysDeny reason)
    → LexesOpen (" /* policy denied: " ++ reason ++ " */") []
  source : (∀ reason, decide embed.refTable.name ≠ .ok (.alwaysDeny reason)) → embed.SourceTame
  fragment : ∀ sql, decide embed.refTable.name = .ok (.conditional sql) → Fragment sql

end ResolvedEmbed

theorem clause_still (sql : String) (hstill : stillWord sql = true) (hbreak : Breaking sql)
    : Sql.Clause sql [] :=
  ⟨Sql.fills_of_still hstill, .inr hbreak⟩

theorem fillsOpen_quoted_dot {name : String} (h : Quotable name) : FillsOpen (quoted name ++ ".") [] :=
  (prefix_alias h).fillsOpen

theorem clause_embedColumn {embed : ResolvedEmbed} (hname : Quotable embed.sqlAlias)
    (hout : Quotable (embed.spec.aliasName.getD embed.spec.name)) : Sql.Clause (embedColumn embed) [] := by
  have hdata := (Sql.fillsOpen_of_still (s := "data AS ") (by decide)).append (fills_quoted hout)
  have hclause := clause_keyword ", " (by decide) (by decide)
    ((fillsOpen_quoted_dot hname).append hdata)
  have hsplit : ".data AS " = "." ++ "data AS " := rfl
  unfold embedColumn
  rw [hsplit]
  simp only [String.append_assoc] at hclause ⊢
  exact hclause

theorem fills_embedColumnJson {c : SelectColumn} {part : String} (htame : EmbedColumnTame c)
    (h : embedColumnJson c = some part) : Fills part [] := by
  have hpart {key col : String} (hkey : paired '\'' key.toList = true) (hcol : Quotable col)
      : Fills ("'" ++ key ++ "', " ++ quoted col) [] := by
    have hstr : Fills ("'" ++ key ++ "'") [] := ⟨[.str key], Sql.lexes_str hkey, fun _ => rfl⟩
    have hclause := hstr.append_clause
      (clause_keyword ", " (by decide) (by decide) (fills_quoted hcol))
    have hsplit : "', " = "'" ++ ", " := rfl
    rw [hsplit]
    simp only [String.append_assoc] at hclause ⊢
    exact hclause
  cases c with
  | all => cases h
  | column name =>
    cases h
    exact hpart htame.1 htame.2
  | aliased aliasName source =>
    cases h
    exact hpart htame.1 htame.2
  | embed spec => cases h

theorem fills_buildEmbedColumnsJson {columns : List SelectColumn}
    (htame : ∀ c ∈ columns, EmbedColumnTame c) : Fills (buildEmbedColumnsJson columns) [] := by
  have hparts : ∀ part ∈ columns.filterMap embedColumnJson, Fills part [] := by
    intro part hpart
    have ⟨c, hmem, heq⟩ := List.mem_filterMap.mp hpart
    exact fills_embedColumnJson (htame c hmem) heq
  unfold buildEmbedColumnsJson
  split
  . exact Sql.fills_of_still (by decide)
  . exact Sql.fills_joinWith_nil (by decide) (by decide) hparts

theorem fills_joinCondition {embed : ResolvedEmbed} (htame : embed.SourceTame) {sql : String}
    (h : joinCondition embed "base" = .ok sql) : Fills sql [] := by
  have htable := (fillsOpen_quoted_dot htame.schema).append_open (fillsOpen_quoted_dot htame.name)
  have hbase : Quotable "base" := by decide
  have hparent := (Sql.fillsOpen_of_still (s := " = ") (by decide)).append_open
    (fillsOpen_quoted_dot hbase)
  have hjoin {left right : String} (hleft : Quotable left) (hright : Quotable right)
      : Fills (quoted embed.refTable.schema ++ "." ++ quoted embed.refTable.name ++ "." ++ quoted left
          ++ (" = " ++ quoted "base" ++ ".") ++ quoted right) [] := by
    have hcondition := (htable.append (fills_quoted hleft)).append
      (Breaking.append (by decide) _) (hparent.append (fills_quoted hright))
    simp only [String.append_assoc] at hcondition ⊢
    exact hcondition
  have hfk := htame.fkCol
  have href := htame.refCol
  unfold joinCondition at h
  generalize embed.fk.columns = columns at h hfk
  generalize embed.fk.refColumns = refColumns at h href
  cases columns with
  | nil => cases h
  | cons fkCol columns =>
    cases refColumns with
    | nil => cases h
    | cons refCol refColumns =>
      simp only at h
      split at h
      . cases h
        exact hjoin (href refCol rfl) (hfk fkCol rfl)
      . cases h
        exact hjoin (hfk fkCol rfl) (href refCol rfl)

theorem clause_embedClosing {embed : ResolvedEmbed} (h : Quotable embed.sqlAlias)
    : Sql.Clause (embedClosing embed) [] :=
  (clause_keyword ") AS " (by decide) (by decide) (fills_quoted h)).append
    (clause_still " ON true" (by decide) (by decide))

/--
The part of the subquery from `FROM` on.
-/
theorem clause_source {embed : ResolvedEmbed} (htame : embed.SourceTame) {condition : String}
    (hcondition : Fills condition []) {policy : List String} (hpolicy : ∀ part ∈ policy, Fills part [])
    : Sql.Clause (" FROM " ++ quoted embed.refTable.schema ++ "." ++ quoted embed.refTable.name
        ++ " WHERE " ++ joinWith " AND " (condition :: policy)) [] := by
  have htable := clause_keyword " FROM " (by decide) (by decide)
    ((fillsOpen_quoted_dot htame.schema).append (fills_quoted htame.name))
  have hparts := @Sql.fills_joinWith_nil " AND " (by decide) (by decide) _
    (List.forall_mem_cons.mpr ⟨hcondition, hpolicy⟩)
  have hwhere := clause_keyword " WHERE " (by decide) (by decide) hparts
  have hclause := htable.append hwhere
  simp only [String.append_assoc] at hclause ⊢
  exact hclause

theorem fills_embedSubquery {embed : ResolvedEmbed} (htame : embed.SourceTame)
    (hname : Quotable embed.sqlAlias) {policy : List String} (hpolicy : ∀ part ∈ policy, Fills part [])
    {sql : String} (h : embedSubquery embed "base" policy = .ok sql) : Fills sql [] := by
  have hclosing := clause_embedClosing hname
  have hcolumns := fills_buildEmbedColumnsJson htame.columns
  unfold embedSubquery at h
  cases hjoin : joinCondition embed "base" with
  | error e =>
    rw [hjoin] at h
    cases h
  | ok condition =>
    have hsource := clause_source htame (fills_joinCondition htame hjoin) hpolicy
    rw [hjoin] at h
    simp only [bind, Except.bind] at h
    split at h
    . cases h
      have hhead := (Sql.fillsOpen_of_still (s := "LEFT JOIN LATERAL (SELECT jsonb_build_object(")
        (by decide)).append hcolumns
      have hdata := hhead.append_clause (clause_still ") AS data" (by decide) (by decide))
      exact ((hdata.append_clause hsource).append_clause
        (clause_still " LIMIT 1" (by decide) (by decide))).append_clause hclosing
    . cases h
      have hhead := (Sql.fillsOpen_of_still
        (s := "LEFT JOIN LATERAL (SELECT COALESCE(jsonb_agg(jsonb_build_object(")
        (by decide)).append hcolumns
      have hdata := hhead.append_clause
        (clause_still ")), '[]'::jsonb) AS data" (by decide) (by decide))
      exact (hdata.append_clause hsource).append_clause hclosing

theorem fills_buildEmbedLateral {decide : String → Except DataError PolicyDecision} {embed : ResolvedEmbed}
    (htame : embed.Tame decide) {decision : PolicyDecision}
    (hdecision : decide embed.refTable.name = .ok decision) {sql : String}
    (h : buildEmbedLateral embed "base" decision = .ok sql) : Fills sql [] := by
  have hsource (hallowed : ∀ reason, decision ≠ .alwaysDeny reason) : embed.SourceTame := by
    apply htame.source
    intro reason hdenied
    rw [hdecision] at hdenied
    cases hdenied
    exact hallowed reason rfl
  cases decision with
  | alwaysDeny reason =>
    cases h
    have hreason : FillsOpen (" /* policy denied: " ++ reason ++ " */") [] :=
      ⟨[], htame.denied reason hdecision, fun _ => rfl⟩
    have hhead := (Sql.fills_of_still
      (s := "LEFT JOIN LATERAL (SELECT NULL::jsonb AS data WHERE false") (by decide)).append_clause
      (clause_embedClosing htame.sqlAlias)
    have hbreak : Breaking (" /* policy denied: " ++ reason ++ " */") := by
      apply Breaking.append
      apply Breaking.append
      decide
    have hcomment := hhead.append hbreak hreason.fills
    simp only [String.append_assoc] at hcomment ⊢
    exact hcomment
  | alwaysAllow => exact fills_embedSubquery (hsource nofun) htame.sqlAlias (by simp) h
  | conditional fragment =>
    refine fills_embedSubquery (hsource nofun) htame.sqlAlias ?_ h
    intro part hpart
    rw [List.mem_singleton] at hpart
    subst hpart
    exact fills_parens (htame.fragment fragment hdecision)

theorem clause_embedLaterals {decide : String → Except DataError PolicyDecision}
    {embeds : List ResolvedEmbed} (htame : ∀ embed ∈ embeds, embed.Tame decide) {sql : String}
    (h : SqlBuilder.embedLaterals decide embeds = .ok sql) : Sql.Clause sql [] := by
  induction embeds generalizing sql with
  | nil =>
    cases h
    exact Sql.clause_empty
  | cons embed embeds ih =>
    rw [List.forall_mem_cons] at htame
    unfold SqlBuilder.embedLaterals at h
    cases hdecision : decide embed.refTable.name with
    | error e =>
      rw [hdecision] at h
      cases h
    | ok decision =>
      rw [hdecision] at h
      simp only [Except.mapError, bind, Except.bind] at h
      cases hlateral : buildEmbedLateral embed "base" decision with
      | error e =>
        rw [hlateral] at h
        cases h
      | ok lateral =>
        rw [hlateral] at h
        simp only at h
        cases hlaterals : SqlBuilder.embedLaterals decide embeds with
        | error e =>
          rw [hlaterals] at h
          cases h
        | ok laterals =>
          rw [hlaterals] at h
          cases h
          have hfirst := clause_keyword " " (by decide) (by decide)
            (fills_buildEmbedLateral htame.1 hdecision hlateral)
          exact hfirst.append (ih htame.2 hlaterals)

theorem clause_embedColumns {decide : String → Except DataError PolicyDecision}
    {embeds : List ResolvedEmbed} (htame : ∀ embed ∈ embeds, embed.Tame decide)
    : Sql.Clause (joinWith "" (embeds.map embedColumn)) [] := by
  induction embeds with
  | nil => exact Sql.clause_empty
  | cons embed embeds ih =>
    rw [List.forall_mem_cons] at htame
    have hfirst := clause_embedColumn htame.1.sqlAlias htame.1.outputName
    have hrest := ih htame.2
    cases embeds with
    | nil => exact hfirst
    | cons next embeds =>
      have := hfirst.append hrest
      simpa [joinWith] using this

end Reactor.Data.Execute
