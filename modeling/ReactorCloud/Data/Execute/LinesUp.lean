import ReactorCloud.Data.Execute.Fragments

/-!
This module proves that the placeholders of a statement and its parameters line up as long as no name
or fragment breaks out of its place in the text.
-/

namespace Reactor.Data.Execute

open Query
open Policy (PolicyDecision)
open Rust (Json)
open Rust.Str (joinWith)
open Sql (Token Lexes LexesOpen Fills Breaking bindings numbered paramTokens)

/--
The placeholders are `$1`, `$2` and so on, each after the column whose value is bound for it.
-/
def LinesUp (items : List (String × SqlValue)) (sql : String) (params : List SqlValue) : Prop :=
  ∃ toks, Sql.lex sql = some toks ∧ bindings "" toks = numbered 0 (items.map Prod.fst)
    ∧ params = items.map Prod.snd

theorem linesUp_of_fills {items : List (String × SqlValue)} {sql : String}
    (h : Fills sql (numbered 0 (items.map Prod.fst))) : LinesUp items sql (items.map Prod.snd) := by
  have ⟨toks, hlex, hitems⟩ := h.lex
  exact ⟨toks, hlex, hitems "", rfl⟩

namespace SqlBuilder

structure Tame (b : SqlBuilder) : Prop where
  schema : Quotable b.schema
  table : Quotable b.table

theorem fills_qualifiedTable {b : SqlBuilder} (h : b.Tame) : Fills b.qualifiedTable [] :=
  (fillsOpen_quoted_dot h.schema).append (fills_quoted h.table)

section

variable {b : SqlBuilder} (hb : b.Tame) {plan : QueryPlan} {sql : String} {params : List SqlValue}
include hb

theorem linesUp_buildSelect (hwhere : plan.WhereTame) (hselect : SelectTame plan.select)
    (horder : ∀ o ∈ plan.order, Quotable o.column) (h : b.buildSelect plan = .ok (sql, params))
    : LinesUp (planItems plan) sql params := by
  unfold buildSelect at h
  cases hclause : whereClause "" plan 0 with
  | error e =>
    rw [hclause] at h
    cases h
  | ok result =>
    have ⟨clause, whereParams⟩ := result
    have ⟨hfills, hparams⟩ := whereClause_spec prefix_empty hwhere hclause
    rw [hclause] at h
    cases h
    have hcolumns := (Sql.fillsOpen_of_still (s := "SELECT ") (by decide)).append
      (fills_buildSelectColumnsWith prefix_empty hselect)
    have hfrom := (hcolumns.append_open (t := " FROM ") (by decide)
      (Sql.fillsOpen_of_still (by decide))).append (fills_qualifiedTable hb)
    have hsql := ((hfrom.append_clause hfills).append_clause
      (clause_orderClause prefix_empty horder)).append_clause (clause_limitClause plan.pagination)
    simp only [List.nil_append, List.append_nil] at hsql
    rw [hparams]
    exact linesUp_of_fills hsql

theorem linesUp_buildSelectWithEmbeds {decide : String → Except DataError PolicyDecision}
    {embeds : List ResolvedEmbed} (hembeds : ∀ embed ∈ embeds, embed.Tame decide) (hwhere : plan.WhereTame)
    (hselect : SelectTame plan.select) (horder : ∀ o ∈ plan.order, Quotable o.column)
    (h : b.buildSelectWithEmbeds plan embeds decide = .ok (sql, params))
    : LinesUp (planItems plan) sql params := by
  have hbase : Prefix (aliasPrefix "base") := prefix_alias (by decide)
  unfold buildSelectWithEmbeds at h
  cases hlaterals : embedLaterals decide embeds with
  | error e =>
    rw [hlaterals] at h
    cases h
  | ok laterals =>
    rw [hlaterals] at h
    simp only [bind, Except.bind] at h
    cases hclause : whereClause (aliasPrefix "base") plan 0 with
    | error e =>
      rw [hclause] at h
      cases h
    | ok result =>
      have ⟨clause, whereParams⟩ := result
      have ⟨hfills, hparams⟩ := whereClause_spec hbase hwhere hclause
      rw [hclause] at h
      cases h
      have hcolumns := ((Sql.fillsOpen_of_still (s := "SELECT ") (by decide)).append
        (fills_buildSelectColumnsWith hbase hselect)).append_clause (clause_embedColumns hembeds)
      have hfrom := (hcolumns.append_open (t := " FROM ") (by decide)
        (Sql.fillsOpen_of_still (by decide))).append (fills_qualifiedTable hb)
      have hname : Quotable "base" := by decide
      have has := (hfrom.append_open (t := " AS ") (by decide)
        (Sql.fillsOpen_of_still (by decide))).append (fills_quoted hname)
      have hsql := (((has.append_clause (clause_embedLaterals hembeds hlaterals)).append_clause
        hfills).append_clause (clause_orderClause hbase horder)).append_clause
        (clause_limitClause plan.pagination)
      simp only [List.nil_append, List.append_nil] at hsql
      rw [hparams]
      exact linesUp_of_fills hsql

theorem linesUp_buildCount (hwhere : plan.WhereTame) (h : b.buildCount plan = .ok (sql, params))
    : LinesUp (planItems plan) sql params := by
  unfold buildCount at h
  cases hclause : whereClause "" plan 0 with
  | error e =>
    rw [hclause] at h
    cases h
  | ok result =>
    have ⟨clause, whereParams⟩ := result
    have ⟨hfills, hparams⟩ := whereClause_spec prefix_empty hwhere hclause
    rw [hclause] at h
    cases h
    have hfrom := (Sql.fillsOpen_of_still (s := "SELECT COUNT(*) as count FROM ") (by decide)).append
      (fills_qualifiedTable hb)
    have hsql := hfrom.append_clause hfills
    simp only [List.nil_append] at hsql
    rw [hparams]
    exact linesUp_of_fills hsql

theorem linesUp_buildDelete {prefer : Prefer} (hwhere : plan.WhereTame)
    (hreturning : prefer.returnMode = .representation → SelectTame plan.select)
    (h : b.buildDelete prefer plan = .ok (sql, params)) : LinesUp (planItems plan) sql params := by
  unfold buildDelete at h
  cases hclause : whereClause "" plan 0 with
  | error e =>
    rw [hclause] at h
    cases h
  | ok result =>
    have ⟨clause, whereParams⟩ := result
    have ⟨hfills, hparams⟩ := whereClause_spec prefix_empty hwhere hclause
    rw [hclause] at h
    cases h
    have hfrom := (Sql.fillsOpen_of_still (s := "DELETE FROM ") (by decide)).append (fills_qualifiedTable hb)
    have hsql := (hfrom.append_clause hfills).append_clause (clause_returningClause hreturning)
    simp only [List.nil_append, List.append_nil] at hsql
    rw [hparams]
    exact linesUp_of_fills hsql

end

theorem setParts_spec {table : TableSnapshot} {updates : List (String × Json)}
    (hnames : ∀ update ∈ updates, Quotable update.1) {paramOffset : Nat} {parts : List String}
    {params : List SqlValue} (h : setParts table updates paramOffset = .ok (parts, params))
    : ∃ itemss, List.Forall₂ Fills parts itemss
        ∧ itemss.flatten = numbered paramOffset ((setItems updates).map Prod.fst)
        ∧ params = (setItems updates).map Prod.snd := by
  induction updates generalizing paramOffset parts params with
  | nil =>
    cases h
    exact ⟨[], .nil, rfl, rfl⟩
  | cons update updates ih =>
    have ⟨col, val⟩ := update
    rw [List.forall_mem_cons] at hnames
    unfold setParts at h
    split at h
    . cases hrest : setParts table updates (paramOffset + 1) with
      | error e =>
        rw [hrest] at h
        cases h
      | ok result =>
        have ⟨rest, restParams⟩ := result
        rw [hrest] at h
        cases h
        have ⟨itemss, hforall, hitems, hparams⟩ := ih hnames.2 hrest
        refine ⟨[(col, Nat.repr (paramOffset + 1))] :: itemss, .cons ?_ hforall, ?_, ?_⟩
        . have hcolumn := fills_comparison prefix_empty hnames.1 .eq paramOffset
          have hsplit : " = " = " " ++ ("=" ++ " ") := rfl
          rw [hsplit]
          simp only [String.empty_append, FilterOp.toSql, String.append_assoc] at hcolumn ⊢
          exact hcolumn
        . rw [List.flatten_cons, hitems]
          rfl
        . rw [hparams]
          rfl
    . cases h

theorem linesUp_buildUpdate {b : SqlBuilder} (hb : b.Tame) {updates : List (String × Json)}
    {table : TableSnapshot} {prefer : Prefer} {plan : QueryPlan} (hnames : ∀ update ∈ updates, Quotable update.1)
    (hwhere : plan.WhereTame) (hreturning : prefer.returnMode = .representation → SelectTame plan.select)
    {sql : String} {params : List SqlValue} (h : b.buildUpdate updates table prefer plan = .ok (sql, params))
    : LinesUp (setItems updates ++ planItems plan) sql params := by
  unfold buildUpdate at h
  cases hset : setParts table updates 0 with
  | error e =>
    rw [hset] at h
    cases h
  | ok result =>
    have ⟨parts, setParams⟩ := result
    have ⟨itemss, hforall, hitems, hsetParams⟩ := setParts_spec hnames hset
    rw [hset] at h
    simp only [bind, Except.bind] at h
    cases hclause : whereClause "" plan setParams.length with
    | error e =>
      rw [hclause] at h
      cases h
    | ok result =>
      have ⟨clause, whereParams⟩ := result
      have ⟨hfills, hparams⟩ := whereClause_spec prefix_empty hwhere hclause
      rw [hclause] at h
      cases h
      have htable := (Sql.fillsOpen_of_still (s := "UPDATE ") (by decide)).append (fills_qualifiedTable hb)
      have hassign := (htable.append_open (t := " SET ") (by decide)
        (Sql.fillsOpen_of_still (by decide))).append
        (@Sql.fills_joinWith ", " (by decide) (by decide) _ _ hforall)
      have hsql := (hassign.append_clause hfills).append_clause (clause_returningClause hreturning)
      have hlength : setParams.length = 0 + ((setItems updates).map Prod.fst).length := by
        rw [hsetParams, List.length_map, List.length_map, Nat.zero_add]
      simp only [List.nil_append, List.append_nil] at hsql
      rw [hitems, hlength, ← Sql.numbered_append, ← List.map_append] at hsql
      rw [hparams, hsetParams, ← List.map_append]
      exact linesUp_of_fills hsql

end SqlBuilder

/-! Inserts -/

def groupTokens (columns paramOffset : Nat) : List Token :=
  [.punct '('] ++ List.intercalate [.punct ','] (paramTokens columns paramOffset) ++ [.punct ')']

/--
The groups of the rows, each with as many placeholders as there are columns.
-/
def groupsTokens (columns : Nat) : Nat → Nat → List (List Token)
  | 0, _ => []
  | rows + 1, paramOffset =>
    groupTokens columns paramOffset :: groupsTokens columns rows (paramOffset + columns)

/--
`(columns) VALUES (...), (...)`
-/
def valuesTokens (columns : List String) (rows : Nat) : List Token :=
  [.punct '('] ++ List.intercalate [.punct ','] (columns.map (fun c => [Token.ident c]))
    ++ ([.punct ')', .word "values"]
      ++ List.intercalate [.punct ','] (groupsTokens columns.length rows 0))

def objects (rows : List Json) : List (List (String × Json)) :=
  rows.filterMap (fun
    | .object members => some members
    | _ => none)

def cells (columns : List String) (rows : List Json) : List SqlValue :=
  (objects rows).flatMap (fun members =>
    columns.map (fun col => jsonToSqlValue ((Json.object members).get col)))

/--
The placeholders are those of the rows, each in the place of the column whose cell is bound for it.
-/
def InsertLinesUp (rows : List Json) (sql : String) (params : List SqlValue) : Prop :=
  ∃ columns before after,
    Sql.lex sql = some (before ++ (valuesTokens columns (objects rows).length ++ after))
      ∧ (before ++ after).all (!·.isParam) = true ∧ params = cells columns rows

theorem lexes_commas {parts : List String} {tokss : List (List Token)} (h : List.Forall₂ Lexes parts tokss)
    : Lexes (joinWith ", " parts) (List.intercalate [.punct ','] tokss) := by
  have hcomma : LexesOpen ", " [.punct ','] := rfl
  exact Sql.lexes_joinWith hcomma (by decide) h

theorem lexes_parens {sql : String} {toks : List Token} (h : Lexes sql toks)
    : LexesOpen ("(" ++ sql ++ ")") ([.punct '('] ++ toks ++ [.punct ')']) := by
  have hopen : LexesOpen "(" [.punct '('] := rfl
  have hclose : LexesOpen ")" [.punct ')'] := rfl
  exact (hopen.append h).append_open (by decide) hclose

theorem valueGroups_spec (columns : List String) (rows : List Json) (paramOffset : Nat)
    : List.Forall₂ Lexes (SqlBuilder.valueGroups columns rows paramOffset).1
        (groupsTokens columns.length (objects rows).length paramOffset)
      ∧ (SqlBuilder.valueGroups columns rows paramOffset).2 = cells columns rows := by
  induction rows generalizing paramOffset with
  | nil => exact ⟨.nil, rfl⟩
  | cons row rows ih =>
    cases row with
    | object members =>
      have hrest := ih (paramOffset + columns.length)
      have hgroup : Lexes (SqlBuilder.valueGroup columns paramOffset) (groupTokens columns.length paramOffset) :=
        (lexes_parens (lexes_commas (Sql.forall₂_paramTokens columns.length paramOffset))).lexes
      refine ⟨.cons hgroup hrest.1, ?_⟩
      show _ ++ (SqlBuilder.valueGroups columns rows (paramOffset + columns.length)).2 = _
      rw [hrest.2]
      rfl
    | _ => exact ih paramOffset

theorem mem_collectKeys {table : TableSnapshot} {known keys columns : List String}
    (h : SqlBuilder.collectKeys table known keys = .ok columns)
    : ∀ c ∈ columns, c ∈ known ∨ c ∈ keys := by
  induction keys generalizing known with
  | nil =>
    cases h
    intro c hc
    exact .inl hc
  | cons key keys ih =>
    unfold SqlBuilder.collectKeys at h
    intro c hc
    split at h
    . exact (ih h c hc).imp_right (List.mem_cons_of_mem key)
    . split at h
      . have hmem := ih h c hc
        rw [List.mem_append, List.mem_singleton, or_assoc] at hmem
        rw [List.mem_cons]
        exact hmem
      . cases h

theorem mem_collectColumns {table : TableSnapshot} {rows : List Json} {known columns : List String}
    (h : SqlBuilder.collectColumns table known rows = .ok columns)
    : ∀ c ∈ columns, c ∈ known ∨ ∃ members ∈ objects rows, c ∈ members.map Prod.fst := by
  induction rows generalizing known with
  | nil =>
    cases h
    intro c hc
    exact .inl hc
  | cons row rows ih =>
    intro c hc
    cases row with
    | object members =>
      unfold SqlBuilder.collectColumns at h
      cases hkeys : SqlBuilder.collectKeys table known (members.map Prod.fst) with
      | error e =>
        rw [hkeys] at h
        cases h
      | ok next =>
        rw [hkeys] at h
        cases ih h c hc with
        | inl hnext =>
          apply (mem_collectKeys hkeys c hnext).imp_right
          intro hkey
          exact ⟨members, List.mem_cons_self, hkey⟩
        | inr hrest =>
          have ⟨members', hmem, hkey⟩ := hrest
          exact .inr ⟨members', List.mem_cons_of_mem _ hmem, hkey⟩
    | _ => exact ih h c hc

/--
The names in the `ON CONFLICT` clause.
-/
def ConflictTame (columns : List String) (table : TableSnapshot) (prefer : Prefer) : Prop :=
  prefer.resolution = .mergeDuplicates → ∀ c ∈ columns, c ∉ table.primaryKey →
    ∀ key ∈ table.primaryKey, Quotable key

theorem clause_conflictClause {columns : List String} {table : TableSnapshot} {prefer : Prefer}
    (hnames : ∀ c ∈ columns, Quotable c) (hkeys : ConflictTame columns table prefer)
    : Sql.Clause (SqlBuilder.conflictClause columns table prefer) [] := by
  unfold SqlBuilder.conflictClause
  cases hresolution : prefer.resolution with
  | ignoreDuplicates => exact clause_still " ON CONFLICT DO NOTHING" (by decide) (by decide)
  | mergeDuplicates =>
    simp only
    split
    . exact Sql.clause_empty
    . next hupdates =>
      rw [Bool.or_eq_true, not_or, Bool.not_eq_true, Bool.not_eq_true] at hupdates
      have ⟨c, hc⟩ := List.exists_mem_of_ne_nil _ (List.isEmpty_eq_false_iff.mp hupdates.2)
      rw [List.mem_filter, decide_eq_true_eq] at hc
      have hpk := hkeys hresolution c hc.1 hc.2
      have hpkCols : Fills (joinWith ", " (table.primaryKey.map quoted)) [] := by
        apply Sql.fills_joinWith_nil (by decide) (by decide)
        intro part hpart
        have ⟨key, hmem, heq⟩ := List.mem_map.mp hpart
        subst heq
        exact fills_quoted (hpk key hmem)
      have hset : Fills (joinWith ", "
          ((columns.filter (· ∉ table.primaryKey)).map
            (fun c => quoted c ++ " = EXCLUDED." ++ quoted c))) [] := by
        apply Sql.fills_joinWith_nil (by decide) (by decide)
        intro part hpart
        have ⟨col, hmem, heq⟩ := List.mem_map.mp hpart
        subst heq
        have hcol := fills_quoted (hnames col (List.mem_of_mem_filter hmem))
        exact (hcol.append_open (by decide) (Sql.fillsOpen_of_still (s := " = EXCLUDED.") (by decide))).append hcol
      have hconflict := clause_keyword " ON CONFLICT (" (by decide) (by decide) hpkCols
      have hupdate := clause_keyword ") DO UPDATE SET " (by decide) (by decide) hset
      have hclause := hconflict.append hupdate
      simp only [String.append_assoc] at hclause ⊢
      exact hclause

/--
A clause without placeholders after a text.
-/
theorem lexes_append_clause {sql clause : String} {toks : List Token} (h : Lexes sql toks)
    (hclause : Sql.Clause clause [])
    : ∃ after, Lexes (sql ++ clause) (toks ++ after) ∧ after.all (!·.isParam) = true := by
  have ⟨after, hlexes, hitems⟩ := hclause.1
  have hparam := Sql.no_param_of_bindings (hitems "")
  cases hclause.2 with
  | inr hbreak => exact ⟨after, h.append hbreak hlexes, hparam⟩
  | inl hempty =>
    subst hempty
    refine ⟨[], ?_, rfl⟩
    rw [String.append_empty, List.append_nil]
    exact h

theorem lexes_values (columns : List String) (hnames : ∀ c ∈ columns, Quotable c) (rows : List Json)
    : Lexes (" (" ++ joinWith ", " (columns.map quoted) ++ ") VALUES "
        ++ joinWith ", " (SqlBuilder.valueGroups columns rows 0).1)
        (valuesTokens columns (objects rows).length) := by
  have hcolumns : List.Forall₂ Lexes (columns.map quoted) (columns.map (fun c => [Token.ident c])) := by
    rw [List.forall₂_map_left_iff, List.forall₂_map_right_iff, List.forall₂_same]
    intro c hc
    exact Sql.lexes_ident (hnames c hc)
  have hopen : LexesOpen " (" [.punct '('] := rfl
  have hvalues : LexesOpen ") VALUES " [.punct ')', .word "values"] := rfl
  have hgroups := lexes_commas (valueGroups_spec columns rows 0).1
  have hlist := ((hopen.append (lexes_commas hcolumns)).append_open (by decide) hvalues).append hgroups
  rw [List.append_assoc] at hlist
  exact hlist

theorem linesUp_buildInsert {b : SqlBuilder} (hb : b.Tame) {rows : List Json} {table : TableSnapshot}
    {prefer : Prefer} {plan : QueryPlan}
    (hnames : ∀ members ∈ objects rows, ∀ member ∈ members, Quotable member.1)
    (hkeys : ∀ columns, SqlBuilder.collectColumns table [] rows = .ok columns
      → ConflictTame columns table prefer)
    (hreturning : prefer.returnMode = .representation → SelectTame plan.select)
    {sql : String} {params : List SqlValue} (h : b.buildInsert rows table prefer plan = .ok (sql, params))
    : InsertLinesUp rows sql params := by
  unfold SqlBuilder.buildInsert at h
  split at h
  . cases h
  . cases hcollect : SqlBuilder.collectColumns table [] rows with
    | error e =>
      rw [hcollect] at h
      cases h
    | ok columns =>
      rw [hcollect] at h
      cases h
      have hcolumns : ∀ c ∈ columns, Quotable c := by
        intro c hc
        cases mem_collectColumns hcollect c hc with
        | inl hnil => cases hnil
        | inr hmem =>
          have ⟨members, hmembers, hkey⟩ := hmem
          have ⟨member, hmember, heq⟩ := List.mem_map.mp hkey
          exact heq ▸ hnames members hmembers member hmember
      have hinto := (Sql.fillsOpen_of_still (s := "INSERT INTO ") (by decide)).append
        (SqlBuilder.fills_qualifiedTable hb)
      have ⟨before, hbefore, hitems⟩ := hinto
      have hbreak : Breaking (" (" ++ joinWith ", " (columns.map quoted) ++ ") VALUES "
          ++ joinWith ", " (SqlBuilder.valueGroups columns rows 0).1) := by
        apply Breaking.append
        apply Breaking.append
        apply Breaking.append
        decide
      have hrows := hbefore.append hbreak (lexes_values columns hcolumns rows)
      have hclauses := (clause_conflictClause hcolumns (hkeys columns hcollect)).append
        (clause_returningClause hreturning)
      have ⟨after, hsql, hafter⟩ := lexes_append_clause hrows hclauses
      refine ⟨columns, before, after, ?_, ?_, (valueGroups_spec columns rows 0).2⟩
      . have hlex := hsql.lex
        simp only [String.append_assoc, List.append_assoc] at hlex ⊢
        exact hlex
      . rw [List.all_append, Sql.no_param_of_bindings (hitems ""), hafter]
        rfl

/-! All statements -/

inductive Statement where
  | select (plan : QueryPlan)
  | selectWithEmbeds (plan : QueryPlan) (embeds : List ResolvedEmbed)
  | count (plan : QueryPlan)
  | insert (rows : List Json) (table : TableSnapshot) (prefer : Prefer) (plan : QueryPlan)
  | update (updates : List (String × Json)) (table : TableSnapshot) (prefer : Prefer) (plan : QueryPlan)
  | delete (prefer : Prefer) (plan : QueryPlan)

section

variable (b : SqlBuilder) (decide : String → Except DataError PolicyDecision)

def Statement.build : Statement → Except BuildError (String × List SqlValue)
  | .select plan => b.buildSelect plan
  | .selectWithEmbeds plan embeds => b.buildSelectWithEmbeds plan embeds decide
  | .count plan => b.buildCount plan
  | .insert rows table prefer plan => b.buildInsert rows table prefer plan
  | .update updates table prefer plan => b.buildUpdate updates table prefer plan
  | .delete prefer plan => b.buildDelete prefer plan

def Statement.Aligned (statement : Statement) (sql : String) (params : List SqlValue) : Prop :=
  match statement with
  | .select plan => LinesUp (planItems plan) sql params
  | .selectWithEmbeds plan _ => LinesUp (planItems plan) sql params
  | .count plan => LinesUp (planItems plan) sql params
  | .insert rows _ _ _ => InsertLinesUp rows sql params
  | .update updates _ _ plan => LinesUp (setItems updates ++ planItems plan) sql params
  | .delete _ plan => LinesUp (planItems plan) sql params

/--
The names and fragments that are put into the text stay in their place.
-/
def Statement.Tame (statement : Statement) : Prop :=
  b.Tame ∧
    match statement with
    | .select plan =>
      plan.WhereTame ∧ SelectTame plan.select ∧ ∀ o ∈ plan.order, Quotable o.column
    | .selectWithEmbeds plan embeds =>
      (∀ embed ∈ embeds, embed.Tame decide) ∧ plan.WhereTame ∧ SelectTame plan.select
        ∧ ∀ o ∈ plan.order, Quotable o.column
    | .count plan => plan.WhereTame
    | .insert rows table prefer plan =>
      (∀ members ∈ objects rows, ∀ member ∈ members, Quotable member.1)
        ∧ (∀ columns, SqlBuilder.collectColumns table [] rows = .ok columns
          → ConflictTame columns table prefer)
        ∧ (prefer.returnMode = .representation → SelectTame plan.select)
    | .update updates _ prefer plan =>
      (∀ update ∈ updates, Quotable update.1) ∧ plan.WhereTame
        ∧ (prefer.returnMode = .representation → SelectTame plan.select)
    | .delete prefer plan =>
      plan.WhereTame ∧ (prefer.returnMode = .representation → SelectTame plan.select)

/--
The placeholders of every statement that is built line up with its parameters.
-/
def Statement.LinesUp (statement : Statement) : Prop :=
  ∀ sql params, statement.build b decide = .ok (sql, params) → statement.Aligned sql params

theorem statement_linesUp (statement : Statement) (htame : statement.Tame b decide)
    : statement.LinesUp b decide := by
  intro sql params h
  have ⟨hb, htame⟩ := htame
  cases statement with
  | select plan => exact SqlBuilder.linesUp_buildSelect hb htame.1 htame.2.1 htame.2.2 h
  | selectWithEmbeds plan embeds =>
    exact SqlBuilder.linesUp_buildSelectWithEmbeds hb htame.1 htame.2.1 htame.2.2.1 htame.2.2.2 h
  | count plan => exact SqlBuilder.linesUp_buildCount hb htame h
  | insert rows table prefer plan => exact linesUp_buildInsert hb htame.1 htame.2.1 htame.2.2 h
  | update updates table prefer plan =>
    exact SqlBuilder.linesUp_buildUpdate hb htame.1 htame.2.1 htame.2.2 h
  | delete prefer plan => exact SqlBuilder.linesUp_buildDelete hb htame.1 htame.2 h

end

def todosBuilder : SqlBuilder :=
  ⟨"public", "todos"⟩

def todosTable : TableSnapshot :=
  ⟨"public", "todos", ["id", "title", "owner"], ["id"], []⟩

/--
`id=in.(1,2)` for the rows of an owner
-/
def todosPlan : QueryPlan where
  select := [.column "id"]
  filters := [⟨"id", .in, .list [.int 1, .int 2], false⟩]
  order := []
  pagination := ⟨100, 0⟩
  policyPredicate := some "\"owner\" = 'u'"

theorem statement_linesUp_update
    : (Statement.update [("title", .string "tea")] todosTable ⟨.representation, .mergeDuplicates⟩
        todosPlan).LinesUp todosBuilder (fun _ => .ok .alwaysAllow) := by
  apply statement_linesUp
  have hpolicy : Fragment "\"owner\" = 'u'" :=
    ⟨[.ident "owner", .op "=", .str "u"], ⟨[.ident "owner", .op "="], .strQuote ['u'], [.str "u"], by decide, by decide, rfl⟩, fun _ => rfl⟩
  refine ⟨⟨by decide, by decide⟩, ?_, ⟨?_, ?_⟩, ?_⟩
  . intro update hupdate
    rw [List.mem_singleton.mp hupdate]
    decide
  . intro filter hfilter
    rw [List.mem_singleton.mp hfilter]
    decide
  . intro policy hmem
    cases hmem
    exact hpolicy
  . intro _ _ c hc
    rw [List.mem_singleton.mp hc]
    show Quotable "id"
    decide

/--
`select=x" $7 ":id`
-/
def aliasPlan : QueryPlan where
  select := [.aliased "x\" $7 \"" "id"]
  filters := []
  order := []
  pagination := ⟨100, 0⟩
  policyPredicate := none

-- The name of the alias ends early and a placeholder without a parameter follows.
theorem not_statement_linesUp
    : ¬ ∀ (b : SqlBuilder) (decide : String → Except DataError PolicyDecision) (statement : Statement),
        statement.LinesUp b decide := by
  intro h
  have hselect := h todosBuilder (fun _ => .ok .alwaysAllow) (.select aliasPlan) _ _ rfl
  have ⟨toks, hlex, hbindings, _⟩ := hselect
  have hsql : Sql.lex "SELECT \"id\" AS \"x\" $7 \"\" FROM \"public\".\"todos\" LIMIT 100"
      = some [.word "select", .ident "id", .word "as", .ident "x", .param "7", .ident "", .word "from",
        .ident "public", .punct '.', .ident "todos", .word "limit", .num "100"] := by
    decide
  have htoks := hlex.symm.trans hsql
  cases htoks
  cases hbindings

end Reactor.Data.Execute
