import ReactorCloud.Data.Execute.Embed
import ReactorCloud.Sql.Parser
import ReactorCloud.Sql.Placeholders

/-!
This module contains which rows the subquery of an embed selects. They are joined on the first pair of
columns of the foreign key only.
-/

namespace Reactor.Data.Execute

open Policy (PolicyDecision)
open Rust.Str (joinWith)
open Sql (Expr Interp Truth readExpr)

/-! The subquery -/

inductive Conjunct where
  | join (text : String)
  | policy (sqlFragment : String)

def Conjunct.text : Conjunct → String
  | .join text => text
  | .policy sqlFragment => "(" ++ sqlFragment ++ ")"

/--
The subquery of an embed, as it stands in the statement.
-/
inductive Lateral where
  | denied (reason : String)
  | toOne (columnsJson schema table : String) (conjuncts : List Conjunct)
  | toMany (columnsJson schema table : String) (conjuncts : List Conjunct)

def sourceText (schema table : String) (conjuncts : List Conjunct) : String :=
  " FROM " ++ quoted schema ++ "." ++ quoted table ++ " WHERE "
    ++ joinWith " AND " (conjuncts.map Conjunct.text)

def Lateral.text (sqlAlias : String) : Lateral → String
  | .denied reason =>
    "LEFT JOIN LATERAL (SELECT NULL::jsonb AS data WHERE false" ++ (") AS " ++ quoted sqlAlias ++ " ON true")
      ++ " /* policy denied: " ++ reason ++ " */"
  | .toOne columnsJson schema table conjuncts =>
    "LEFT JOIN LATERAL (SELECT jsonb_build_object(" ++ columnsJson ++ ") AS data"
      ++ sourceText schema table conjuncts ++ " LIMIT 1" ++ (") AS " ++ quoted sqlAlias ++ " ON true")
  | .toMany columnsJson schema table conjuncts =>
    "LEFT JOIN LATERAL (SELECT COALESCE(jsonb_agg(jsonb_build_object(" ++ columnsJson
      ++ ")), '[]'::jsonb) AS data" ++ sourceText schema table conjuncts
      ++ (") AS " ++ quoted sqlAlias ++ " ON true")

def policyConjuncts : PolicyDecision → List Conjunct
  | .conditional sqlFragment => [.policy sqlFragment]
  | _ => []

def lateralOf (embed : ResolvedEmbed) (parentAlias : String) (decision : PolicyDecision)
    : Except BuildError Lateral :=
  match decision with
  | .alwaysDeny reason => .ok (.denied reason)
  | decision =>
    (joinCondition embed parentAlias).map fun condition =>
      let columnsJson := buildEmbedColumnsJson embed.spec.columns
      let conjuncts := .join condition :: policyConjuncts decision
      match embed.direction with
      | .toOne => .toOne columnsJson embed.refTable.schema embed.refTable.name conjuncts
      | .toMany => .toMany columnsJson embed.refTable.schema embed.refTable.name conjuncts

theorem buildEmbedLateral_eq (embed : ResolvedEmbed) (parentAlias : String) (decision : PolicyDecision)
    : buildEmbedLateral embed parentAlias decision
        = (lateralOf embed parentAlias decision).map (Lateral.text embed.sqlAlias) := by
  cases decision with
  | alwaysDeny reason => rfl
  | alwaysAllow =>
    rw [buildEmbedLateral, embedSubquery, lateralOf]
    . cases joinCondition embed parentAlias with
      | error e => rfl
      | ok condition => cases embed.direction <;> rfl
    . nofun
  | conditional sqlFragment =>
    rw [buildEmbedLateral, embedSubquery, lateralOf]
    . cases joinCondition embed parentAlias with
      | error e => rfl
      | ok condition => cases embed.direction <;> rfl
    . nofun

/-! The rows -/

abbrev Row := String → Sql.Value

/--
The rows of the tables of the schemas.
-/
abbrev Database := String → String → List Row

/--
The names in the subquery on a table are those of its row and those of the row of the parent. The table
hides a parent with its own name.
-/
def scope (schema table : String) (row : Row) (parentAlias : String) (parent : Row) : Sql.Env where
  col c := match c.qual with
    | [] => row c.name
    | [t] => if t = table then row c.name else if t = parentAlias then parent c.name else .null
    | [s, t] => if s = schema ∧ t = table then row c.name else .null
    | _ => .null
  param _ := .null

section

-- What the fragments of policies mean is left open.
variable (I : Interp) (meaning : String → Row → Truth)

def Conjunct.truth (env : Sql.Env) (row : Row) : Conjunct → Truth
  | .join text => (readExpr text).bind fun e => (e.eval I env).truth
  | .policy sqlFragment => meaning sqlFragment row

/--
The rows that satisfy the conditions of the subquery.
-/
def selected (schema table : String) (conjuncts : List Conjunct) (db : Database) (parentAlias : String)
    (parent : Row) : List Row :=
  (db schema table).filter fun row =>
    conjuncts.all fun c => c.truth I meaning (scope schema table row parentAlias parent) row = some true

/--
The rows that can end up in the data of the subquery. `LIMIT 1` takes any of them.
-/
def Lateral.Aggregates (db : Database) (parentAlias : String) (parent : Row) (rows : List Row) : Lateral → Prop
  | .denied _ => rows = []
  | .toOne _ schema table conjuncts =>
    let found := selected I meaning schema table conjuncts db parentAlias parent
    rows.Subperm found ∧ rows.length = min 1 found.length
  | .toMany _ schema table conjuncts => rows.Perm (selected I meaning schema table conjuncts db parentAlias parent)

/-! The rows that belong to a parent -/

/--
The columns of the foreign key on the side of the embedded table and on that of the parent.
-/
def columnPairs (embed : ResolvedEmbed) : List (String × String) :=
  match embed.direction with
  | .toOne => embed.fk.refColumns.zip embed.fk.columns
  | .toMany => embed.fk.columns.zip embed.fk.refColumns

def agrees (row parent : Row) (pairs : List (String × String)) : Bool :=
  pairs.all fun pair => (I.evalCmp .eq (row pair.1) (parent pair.2)).truth = some true

def allowed (decision : PolicyDecision) (row : Row) : Bool :=
  match decision with
  | .alwaysAllow => true
  | .alwaysDeny _ => false
  | .conditional sqlFragment => meaning sqlFragment row = some true

def related (embed : ResolvedEmbed) (decision : PolicyDecision) (db : Database) (parent : Row) : List Row :=
  (db embed.refTable.schema embed.refTable.name).filter fun row =>
    agrees I row parent (columnPairs embed) && allowed meaning decision row

/--
No two rows are referenced by one key.
-/
def KeyUnique (embed : ResolvedEmbed) (db : Database) : Prop :=
  embed.direction = .toOne →
    (db embed.refTable.schema embed.refTable.name).Pairwise fun row row' =>
      ∀ parent, ¬ (agrees I row parent (columnPairs embed) = true
        ∧ agrees I row' parent (columnPairs embed) = true)

end

/--
Whatever the database holds, the data of the embed are those of the rows that belong to the parent.
-/
def JoinsWholeKey (embed : ResolvedEmbed) (decision : PolicyDecision) : Prop :=
  ∃ lateral, lateralOf embed "base" decision = .ok lateral
    ∧ buildEmbedLateral embed "base" decision = .ok (lateral.text embed.sqlAlias)
    ∧ ∀ (I : Interp) (meaning : String → Row → Truth) (db : Database), KeyUnique I embed db →
        ∀ parent rows, lateral.Aggregates I meaning db "base" parent rows →
          rows.Perm (related I meaning embed decision db parent)

/--
The table that a foreign key of the parent references, or one with a foreign key to the parent.
-/
def Links (schema : SchemaSnapshot) (parent : TableSnapshot) : Candidate → Prop
  | (fk, refTable, .toOne) => fk ∈ parent.foreignKeys ∧ schema.getTable fk.refTable = some refTable
  | (fk, refTable, .toMany) =>
    fk ∈ refTable.foreignKeys ∧ fk.refTable = parent.name ∧ ∃ name, schema.getTable name = some refTable

theorem links_of_findFkForEmbed {spec : Spec} {schema : SchemaSnapshot} {parent : TableSnapshot}
    {candidate : Candidate} (h : findFkForEmbed spec schema parent = .ok candidate)
    : Links schema parent candidate := by
  rw [findFkForEmbed] at h
  split at h
  . next hint hhint =>
    rw [findByHint] at h
    split at h
    . next fk hfk =>
      split at h
      . next refTable hrefTable =>
        cases h
        exact ⟨List.mem_of_find?_eq_some hfk, hrefTable⟩
      . cases h
    . split at h
      . next fk table hback =>
        cases h
        obtain ⟨⟨name, table'⟩, hmem, hfk⟩ := List.exists_of_findSome?_eq_some hback
        rw [Option.map_eq_some_iff] at hfk
        obtain ⟨fk', hfk', heq⟩ := hfk
        cases heq
        have hrefers : fk.name = hint ∧ fk.refTable = parent.name := by
          simpa using List.find?_some hfk'
        exact ⟨List.mem_of_find?_eq_some hfk', hrefers.2, name, AList.mem_lookup_iff.mpr hmem⟩
      . cases h
  . split at h
    . cases h
    . next candidate' heq =>
      cases h
      have hmem : candidate ∈ toOneCandidates spec.name schema parent
          ++ toManyCandidates spec.name schema parent := by
        rw [heq]
        exact List.mem_cons_self
      cases List.mem_append.mp hmem with
      | inl hone =>
        obtain ⟨fk, hfk, hfound⟩ := List.mem_filterMap.mp hone
        split at hfound
        . obtain ⟨refTable, hrefTable, rfl⟩ := Option.map_eq_some_iff.mp hfound
          exact ⟨hfk, hrefTable⟩
        . cases hfound
      | inr hmany =>
        rw [toManyCandidates] at hmany
        split at hmany
        . next refTable hrefTable =>
          obtain ⟨fk, hfk, rfl⟩ := List.mem_map.mp hmany
          rw [List.mem_filter, decide_eq_true_eq] at hfk
          exact ⟨hfk.1, hfk.2, spec.name, hrefTable⟩
        . cases hmany
    . cases h

/-! The condition of the join -/

/--
The names in the condition of the join have no quotes.
-/
structure ResolvedEmbed.Unquoted (embed : ResolvedEmbed) : Prop where
  schema : '"' ∉ embed.refTable.schema.toList
  table : '"' ∉ embed.refTable.name.toList
  columns : ∀ pair ∈ columnPairs embed, '"' ∉ pair.1.toList ∧ '"' ∉ pair.2.toList

theorem unescaped_of_not_mem {name : String} (h : '"' ∉ name.toList) : Sql.unescaped '"' name = name := by
  rw [Sql.unescaped, Sql.unescape_of_not_mem h, String.ofList_toList]

theorem lexes_join {schema table column parentAlias parentColumn : String}
    (hschema : '"' ∉ schema.toList) (htable : '"' ∉ table.toList) (hcolumn : '"' ∉ column.toList)
    (halias : '"' ∉ parentAlias.toList) (hparentColumn : '"' ∉ parentColumn.toList)
    : Sql.Lexes (quoted schema ++ "." ++ quoted table ++ "." ++ quoted column
          ++ (" = " ++ quoted parentAlias ++ ".") ++ quoted parentColumn)
        ([.ident schema, .punct '.'] ++ [.ident table, .punct '.'] ++ [.ident column]
          ++ ([.op "="] ++ [.ident parentAlias, .punct '.'] ++ [.ident parentColumn])) := by
  have hdot {name : String} (h : '"' ∉ name.toList)
      : Sql.LexesOpen (quoted name ++ ".") [.ident name, .punct '.'] :=
    Sql.lexesOpen_ident_dot (Sql.paired_of_not_mem h)
  have hident {name : String} (h : '"' ∉ name.toList) : Sql.Lexes (quoted name) [.ident name] :=
    Sql.lexes_ident (Sql.paired_of_not_mem h)
  have heq : Sql.LexesOpen " = " [.op "="] := rfl
  have hleft := ((hdot hschema).append_open (hdot htable)).append (hident hcolumn)
  have hright := (heq.append_open (hdot halias)).append (hident hparentColumn)
  have hbreak : Sql.Breaking (" = " ++ (quoted parentAlias ++ ".") ++ quoted parentColumn) :=
    Sql.Breaking.append (Sql.Breaking.append (by decide) _) _
  have := hleft.append hbreak hright
  simp only [String.append_assoc] at this ⊢
  exact this

theorem readExpr_join {schema table column parentAlias parentColumn : String}
    (hschema : '"' ∉ schema.toList) (htable : '"' ∉ table.toList) (hcolumn : '"' ∉ column.toList)
    (halias : '"' ∉ parentAlias.toList) (hparentColumn : '"' ∉ parentColumn.toList)
    : readExpr (quoted schema ++ "." ++ quoted table ++ "." ++ quoted column
          ++ (" = " ++ quoted parentAlias ++ ".") ++ quoted parentColumn)
        = some (.cmp .eq (.col ⟨[schema, table], column⟩) (.col ⟨[parentAlias], parentColumn⟩)) := by
  have hlex := (lexes_join hschema htable hcolumn halias hparentColumn).lex
  rw [readExpr, hlex, Option.bind_some]
  simp [Sql.readTokens, Sql.Parser.parseCond, Sql.Parser.fuelFor, Sql.Parser.parseExpr,
    Sql.Parser.parsePrefix, Sql.Parser.parsePrimary, Sql.Parser.parseColRef, Sql.Parser.nameOf,
    Sql.Parser.parseInfix, Sql.Parser.infixOp, Sql.Parser.opOf, Sql.InfixOp.operand, Sql.InfixOp.level,
    unescaped_of_not_mem, hschema, htable, hcolumn, halias, hparentColumn]

section

variable {embed : ResolvedEmbed} {pair : String × String} {pairs : List (String × String)}
  {decision : PolicyDecision}

def joinText (embed : ResolvedEmbed) (parentAlias : String) (pair : String × String) : String :=
  quoted embed.refTable.schema ++ "." ++ quoted embed.refTable.name ++ "." ++ quoted pair.1
    ++ (" = " ++ quoted parentAlias ++ ".") ++ quoted pair.2

theorem joinCondition_eq (h : columnPairs embed = pair :: pairs) (parentAlias : String)
    : joinCondition embed parentAlias = .ok (joinText embed parentAlias pair) := by
  rw [columnPairs] at h
  rw [joinCondition]
  cases hdirection : embed.direction with
  | toOne =>
    rw [hdirection] at h
    cases hfk : embed.fk.columns with
    | nil => simp [hfk] at h
    | cons fkCol fkCols =>
      cases href : embed.fk.refColumns with
      | nil => simp [href] at h
      | cons refCol refCols =>
        simp only [hfk, href, List.zip_cons_cons, List.cons.injEq] at h
        simp only [joinText, ← h.1]
  | toMany =>
    rw [hdirection] at h
    cases hfk : embed.fk.columns with
    | nil => simp [hfk] at h
    | cons fkCol fkCols =>
      cases href : embed.fk.refColumns with
      | nil => simp [href] at h
      | cons refCol refCols =>
        simp only [hfk, href, List.zip_cons_cons, List.cons.injEq] at h
        simp only [joinText, ← h.1]

/--
The value of the column of the parent, which a table with the name of the alias hides.
-/
def parentValue (embed : ResolvedEmbed) (row parent : Row) (column : String) : Sql.Value :=
  if embed.refTable.name = "base" then row column else parent column

theorem truth_join (hunquoted : embed.Unquoted) (h : columnPairs embed = pair :: pairs) (I : Interp)
    (meaning : String → Row → Truth) (row parent : Row)
    : Conjunct.truth I meaning (scope embed.refTable.schema embed.refTable.name row "base" parent) row
          (.join (joinText embed "base" pair))
        = (I.evalCmp .eq (row pair.1) (parentValue embed row parent pair.2)).truth := by
  have hpair := hunquoted.columns pair (by rw [h]; exact List.mem_cons_self)
  rw [Conjunct.truth, joinText, readExpr_join hunquoted.schema hunquoted.table hpair.1 (by decide) hpair.2]
  simp only [Option.bind_some, Expr.eval, scope, parentValue, if_true, and_self]
  by_cases hbase : embed.refTable.name = "base"
  . simp [hbase]
  . simp [hbase, Ne.symm hbase]

/--
The rows that the subquery selects, by the first pair of columns.
-/
def joined (I : Interp) (meaning : String → Row → Truth) (embed : ResolvedEmbed) (pair : String × String)
    (decision : PolicyDecision) (db : Database) (parent : Row) : List Row :=
  (db embed.refTable.schema embed.refTable.name).filter fun row =>
    (I.evalCmp .eq (row pair.1) (parentValue embed row parent pair.2)).truth = some true
      && allowed meaning decision row

theorem selected_eq (hunquoted : embed.Unquoted) (h : columnPairs embed = pair :: pairs) (I : Interp)
    (meaning : String → Row → Truth) (hallowed : ∀ reason, decision ≠ .alwaysDeny reason) (db : Database)
    (parent : Row)
    : selected I meaning embed.refTable.schema embed.refTable.name
          (.join (joinText embed "base" pair) :: policyConjuncts decision) db "base" parent
        = joined I meaning embed pair decision db parent := by
  rw [selected, joined]
  apply List.filter_congr
  intro row _
  rw [List.all_cons, truth_join hunquoted h]
  cases decision with
  | alwaysDeny reason => exact absurd rfl (hallowed reason)
  | alwaysAllow => rfl
  | conditional sqlFragment =>
    rw [policyConjuncts, List.all_cons, List.all_nil, Bool.and_true]
    rfl

/--
What is taken of the rows that are found.
-/
def Takes (direction : EmbedDirection) (found rows : List Row) : Prop :=
  match direction with
  | .toOne => rows.Subperm found ∧ rows.length = min 1 found.length
  | .toMany => rows.Perm found

theorem takes_singleton (direction : EmbedDirection) (row : Row) : Takes direction [row] [row] := by
  cases direction with
  | toOne => exact ⟨List.Subperm.refl _, rfl⟩
  | toMany => exact List.Perm.refl _

theorem joinsWholeKey_iff_takes (hunquoted : embed.Unquoted) (h : columnPairs embed = pair :: pairs)
    (hallowed : ∀ reason, decision ≠ .alwaysDeny reason)
    : JoinsWholeKey embed decision ↔
        ∀ I meaning db, KeyUnique I embed db → ∀ parent rows,
          Takes embed.direction (joined I meaning embed pair decision db parent) rows →
            rows.Perm (related I meaning embed decision db parent) := by
  have hcondition := joinCondition_eq h "base"
  have hlateral : lateralOf embed "base" decision
      = .ok (match embed.direction with
        | .toOne => .toOne (buildEmbedColumnsJson embed.spec.columns) embed.refTable.schema
            embed.refTable.name (.join (joinText embed "base" pair) :: policyConjuncts decision)
        | .toMany => .toMany (buildEmbedColumnsJson embed.spec.columns) embed.refTable.schema
            embed.refTable.name (.join (joinText embed "base" pair) :: policyConjuncts decision)) := by
    cases decision with
    | alwaysDeny reason => exact absurd rfl (hallowed reason)
    | alwaysAllow => rw [lateralOf, hcondition]; rfl; nofun
    | conditional sqlFragment => rw [lateralOf, hcondition]; rfl; nofun
  have hselected := @selected_eq embed pair pairs decision hunquoted h
  rw [JoinsWholeKey, buildEmbedLateral_eq, hlateral]
  constructor
  . rintro ⟨lateral, hok, _, hall⟩ I meaning db hunique parent rows htakes
    cases hok
    apply hall I meaning db hunique parent rows
    revert htakes
    cases embed.direction <;>
      simp only [Takes, Lateral.Aggregates, hselected I meaning hallowed db parent, imp_self]
  . intro hall
    refine ⟨_, rfl, rfl, ?_⟩
    intro I meaning db hunique parent rows haggregates
    apply hall I meaning db hunique parent rows
    revert haggregates
    cases embed.direction <;>
      simp only [Takes, Lateral.Aggregates, hselected I meaning hallowed db parent, imp_self]

/--
On a table with one row, the first pair of columns decides like all of them.
-/
theorem JoinsWholeKey.single (hjoins : JoinsWholeKey embed decision) (hunquoted : embed.Unquoted)
    (h : columnPairs embed = pair :: pairs) (hallowed : ∀ reason, decision ≠ .alwaysDeny reason)
    {row parent : Row}
    (hrow : (Interp.standard.evalCmp .eq (row pair.1) (parentValue embed row parent pair.2)).truth = some true)
    : agrees Interp.standard row parent (columnPairs embed) = true := by
  let db : Database := fun _ _ => [row]
  let meaning : String → Row → Truth := fun _ _ => some true
  have hallow : allowed meaning decision row = true := by
    cases decision with
    | alwaysDeny reason => exact absurd rfl (hallowed reason)
    | alwaysAllow => rfl
    | conditional sqlFragment => rfl
  have hjoined : joined Interp.standard meaning embed pair decision db parent = [row] := by
    simp [joined, db, hrow, hallow]
  have hunique : KeyUnique Interp.standard embed db := fun _ => List.pairwise_singleton _ _
  have hperm := (joinsWholeKey_iff_takes hunquoted h hallowed).mp hjoins Interp.standard meaning db hunique
    parent [row] (by rw [hjoined]; exact takes_singleton _ row)
  have hmem : row ∈ related Interp.standard meaning embed decision db parent :=
    hperm.mem_iff.mp List.mem_cons_self
  rw [related, List.mem_filter, Bool.and_eq_true] at hmem
  exact hmem.2.1

/--
A row with `q` in one column and 1 in the others.
-/
def ones (column : String) (q : Rat) : Row :=
  fun c => .num (if c = column then q else 1)

theorem eq_num (p q : Rat)
    : (Interp.standard.evalCmp .eq (.num p) (.num q)).truth = some true ↔ p = q := by
  simp [Interp.evalCmp, Interp.strict, Interp.standard, Interp.standardCmp, Interp.standardEq]

theorem JoinsWholeKey.notBase (hjoins : JoinsWholeKey embed decision) (hunquoted : embed.Unquoted)
    (h : columnPairs embed = pair :: pairs) (hallowed : ∀ reason, decision ≠ .alwaysDeny reason)
    : embed.refTable.name ≠ "base" := by
  intro hbase
  -- the row is compared with itself and not with the parent
  have hrow : (Interp.standard.evalCmp .eq (ones "" 1 pair.1)
      (parentValue embed (ones "" 1) (fun _ => .num 2) pair.2)).truth = some true := by
    rw [parentValue, if_pos hbase, ones, ones, eq_num]
    simp
  have hagrees := hjoins.single hunquoted h hallowed hrow
  rw [agrees, h, List.all_cons, Bool.and_eq_true, decide_eq_true_eq, ones, eq_num] at hagrees
  have := hagrees.1
  simp at this

theorem JoinsWholeKey.same (hjoins : JoinsWholeKey embed decision) (hunquoted : embed.Unquoted)
    (h : columnPairs embed = pair :: pairs) (hallowed : ∀ reason, decision ≠ .alwaysDeny reason)
    : ∀ other ∈ columnPairs embed, other = pair := by
  have hbase := hjoins.notBase hunquoted h hallowed
  have hagree {row parent : Row}
      (hrow : (Interp.standard.evalCmp .eq (row pair.1) (parent pair.2)).truth = some true)
      : ∀ other ∈ columnPairs embed,
          (Interp.standard.evalCmp .eq (row other.1) (parent other.2)).truth = some true := by
    have hagrees := @JoinsWholeKey.single embed pair pairs decision hjoins hunquoted h hallowed row parent
      (by rw [parentValue, if_neg hbase]; exact hrow)
    simpa [agrees] using hagrees
  rintro ⟨column, parentColumn⟩ hother
  have hcolumn : column = pair.1 := by
    by_contra hne
    have hrow : (Interp.standard.evalCmp .eq (ones column 2 pair.1) (ones "" 1 pair.2)).truth = some true := by
      rw [ones, ones, eq_num, if_neg (Ne.symm hne)]
      simp
    have := hagree hrow _ hother
    rw [ones, ones, eq_num, if_pos rfl] at this
    simp at this
  have hparentColumn : parentColumn = pair.2 := by
    by_contra hne
    have hrow : (Interp.standard.evalCmp .eq (ones "" 1 pair.1) (ones parentColumn 2 pair.2)).truth
        = some true := by
      rw [ones, ones, eq_num, if_neg (Ne.symm hne)]
      simp
    have := hagree hrow _ hother
    rw [ones, ones, eq_num, if_pos rfl] at this
    simp at this
  rw [hcolumn, hparentColumn]

theorem joined_eq_related (h : columnPairs embed = pair :: pairs) (hbase : embed.refTable.name ≠ "base")
    (hsame : ∀ other ∈ columnPairs embed, other = pair) (I : Interp) (meaning : String → Row → Truth)
    (db : Database) (parent : Row)
    : joined I meaning embed pair decision db parent = related I meaning embed decision db parent := by
  rw [joined, related]
  apply List.filter_congr
  intro row _
  congr 1
  rw [agrees, Bool.eq_iff_iff, decide_eq_true_eq, List.all_eq_true]
  constructor
  . intro hrow other hother
    rw [hsame other hother, decide_eq_true_eq]
    rwa [parentValue, if_neg hbase] at hrow
  . intro hall
    have := hall pair (by rw [h]; exact List.mem_cons_self)
    rw [decide_eq_true_eq] at this
    rwa [parentValue, if_neg hbase]

theorem length_related_le (I : Interp) (meaning : String → Row → Truth) {db : Database}
    (hunique : KeyUnique I embed db) (hone : embed.direction = .toOne) (parent : Row)
    : (related I meaning embed decision db parent).length ≤ 1 := by
  have hpair := (hunique hone).filter (fun row =>
    agrees I row parent (columnPairs embed) && allowed meaning decision row)
  have hagrees : ∀ row ∈ related I meaning embed decision db parent,
      agrees I row parent (columnPairs embed) = true := by
    intro row hrow
    rw [related, List.mem_filter, Bool.and_eq_true] at hrow
    exact hrow.2.1
  rw [related] at hagrees ⊢
  revert hpair hagrees
  generalize List.filter _ _ = rows
  intro hpair hagrees
  match rows with
  | [] => exact Nat.zero_le 1
  | [row] => exact Nat.le_refl 1
  | row :: row' :: rows =>
    have hne := List.rel_of_pairwise_cons hpair (List.mem_cons_self (a := row') (l := rows)) parent
    exact absurd ⟨hagrees row (by simp), hagrees row' (by simp)⟩ hne

theorem perm_of_takes {direction : EmbedDirection} {found rows : List Row}
    (hle : direction = .toOne → found.length ≤ 1) (h : Takes direction found rows) : rows.Perm found := by
  cases direction with
  | toOne =>
    have hle := hle rfl
    exact h.1.perm_of_length_le (by rw [h.2]; omega)
  | toMany => exact h

end

/--
The subquery joins on the whole key if the key has one pair of columns, and the table is not called like
the alias of the parent.
-/
theorem joinsWholeKey_iff {embed : ResolvedEmbed} (hunquoted : embed.Unquoted) {pair : String × String}
    {pairs : List (String × String)} (h : columnPairs embed = pair :: pairs) (decision : PolicyDecision)
    : JoinsWholeKey embed decision ↔
        (∃ reason, decision = .alwaysDeny reason)
          ∨ embed.refTable.name ≠ "base" ∧ ∀ other ∈ columnPairs embed, other = pair := by
  by_cases hdenied : ∃ reason, decision = .alwaysDeny reason
  . obtain ⟨reason, rfl⟩ := hdenied
    refine ⟨fun _ => .inl ⟨reason, rfl⟩, fun _ => ⟨.denied reason, rfl, rfl, ?_⟩⟩
    intro I meaning db _ parent rows haggregates
    have hnone : related I meaning embed (.alwaysDeny reason) db parent = [] := by
      rw [related, List.filter_eq_nil_iff]
      simp [allowed]
    rw [hnone, show rows = [] from haggregates]
  . have hallowed : ∀ reason, decision ≠ .alwaysDeny reason :=
      fun reason heq => hdenied ⟨reason, heq⟩
    constructor
    . intro hjoins
      exact .inr ⟨hjoins.notBase hunquoted h hallowed, hjoins.same hunquoted h hallowed⟩
    . rintro (hdenied' | ⟨hbase, hsame⟩)
      . exact absurd hdenied' hdenied
      rw [joinsWholeKey_iff_takes hunquoted h hallowed]
      intro I meaning db hunique parent rows htakes
      rw [joined_eq_related h hbase hsame] at htakes
      exact perm_of_takes (fun hone => length_related_le I meaning hunique hone parent) htakes

/--
The embed that a foreign key was found for.
-/
def Candidate.embed (candidate : Candidate) (spec : Spec) (nested : List ResolvedEmbed)
    (sqlAlias : String) : ResolvedEmbed :=
  ⟨spec, candidate.1, candidate.2.1, candidate.2.2, nested, sqlAlias⟩

section

variable {schema : SchemaSnapshot} {parent : TableSnapshot} {spec : Spec} {candidate : Candidate}
  {nested : List ResolvedEmbed} {sqlAlias : String}

/--
The embedded rows are those of the table that is linked with the parent, and belong to the row of the
parent.
-/
theorem embedJoins_iff (hfound : findFkForEmbed spec schema parent = .ok candidate)
    (hunquoted : (candidate.embed spec nested sqlAlias).Unquoted) {pair : String × String}
    {pairs : List (String × String)} (h : columnPairs (candidate.embed spec nested sqlAlias) = pair :: pairs)
    (decision : PolicyDecision)
    : Links schema parent candidate ∧ JoinsWholeKey (candidate.embed spec nested sqlAlias) decision ↔
        (∃ reason, decision = .alwaysDeny reason)
          ∨ candidate.2.1.name ≠ "base"
            ∧ ∀ other ∈ columnPairs (candidate.embed spec nested sqlAlias), other = pair := by
  rw [and_iff_right (links_of_findFkForEmbed hfound), joinsWholeKey_iff hunquoted h]
  rfl

end

def orders : TableSnapshot :=
  ⟨"public", "orders", ["tenant", "number"], ["tenant", "number"], []⟩

def items : TableSnapshot where
  schema := "public"
  name := "items"
  columns := ["id", "tenant", "number"]
  primaryKey := ["id"]
  foreignKeys := [⟨"items_fkey", ["tenant", "number"], "orders", ["tenant", "number"]⟩]

def notes : TableSnapshot where
  schema := "public"
  name := "notes"
  columns := ["id", "item"]
  primaryKey := ["id"]
  foreignKeys := [⟨"notes_fkey", ["item"], "items", ["id"]⟩]

def shop : SchemaSnapshot where
  tables := (((∅ : Rust.HashMap TableSnapshot).insert "orders" orders).insert "items" items).insert
    "notes" notes

def notesKey : Candidate :=
  (⟨"notes_fkey", ["item"], "items", ["id"]⟩, notes, .toMany)

theorem embedJoins_notes
    : Links shop items notesKey
        ∧ JoinsWholeKey (notesKey.embed ⟨"notes", none, [.column "id"], none⟩ [] "embed_notes_1") .alwaysAllow := by
  have hunquoted : (notesKey.embed ⟨"notes", none, [.column "id"], none⟩ [] "embed_notes_1").Unquoted := by
    refine ⟨by decide, by decide, ?_⟩
    decide
  exact (embedJoins_iff rfl hunquoted rfl .alwaysAllow).mpr (.inr ⟨by decide, by decide⟩)

def itemsSpec : Spec :=
  ⟨"items", none, [.column "id"], none⟩

def itemsKey : Candidate :=
  (⟨"items_fkey", ["tenant", "number"], "orders", ["tenant", "number"]⟩, items, .toMany)

/--
The items of one order are those of all orders of the tenant.
-/
theorem not_embedJoins
    : ¬ ∀ schema parent spec candidate nested sqlAlias decision,
        findFkForEmbed spec schema parent = .ok candidate →
          columnPairs (candidate.embed spec nested sqlAlias) ≠ [] →
            JoinsWholeKey (candidate.embed spec nested sqlAlias) decision := by
  intro h
  have hunquoted : (itemsKey.embed itemsSpec [] "embed_items_1").Unquoted := by
    refine ⟨by decide, by decide, ?_⟩
    decide
  have hjoins := h shop orders itemsSpec itemsKey [] "embed_items_1" .alwaysAllow rfl (by decide)
  have hsame := hjoins.same hunquoted rfl nofun
  have := hsame ("number", "number") (by decide)
  revert this
  decide

end Reactor.Data.Execute
