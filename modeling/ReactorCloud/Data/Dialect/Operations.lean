import ReactorCloud.Data.Dialect.Convert
import ReactorCloud.Data.Dialect.EmitPostgres
import ReactorCloud.Rust.Result
import ReactorCloud.Sql.Lexer

/-!
This module proves when a migration performs all operations it asks for. Tables are given by the text
of their names, which the conversion prints as it stands, columns by the name they have in the
database.
-/

namespace Reactor.Data.Dialect

open SqlParser (ObjectName AlterTableOperation)

inductive DdlOp where
  | createTable (name : String) (columns : List (Option String))
  | createIndex (name table : String)
  | addColumn (table : String) (column : Option String)
  | dropColumn (table : String) (column : Option String)
  | renameTable (oldName newName : String)
  | renameColumn (table : String) (oldName newName : Option String)
  | dropTable (name : String)
  | dropIndex (name : String)
  | unsupported (debug : String)
  deriving DecidableEq

/--
The name an identifier denotes, a name without quotes is folded to lower case.
-/
def SqlParser.Ident.denoted (ident : SqlParser.Ident) : String :=
  match ident.quoteStyle with
  | none => String.ofList (ident.value.toList.map Char.toLower)
  | some _ => ident.value

def requestedOp (table : String) : AlterTableOperation → DdlOp
  | .addColumn columnDef => .addColumn table (some columnDef.name.denoted)
  | .dropColumn columnName _ => .dropColumn table (some columnName.denoted)
  | .renameTable tableName => .renameTable table tableName.toString
  | .renameColumn oldColumnName newColumnName =>
    .renameColumn table (some oldColumnName.denoted) (some newColumnName.denoted)
  | .other debug => .unsupported debug

def requestedDrop : SqlParser.ObjectType → String → DdlOp
  | .table, name => .dropTable name
  | .index, name => .dropIndex name
  | .other debug, _ => .unsupported debug

/--
The operations a statement of a migration asks for. Functions are deferred.
-/
def requestedOps : SqlParser.Statement → List DdlOp
  | .createTable ct => [.createTable ct.name.toString (ct.columns.map (some ·.name.denoted))]
  | .createIndex ci =>
    [.createIndex ((ci.name.map ObjectName.toString).getD "") ci.tableName.toString]
  | .alterTable name operations => operations.map (requestedOp name.toString)
  | .drop objectType _ names => names.map (fun name => requestedDrop objectType name.toString)
  | .createFunction => []
  | .other debug => [.unsupported debug]

/--
The operations the text emitted for a statement performs.
-/
def performedOps : Statement → List DdlOp
  | .createTable ct => [.createTable ct.name (ct.columns.map (Sql.readIdent ·.name))]
  | .createIndex ci => [.createIndex ci.name ci.table]
  | .alterTableAddColumn table column => [.addColumn table (Sql.readIdent column.name)]
  | .alterTableDropColumn table column _ => [.dropColumn table (Sql.readIdent column)]
  | .alterTableRename oldName newName => [.renameTable oldName newName]
  | .alterColumnRename table oldName newName =>
    [.renameColumn table (Sql.readIdent oldName) (Sql.readIdent newName)]
  | .dropTable name _ => [.dropTable name]
  | .dropIndex name _ => [.dropIndex name]
  | .createFunction _ => []
  | .policy _ => []

/--
An identifier that is printed without its quotes still denotes the same column.
-/
def SqlParser.Ident.Plain (ident : SqlParser.Ident) : Prop :=
  Sql.readIdent ident.value = some ident.denoted

instance (ident : SqlParser.Ident) : Decidable ident.Plain :=
  inferInstanceAs (Decidable (_ = _))

/--
The columns an operation names.
-/
def namedColumns : AlterTableOperation → List SqlParser.Ident
  | .addColumn columnDef => [columnDef.name]
  | .dropColumn columnName _ => [columnName]
  | .renameColumn oldColumnName newColumnName => [oldColumnName, newColumnName]
  | _ => []

/--
A statement that is converted as a whole.
-/
def Whole : SqlParser.Statement → Prop
  | .createTable ct => ∀ col ∈ ct.columns, col.name.Plain
  | .alterTable _ operations =>
    operations.length = 1 ∧ ∀ op ∈ operations, ∀ ident ∈ namedColumns op, ident.Plain
  | .drop _ _ names => names.length ≤ 1
  | _ => True

theorem convertColumnOption_name {col col' : ColumnDef} {opt : SqlParser.ColumnOption}
    (h : convertColumnOption col opt = .ok col') : col'.name = col.name := by
  unfold convertColumnOption at h
  split at h
  case h_3 | h_6 =>
    rw [Rust.bind_eq_ok] at h
    obtain ⟨_, _, h⟩ := h
    simp only [Except.ok.injEq] at h
    rw [← h]
  all_goals
    simp only [Except.ok.injEq] at h
    rw [← h]

theorem foldlM_name {opts : List SqlParser.ColumnOption} {col col' : ColumnDef}
    (h : opts.foldlM convertColumnOption col = .ok col') : col'.name = col.name := by
  induction opts generalizing col with
  | nil =>
    simp only [List.foldlM_nil, pure, Except.pure, Except.ok.injEq] at h
    rw [h]
  | cons opt opts ih =>
    rw [List.foldlM_cons, Rust.bind_eq_ok] at h
    obtain ⟨mid, hmid, h⟩ := h
    rw [ih h, convertColumnOption_name hmid]

theorem convertColumnDef_name {col : SqlParser.ColumnDef} {out : ColumnDef}
    (h : convertColumnDef col = .ok out) : out.name = col.name.value := by
  unfold convertColumnDef at h
  rw [Rust.bind_eq_ok] at h
  obtain ⟨ty, _, h⟩ := h
  exact foldlM_name h

theorem convertColumnDefs_names {cols : List SqlParser.ColumnDef} {outs : List ColumnDef}
    (h : cols.mapM convertColumnDef = .ok outs)
    : outs.map (·.name) = cols.map (·.name.value) := by
  replace h := Rust.mapM_eq_ok h
  induction h with
  | nil => rfl
  | cons hcol _ ih => simp [convertColumnDef_name hcol, ih]

/--
The first operation that has a case is the only one that is converted.
-/
theorem convertOperations_spec {table : String} {operations : List AlterTableOperation}
    {stmt : Statement} (h : convertOperations table operations = .ok (some stmt))
    : ∃ before op after, operations = before ++ op :: after ∧ (performedOps stmt).length = 1
        ∧ (performedOps stmt = [requestedOp table op] ↔ ∀ ident ∈ namedColumns op, ident.Plain) := by
  induction operations with
  | nil => simp [convertOperations] at h
  | cons op operations ih =>
    cases op with
    | addColumn columnDef =>
      simp only [convertOperations] at h
      rw [Rust.bind_eq_ok] at h
      obtain ⟨column, hcolumn, h⟩ := h
      simp only [Except.ok.injEq, Option.some.injEq] at h
      exists [], .addColumn columnDef, operations
      subst h
      simp [performedOps, requestedOp, namedColumns, SqlParser.Ident.Plain, convertColumnDef_name hcolumn]
    | dropColumn columnName ifExists =>
      simp only [convertOperations, Except.ok.injEq, Option.some.injEq] at h
      exists [], .dropColumn columnName ifExists, operations
      subst h
      simp [performedOps, requestedOp, namedColumns, SqlParser.Ident.Plain]
    | renameTable tableName =>
      simp only [convertOperations, Except.ok.injEq, Option.some.injEq] at h
      exists [], .renameTable tableName, operations
      subst h
      simp [performedOps, requestedOp, namedColumns]
    | renameColumn oldColumnName newColumnName =>
      simp only [convertOperations, Except.ok.injEq, Option.some.injEq] at h
      exists [], .renameColumn oldColumnName newColumnName, operations
      subst h
      simp [performedOps, requestedOp, namedColumns, SqlParser.Ident.Plain]
    | other debug =>
      obtain ⟨before, op, after, heq, hop⟩ := ih h
      exists .other debug :: before, op, after
      exact ⟨by rw [heq, List.cons_append], hop⟩

theorem eq_singleton_of_map {α β : Type} {f : α → β} {before after : List α} {a : α} {b : β}
    (h : (before ++ a :: after).map f = [b]) : before = [] ∧ after = [] ∧ f a = b := by
  cases before with
  | nil => simpa [and_comm] using h
  | cons c before => simp at h

theorem convertAlterTable_spec {name : ObjectName} {operations : List AlterTableOperation}
    {out : Option Statement} (h : convertAlterTable name operations = .ok out)
    : (out.toList.flatMap performedOps).length ≤ (requestedOps (.alterTable name operations)).length
        ∧ (requestedOps (.alterTable name operations) = out.toList.flatMap performedOps
            ↔ Whole (.alterTable name operations)) := by
  unfold convertAlterTable at h
  rw [Rust.bind_eq_ok] at h
  obtain ⟨converted, hconv, h⟩ := h
  cases converted with
  | none => simp at h
  | some stmt =>
    simp only [Except.ok.injEq] at h
    subst h
    obtain ⟨before, op, after, rfl, hlen, hop⟩ := convertOperations_spec hconv
    simp only [Option.toList_some, List.flatMap_singleton]
    constructor
    . simp only [hlen, requestedOps, List.length_map, List.length_append, List.length_cons]
      omega
    . obtain ⟨p, hp⟩ := List.length_eq_one_iff.mp hlen
      rw [hp] at hop ⊢
      unfold Whole requestedOps
      constructor
      . intro heq
        obtain ⟨rfl, rfl, hreq⟩ := eq_singleton_of_map heq
        simpa [← hop] using hreq.symm
      . intro ⟨hone, hplain⟩
        have : before = [] ∧ after = [] := by
          simp only [List.length_append, List.length_cons] at hone
          constructor <;> (apply List.eq_nil_of_length_eq_zero; omega)
        obtain ⟨rfl, rfl⟩ := this
        have := hop.mpr (hplain op (by simp))
        simpa using this.symm

theorem convertDrop_spec {ty : SqlParser.ObjectType} {ifExists : Bool} {names : List ObjectName}
    {out : Option Statement} (h : convertDrop ty ifExists names = .ok out)
    : (out.toList.flatMap performedOps).length ≤ (requestedOps (.drop ty ifExists names)).length
        ∧ (requestedOps (.drop ty ifExists names) = out.toList.flatMap performedOps
            ↔ Whole (.drop ty ifExists names)) := by
  unfold convertDrop at h
  cases names with
  | nil =>
    simp only [Except.ok.injEq] at h
    subst h
    simp [requestedOps, Whole]
  | cons name names =>
    cases ty <;> simp only [Except.ok.injEq, reduceCtorEq] at h
    all_goals
      subst h
      simp [requestedOps, Whole, performedOps, requestedDrop]

theorem convertStatement_spec {stmt : SqlParser.Statement} {out : Option Statement}
    (h : convertStatement stmt = .ok out)
    : (out.toList.flatMap performedOps).length ≤ (requestedOps stmt).length
        ∧ (requestedOps stmt = out.toList.flatMap performedOps ↔ Whole stmt) := by
  cases stmt with
  | createTable ct =>
    simp only [convertStatement, Rust.map_eq_ok] at h
    obtain ⟨made, hmade, rfl⟩ := h
    unfold convertCreateTable at hmade
    rw [Rust.bind_eq_ok] at hmade
    obtain ⟨columns, hcolumns, hmade⟩ := hmade
    rw [Rust.bind_eq_ok] at hmade
    obtain ⟨constraints, _, hmade⟩ := hmade
    simp only [Except.ok.injEq] at hmade
    subst hmade
    have hcols : columns.map (Sql.readIdent ·.name)
        = ct.columns.map (Sql.readIdent ·.name.value) := by
      have := congrArg (List.map Sql.readIdent) (convertColumnDefs_names hcolumns)
      simp only [List.map_map] at this
      exact this
    simp only [requestedOps, Option.toList_some, List.flatMap_singleton, performedOps, hcols]
    constructor
    . simp
    . unfold Whole
      simp only [List.cons.injEq, DdlOp.createTable.injEq, true_and, and_true, List.map_inj_left]
      constructor
      . intro h col hcol
        exact (h col hcol).symm
      . intro h col hcol
        exact (h col hcol).symm
  | createIndex ci =>
    simp only [convertStatement, Rust.map_eq_ok] at h
    obtain ⟨made, hmade, rfl⟩ := h
    unfold convertCreateIndex at hmade
    rw [Rust.bind_eq_ok] at hmade
    obtain ⟨whereClause, _, hmade⟩ := hmade
    simp only [Except.ok.injEq] at hmade
    subst hmade
    simp [requestedOps, performedOps, Whole]
  | alterTable name operations => exact convertAlterTable_spec h
  | drop ty ifExists names => exact convertDrop_spec h
  | createFunction =>
    simp only [convertStatement, Except.ok.injEq] at h
    subst h
    simp [requestedOps, Whole]
  | other debug => simp [convertStatement] at h

theorem convertStatements_spec {stmts : List SqlParser.Statement} {out : List Statement}
    (h : convertStatements stmts = .ok out)
    : (out.flatMap performedOps).length ≤ (stmts.flatMap requestedOps).length
        ∧ (stmts.flatMap requestedOps = out.flatMap performedOps ↔ ∀ stmt ∈ stmts, Whole stmt) := by
  induction stmts generalizing out with
  | nil =>
    simp only [convertStatements, Except.ok.injEq] at h
    subst h
    simp
  | cons stmt stmts ih =>
    unfold convertStatements at h
    rw [Rust.bind_eq_ok] at h
    obtain ⟨converted, hconv, h⟩ := h
    rw [Rust.bind_eq_ok] at h
    obtain ⟨rest, hrest, h⟩ := h
    simp only [Except.ok.injEq] at h
    subst h
    have ⟨hlen, hstmt⟩ := convertStatement_spec hconv
    have ⟨hlens, hstmts⟩ := ih hrest
    simp only [List.flatMap_append, List.flatMap_cons, List.length_append, List.mem_cons,
      forall_eq_or_imp]
    constructor
    . omega
    . rw [← hstmt, ← hstmts]
      constructor
      . intro heq
        apply List.append_inj heq
        have := congrArg List.length heq
        simp only [List.length_append] at this
        omega
      . intro ⟨h1, h2⟩
        rw [h1, h2]

/--
Everything that is asked for is performed, in the same order.
-/
def PerformsAll (stmts : List SqlParser.Statement) (out : List Statement) : Prop :=
  (stmts.flatMap requestedOps).Sublist (out.flatMap performedOps)

def unquoted (name : String) : SqlParser.Ident where
  value := name
  quoteStyle := none

def textColumn (name : String) : SqlParser.ColumnDef where
  name := unquoted name
  dataType := "TEXT"
  options := []

/--
`ALTER TABLE todos ADD COLUMN title TEXT`
-/
def addTitle : SqlParser.Statement :=
  .alterTable ⟨[unquoted "todos"]⟩ [.addColumn (textColumn "title")]

/--
`ALTER TABLE todos ADD COLUMN title TEXT, DROP COLUMN done`
-/
def replaceDone : SqlParser.Statement :=
  .alterTable ⟨[unquoted "todos"]⟩ [.addColumn (textColumn "title"), .dropColumn (unquoted "done") false]

end Reactor.Data.Dialect
