import ReactorCloud.Data.Execute.LinesUp
import Mathlib.Data.Finset.Basic

/-!
This module contains what one `INSERT` of several rows does in comparison with one of each row. Its
columns are those of all rows, and a row without one of them gets `NULL` in the place of the default.
-/

namespace Reactor.Data.Execute

open Rust (Json)
open Rust.Str (joinWith)

/--
What happens to a row whose key is in the table already.
-/
inductive Conflict where
  | fail
  | skip
  | update (key : List String) (columns : Finset String)
  deriving DecidableEq

def conflictOf (columns : List String) (table : TableSnapshot) (prefer : Prefer) : Conflict :=
  match prefer.resolution with
  | .ignoreDuplicates => .skip
  | .mergeDuplicates =>
    let updateCols := columns.filter (· ∉ table.primaryKey)
    if table.primaryKey.isEmpty || updateCols.isEmpty then
      .fail
    else
      .update table.primaryKey updateCols.toFinset

/--
The statement in the text that is built.
-/
structure InsertStatement where
  columns : List String
  groups : List (List SqlValue)
  conflict : Conflict

def groupsOf (columns : List String) (rows : List Json) : List (List SqlValue) :=
  (objects rows).map (fun members => columns.map (fun col => jsonToSqlValue ((Json.object members).get col)))

def insertOf (rows : List Json) (table : TableSnapshot) (prefer : Prefer)
    : Except BuildError InsertStatement :=
  if rows.isEmpty then
    .error (.data (.invalidQuery "no rows to insert"))
  else
    (SqlBuilder.collectColumns table [] rows).map fun columns =>
      ⟨columns, groupsOf columns rows, conflictOf columns table prefer⟩

def InsertStatement.text (st : InsertStatement) (b : SqlBuilder) (table : TableSnapshot) (prefer : Prefer)
    (plan : QueryPlan) : String :=
  "INSERT INTO " ++ b.qualifiedTable ++ " (" ++ joinWith ", " (st.columns.map quoted) ++ ") VALUES "
    ++ joinWith ", " ((List.range st.groups.length).map (fun i =>
      SqlBuilder.valueGroup st.columns (i * st.columns.length)))
    ++ SqlBuilder.conflictClause st.columns table prefer ++ returningClause prefer plan

theorem valueGroups_eq (columns : List String) (rows : List Json) (offset : Nat)
    : SqlBuilder.valueGroups columns rows offset
        = ((List.range (groupsOf columns rows).length).map (fun i =>
            SqlBuilder.valueGroup columns (offset + i * columns.length)),
          (groupsOf columns rows).flatten) := by
  induction rows generalizing offset with
  | nil => rfl
  | cons row rows ih =>
    cases row with
    | object members =>
      have hgroups : groupsOf columns (.object members :: rows)
          = columns.map (fun col => jsonToSqlValue ((Json.object members).get col))
            :: groupsOf columns rows := rfl
      have hshift : (fun i => SqlBuilder.valueGroup columns (offset + columns.length + i * columns.length))
          = (fun i => SqlBuilder.valueGroup columns (offset + i * columns.length)) ∘ Nat.succ := by
        funext i
        show _ = SqlBuilder.valueGroup columns (offset + (i + 1) * columns.length)
        congr 1
        rw [Nat.add_mul]
        omega
      rw [SqlBuilder.valueGroups, ih, hgroups, List.length_cons, List.range_succ_eq_map, List.map_cons,
        List.map_map, ← hshift, List.flatten_cons, Nat.zero_mul, Nat.add_zero]
    | _ => exact ih offset

/--
The text and the parameters that are built are those of the statement.
-/
theorem buildInsert_eq (b : SqlBuilder) (rows : List Json) (table : TableSnapshot) (prefer : Prefer)
    (plan : QueryPlan)
    : b.buildInsert rows table prefer plan
        = (insertOf rows table prefer).map (fun st => (st.text b table prefer plan, st.groups.flatten)) := by
  rw [SqlBuilder.buildInsert, insertOf]
  split
  . rfl
  . cases SqlBuilder.collectColumns table [] rows with
    | error e => rfl
    | ok columns =>
      have hgroups := valueGroups_eq columns rows 0
      have hoffset : (fun i => SqlBuilder.valueGroup columns (0 + i * columns.length))
          = fun i => SqlBuilder.valueGroup columns (i * columns.length) := by
        funext i
        rw [Nat.zero_add]
      dsimp only [bind, Except.bind]
      rw [hgroups, hoffset]
      rfl

/-! What the database does -/

abbrev Proposed := String → SqlValue

/--
What a database does with one row: its constraints, its triggers and what is stored already.
-/
structure Engine where
  State : Type
  handle : Conflict → State → Proposed → Option State

section

variable (sameKey : List String → Proposed → Proposed → Prop) (defaults : Nat → Proposed)

/--
A row of the statement. The columns that are not named get their defaults, which may be others for
every row.
-/
def proposed (columns : List String) (group : List SqlValue) (i : Nat) : Proposed :=
  fun c => ((columns.zip group).lookup c).getD (defaults i c)

def InsertStatement.rows (st : InsertStatement) : List Proposed :=
  st.groups.mapIdx (fun i group => proposed defaults st.columns group i)

/--
`ON CONFLICT DO UPDATE` refuses to affect a row twice.
-/
def InsertStatement.Clashes (st : InsertStatement) : Prop :=
  match st.conflict with
  | .update key _ => ¬ (st.rows defaults).Pairwise (fun r r' => ¬ sameKey key r r')
  | _ => False

/--
Without columns or rows the text is no statement.
-/
def InsertStatement.Refused (st : InsertStatement) : Prop :=
  st.columns = [] ∨ st.groups = [] ∨ st.Clashes sameKey defaults

open Classical in
noncomputable def InsertStatement.exec (st : InsertStatement) (engine : Engine) (s : engine.State)
    : Option engine.State :=
  if st.Refused sameKey defaults then
    none
  else
    (st.rows defaults).foldlM (engine.handle st.conflict) s

/--
An element on its own, with its own keys.
-/
def alone (table : TableSnapshot) (prefer : Prefer) (members : List (String × Json)) (i : Nat)
    : Conflict × Proposed :=
  (conflictOf (members.map Prod.fst) table prefer,
    fun c => ((members.lookup c).map (fun value => jsonToSqlValue (some value))).getD (defaults i c))

def rowByRow (rows : List Json) (table : TableSnapshot) (prefer : Prefer) (engine : Engine)
    (s : engine.State) : Option engine.State :=
  ((objects rows).mapIdx (fun i members => alone defaults table prefer members i)).foldlM
    (fun s row => engine.handle row.1 s row.2) s

def IsObject (row : Json) : Prop :=
  ∃ members, row = .object members

/--
The statement does what one statement for each element does, or fails if there is an element that is no
object.
-/
def BatchExact (rows : List Json) (table : TableSnapshot) (prefer : Prefer) : Prop :=
  ∀ st, insertOf rows table prefer = .ok st →
    ((∀ row ∈ rows, IsObject row) → ∀ (engine : Engine) s,
        st.exec sameKey defaults engine s = rowByRow defaults rows table prefer engine s)
      ∧ ((∃ row ∈ rows, ¬ IsObject row) → ∀ (engine : Engine) s, st.exec sameKey defaults engine s = none)

/-! The batches that are exact -/

/--
The keys of all elements.
-/
def allKeys (rows : List Json) : List String :=
  (objects rows).flatMap (fun members => members.map Prod.fst)

/--
The row that an element gets in the batch.
-/
def batchRow (rows : List Json) (members : List (String × Json)) (i : Nat) : Proposed :=
  fun c => if c ∈ allKeys rows then jsonToSqlValue (members.lookup c) else defaults i c

def batchRows (rows : List Json) : List Proposed :=
  (objects rows).mapIdx (fun i members => batchRow defaults rows members i)

/--
Two elements of the batch have one key, and `ON CONFLICT DO UPDATE` is said.
-/
def SameRow (rows : List Json) (table : TableSnapshot) (prefer : Prefer) : Prop :=
  match conflictOf (allKeys rows) table prefer with
  | .update key _ => ¬ (batchRows defaults rows).Pairwise (fun r r' => ¬ sameKey key r r')
  | _ => False

/--
Every element alone has the `ON CONFLICT` clause of the batch, and a key that it lacks and another
element has is one of a column whose default is `NULL`.
-/
def Alike (rows : List Json) (table : TableSnapshot) (prefer : Prefer) : Prop :=
  ∀ i members, (objects rows)[i]? = some members →
    conflictOf (members.map Prod.fst) table prefer = conflictOf (allKeys rows) table prefer
      ∧ ∀ c ∈ allKeys rows, c ∉ members.map Prod.fst → defaults i c = .null

/--
The body is refused because of a key that is no column, or it is a batch of objects with the same
columns up to defaults of `NULL`.
-/
def BatchSafe (rows : List Json) (table : TableSnapshot) (prefer : Prefer) : Prop :=
  rows = [] ∨ (∃ c ∈ allKeys rows, c ∉ table.columns)
    ∨ (∀ row ∈ rows, IsObject row) ∧ allKeys rows ≠ [] ∧ ¬ SameRow sameKey defaults rows table prefer
        ∧ Alike defaults rows table prefer
    ∨ (∃ row ∈ rows, ¬ IsObject row) ∧ (allKeys rows = [] ∨ SameRow sameKey defaults rows table prefer)

theorem conflictOf_congr {columns columns' : List String} (h : ∀ c, c ∈ columns ↔ c ∈ columns')
    (table : TableSnapshot) (prefer : Prefer)
    : conflictOf columns table prefer = conflictOf columns' table prefer := by
  unfold conflictOf
  cases prefer.resolution with
  | ignoreDuplicates => rfl
  | mergeDuplicates =>
    have hmem (c : String)
        : c ∈ columns.filter (· ∉ table.primaryKey) ↔ c ∈ columns'.filter (· ∉ table.primaryKey) := by
      rw [List.mem_filter, List.mem_filter, h]
    have hempty : (columns.filter (· ∉ table.primaryKey)).isEmpty
        = (columns'.filter (· ∉ table.primaryKey)).isEmpty := by
      rw [Bool.eq_iff_iff, List.isEmpty_iff, List.isEmpty_iff, List.eq_nil_iff_forall_not_mem,
        List.eq_nil_iff_forall_not_mem]
      exact forall_congr' (fun c => not_congr (hmem c))
    have hset : (columns.filter (· ∉ table.primaryKey)).toFinset
        = (columns'.filter (· ∉ table.primaryKey)).toFinset := by
      apply Finset.ext
      intro c
      rw [List.mem_toFinset, List.mem_toFinset]
      exact hmem c
    dsimp only
    rw [hempty, hset]

theorem collectKeys_ok {table : TableSnapshot} {known keys columns : List String}
    (h : SqlBuilder.collectKeys table known keys = .ok columns) (c : String)
    : c ∈ columns ↔ c ∈ known ∨ c ∈ keys := by
  induction keys generalizing known with
  | nil =>
    cases h
    simp
  | cons key keys ih =>
    unfold SqlBuilder.collectKeys at h
    split at h
    . next hknown =>
      rw [ih h, List.mem_cons]
      constructor
      . apply Or.imp_right
        apply Or.inr
      . intro hor
        rcases hor with hmem | hkey | hmem
        . exact .inl hmem
        . rw [hkey]
          exact .inl hknown
        . exact .inr hmem
    . split at h
      . rw [ih h, List.mem_append, List.mem_singleton, or_assoc, List.mem_cons]
      . cases h

theorem collectKeys_isOk {table : TableSnapshot} {known : List String} (hknown : ∀ c ∈ known, c ∈ table.columns)
    (keys : List String)
    : (∃ columns, SqlBuilder.collectKeys table known keys = .ok columns) ↔ ∀ c ∈ keys, c ∈ table.columns := by
  induction keys generalizing known with
  | nil => simp [SqlBuilder.collectKeys]
  | cons key keys ih =>
    rw [SqlBuilder.collectKeys, List.forall_mem_cons]
    split
    . next hmem =>
      rw [ih hknown, and_iff_right (hknown key hmem)]
    . split
      . next hcolumn =>
        rw [and_iff_right hcolumn]
        apply ih
        intro c hc
        rw [List.mem_append, List.mem_singleton] at hc
        cases hc with
        | inl hc => exact hknown c hc
        | inr hc => rwa [hc]
      . next hcolumn => simp [hcolumn]

theorem allKeys_object (members : List (String × Json)) (rows : List Json)
    : allKeys (.object members :: rows) = members.map Prod.fst ++ allKeys rows := rfl

theorem collectColumns_ok_known {table : TableSnapshot} {known : List String} {rows : List Json}
    {columns : List String} (h : SqlBuilder.collectColumns table known rows = .ok columns) (c : String)
    : c ∈ columns ↔ c ∈ known ∨ c ∈ allKeys rows := by
  induction rows generalizing known with
  | nil =>
    cases h
    simp [allKeys, objects]
  | cons row rows ih =>
    cases row with
    | object members =>
      unfold SqlBuilder.collectColumns at h
      cases hkeys : SqlBuilder.collectKeys table known (members.map Prod.fst) with
      | error e =>
        rw [hkeys] at h
        cases h
      | ok next =>
        rw [hkeys] at h
        rw [ih h, collectKeys_ok hkeys, allKeys_object, List.mem_append, or_assoc]
    | _ => exact ih h

theorem collectColumns_ok {table : TableSnapshot} {rows : List Json} {columns : List String}
    (h : SqlBuilder.collectColumns table [] rows = .ok columns) (c : String)
    : c ∈ columns ↔ c ∈ allKeys rows := by
  rw [collectColumns_ok_known h]
  simp

theorem collectColumns_isOk_known {table : TableSnapshot} {known : List String}
    (hknown : ∀ c ∈ known, c ∈ table.columns) (rows : List Json)
    : (∃ columns, SqlBuilder.collectColumns table known rows = .ok columns)
        ↔ ∀ c ∈ allKeys rows, c ∈ table.columns := by
  induction rows generalizing known with
  | nil => simp [SqlBuilder.collectColumns, allKeys, objects]
  | cons row rows ih =>
    cases row with
    | object members =>
      have hkeys := collectKeys_isOk hknown (members.map Prod.fst)
      rw [SqlBuilder.collectColumns, allKeys_object, List.forall_mem_append, ← hkeys]
      cases hnext : SqlBuilder.collectKeys table known (members.map Prod.fst) with
      | error e => simp [bind, Except.bind]
      | ok next =>
        rw [hnext] at hkeys
        have hcolumns := hkeys.mp ⟨next, rfl⟩
        have hknown' : ∀ c ∈ next, c ∈ table.columns := by
          intro c hc
          rw [collectKeys_ok hnext] at hc
          cases hc with
          | inl hc => exact hknown c hc
          | inr hc => exact hcolumns c hc
        rw [and_iff_right ⟨next, rfl⟩]
        exact ih hknown'
    | _ => exact ih hknown

theorem collectColumns_isOk (table : TableSnapshot) (rows : List Json)
    : (∃ columns, SqlBuilder.collectColumns table [] rows = .ok columns)
        ↔ ∀ c ∈ allKeys rows, c ∈ table.columns := by
  apply collectColumns_isOk_known
  simp

theorem insertOf_ok {rows : List Json} {table : TableSnapshot} {prefer : Prefer} {st : InsertStatement}
    (h : insertOf rows table prefer = .ok st)
    : ∃ columns, (∀ c, c ∈ columns ↔ c ∈ allKeys rows)
        ∧ st = ⟨columns, groupsOf columns rows, conflictOf columns table prefer⟩ := by
  unfold insertOf at h
  split at h
  . cases h
  . cases hcolumns : SqlBuilder.collectColumns table [] rows with
    | error e =>
      rw [hcolumns] at h
      cases h
    | ok columns =>
      rw [hcolumns] at h
      cases h
      exact ⟨columns, collectColumns_ok hcolumns, rfl⟩

theorem insertOf_isOk {rows : List Json} {table : TableSnapshot} {prefer : Prefer} (hrows : rows ≠ [])
    (hcolumns : ∀ c ∈ allKeys rows, c ∈ table.columns) : ∃ st, insertOf rows table prefer = .ok st := by
  have ⟨columns, hok⟩ := (collectColumns_isOk table rows).mpr hcolumns
  rw [insertOf, if_neg (mt List.isEmpty_iff.mp hrows), hok]
  exact ⟨_, rfl⟩

theorem insertOf_columns {rows : List Json} {table : TableSnapshot} {prefer : Prefer} {st : InsertStatement}
    (h : insertOf rows table prefer = .ok st) : rows ≠ [] ∧ ∀ c ∈ allKeys rows, c ∈ table.columns := by
  unfold insertOf at h
  split at h
  . cases h
  . next hrows =>
    refine ⟨mt List.isEmpty_iff.mpr hrows, ?_⟩
    rw [← collectColumns_isOk]
    cases hcolumns : SqlBuilder.collectColumns table [] rows with
    | error e =>
      rw [hcolumns] at h
      cases h
    | ok columns => exact ⟨columns, rfl⟩

theorem lookup_zip_map {α β : Type} [DecidableEq α] (f : α → β) (l : List α) (a : α)
    : (l.zip (l.map f)).lookup a = if a ∈ l then some (f a) else none := by
  induction l with
  | nil => rfl
  | cons b l ih =>
    rw [List.map_cons, List.zip_cons_cons, List.lookup_cons, ih]
    by_cases h : a = b
    . subst h
      simp
    . rw [beq_false_of_ne h]
      simp [h]

theorem rows_of_ok {rows : List Json} {table : TableSnapshot} {prefer : Prefer} {st : InsertStatement}
    (h : insertOf rows table prefer = .ok st) : st.rows defaults = batchRows defaults rows := by
  have ⟨columns, hcolumns, hst⟩ := insertOf_ok h
  subst hst
  rw [InsertStatement.rows, List.mapIdx_eq_iff]
  intro i
  show _ = ((objects rows).map _)[i]?.map _
  rw [batchRows, List.getElem?_mapIdx, List.getElem?_map, Option.map_map]
  congr 1
  funext members c
  show _ = ((columns.zip (columns.map _)).lookup c).getD _
  rw [lookup_zip_map, batchRow]
  by_cases hc : c ∈ columns
  . rw [if_pos hc, if_pos ((hcolumns c).mp hc)]
    rfl
  . rw [if_neg hc, if_neg (mt (hcolumns c).mpr hc)]
    rfl

theorem conflict_of_ok {rows : List Json} {table : TableSnapshot} {prefer : Prefer} {st : InsertStatement}
    (h : insertOf rows table prefer = .ok st) : st.conflict = conflictOf (allKeys rows) table prefer := by
  have ⟨columns, hcolumns, hst⟩ := insertOf_ok h
  rw [hst]
  exact conflictOf_congr hcolumns table prefer

theorem refused_of_ok {rows : List Json} {table : TableSnapshot} {prefer : Prefer} {st : InsertStatement}
    (h : insertOf rows table prefer = .ok st)
    : st.Refused sameKey defaults ↔ allKeys rows = [] ∨ SameRow sameKey defaults rows table prefer := by
  have hclashes : st.Clashes sameKey defaults ↔ SameRow sameKey defaults rows table prefer := by
    rw [InsertStatement.Clashes, SameRow, conflict_of_ok h, rows_of_ok defaults h]
  have ⟨columns, hcolumns, hst⟩ := insertOf_ok h
  have hnames : st.columns = [] ↔ allKeys rows = [] := by
    rw [hst, List.eq_nil_iff_forall_not_mem, List.eq_nil_iff_forall_not_mem]
    exact forall_congr' (fun c => not_congr (hcolumns c))
  have hgroups : st.groups = [] → allKeys rows = [] := by
    rw [hst]
    intro hnil
    rw [allKeys, List.map_eq_nil_iff.mp hnil]
    rfl
  rw [InsertStatement.Refused, hclashes, hnames]
  constructor
  . intro hor
    rcases hor with hkeys | hnil | hsame
    . exact .inl hkeys
    . exact .inl (hgroups hnil)
    . exact .inr hsame
  . apply Or.imp_right
    apply Or.inr

theorem alone_eq_iff {rows : List Json} (table : TableSnapshot) (prefer : Prefer)
    {members : List (String × Json)} (hmem : members ∈ objects rows) (i : Nat)
    : alone defaults table prefer members i
          = (conflictOf (allKeys rows) table prefer, batchRow defaults rows members i)
        ↔ conflictOf (members.map Prod.fst) table prefer = conflictOf (allKeys rows) table prefer
          ∧ ∀ c ∈ allKeys rows, c ∉ members.map Prod.fst → defaults i c = .null := by
  rw [alone, Prod.mk.injEq, funext_iff]
  apply and_congr_right'
  apply forall_congr'
  intro c
  by_cases hkey : c ∈ members.map Prod.fst
  . have hall : c ∈ allKeys rows := List.mem_flatMap.mpr ⟨members, hmem, hkey⟩
    have ⟨value, hvalue⟩ : ∃ value, members.lookup c = some value := by
      have ⟨member, hmember, hfst⟩ := List.mem_map.mp hkey
      rw [← Option.isSome_iff_exists, List.lookup_isSome_iff]
      exact ⟨member, hmember, beq_iff_eq.mpr hfst.symm⟩
    rw [batchRow, if_pos hall, hvalue]
    exact iff_of_true rfl (fun _ hnot => absurd hkey hnot)
  . have hnone : members.lookup c = none := by
      rw [List.lookup_eq_none_iff]
      intro member hmember
      rw [bne_iff_ne]
      intro heq
      exact hkey (List.mem_map.mpr ⟨member, hmember, heq.symm⟩)
    rw [batchRow, hnone]
    by_cases hall : c ∈ allKeys rows
    . rw [if_pos hall]
      exact ⟨fun heq _ _ => heq, fun himp => himp hall hkey⟩
    . rw [if_neg hall]
      exact iff_of_true rfl (fun hmem => absurd hmem hall)

theorem alone_rows_iff (rows : List Json) (table : TableSnapshot) (prefer : Prefer)
    : (objects rows).mapIdx (fun i members => alone defaults table prefer members i)
          = (batchRows defaults rows).map (Prod.mk (conflictOf (allKeys rows) table prefer))
        ↔ Alike defaults rows table prefer := by
  rw [List.mapIdx_eq_iff]
  apply forall_congr'
  intro i
  rw [List.getElem?_map, batchRows, List.getElem?_mapIdx]
  cases hrow : (objects rows)[i]? with
  | none => simp
  | some members =>
    have hiff := alone_eq_iff defaults table prefer (List.mem_of_getElem? hrow) i
    simp only [Option.map_some, Option.some.injEq, forall_eq']
    rw [← hiff]
    exact eq_comm

theorem exec_of_ok {rows : List Json} {table : TableSnapshot} {prefer : Prefer} {st : InsertStatement}
    (h : insertOf rows table prefer = .ok st)
    (hnot : ¬ (allKeys rows = [] ∨ SameRow sameKey defaults rows table prefer)) (engine : Engine)
    (s : engine.State)
    : st.exec sameKey defaults engine s
        = ((batchRows defaults rows).map (Prod.mk (conflictOf (allKeys rows) table prefer))).foldlM
            (fun s row => engine.handle row.1 s row.2) s := by
  rw [InsertStatement.exec, if_neg (mt (refused_of_ok sameKey defaults h).mp hnot), rows_of_ok defaults h,
    conflict_of_ok h, List.foldlM_map]

theorem exec_of_refused {rows : List Json} {table : TableSnapshot} {prefer : Prefer} {st : InsertStatement}
    (h : insertOf rows table prefer = .ok st)
    (hrefused : allKeys rows = [] ∨ SameRow sameKey defaults rows table prefer) (engine : Engine)
    (s : engine.State) : st.exec sameKey defaults engine s = none := by
  rw [InsertStatement.exec, if_pos ((refused_of_ok sameKey defaults h).mpr hrefused)]

/--
A database that refuses nothing and remembers what it was given.
-/
abbrev journal : Engine where
  State := List (Conflict × Proposed)
  handle := fun conflict s row => some (s ++ [(conflict, row)])

theorem foldlM_journal (l s : List (Conflict × Proposed))
    : l.foldlM (fun s row => journal.handle row.1 s row.2) s = some (s ++ l) := by
  induction l generalizing s with
  | nil => simp
  | cons row l ih =>
    rw [List.foldlM_cons, Option.bind_eq_bind, Option.bind_some, ih, List.append_assoc]
    rfl

theorem batchSafe_of_exact {rows : List Json} {table : TableSnapshot} {prefer : Prefer}
    (hexact : BatchExact sameKey defaults rows table prefer) {st : InsertStatement}
    (h : insertOf rows table prefer = .ok st) : BatchSafe sameKey defaults rows table prefer := by
  have ⟨hobjects, hother⟩ := hexact st h
  apply Or.inr
  apply Or.inr
  by_cases hrefused : allKeys rows = [] ∨ SameRow sameKey defaults rows table prefer
  . refine .inr ⟨?_, hrefused⟩
    -- one statement for each element is accepted by the journal
    by_contra hno
    have hall : ∀ row ∈ rows, IsObject row := by
      intro row hrow
      by_contra hobject
      exact hno ⟨row, hrow, hobject⟩
    have heq := hobjects hall journal []
    rw [exec_of_refused sameKey defaults h hrefused, rowByRow, foldlM_journal] at heq
    cases heq
  . have hexec := exec_of_ok sameKey defaults h hrefused journal []
    rw [foldlM_journal] at hexec
    have hall : ∀ row ∈ rows, IsObject row := by
      intro row hrow
      by_contra hobject
      have hnone := hother ⟨row, hrow, hobject⟩ journal []
      rw [hexec] at hnone
      cases hnone
    have heq := hobjects hall journal []
    rw [hexec, rowByRow, foldlM_journal, List.nil_append, List.nil_append, Option.some.injEq] at heq
    rw [not_or] at hrefused
    exact .inl ⟨hall, hrefused.1, hrefused.2, (alone_rows_iff defaults rows table prefer).mp heq.symm⟩

/--
The batch does what one statement for each element does if and only if it is safe.
-/
theorem batchExact_iff (rows : List Json) (table : TableSnapshot) (prefer : Prefer)
    : BatchExact sameKey defaults rows table prefer ↔ BatchSafe sameKey defaults rows table prefer := by
  constructor
  . intro hexact
    by_cases hrows : rows = []
    . exact .inl hrows
    . by_cases hcolumns : ∀ c ∈ allKeys rows, c ∈ table.columns
      . have ⟨st, hst⟩ := @insertOf_isOk rows table prefer hrows hcolumns
        exact batchSafe_of_exact sameKey defaults hexact hst
      . refine .inr (.inl ?_)
        push Not at hcolumns
        exact hcolumns
  . intro hsafe st hst
    have ⟨hrows, hcolumns⟩ := insertOf_columns hst
    rcases hsafe with hnil | ⟨c, hc, hnot⟩ | ⟨hall, hkeys, hsame, halike⟩ | ⟨⟨row, hrow, hobject⟩, hrefused⟩
    . exact absurd hnil hrows
    . exact absurd (hcolumns c hc) hnot
    . constructor
      . intro _ engine s
        rw [exec_of_ok sameKey defaults hst (not_or.mpr ⟨hkeys, hsame⟩), rowByRow,
          (alone_rows_iff defaults rows table prefer).mpr halike]
      . intro hexists
        have ⟨row, hrow, hobject⟩ := hexists
        exact absurd (hall row hrow) hobject
    . constructor
      . intro hall
        exact absurd (hall row hrow) hobject
      . intro _ engine s
        exact exec_of_refused sameKey defaults hst hrefused engine s

end

/--
`done boolean default false`
-/
def tasksTable : TableSnapshot :=
  ⟨"public", "tasks", ["id", "title", "done"], ["id"], []⟩

def tasksDefaults (i : Nat) : Proposed
  | "id" => .int (Int64.ofNat (i + 1))
  | "done" => .bool false
  | _ => .null

def tasksBody : List Json :=
  [.object [("title", .string "tea")], .object [("title", .string "milk"), ("done", .bool true)]]

/--
The first element is stored with `NULL` for `done`.
-/
theorem not_batchExact
    : ¬ BatchExact (fun key r r' => ∀ c ∈ key, r c = r' c) tasksDefaults tasksBody tasksTable
        ⟨.representation, .mergeDuplicates⟩ := by
  intro hexact
  have ⟨st, hst⟩ := @insertOf_isOk tasksBody tasksTable ⟨.representation, .mergeDuplicates⟩ (List.cons_ne_nil _ _)
    (by decide)
  have hall : ∀ row ∈ tasksBody, IsObject row := by
    intro row hrow
    rcases List.mem_pair.mp hrow with heq | heq
    . exact ⟨_, heq⟩
    . exact ⟨_, heq⟩
  rcases batchSafe_of_exact _ _ hexact hst with hnil | ⟨c, hc, hnot⟩ | ⟨-, -, -, halike⟩ | ⟨⟨row, hrow, hobject⟩, -⟩
  . cases hnil
  . have hcolumns := (insertOf_columns hst).2
    exact hnot (hcolumns c hc)
  . have hnull := (halike 0 _ rfl).2 "done" (by decide) (by decide)
    cases hnull
  . exact hobject (hall row hrow)

end Reactor.Data.Execute
