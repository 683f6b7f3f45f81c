import ReactorCloud.Data.Execute.Format
import ReactorCloud.Rust.HashMap
import ReactorCloud.Rust.Result
import ReactorCloud.Sql.LexerLemmas

/-!
This module contains how the embeds of a select are resolved against the foreign keys of a schema, and
which trees of resolved embeds are well formed: those without nested embeds, whose data no SQL refers to.
-/

namespace Reactor.Data.Execute

open Rust (HashMap)

abbrev Spec := EmbedSpec SelectColumn

structure SchemaSnapshot where
  tables : HashMap TableSnapshot

namespace SchemaSnapshot

def getTable (schema : SchemaSnapshot) (name : String) : Option TableSnapshot :=
  schema.tables.lookup name

/--
The first table in the order of the map that has the foreign key back to the parent.
-/
def findBack (schema : SchemaSnapshot) (hint parent : String) : Option (ForeignKeyInfo × TableSnapshot) :=
  schema.tables.entries.findSome? fun ⟨_, table⟩ =>
    (table.foreignKeys.find? (fun fk => fk.name = hint ∧ fk.refTable = parent)).map (·, table)

end SchemaSnapshot

abbrev Candidate := ForeignKeyInfo × TableSnapshot × EmbedDirection

def findByHint (hint : String) (schema : SchemaSnapshot) (parent : TableSnapshot)
    : Except DataError Candidate :=
  match parent.foreignKeys.find? (fun fk => fk.name = hint) with
  | some fk =>
    match schema.getTable fk.refTable with
    | some refTable => .ok (fk, refTable, .toOne)
    | none =>
      .error (.invalidQuery ("referenced table '" ++ fk.refTable ++ "' not found for FK hint '" ++ hint ++ "'"))
  | none =>
    match schema.findBack hint parent.name with
    | some (fk, table) => .ok (fk, table, .toMany)
    | none => .error (.invalidQuery ("foreign key hint '" ++ hint ++ "' not found"))

def toOneCandidates (name : String) (schema : SchemaSnapshot) (parent : TableSnapshot) : List Candidate :=
  parent.foreignKeys.filterMap fun fk =>
    if fk.refTable = name then
      (schema.getTable fk.refTable).map (fk, ·, .toOne)
    else
      none

def toManyCandidates (name : String) (schema : SchemaSnapshot) (parent : TableSnapshot) : List Candidate :=
  match schema.getTable name with
  | some refTable =>
    (refTable.foreignKeys.filter (·.refTable = parent.name)).map (·, refTable, .toMany)
  | none => []

def candidateHint (name : String) : Candidate → String
  | (fk, _, .toOne) => name ++ "!" ++ fk.name ++ " (→)"
  | (fk, _, .toMany) => name ++ "!" ++ fk.name ++ " (←)"

def findFkForEmbed (embed : Spec) (schema : SchemaSnapshot) (parent : TableSnapshot)
    : Except DataError Candidate :=
  match embed.fkHint with
  | some hint => findByHint hint schema parent
  | none =>
    match toOneCandidates embed.name schema parent ++ toManyCandidates embed.name schema parent with
    | [] => .error (.invalidQuery ("cannot resolve embed '" ++ embed.name
        ++ "': no foreign key relationship found with table '" ++ parent.name ++ "'"))
    | [candidate] => .ok candidate
    | candidates => .error (.ambiguousEmbed embed.name (candidates.map (candidateHint embed.name)))

def SelectColumn.embedSpec : SelectColumn → Option Spec
  | .embed spec => some spec
  | _ => none

def nestedSpecs (embed : Spec) : List Spec :=
  embed.columns.filterMap SelectColumn.embedSpec

def embedAlias (name : String) (counter : Nat) : String :=
  "embed_" ++ name ++ "_" ++ Nat.repr counter

section

variable (schema : SchemaSnapshot) (maxDepth : Nat)

variable (resolveNested : List Spec → TableSnapshot → Except DataError (List ResolvedEmbed)) in
def resolveBelow (embed : Spec) (refTable : TableSnapshot) : Except DataError (List ResolvedEmbed) :=
  if (nestedSpecs embed).isEmpty then .ok [] else resolveNested (nestedSpecs embed) refTable

/--
The embeds of one parent, whose aliases are counted from `counter` on.
-/
def resolveSiblings (resolveNested : List Spec → TableSnapshot → Except DataError (List ResolvedEmbed))
    (parent : TableSnapshot) : Nat → List Spec → Except DataError (List ResolvedEmbed)
  | _, [] => .ok []
  | counter, embed :: embeds => do
    let (fk, refTable, direction) ← findFkForEmbed embed schema parent
    let nested ← resolveBelow resolveNested embed refTable
    let resolved ← resolveSiblings resolveNested parent (counter + 1) embeds
    .ok (⟨embed, fk, refTable, direction, nested, embedAlias embed.name (counter + 1)⟩ :: resolved)

/--
Resolve embeds with `levels` levels left below the maximum depth.
-/
def resolveLevels : Nat → Nat → List Spec → TableSnapshot → Except DataError (List ResolvedEmbed)
  | 0, _, _, _ =>
    .error (.invalidQuery ("maximum embed depth " ++ Nat.repr maxDepth ++ " exceeded"))
  | levels + 1, depth, embeds, parent =>
    resolveSiblings schema (resolveLevels levels (depth + 1)) parent (depth * 100) embeds

def resolveEmbeds (embeds : List Spec) (parent : TableSnapshot) (depth : Nat)
    : Except DataError (List ResolvedEmbed) :=
  resolveLevels schema maxDepth (maxDepth - depth) depth embeds parent

end

/-! Trees of embeds -/

namespace ResolvedEmbed

/--
The embed and all embeds below it.
-/
def nodes : ResolvedEmbed → List ResolvedEmbed
  | ⟨spec, fk, refTable, direction, nested, sqlAlias⟩ =>
    ⟨spec, fk, refTable, direction, nested, sqlAlias⟩ :: nested.flatMap nodes

/--
The tree is at most `levels` embeds deep.
-/
inductive Within : Nat → ResolvedEmbed → Prop
  | node (levels : Nat) (embed : ResolvedEmbed) (h : ∀ n ∈ embed.nested, Within levels n)
    : Within (levels + 1) embed

/--
Every embed of the select has its node.
-/
inductive Mirrors : Spec → ResolvedEmbed → Prop
  | node (embed : ResolvedEmbed) (h : List.Forall₂ Mirrors (nestedSpecs embed.spec) embed.nested)
    : Mirrors embed.spec embed

/--
The reference to the data of an embed.
-/
def dataRef (embed : ResolvedEmbed) : String :=
  quoted embed.sqlAlias ++ ".data"

end ResolvedEmbed

open ResolvedEmbed (Within Mirrors nodes dataRef)

def Occurs (part sql : String) : Prop :=
  part.toList <:+: sql.toList

/--
One of the values that the object of the parent is built from is the data of the embed.
-/
def IsMember (embed parent : ResolvedEmbed) : Prop :=
  ∃ member ∈ parent.spec.columns.filterMap embedColumnJson, (dataRef embed).toList <:+ member.toList

structure ForestWellFormed (maxDepth : Nat) (embeds : List Spec) (forest : List ResolvedEmbed) : Prop where
  depth : ∀ embed ∈ forest, Within maxDepth embed
  aliases : ((forest.flatMap nodes).map ResolvedEmbed.sqlAlias).Nodup
  mirrors : List.Forall₂ Mirrors embeds forest
  selected : ∀ (b : SqlBuilder) plan decide sql params,
    b.buildSelectWithEmbeds plan forest decide = .ok (sql, params) →
      ∀ embed ∈ forest, Occurs (dataRef embed) sql
  members : ∀ parent ∈ forest.flatMap nodes, ∀ embed ∈ parent.nested, IsMember embed parent

/-! Well-formed trees -/

open Rust (HashMap bind_eq_ok)

/-! Aliases -/

theorem append_sep_inj {s t x y : List Char} (hx : '_' ∉ x) (hy : '_' ∉ y)
    (h : s ++ '_' :: x = t ++ '_' :: y) : x = y := by
  have htake {s x : List Char} (hx : '_' ∉ x)
      : (s ++ '_' :: x).reverse.takeWhile (· ≠ '_') = x.reverse := by
    rw [List.reverse_append, List.reverse_cons, List.append_assoc]
    apply Rust.Str.takeWhile_append
    . intro c hc
      rw [decide_eq_true_eq]
      rintro rfl
      exact hx (List.mem_reverse.mp hc)
    . intro c hc
      cases hc
      rfl
  have := htake (s := s) hx
  rw [h, htake hy] at this
  exact (List.reverse_inj.mp this).symm

theorem underscore_repr (n : Nat) : '_' ∉ (Nat.repr n).toList := by
  intro hmem
  have := Sql.isDigit_repr n '_' hmem
  revert this
  decide

theorem embedAlias_inj {name name' : String} {i j : Nat} (h : embedAlias name i = embedAlias name' j)
    : i = j := by
  have h := congrArg String.toList h
  simp only [embedAlias, String.toList_append] at h
  have hsep : "_".toList = ['_'] := rfl
  rw [hsep, List.append_assoc, List.append_assoc] at h
  have := append_sep_inj (underscore_repr i) (underscore_repr j) (by simpa using h)
  rw [Nat.repr, Nat.repr, String.toList_ofList, String.toList_ofList] at this
  rw [← @Nat.ofDigitChars_ten_toDigits i, this, Nat.ofDigitChars_ten_toDigits]

/-! What is resolved -/

theorem exists_of_mem_right {α β : Type} {r : α → β → Prop} {as : List α} {bs : List β} {b : β}
    (h : List.Forall₂ r as bs) (hb : b ∈ bs) : ∃ a ∈ as, r a b := by
  induction h with
  | nil => cases hb
  | cons hhead _ ih =>
    cases List.mem_cons.mp hb with
    | inl heq => exact ⟨_, List.mem_cons_self, heq ▸ hhead⟩
    | inr hmem =>
      have ⟨a, ha, hr⟩ := ih hmem
      exact ⟨a, List.mem_cons_of_mem _ ha, hr⟩

section

variable {schema : SchemaSnapshot} {maxDepth : Nat}
  {resolveNested : List Spec → TableSnapshot → Except DataError (List ResolvedEmbed)}

/--
What the embeds of one parent come out as.
-/
structure Resolves (schema : SchemaSnapshot)
    (resolveNested : List Spec → TableSnapshot → Except DataError (List ResolvedEmbed))
    (parent : TableSnapshot) (counter : Nat) (embed : Spec) (node : ResolvedEmbed) : Prop where
  spec : node.spec = embed
  found : findFkForEmbed embed schema parent = .ok (node.fk, node.refTable, node.direction)
  leaf : nestedSpecs embed = [] → node.nested = []
  nested : nestedSpecs embed ≠ [] → resolveNested (nestedSpecs embed) node.refTable = .ok node.nested
  sqlAlias : ∃ i, counter < i ∧ node.sqlAlias = embedAlias embed.name i

theorem Resolves.mono {parent : TableSnapshot} {counter counter' : Nat} {embed : Spec}
    {node : ResolvedEmbed} (h : Resolves schema resolveNested parent counter embed node)
    (hle : counter' ≤ counter) : Resolves schema resolveNested parent counter' embed node :=
  have ⟨i, hi, halias⟩ := h.sqlAlias
  { h with sqlAlias := ⟨i, Nat.lt_of_le_of_lt hle hi, halias⟩ }

theorem resolveSiblings_ok {parent : TableSnapshot} {counter : Nat} {embeds : List Spec}
    {forest : List ResolvedEmbed}
    (h : resolveSiblings schema resolveNested parent counter embeds = .ok forest)
    : List.Forall₂ (Resolves schema resolveNested parent counter) embeds forest
        ∧ (forest.map ResolvedEmbed.sqlAlias).Nodup := by
  induction embeds generalizing counter forest with
  | nil =>
    cases h
    exact ⟨.nil, List.nodup_nil⟩
  | cons embed embeds ih =>
    rw [resolveSiblings] at h
    have ⟨(fk, refTable, direction), hfound, h⟩ := bind_eq_ok.mp h
    have ⟨nested, hnested, h⟩ := bind_eq_ok.mp h
    have ⟨resolved, hresolved, h⟩ := bind_eq_ok.mp h
    cases h
    have ⟨hall, hnodup⟩ := ih hresolved
    constructor
    . refine .cons ⟨rfl, hfound, ?_, ?_, counter + 1, Nat.lt_succ_self _, rfl⟩
        (hall.imp fun _ _ hnode => hnode.mono (Nat.le_succ _))
      . intro hnil
        rw [resolveBelow, hnil] at hnested
        cases hnested
        rfl
      . intro hne
        rwa [resolveBelow, if_neg (by simpa using hne)] at hnested
    . rw [List.map_cons, List.nodup_cons]
      refine ⟨?_, hnodup⟩
      -- the aliases after the first one have greater counters
      intro hmem
      obtain ⟨node, hnode, halias⟩ := List.mem_map.mp hmem
      have ⟨embed', _, hres⟩ := exists_of_mem_right hall hnode
      have ⟨i, hi, hi'⟩ := hres.sqlAlias
      rw [hi'] at halias
      have := embedAlias_inj halias
      omega

theorem resolveLevels_ok {levels depth : Nat} {embeds : List Spec} {parent : TableSnapshot}
    {forest : List ResolvedEmbed} (h : resolveLevels schema maxDepth levels depth embeds parent = .ok forest)
    : (∀ node ∈ forest, Within levels node) ∧ List.Forall₂ Mirrors embeds forest := by
  induction levels generalizing depth embeds parent forest with
  | zero => cases h
  | succ levels ih =>
    have hall := (resolveSiblings_ok h).1
    have hnode {embed : Spec} {node : ResolvedEmbed}
        (hres : Resolves schema (resolveLevels schema maxDepth levels (depth + 1)) parent (depth * 100)
          embed node)
        : (∀ n ∈ node.nested, Within levels n) ∧ List.Forall₂ Mirrors (nestedSpecs embed) node.nested := by
      by_cases hnil : nestedSpecs embed = []
      . rw [hres.leaf hnil, hnil]
        simp
      . exact ih (hres.nested hnil)
    constructor
    . intro node hmem
      have ⟨embed, _, hres⟩ := exists_of_mem_right hall hmem
      exact .node levels node (hnode hres).1
    . apply hall.imp
      intro embed node hres
      rw [← hres.spec]
      apply Mirrors.node
      rw [hres.spec]
      exact (hnode hres).2

end

/-! References to data -/

theorem Occurs.append_left {part sql : String} (h : Occurs part sql) (text : String)
    : Occurs part (text ++ sql) := by
  rw [Occurs, String.toList_append]
  exact h.trans (List.suffix_append _ _).isInfix

theorem Occurs.append_right {part sql : String} (h : Occurs part sql) (text : String)
    : Occurs part (sql ++ text) := by
  rw [Occurs, String.toList_append]
  exact h.trans (List.prefix_append _ _).isInfix

theorem occurs_self (part : String) : Occurs part part :=
  List.infix_rfl

theorem occurs_joinWith {part : String} {parts : List String} (h : part ∈ parts)
    : Occurs part (Rust.Str.joinWith "" parts) := by
  induction parts with
  | nil => cases h
  | cons next parts ih =>
    cases parts with
    | nil =>
      rw [List.mem_singleton.mp h]
      exact occurs_self next
    | cons after parts =>
      have hjoin : Rust.Str.joinWith "" (next :: after :: parts)
          = next ++ "" ++ Rust.Str.joinWith "" (after :: parts) := rfl
      rw [hjoin]
      cases List.mem_cons.mp h with
      | inl heq =>
        rw [heq]
        exact ((occurs_self next).append_right _).append_right _
      | inr hmem => exact (ih hmem).append_left _

theorem occurs_embedColumn (embed : ResolvedEmbed) : Occurs (dataRef embed) (embedColumn embed) := by
  have : embedColumn embed
      = ", " ++ (dataRef embed ++ (" AS " ++ quoted (embed.spec.aliasName.getD embed.spec.name))) := by
    rw [embedColumn, dataRef]
    simp only [← String.toList_inj, String.toList_append, List.append_assoc]
    rfl
  rw [this]
  exact ((occurs_self _).append_right _).append_left _

theorem occurs_buildSelectWithEmbeds {b : SqlBuilder} {plan : QueryPlan} {forest : List ResolvedEmbed}
    {decide : String → Except DataError Policy.PolicyDecision} {sql : String} {params : List SqlValue}
    (h : b.buildSelectWithEmbeds plan forest decide = .ok (sql, params)) {embed : ResolvedEmbed}
    (hembed : embed ∈ forest) : Occurs (dataRef embed) sql := by
  have hcolumns : Occurs (dataRef embed) (Rust.Str.joinWith "" (forest.map embedColumn)) :=
    (occurs_embedColumn embed).trans (occurs_joinWith (List.mem_map_of_mem hembed))
  have ⟨laterals, _, h⟩ := bind_eq_ok.mp h
  have ⟨⟨clause, params'⟩, _, h⟩ := bind_eq_ok.mp h
  cases h
  iterate 8 apply Occurs.append_right
  exact hcolumns.append_left _

theorem getLast_embedColumnJson {column : SelectColumn} {member : String}
    (h : embedColumnJson column = some member) : member.toList.getLast? = some '"' := by
  have hlast (text name : String) : (text ++ quoted name).toList.getLast? = some '"' := by
    rw [quoted, ← String.append_assoc, String.toList_append]
    exact List.getLast?_concat
  cases column with
  | all => cases h
  | column name =>
    cases h
    exact hlast _ name
  | aliased aliasName column =>
    cases h
    exact hlast _ column
  | embed spec => cases h

/--
No object refers to the data of a nested embed.
-/
theorem not_isMember (embed parent : ResolvedEmbed) : ¬ IsMember embed parent := by
  rintro ⟨member, hmem, before, hbefore⟩
  obtain ⟨column, _, hcolumn⟩ := List.mem_filterMap.mp hmem
  have hlast := getLast_embedColumnJson hcolumn
  have hdata : (dataRef embed).toList = (quoted embed.sqlAlias ++ ".dat").toList ++ ['a'] := by
    rw [dataRef]
    simp only [String.toList_append, List.append_assoc]
    rfl
  rw [← hbefore, hdata, ← List.append_assoc, List.getLast?_concat] at hlast
  revert hlast
  decide

theorem nodes_of_leaf {embed : ResolvedEmbed} (h : embed.nested = []) : nodes embed = [embed] := by
  have ⟨spec, fk, refTable, direction, nested, sqlAlias⟩ := embed
  cases h
  rw [nodes]
  rfl

theorem mem_nodes_self (embed : ResolvedEmbed) : embed ∈ nodes embed := by
  have ⟨spec, fk, refTable, direction, nested, sqlAlias⟩ := embed
  rw [nodes]
  exact List.mem_cons_self

section

variable {schema : SchemaSnapshot} {maxDepth : Nat} {embeds : List Spec} {parent : TableSnapshot}
  {forest : List ResolvedEmbed}

theorem nodup_of_resolveEmbeds (h : resolveEmbeds schema maxDepth embeds parent 0 = .ok forest)
    : (forest.map ResolvedEmbed.sqlAlias).Nodup := by
  cases maxDepth with
  | zero => cases h
  | succ levels => exact (resolveSiblings_ok h).2

theorem Mirrors.nested {embed : Spec} {node : ResolvedEmbed} (h : Mirrors embed node)
    : List.Forall₂ Mirrors (nestedSpecs embed) node.nested := by
  cases h with
  | node _ h => exact h

/--
The trees that come out are well formed if no embed is nested in another.
-/
theorem forestWellFormed_iff (h : resolveEmbeds schema maxDepth embeds parent 0 = .ok forest)
    : ForestWellFormed maxDepth embeds forest ↔ ∀ embed ∈ embeds, nestedSpecs embed = [] := by
  have ⟨hdepth, hmirrors⟩ := resolveLevels_ok h
  constructor
  . intro hwell embed hembed
    have ⟨node, hnode, hmirror⟩ := exists_of_mem_right hmirrors.flip hembed
    have hnested := Mirrors.nested hmirror
    cases hbelow : node.nested with
    | nil =>
      rw [hbelow, List.forall₂_nil_right_iff] at hnested
      exact hnested
    | cons n rest =>
      have hmem : node ∈ forest.flatMap nodes := List.mem_flatMap.mpr ⟨node, hnode, mem_nodes_self node⟩
      have hn : n ∈ node.nested := by
        rw [hbelow]
        exact List.mem_cons_self
      exact absurd (hwell.members node hmem n hn) (not_isMember n node)
  . intro hleaf
    have hnested : ∀ node ∈ forest, node.nested = [] := by
      intro node hnode
      have ⟨embed, hembed, hmirror⟩ := exists_of_mem_right hmirrors hnode
      have := Mirrors.nested hmirror
      rwa [hleaf embed hembed, List.forall₂_nil_left_iff] at this
    have hnodes : forest.flatMap nodes = forest := by
      rw [List.flatMap_congr (fun node hnode => nodes_of_leaf (hnested node hnode))]
      exact List.flatMap_singleton' forest
    constructor
    . exact hdepth
    . rw [hnodes]
      exact nodup_of_resolveEmbeds h
    . exact hmirrors
    . intro b plan decide sql params hsql embed hembed
      exact occurs_buildSelectWithEmbeds hsql hembed
    . intro node hnode n hn
      rw [hnodes] at hnode
      rw [hnested node hnode] at hn
      cases hn

end

def users : TableSnapshot :=
  ⟨"public", "users", ["id", "name"], ["id"], []⟩

def posts : TableSnapshot :=
  ⟨"public", "posts", ["id", "title"], ["id"], []⟩

/--
A table of texts of users about posts.
-/
def remarks (name : String) : TableSnapshot where
  schema := "public"
  name := name
  columns := ["id", "post_id", "user_id"]
  primaryKey := ["id"]
  foreignKeys := [⟨"to_posts", ["post_id"], "posts", ["id"]⟩, ⟨"to_users", ["user_id"], "users", ["id"]⟩]

def blog : SchemaSnapshot where
  tables := (((∅ : HashMap TableSnapshot).insert "users" users).insert "posts" posts
    |>.insert "comments" (remarks "comments")).insert "reviews" (remarks "reviews")

def usersSpec : Spec :=
  ⟨"users", none, [.column "name"], none⟩

def commentsSpec : Spec :=
  ⟨"comments", none, [.column "id"], none⟩

theorem forestWellFormed_comments
    : ∃ forest, resolveEmbeds blog 5 [commentsSpec] posts 0 = .ok forest
        ∧ ForestWellFormed 5 [commentsSpec] forest := by
  have hleaf : ∀ embed ∈ [commentsSpec], nestedSpecs embed = [] := by
    intro embed hembed
    rw [List.mem_singleton.mp hembed]
    rfl
  exact ⟨_, rfl, (@forestWellFormed_iff blog 5 _ posts _ rfl).mpr hleaf⟩

/--
`comments(users(name)),reviews(users(name))` has two embeds with the alias `embed_users_101`.
-/
theorem not_forestWellFormed
    : ¬ ∀ schema maxDepth embeds parent forest, resolveEmbeds schema maxDepth embeds parent 0 = .ok forest →
        ForestWellFormed maxDepth embeds forest := by
  intro h
  have hwell := h blog 5 [⟨"comments", none, [.embed usersSpec], none⟩,
    ⟨"reviews", none, [.embed usersSpec], none⟩] posts _ rfl
  have := hwell.aliases
  simp only [List.flatMap_cons, List.flatMap_nil, nodes, List.cons_append, List.nil_append, List.map_cons,
    List.map_nil] at this
  revert this
  decide

end Reactor.Data.Execute
