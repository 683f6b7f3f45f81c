import ReactorCloud.Rust.HashMap
import ReactorCloud.Rust.Json
import ReactorCloud.Rust.Str

/-!
This module contains the detection of schema drift between two catalogs. Types are compared as texts, one for each
property at the top of a schema.
-/

namespace Reactor.Connect.Drift

open Rust (HashMap Json)
open Rust.Str (joinWith)

/--
The part of a stream descriptor that is not about its modes.
-/
structure StreamDescriptor where
  name : String
  jsonSchema : Json
  cursorField : Option (List String) := none
  primaryKey : Option (List (List String)) := none

inductive SchemaChange where
  | columnAdded (name jsonType : String)
  | columnRemoved (name : String)
  | columnTypeChanged (name oldType newType : String)
  | primaryKeyChanged (oldKey newKey : Option (List (List String)))
  | streamAdded (name : String)
  | streamRemoved (name : String)
  deriving DecidableEq

inductive DriftSeverity where
  | info
  | warning
  | breaking
  deriving DecidableEq

namespace DriftSeverity

def rank : DriftSeverity → Nat
  | info => 0
  | warning => 1
  | breaking => 2

theorem rank_injective : Function.Injective rank := by
  intro l r h
  cases l with
  | _ =>
    cases r with
    | _ => first | rfl | cases h

instance : LinearOrder DriftSeverity :=
  LinearOrder.lift' rank rank_injective

end DriftSeverity

def SchemaChange.severity : SchemaChange → DriftSeverity
  | .columnAdded .. => .info
  | .columnRemoved .. => .warning
  | .columnTypeChanged .. => .breaking
  | .primaryKeyChanged .. => .breaking
  | .streamAdded .. => .info
  | .streamRemoved .. => .warning

structure StreamSchemaDiff where
  stream : String
  changes : List SchemaChange := []
  maxSeverity : Option DriftSeverity := none

structure SchemaDiff where
  streams : HashMap StreamSchemaDiff := ∅
  maxSeverity : Option DriftSeverity := none
  totalChanges : Nat := 0

def SchemaDiff.hasChanges (diff : SchemaDiff) : Bool :=
  0 < diff.totalChanges

/-! ## Types -/

def typeName (schema : Json) : Option String :=
  match schema.get "type" with
  | some (.string s) => some s
  | some (.array items) => some (joinWith "|" (items.filterMap Json.asStr))
  | _ => none

/--
The first of `anyOf`, `oneOf` and `allOf` that is an array.
-/
def firstVariants (schema : Json) : List String → Option (String × List Json)
  | [] => none
  | key :: keys =>
    match (schema.get key).bind Json.asArray with
    | some items => some (key, items)
    | none => firstVariants schema keys

theorem sizeOf_get {schema value : Json} {key : String} (h : schema.get key = some value)
    : sizeOf value < sizeOf schema := by
  cases schema with
  | object members =>
    obtain ⟨before, behind, rfl, -⟩ := List.lookup_eq_some_iff.mp h
    have := List.sizeOf_lt_of_mem (List.mem_append_right before (List.mem_cons_self (a := (key, value)) (l := behind)))
    simp only [Prod.mk.sizeOf_spec, Json.object.sizeOf_spec] at this ⊢
    omega
  | _ => cases h

theorem sizeOf_firstVariants {schema : Json} {keys : List String} {key : String} {items : List Json}
    (h : firstVariants schema keys = some (key, items)) : ∀ item ∈ items, sizeOf item < sizeOf schema := by
  induction keys with
  | nil => cases h
  | cons k keys ih =>
    unfold firstVariants at h
    split at h
    . next items' hget =>
      cases h
      obtain ⟨value, hvalue, harray⟩ := Option.bind_eq_some_iff.mp hget
      intro item hitem
      have hlt := sizeOf_get hvalue
      cases value with
      | array found =>
        cases harray
        have := List.sizeOf_lt_of_mem hitem
        simp only [Json.array.sizeOf_spec] at hlt
        omega
      | _ => cases harray
    . exact ih h

def extractType (schema : Json) : String :=
  match typeName schema with
  | some name => name
  | none =>
    match _h : firstVariants schema ["anyOf", "oneOf", "allOf"] with
    | some (key, items) =>
      let types := items.attach.map (fun ⟨item, _⟩ => extractType item)
      key ++ "(" ++ joinWith "," types ++ ")"
    | none =>
      match (schema.get "$ref").bind Json.asStr with
      | some ref => "$ref:" ++ ref
      | none => "unknown"
termination_by sizeOf schema
decreasing_by exact sizeOf_firstVariants (by assumption) _ (by assumption)

def members : Json → List (String × Json)
  | .object members => members
  | _ => []

def extractProperties (schema : Json) : HashMap String :=
  HashMap.extend ∅ (((schema.get "properties").elim [] members).map (fun (name, property) =>
    ⟨name, extractType property⟩))

/-! ## Changes -/

/--
The three sets of names that are walked through.
-/
inductive Part where
  | removed
  | added
  | common

/--
The order in which hash sets are walked through.
-/
structure Order where
  arrange : Part → List String → List String
  perm : ∀ part names, (arrange part names).Perm names

def only (order : Order) (part : Part) (l r : List String) : List String :=
  order.arrange part (l.filter (fun name => name ∉ r))

def both (order : Order) (l r : List String) : List String :=
  order.arrange .common (l.filter (fun name => name ∈ r))

/--
`props[name]`
-/
def typeOf (props : HashMap String) (name : String) : String :=
  (props.lookup name).getD ""

def compareStreamSchemas (order : Order) (old new : StreamDescriptor) : List SchemaChange :=
  let oldProps := extractProperties old.jsonSchema
  let newProps := extractProperties new.jsonSchema
  (if old.primaryKey ≠ new.primaryKey then [.primaryKeyChanged old.primaryKey new.primaryKey] else [])
    ++ (only order .removed oldProps.keys newProps.keys).map .columnRemoved
    ++ (only order .added newProps.keys oldProps.keys).map (fun name => .columnAdded name (typeOf newProps name))
    ++ ((both order oldProps.keys newProps.keys).filter (fun name => typeOf oldProps name ≠ typeOf newProps name)).map
      (fun name => .columnTypeChanged name (typeOf oldProps name) (typeOf newProps name))

/--
The severity when one more change has been seen.
-/
def raise (current : Option DriftSeverity) (severity : DriftSeverity) : Option DriftSeverity :=
  match current with
  | none => some severity
  | some current => if severity > current then some severity else some current

def updateSeverity (diff : StreamSchemaDiff) (severity : DriftSeverity) : StreamSchemaDiff :=
  { diff with maxSeverity := raise diff.maxSeverity severity }

def push (diff : StreamSchemaDiff) (change : SchemaChange) : StreamSchemaDiff :=
  let diff := updateSeverity diff change.severity
  { diff with changes := diff.changes ++ [change] }

/--
Add changes to the entry of a stream, which is made when it is not there yet.
-/
def record (diff : SchemaDiff) (name : String) (changes : List SchemaChange) : SchemaDiff :=
  let streamDiff := changes.foldl push ((diff.streams.lookup name).getD { stream := name })
  { diff with
    streams := diff.streams.insert name streamDiff
    totalChanges := diff.totalChanges + changes.length }

def byName (streams : List StreamDescriptor) : HashMap StreamDescriptor :=
  HashMap.extend ∅ (streams.map (fun stream => ⟨stream.name, stream⟩))

def recordCommon (columns : String → Order) (old new : HashMap StreamDescriptor) (diff : SchemaDiff) (name : String)
    : SchemaDiff :=
  match old.lookup name, new.lookup name with
  | some oldStream, some newStream =>
    let changes := compareStreamSchemas (columns name) oldStream newStream
    if changes ≠ [] then record diff name changes else diff
  | _, _ => diff

def detectDrift (streams : Order) (columns : String → Order) (oldStreams newStreams : List StreamDescriptor)
    : SchemaDiff :=
  let oldMap := byName oldStreams
  let newMap := byName newStreams
  let diff : SchemaDiff := {}
  let diff := (only streams .removed oldMap.keys newMap.keys).foldl (fun diff name =>
    record diff name [.streamRemoved name]) diff
  let diff := (only streams .added newMap.keys oldMap.keys).foldl (fun diff name =>
    record diff name [.streamAdded name]) diff
  let diff := (both streams oldMap.keys newMap.keys).foldl (recordCommon columns oldMap newMap) diff
  { diff with maxSeverity := (diff.streams.entries.filterMap (fun e => e.2.maxSeverity)).foldl raise none }

/-! ## What the report should say -/

/--
Nothing is compared but the key and the texts of the types.
-/
structure SameStream (old new : StreamDescriptor) : Prop where
  name : old.name = new.name
  primaryKey : old.primaryKey = new.primaryKey
  types : ∀ property, (extractProperties old.jsonSchema).lookup property
    = (extractProperties new.jsonSchema).lookup property

/--
A change and the one in the other direction. The type of a property is only told when it is added.
-/
inductive Swapped : SchemaChange → SchemaChange → Prop where
  | columnAdded (name jsonType : String) : Swapped (.columnAdded name jsonType) (.columnRemoved name)
  | columnRemoved (name jsonType : String) : Swapped (.columnRemoved name) (.columnAdded name jsonType)
  | columnTypeChanged (name oldType newType : String)
    : Swapped (.columnTypeChanged name oldType newType) (.columnTypeChanged name newType oldType)
  | primaryKeyChanged (oldKey newKey : Option (List (List String)))
    : Swapped (.primaryKeyChanged oldKey newKey) (.primaryKeyChanged newKey oldKey)
  | streamAdded (name : String) : Swapped (.streamAdded name) (.streamRemoved name)
  | streamRemoved (name : String) : Swapped (.streamRemoved name) (.streamAdded name)

/--
The changes under the name of a stream.
-/
def SchemaDiff.changesOf (diff : SchemaDiff) (name : String) : List SchemaChange :=
  (diff.streams.lookup name).elim [] StreamSchemaDiff.changes

/--
The highest severity of all changes, if there are changes.
-/
def SchemaDiff.Highest (diff : SchemaDiff) : Option DriftSeverity → Prop
  | none => ∀ name, diff.changesOf name = []
  | some severity => (∃ name, ∃ change ∈ diff.changesOf name, change.severity = severity)
    ∧ ∀ name, ∀ change ∈ diff.changesOf name, change.severity ≤ severity

/--
The schema gives its type by these names.
-/
structure Named (schema : Json) (names : List String) : Prop where
  type : schema.get "type" = some (.array (names.map .string)) ∨ ∃ name, schema.get "type" = some (.string name)
    ∧ names = [name]
  nonempty : names ≠ []
  noBar : ∀ name ∈ names, '|' ∉ name.toList

structure Reports (old new : List StreamDescriptor) (diff back : SchemaDiff) : Prop where
  silent : diff.hasChanges = false
    ↔ (∀ s ∈ old, ∃ t ∈ new, SameStream s t) ∧ (∀ t ∈ new, ∃ s ∈ old, SameStream s t)
  differ : ∀ name property oldType newType, .columnTypeChanged property oldType newType ∈ diff.changesOf name
    → ∃ s ∈ old, ∃ t ∈ new, s.name = name ∧ t.name = name
      ∧ (extractProperties s.jsonSchema).lookup property = some oldType
      ∧ (extractProperties t.jsonSchema).lookup property = some newType ∧ oldType ≠ newType
  named : ∀ p q names names', Named p names → Named q names' → (extractType p = extractType q ↔ names = names')
  swaps : ∀ name, Multiset.Rel Swapped (diff.changesOf name) (back.changesOf name)
  count : back.totalChanges = diff.totalChanges
  highest : diff.Highest diff.maxSeverity

/-! ## Type names -/

theorem extractType_of_typeName {schema : Json} {name : String} (h : typeName schema = some name)
    : extractType schema = name := by
  unfold extractType
  rw [h]

theorem Named.extractType_eq {schema : Json} {names : List String} (h : Named schema names)
    : extractType schema = joinWith "|" names := by
  apply extractType_of_typeName
  unfold typeName
  rcases h.type with hlist | ⟨name, hname, rfl⟩
  . rw [hlist]
    have hstrings : (names.map Json.string).filterMap Json.asStr = names := by
      rw [List.filterMap_map]
      exact List.filterMap_some
    dsimp only
    rw [hstrings]
  . rw [hname]
    rfl

theorem takeWhile_bar {name : String} (h : '|' ∉ name.toList) (rest : List Char)
    : (name.toList ++ '|' :: rest).takeWhile (· ≠ '|') = name.toList := by
  apply Rust.Str.takeWhile_append
  . intro c hc
    rw [decide_eq_true_eq]
    rintro rfl
    exact h hc
  . intro c hc
    cases hc
    rfl

theorem toList_joinWith_cons (name next : String) (names : List String)
    : (joinWith "|" (name :: next :: names)).toList = name.toList ++ '|' :: (joinWith "|" (next :: names)).toList := by
  have hbar : "|".toList = ['|'] := by decide
  have hjoin : joinWith "|" (name :: next :: names) = name ++ "|" ++ joinWith "|" (next :: names) := rfl
  rw [hjoin, String.toList_append, String.toList_append, hbar, List.append_assoc]
  rfl

theorem joinWith_bar_inj {names names' : List String} (hne : names ≠ []) (hne' : names' ≠ [])
    (h : ∀ name ∈ names, '|' ∉ name.toList) (h' : ∀ name ∈ names', '|' ∉ name.toList)
    : joinWith "|" names = joinWith "|" names' ↔ names = names' := by
  refine ⟨?_, congrArg _⟩
  induction names generalizing names' with
  | nil => exact absurd rfl hne
  | cons name names ih =>
    cases names' with
    | nil => exact absurd rfl hne'
    | cons name' names' =>
      have hname := h name List.mem_cons_self
      have hname' := h' name' List.mem_cons_self
      intro heq
      cases names with
      | nil =>
        cases names' with
        | nil => exact congrArg (fun name => [name]) heq
        | cons next' names' =>
          -- a bar stands on one side only
          have : name.toList = name'.toList ++ '|' :: (joinWith "|" (next' :: names')).toList := by
            rw [← toList_joinWith_cons, ← heq]
            rfl
          rw [this] at hname
          exact absurd (List.mem_append_right _ List.mem_cons_self) hname
      | cons next names =>
        cases names' with
        | nil =>
          have : name'.toList = name.toList ++ '|' :: (joinWith "|" (next :: names)).toList := by
            rw [← toList_joinWith_cons, heq]
            rfl
          rw [this] at hname'
          exact absurd (List.mem_append_right _ List.mem_cons_self) hname'
        | cons next' names' =>
          have htexts := congrArg String.toList heq
          rw [toList_joinWith_cons, toList_joinWith_cons] at htexts
          have hfirst := congrArg (List.takeWhile (· ≠ '|')) htexts
          rw [takeWhile_bar hname, takeWhile_bar hname'] at hfirst
          rw [hfirst] at htexts
          have hrest := (List.cons.inj (List.append_cancel_left htexts)).2
          have hnames := ih (List.cons_ne_nil _ _) (List.cons_ne_nil _ _)
            (fun n hn => h n (List.mem_cons_of_mem _ hn)) (fun n hn => h' n (List.mem_cons_of_mem _ hn))
            (String.toList_inj.mp hrest)
          rw [String.toList_inj.mp hfirst, hnames]

theorem Named.extractType_inj {p q : Json} {names names' : List String} (hp : Named p names) (hq : Named q names')
    : extractType p = extractType q ↔ names = names' := by
  rw [hp.extractType_eq, hq.extractType_eq]
  exact joinWith_bar_inj hp.nonempty hq.nonempty hp.noBar hq.noBar

/-! ## Severities -/

def IsHighest (severities : List DriftSeverity) : Option DriftSeverity → Prop
  | none => severities = []
  | some severity => severity ∈ severities ∧ ∀ other ∈ severities, other ≤ severity

theorem isHighest_nil : IsHighest [] none :=
  rfl

theorem isHighest_raise {severities : List DriftSeverity} {current : Option DriftSeverity}
    (h : IsHighest severities current) (severity : DriftSeverity)
    : IsHighest (severities ++ [severity]) (raise current severity) := by
  unfold raise
  cases current with
  | none =>
    rw [show severities = [] from h]
    exact ⟨List.mem_singleton_self _, fun other hother => (List.mem_singleton.mp hother).le⟩
  | some current =>
    obtain ⟨hmem, hle⟩ := h
    dsimp only
    split
    . next hgt =>
      refine ⟨List.mem_append_right _ (List.mem_singleton_self _), ?_⟩
      intro other hother
      cases List.mem_append.mp hother with
      | inl hother => exact (hle other hother).trans hgt.le
      | inr hother => exact (List.mem_singleton.mp hother).le
    . next hgt =>
      refine ⟨List.mem_append_left _ hmem, ?_⟩
      intro other hother
      cases List.mem_append.mp hother with
      | inl hother => exact hle other hother
      | inr hother =>
        rw [List.mem_singleton.mp hother]
        exact not_lt.mp hgt

theorem isHighest_foldl {seen : List DriftSeverity} {current : Option DriftSeverity} (h : IsHighest seen current)
    (severities : List DriftSeverity) : IsHighest (seen ++ severities) (severities.foldl raise current) := by
  induction severities generalizing seen current with
  | nil => rwa [List.append_nil]
  | cons severity severities ih =>
    have := ih (isHighest_raise h severity)
    rwa [List.append_assoc] at this

theorem foldl_push (diff : StreamSchemaDiff) (changes : List SchemaChange)
    : changes.foldl push diff
        =
      ⟨diff.stream, diff.changes ++ changes, (changes.map SchemaChange.severity).foldl raise diff.maxSeverity⟩ := by
  induction changes generalizing diff with
  | nil =>
    rw [List.foldl_nil, List.append_nil]
    rfl
  | cons change changes ih =>
    rw [List.foldl_cons, ih]
    unfold push updateSeverity
    simp only [List.append_assoc, List.cons_append, List.nil_append, List.map_cons, List.foldl_cons]

/-! ## How the report is built -/

/--
The entry of a stream with these changes.
-/
def summary (name : String) (changes : List SchemaChange) : StreamSchemaDiff :=
  ⟨name, changes, (changes.map SchemaChange.severity).foldl raise none⟩

/--
The report tells the changes of these names.
-/
structure Tells (f : String → List SchemaChange) (diff : SchemaDiff) (names : List String) : Prop where
  lookup : ∀ name, diff.streams.lookup name
    = if name ∈ names ∧ f name ≠ [] then some (summary name (f name)) else none
  total : diff.totalChanges = (names.map (fun name => (f name).length)).sum

section

variable {f : String → List SchemaChange}

theorem Tells.empty : Tells f {} [] :=
  ⟨fun _ => rfl, rfl⟩

theorem Tells.record {diff : SchemaDiff} {names : List String} (h : Tells f diff names) {name : String}
    (hname : name ∉ names) : Tells f (if f name ≠ [] then record diff name (f name) else diff) (names ++ [name]) := by
  have htotal : ((names ++ [name]).map (fun name => (f name).length)).sum
      = diff.totalChanges + (f name).length := by
    rw [List.map_append, List.sum_append, ← h.total]
    rfl
  have hnew : diff.streams.lookup name = none := by
    rw [h.lookup, if_neg]
    exact fun hmem => hname hmem.1
  split
  . next hne =>
    constructor
    . intro other
      unfold Drift.record
      rw [hnew, Option.getD_none, foldl_push, List.nil_append]
      cases eq_or_ne other name with
      | inl heq =>
        subst heq
        rw [AList.lookup_insert, if_pos ⟨List.mem_append_right _ (List.mem_singleton_self _), hne⟩]
        rfl
      | inr hother =>
        rw [AList.lookup_insert_ne hother, h.lookup]
        simp only [List.mem_append, List.mem_singleton, hother, or_false]
    . exact htotal.symm
  . next hempty =>
    have hempty := not_not.mp hempty
    constructor
    . intro other
      rw [h.lookup]
      cases eq_or_ne other name with
      | inl heq =>
        subst heq
        rw [if_neg (fun hmem => hmem.2 hempty), if_neg (fun hmem => hmem.2 hempty)]
      | inr hother => simp only [List.mem_append, List.mem_singleton, hother, or_false]
    . rw [htotal, hempty]
      rfl

theorem Tells.foldl {g : SchemaDiff → String → SchemaDiff} {more : List String}
    (hg : ∀ diff, ∀ name ∈ more, g diff name = if f name ≠ [] then Drift.record diff name (f name) else diff)
    {diff : SchemaDiff} {names : List String} (h : Tells f diff names) (hnodup : (names ++ more).Nodup)
    : Tells f (more.foldl g diff) (names ++ more) := by
  induction more generalizing diff names with
  | nil => rwa [List.foldl_nil, List.append_nil]
  | cons name more ih =>
    have hname : name ∉ names := by
      intro hmem
      exact (List.nodup_append.mp hnodup).2.2 name hmem name List.mem_cons_self rfl
    rw [List.foldl_cons, hg diff name List.mem_cons_self]
    have := ih (fun diff other hother => hg diff other (List.mem_cons_of_mem _ hother)) (h.record hname)
      (by rwa [List.append_assoc])
    rwa [List.append_assoc] at this

end

theorem nodup_keys {α : Type} (m : HashMap α) : m.keys.Nodup :=
  m.nodupKeys

section

variable {order : Order} {part : Part} {l r : List String}

theorem mem_only {name : String} : name ∈ only order part l r ↔ name ∈ l ∧ name ∉ r := by
  unfold only
  rw [(order.perm part _).mem_iff, List.mem_filter, decide_eq_true_eq]

theorem mem_both {name : String} : name ∈ both order l r ↔ name ∈ l ∧ name ∈ r := by
  unfold both
  rw [(order.perm .common _).mem_iff, List.mem_filter, decide_eq_true_eq]

theorem nodup_only (h : l.Nodup) : (only order part l r).Nodup :=
  (order.perm part _).nodup_iff.mpr (h.filter _)

theorem nodup_both (h : l.Nodup) : (both order l r).Nodup :=
  (order.perm .common _).nodup_iff.mpr (h.filter _)

/--
The three parts hold every name once.
-/
theorem nodup_parts (hl : l.Nodup) (hr : r.Nodup)
    : (only order .removed l r ++ only order .added r l ++ both order l r).Nodup := by
  rw [List.nodup_append, List.nodup_append]
  refine ⟨⟨nodup_only hl, nodup_only hr, ?_⟩, nodup_both hl, ?_⟩
  . rintro name hremoved other hadded rfl
    exact (mem_only.mp hremoved).2 (mem_only.mp hadded).1
  . rintro name hmem other hboth rfl
    have hboth := mem_both.mp hboth
    cases List.mem_append.mp hmem with
    | inl hremoved => exact (mem_only.mp hremoved).2 hboth.2
    | inr hadded => exact (mem_only.mp hadded).2 hboth.1

theorem mem_parts {name : String}
    : name ∈ only order .removed l r ++ only order .added r l ++ both order l r ↔ name ∈ l ∨ name ∈ r := by
  rw [List.mem_append, List.mem_append, mem_only, mem_only, mem_both]
  tauto

end

/--
What is told about a stream.
-/
def changesBetween (columns : String → Order) (old new : HashMap StreamDescriptor) (name : String)
    : List SchemaChange :=
  match old.lookup name, new.lookup name with
  | some oldStream, some newStream => compareStreamSchemas (columns name) oldStream newStream
  | some _, none => [.streamRemoved name]
  | none, some _ => [.streamAdded name]
  | none, none => []

section

variable {streams : Order} {columns : String → Order} {old new : List StreamDescriptor}

theorem lookup_of_mem {α : Type} {m : HashMap α} {name : String} (h : name ∈ m.keys) : ∃ a, m.lookup name = some a :=
  Option.isSome_iff_exists.mp (AList.lookup_isSome.mpr (AList.mem_keys.mpr h))

theorem lookup_of_notMem {α : Type} {m : HashMap α} {name : String} (h : name ∉ m.keys) : m.lookup name = none :=
  AList.lookup_eq_none.mpr (fun hmem => h (AList.mem_keys.mp hmem))

/--
The names of both catalogs.
-/
def namesOf (streams : Order) (old new : List StreamDescriptor) : List String :=
  only streams .removed (byName old).keys (byName new).keys ++ only streams .added (byName new).keys (byName old).keys
    ++ both streams (byName old).keys (byName new).keys

theorem detectDrift_tells
    : Tells (changesBetween columns (byName old) (byName new)) (detectDrift streams columns old new)
        (namesOf streams old new) := by
  let f := changesBetween columns (byName old) (byName new)
  let removed := only streams .removed (byName old).keys (byName new).keys
  let added := only streams .added (byName new).keys (byName old).keys
  let common := both streams (byName old).keys (byName new).keys
  have hnodup : (removed ++ added ++ common).Nodup := nodup_parts (nodup_keys (byName old)) (nodup_keys (byName new))
  have hfront := (List.nodup_append.mp hnodup).1
  have hremoved : Tells f (removed.foldl (fun diff name => record diff name [.streamRemoved name]) {}) removed := by
    apply Tells.foldl _ Tells.empty
    . exact (List.nodup_append.mp hfront).1
    . intro diff name hmem
      obtain ⟨hold, hnew⟩ := mem_only.mp hmem
      obtain ⟨s, hs⟩ := lookup_of_mem hold
      have hf : f name = [.streamRemoved name] := by
        simp only [f, changesBetween, hs, lookup_of_notMem hnew]
      rw [hf]
      rfl
  have hadded := hremoved.foldl (g := fun diff name => record diff name [.streamAdded name]) (by
    intro diff name hmem
    obtain ⟨hnew, hold⟩ := mem_only.mp hmem
    obtain ⟨s, hs⟩ := lookup_of_mem hnew
    have hf : f name = [.streamAdded name] := by
      simp only [f, changesBetween, hs, lookup_of_notMem hold]
    rw [hf]
    rfl) hfront
  have hcommon := hadded.foldl (g := recordCommon columns (byName old) (byName new)) (by
    intro diff name hmem
    obtain ⟨hold, hnew⟩ := mem_both.mp hmem
    obtain ⟨s, hs⟩ := lookup_of_mem hold
    obtain ⟨t, ht⟩ := lookup_of_mem hnew
    have hf : f name = compareStreamSchemas (columns name) s t := by
      simp only [f, changesBetween, hs, ht]
    rw [hf]
    simp only [recordCommon, hs, ht]) hnodup
  exact ⟨hcommon.lookup, hcommon.total⟩

theorem mem_namesOf {name : String}
    : name ∈ namesOf streams old new ↔ name ∈ (byName old).keys ∨ name ∈ (byName new).keys :=
  mem_parts

theorem nodup_namesOf : (namesOf streams old new).Nodup :=
  nodup_parts (nodup_keys _) (nodup_keys _)

theorem changesBetween_of_notMem {name : String} (h : name ∉ namesOf streams old new)
    : changesBetween columns (byName old) (byName new) name = [] := by
  rw [mem_namesOf, not_or] at h
  simp only [changesBetween, lookup_of_notMem h.1, lookup_of_notMem h.2]

theorem lookup_detectDrift (name : String)
    : (detectDrift streams columns old new).streams.lookup name
        =
      if changesBetween columns (byName old) (byName new) name ≠ [] then
        some (summary name (changesBetween columns (byName old) (byName new) name))
      else
        none := by
  rw [detectDrift_tells.lookup]
  by_cases hmem : name ∈ namesOf streams old new
  . simp only [hmem, true_and]
  . rw [if_neg (fun h => hmem h.1), if_neg]
    exact not_not.mpr (changesBetween_of_notMem hmem)

theorem changesOf_detectDrift (name : String)
    : (detectDrift streams columns old new).changesOf name
        =
      changesBetween columns (byName old) (byName new) name := by
  unfold SchemaDiff.changesOf
  rw [lookup_detectDrift]
  split
  . rfl
  . next h => exact (not_not.mp h).symm

/-! ## The parts of the report -/

theorem highest_detectDrift
    : (detectDrift streams columns old new).Highest (detectDrift streams columns old new).maxSeverity := by
  let diff := detectDrift streams columns old new
  have hsummary : ∀ e ∈ diff.streams.entries, diff.changesOf e.1 ≠ [] ∧ e.2 = summary e.1 (diff.changesOf e.1) := by
    intro e he
    have hlookup : diff.streams.lookup e.1 = some e.2 := AList.mem_lookup_iff.mpr he
    rw [lookup_detectDrift] at hlookup
    rw [changesOf_detectDrift]
    split at hlookup
    . next hne => exact ⟨hne, (Option.some.inj hlookup).symm⟩
    . cases hlookup
  have hown : ∀ e ∈ diff.streams.entries, IsHighest ((diff.changesOf e.1).map SchemaChange.severity) e.2.maxSeverity := by
    intro e he
    rw [(hsummary e he).2]
    exact isHighest_foldl isHighest_nil _
  have hentry : ∀ name, diff.changesOf name ≠ [] → ∃ e ∈ diff.streams.entries, e.1 = name := by
    intro name hne
    have hlookup := @lookup_detectDrift streams columns old new name
    rw [← @changesOf_detectDrift streams, if_pos hne] at hlookup
    exact ⟨_, AList.mem_lookup_iff.mp hlookup, rfl⟩
  have hall : IsHighest (diff.streams.entries.filterMap (fun e => e.2.maxSeverity)) diff.maxSeverity :=
    isHighest_foldl isHighest_nil _
  change diff.Highest diff.maxSeverity
  cases hmax : diff.maxSeverity with
  | none =>
    rw [hmax] at hall
    intro name
    by_contra hne
    obtain ⟨e, he, rfl⟩ := hentry name hne
    have hnone := List.filterMap_eq_nil_iff.mp hall e he
    have := hown e he
    rw [hnone] at this
    exact hne (List.map_eq_nil_iff.mp this)
  | some severity =>
    rw [hmax] at hall
    obtain ⟨hmem, hle⟩ := hall
    constructor
    . obtain ⟨e, he, hseverity⟩ := List.mem_filterMap.mp hmem
      have := hown e he
      rw [hseverity] at this
      obtain ⟨change, hchange, heq⟩ := List.mem_map.mp this.1
      exact ⟨e.1, change, hchange, heq⟩
    . intro name change hchange
      obtain ⟨e, he, rfl⟩ := hentry name (List.ne_nil_of_mem hchange)
      have hmine := hown e he
      cases hseverity : e.2.maxSeverity with
      | none =>
        rw [hseverity] at hmine
        rw [List.map_eq_nil_iff.mp hmine] at hchange
        cases hchange
      | some highest =>
        rw [hseverity] at hmine
        have hle₁ := hmine.2 change.severity (List.mem_map_of_mem hchange)
        have hle₂ := hle highest (List.mem_filterMap.mpr ⟨e, he, hseverity⟩)
        exact hle₁.trans hle₂

theorem lookup_byName {catalog : List StreamDescriptor} (h : (catalog.map StreamDescriptor.name).Nodup) {name : String}
    {s : StreamDescriptor} : (byName catalog).lookup name = some s ↔ s ∈ catalog ∧ s.name = name := by
  have hkeys : (catalog.map (fun stream => (⟨stream.name, stream⟩ : Σ _ : String, StreamDescriptor))).NodupKeys := by
    unfold List.NodupKeys List.keys
    rwa [List.map_map]
  unfold byName
  rw [HashMap.lookup_extend hkeys, AList.lookup_empty, Option.or_none, ← Option.mem_def,
    List.mem_dlookup_iff hkeys, List.mem_map]
  constructor
  . rintro ⟨t, ht, heq⟩
    cases heq
    exact ⟨ht, rfl⟩
  . rintro ⟨hs, rfl⟩
    exact ⟨s, hs, rfl⟩

section

variable {order : Order} {s t : StreamDescriptor}

theorem lookup_typeOf {props : HashMap String} {name : String} (h : name ∈ props.keys)
    : props.lookup name = some (typeOf props name) := by
  obtain ⟨a, ha⟩ := lookup_of_mem h
  unfold typeOf
  rw [ha]
  rfl

theorem compareStreamSchemas_eq_nil_iff
    : compareStreamSchemas order s t = []
        ↔
      s.primaryKey = t.primaryKey
        ∧ ∀ property, (extractProperties s.jsonSchema).lookup property
          = (extractProperties t.jsonSchema).lookup property := by
  unfold compareStreamSchemas
  generalize extractProperties s.jsonSchema = l
  generalize extractProperties t.jsonSchema = r
  simp only [List.append_eq_nil_iff, List.map_eq_nil_iff, List.filter_eq_nil_iff]
  simp only [List.eq_nil_iff_forall_not_mem, mem_only, mem_both]
  constructor
  . rintro ⟨⟨⟨hkey, hremoved⟩, hadded⟩, htypes⟩
    constructor
    . by_contra hne
      rw [if_pos hne] at hkey
      exact hkey _ List.mem_cons_self
    . intro property
      by_cases hl : property ∈ l.keys
      . have hr : property ∈ r.keys := by
          by_contra hr
          exact hremoved property ⟨hl, hr⟩
        have := htypes property ⟨hl, hr⟩
        rw [decide_eq_true_eq, not_not] at this
        rw [lookup_typeOf hl, lookup_typeOf hr, this]
      . have hr : property ∉ r.keys := fun hr => hadded property ⟨hr, hl⟩
        rw [lookup_of_notMem hl, lookup_of_notMem hr]
  . rintro ⟨hkey, hsame⟩
    have hkeys : ∀ name, name ∈ l.keys ↔ name ∈ r.keys := by
      intro name
      rw [← AList.mem_keys, ← AList.mem_keys, ← AList.lookup_isSome, ← AList.lookup_isSome, hsame]
    refine ⟨⟨⟨?_, ?_⟩, ?_⟩, ?_⟩
    . rw [if_neg (not_not.mpr hkey)]
      exact fun _ => List.not_mem_nil
    . rintro name ⟨hl, hr⟩
      exact hr ((hkeys name).mp hl)
    . rintro name ⟨hr, hl⟩
      exact hl ((hkeys name).mpr hr)
    . rintro name -
      rw [decide_eq_true_eq, not_not]
      unfold typeOf
      rw [hsame]

theorem mem_compareStreamSchemas {property oldType newType : String}
    (h : .columnTypeChanged property oldType newType ∈ compareStreamSchemas order s t)
    : (extractProperties s.jsonSchema).lookup property = some oldType
      ∧ (extractProperties t.jsonSchema).lookup property = some newType ∧ oldType ≠ newType := by
  unfold compareStreamSchemas at h
  simp only [List.mem_append, List.mem_map, List.mem_filter, mem_both, decide_eq_true_eq] at h
  rcases h with ((hkey | ⟨name, -, hremoved⟩) | ⟨name, -, hadded⟩) | ⟨name, ⟨⟨hl, hr⟩, hne⟩, heq⟩
  . split at hkey
    . cases List.mem_singleton.mp hkey
    . cases hkey
  . cases hremoved
  . cases hadded
  . cases heq
    exact ⟨lookup_typeOf hl, lookup_typeOf hr, hne⟩

theorem rel_map_of_perm {names names' : List String} {f g : String → SchemaChange} (hperm : names'.Perm names)
    (h : ∀ name ∈ names, Swapped (f name) (g name)) : Multiset.Rel Swapped (names.map f) (names'.map g) := by
  have hmap : (↑(names'.map g) : Multiset SchemaChange) = ↑(names.map g) := Multiset.coe_eq_coe.mpr (hperm.map g)
  rw [hmap, ← Multiset.map_coe, ← Multiset.map_coe, Multiset.rel_map]
  exact Multiset.rel_refl_of_refl_on h

theorem rel_primaryKey (s t : StreamDescriptor)
    : Multiset.Rel Swapped
        ↑(if s.primaryKey ≠ t.primaryKey then [SchemaChange.primaryKeyChanged s.primaryKey t.primaryKey] else [])
        ↑(if t.primaryKey ≠ s.primaryKey then [SchemaChange.primaryKeyChanged t.primaryKey s.primaryKey] else []) := by
  by_cases hkey : s.primaryKey = t.primaryKey
  . rw [if_neg (not_not.mpr hkey), if_neg (not_not.mpr hkey.symm)]
    exact .zero
  . rw [if_pos hkey, if_pos (Ne.symm hkey)]
    exact .cons (.primaryKeyChanged _ _) .zero

/--
The changes in the other direction, in any order.
-/
theorem swapped_compareStreamSchemas (order order' : Order) (s t : StreamDescriptor)
    : Multiset.Rel Swapped (compareStreamSchemas order s t) (compareStreamSchemas order' t s) := by
  unfold compareStreamSchemas
  generalize extractProperties s.jsonSchema = l
  generalize extractProperties t.jsonSchema = r
  have hl := nodup_keys l
  have hr := nodup_keys r
  have hremoved : (only order' .added l.keys r.keys).Perm (only order .removed l.keys r.keys) := by
    apply (List.perm_ext_iff_of_nodup (nodup_only hl) (nodup_only hl)).mpr
    intro name
    rw [mem_only, mem_only]
  have hadded : (only order' .removed r.keys l.keys).Perm (only order .added r.keys l.keys) := by
    apply (List.perm_ext_iff_of_nodup (nodup_only hr) (nodup_only hr)).mpr
    intro name
    rw [mem_only, mem_only]
  have htypes : ((both order' r.keys l.keys).filter (fun name => typeOf r name ≠ typeOf l name)).Perm
      ((both order l.keys r.keys).filter (fun name => typeOf l name ≠ typeOf r name)) := by
    apply (List.perm_ext_iff_of_nodup ((nodup_both hr).filter _) ((nodup_both hl).filter _)).mpr
    intro name
    rw [List.mem_filter, List.mem_filter, mem_both, mem_both, decide_eq_true_eq, decide_eq_true_eq, ne_comm,
      and_comm (a := name ∈ r.keys)]
  have h := (((rel_primaryKey s t).add (rel_map_of_perm hremoved fun name _ =>
    .columnRemoved name (typeOf l name))).add (rel_map_of_perm hadded fun name _ =>
    .columnAdded name (typeOf r name))).add (rel_map_of_perm htypes fun name _ =>
    .columnTypeChanged name (typeOf l name) (typeOf r name))
  -- what was removed in one direction was added in the other
  rw [add_right_comm (Multiset.ofList (if t.primaryKey ≠ s.primaryKey then _ else _))] at h
  simpa only [Multiset.coe_add] using h

end

theorem swapped_changesBetween (columns columns' : String → Order) (old new : HashMap StreamDescriptor) (name : String)
    : Multiset.Rel Swapped (changesBetween columns old new name) (changesBetween columns' new old name) := by
  unfold changesBetween
  cases old.lookup name with
  | none =>
    cases new.lookup name with
    | none => exact .zero
    | some t => exact .cons (.streamAdded name) .zero
  | some s =>
    cases new.lookup name with
    | none => exact .cons (.streamRemoved name) .zero
    | some t => exact swapped_compareStreamSchemas (columns name) (columns' name) s t

theorem perm_namesOf (streams streams' : Order) (old new : List StreamDescriptor)
    : (namesOf streams' new old).Perm (namesOf streams old new) := by
  apply (List.perm_ext_iff_of_nodup nodup_namesOf nodup_namesOf).mpr
  intro name
  rw [mem_namesOf, mem_namesOf, or_comm]

theorem totalChanges_swap (streams streams' : Order) (columns columns' : String → Order)
    (old new : List StreamDescriptor)
    : (detectDrift streams' columns' new old).totalChanges = (detectDrift streams columns old new).totalChanges := by
  rw [detectDrift_tells.total, detectDrift_tells.total, ((perm_namesOf streams streams' old new).map _).sum_eq]
  congr 1
  apply List.map_congr_left
  intro name _
  exact (Multiset.card_eq_card_of_rel (swapped_changesBetween columns columns' (byName old) (byName new) name)).symm

theorem hasChanges_eq_false_iff
    : (detectDrift streams columns old new).hasChanges = false
        ↔
      ∀ name, changesBetween columns (byName old) (byName new) name = [] := by
  unfold SchemaDiff.hasChanges
  rw [decide_eq_false_iff_not, Nat.not_lt, Nat.le_zero, detectDrift_tells.total, List.sum_eq_zero_iff]
  constructor
  . intro h name
    by_cases hmem : name ∈ namesOf streams old new
    . exact List.length_eq_zero_iff.mp (h _ (List.mem_map_of_mem hmem))
    . exact changesBetween_of_notMem hmem
  . intro h n hn
    obtain ⟨name, -, rfl⟩ := List.mem_map.mp hn
    exact List.length_eq_zero_iff.mpr (h name)

theorem silent_iff (hold : (old.map StreamDescriptor.name).Nodup) (hnew : (new.map StreamDescriptor.name).Nodup)
    : (∀ name, changesBetween columns (byName old) (byName new) name = [])
        ↔
      (∀ s ∈ old, ∃ t ∈ new, SameStream s t) ∧ (∀ t ∈ new, ∃ s ∈ old, SameStream s t) := by
  constructor
  . intro h
    constructor
    . intro s hs
      have hchanges := h s.name
      unfold changesBetween at hchanges
      rw [(lookup_byName hold).mpr ⟨hs, rfl⟩] at hchanges
      cases ht : (byName new).lookup s.name with
      | none =>
        rw [ht] at hchanges
        cases hchanges
      | some t =>
        rw [ht] at hchanges
        obtain ⟨hkey, htypes⟩ := compareStreamSchemas_eq_nil_iff.mp hchanges
        obtain ⟨ht, hname⟩ := (lookup_byName hnew).mp ht
        exact ⟨t, ht, hname.symm, hkey, htypes⟩
    . intro t ht
      have hchanges := h t.name
      unfold changesBetween at hchanges
      rw [(lookup_byName hnew).mpr ⟨ht, rfl⟩] at hchanges
      cases hs : (byName old).lookup t.name with
      | none =>
        rw [hs] at hchanges
        cases hchanges
      | some s =>
        rw [hs] at hchanges
        obtain ⟨hkey, htypes⟩ := compareStreamSchemas_eq_nil_iff.mp hchanges
        obtain ⟨hs, hname⟩ := (lookup_byName hold).mp hs
        exact ⟨s, hs, hname, hkey, htypes⟩
  . rintro ⟨hforth, hback⟩ name
    unfold changesBetween
    cases hs : (byName old).lookup name with
    | none =>
      cases ht : (byName new).lookup name with
      | none => rfl
      | some t =>
        obtain ⟨ht, hname⟩ := (lookup_byName hnew).mp ht
        obtain ⟨s, hmem, hsame⟩ := hback t ht
        rw [(lookup_byName hold).mpr ⟨hmem, hsame.name.trans hname⟩] at hs
        cases hs
    | some s =>
      obtain ⟨hs, hname⟩ := (lookup_byName hold).mp hs
      obtain ⟨t, ht, hsame⟩ := hforth s hs
      rw [(lookup_byName hnew).mpr ⟨ht, hsame.name.symm.trans hname⟩]
      exact compareStreamSchemas_eq_nil_iff.mpr ⟨hsame.primaryKey, hsame.types⟩

theorem differ_of_mem (hold : (old.map StreamDescriptor.name).Nodup) (hnew : (new.map StreamDescriptor.name).Nodup)
    {name property oldType newType : String}
    (h : .columnTypeChanged property oldType newType ∈ changesBetween columns (byName old) (byName new) name)
    : ∃ s ∈ old, ∃ t ∈ new, s.name = name ∧ t.name = name
      ∧ (extractProperties s.jsonSchema).lookup property = some oldType
      ∧ (extractProperties t.jsonSchema).lookup property = some newType ∧ oldType ≠ newType := by
  unfold changesBetween at h
  split at h
  . next s t hs ht =>
    obtain ⟨hs, hsname⟩ := (lookup_byName hold).mp hs
    obtain ⟨ht, htname⟩ := (lookup_byName hnew).mp ht
    exact ⟨s, hs, t, ht, hsname, htname, mem_compareStreamSchemas h⟩
  . cases List.mem_singleton.mp h
  . cases List.mem_singleton.mp h
  . cases h

theorem detectDrift_reports (streams streams' : Order) (columns columns' : String → Order)
    (hold : (old.map StreamDescriptor.name).Nodup) (hnew : (new.map StreamDescriptor.name).Nodup)
    : Reports old new (detectDrift streams columns old new) (detectDrift streams' columns' new old) where
  silent := hasChanges_eq_false_iff.trans (silent_iff hold hnew)
  differ name property oldType newType h := by
    rw [changesOf_detectDrift] at h
    exact differ_of_mem hold hnew h
  named _ _ _ _ := Named.extractType_inj
  swaps name := by
    rw [changesOf_detectDrift, changesOf_detectDrift]
    exact swapped_changesBetween columns columns' (byName old) (byName new) name
  count := totalChanges_swap streams streams' columns columns' old new
  highest := highest_detectDrift

end

section Examples

def inOrder : Order :=
  ⟨fun _ names => names, fun _ names => .refl names⟩

/--
A schema with one property.
-/
def schemaOf (name : String) (property : Json) : Json :=
  .object [("properties", .object [(name, property)])]

def typed (type : Json) : Json :=
  .object [("type", type)]

/--
Leads with an address, which has a postal code of its own.
-/
def leads (zip cursor : String) : StreamDescriptor where
  name := "leads"
  jsonSchema := schemaOf "address" (.object [("type", .string "object"),
    ("properties", .object [("zip", typed (.string zip))])])
  cursorField := some [cursor]

theorem extractProperties_schemaOf {name type : String} {property : Json} (h : typeName property = some type)
    : extractProperties (schemaOf name property) = HashMap.extend ∅ [⟨name, type⟩] := by
  have htype := extractType_of_typeName h
  have hproperties : (schemaOf name property).get "properties" = some (.object [(name, property)]) := rfl
  unfold extractProperties
  rw [hproperties]
  simp only [Option.elim_some, members, List.map_cons, List.map_nil, htype]

theorem detectDrift_leads
    : Reports [leads "integer" "updated_at"] [leads "string" "id"]
        (detectDrift inOrder (fun _ => inOrder) [leads "integer" "updated_at"] [leads "string" "id"])
        (detectDrift inOrder (fun _ => inOrder) [leads "string" "id"] [leads "integer" "updated_at"]) :=
  detectDrift_reports inOrder inOrder (fun _ => inOrder) (fun _ => inOrder) (List.nodup_singleton _)
    (List.nodup_singleton _)

/--
Another cursor and another type within a property are not told, and two orders of the same types are.
-/
theorem drift_missed
    : ((detectDrift inOrder (fun _ => inOrder) [leads "integer" "updated_at"] [leads "string" "id"]).hasChanges = false
        ∧ (leads "integer" "updated_at").cursorField ≠ (leads "string" "id").cursorField
        ∧ (leads "integer" "updated_at").jsonSchema ≠ (leads "string" "id").jsonSchema)
      ∧ SchemaChange.columnTypeChanged "id" "string|null" "null|string"
        ∈ compareStreamSchemas inOrder
          { name := "leads", jsonSchema := schemaOf "id" (typed (.array [.string "string", .string "null"])) }
          { name := "leads", jsonSchema := schemaOf "id" (typed (.array [.string "null", .string "string"])) } := by
  refine ⟨⟨?_, by decide, by decide⟩, ?_⟩
  . have hnames (zip cursor : String) : ([leads zip cursor].map StreamDescriptor.name).Nodup := List.nodup_singleton _
    rw [hasChanges_eq_false_iff, silent_iff (hnames _ _) (hnames _ _)]
    have hsame : SameStream (leads "integer" "updated_at") (leads "string" "id") := by
      refine ⟨rfl, rfl, ?_⟩
      intro property
      unfold leads
      rw [@extractProperties_schemaOf _ "object" _ rfl, @extractProperties_schemaOf _ "object" _ rfl]
    constructor
    . exact List.forall_mem_singleton.mpr ⟨_, List.mem_singleton_self _, hsame⟩
    . exact List.forall_mem_singleton.mpr ⟨_, List.mem_singleton_self _, hsame⟩
  . unfold compareStreamSchemas
    rw [@extractProperties_schemaOf _ "string|null" _ rfl, @extractProperties_schemaOf _ "null|string" _ rfl]
    decide

end Examples

end Reactor.Connect.Drift
