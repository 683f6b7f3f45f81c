import ReactorCloud.Data.Dialect.PolicyText
import ReactorCloud.Data.Query.Select
import ReactorCloud.Rust.Result

/-!
This module proves that the parser of the `select` parameter reads back what is written in its syntax.
-/

namespace Reactor.Data.Query

open Dialect (trimChars)
open Execute (EmbedSpec SelectColumn)
open Rust.Str (Starts Ends)

/-! The text of a select -/

def commaSeparated (items : List (List Char)) : List Char :=
  [','].intercalate items

def namePart (name : String) (fkHint aliasName : Option String) : List Char :=
  (match aliasName with
    | some aliasName => aliasName.toList ++ [':']
    | none => [])
  ++ name.toList
  ++ (match fkHint with
    | some hint => '!' :: hint.toList
    | none => [])

def printColumn : SelectColumn → List Char
  | .all => ['*']
  | .column name => name.toList
  | .aliased aliasName column => aliasName.toList ++ ':' :: column.toList
  | .embed ⟨name, fkHint, columns, aliasName⟩ =>
    namePart name fkHint aliasName ++ '(' :: commaSeparated (columns.map printColumn) ++ [')']

def printSelect (columns : List SelectColumn) : List Char :=
  commaSeparated (columns.map printColumn)

/--
A name without the characters of the syntax and without white space at its ends.
-/
structure PlainName (name : String) : Prop where
  ne : name ≠ ""
  plain : ∀ c ∈ [',', '(', ')', ':', '!', '*'], c ∉ name.toList
  starts : Starts name.toList
  ends : Ends name.toList

inductive WellFormed : SelectColumn → Prop
  | all : WellFormed .all
  | column (name : String) (h : PlainName name) : WellFormed (.column name)
  | aliased (aliasName column : String) (haliasName : PlainName aliasName) (hcolumn : PlainName column)
    : WellFormed (.aliased aliasName column)
  | embed (spec : EmbedSpec SelectColumn) (hname : PlainName spec.name)
    (hhint : ∀ hint ∈ spec.fkHint, PlainName hint)
    (haliasName : ∀ aliasName ∈ spec.aliasName, PlainName aliasName)
    (hne : spec.columns ≠ [])
    (hcolumns : ∀ column ∈ spec.columns, WellFormed column)
    : WellFormed (.embed spec)

/-! Where a text is split -/

/--
The text is not split where the depth is at least `least`, and closes its parentheses.
-/
def Kept (least : Int) (s : List Char) : Prop :=
  ∀ (parenDepth : Int) (current rest : List Char), least ≤ parenDepth →
    splitItems parenDepth current (s ++ rest) = splitItems parenDepth (current ++ s) rest

theorem Kept.nil (least : Int) : Kept least [] := by
  intro parenDepth current rest _
  rw [List.nil_append, List.append_nil]

theorem Kept.append {least : Int} {s t : List Char} (hs : Kept least s) (ht : Kept least t)
    : Kept least (s ++ t) := by
  intro parenDepth current rest hle
  rw [List.append_assoc, hs _ _ _ hle, ht _ _ _ hle, List.append_assoc]

theorem Kept.mono {least least' : Int} {s : List Char} (h : Kept least s) (hle : least ≤ least')
    : Kept least' s :=
  fun parenDepth current rest hdepth => h parenDepth current rest (Int.le_trans hle hdepth)

theorem Kept.char {least : Int} {c : Char} (hopen : c ≠ '(') (hclose : c ≠ ')')
    (hcomma : c = ',' → 0 < least) : Kept least [c] := by
  intro parenDepth current rest hle
  rw [List.singleton_append, splitItems, if_neg hopen, if_neg hclose, if_neg]
  rintro ⟨hc, hzero⟩
  have := hcomma hc
  omega

theorem Kept.parens {s : List Char} (h : Kept 1 s) : Kept 0 ('(' :: s ++ [')']) := by
  intro parenDepth current rest hle
  have hclose : (')' : Char) ≠ '(' := by decide
  rw [List.append_assoc, List.cons_append, splitItems, if_pos rfl, h _ _ _ (by omega),
    List.singleton_append, splitItems, if_neg hclose, if_pos rfl]
  simp

theorem Kept.of_chars {s : List Char} (h : ∀ c ∈ [',', '(', ')'], c ∉ s) : Kept 0 s := by
  induction s with
  | nil => exact Kept.nil 0
  | cons c s ih =>
    have hne (d : Char) (hd : d ∈ [',', '(', ')']) : c ≠ d := by
      rintro rfl
      exact h c hd List.mem_cons_self
    apply Kept.append (s := [c])
    . apply Kept.char (hne _ (by simp)) (hne _ (by simp))
      intro hcomma
      exact absurd hcomma (hne _ (by simp))
    . apply ih
      intro d hd hmem
      exact h d hd (List.mem_cons_of_mem c hmem)

theorem commaSeparated_cons (item : List Char) {items : List (List Char)} (hne : items ≠ [])
    : commaSeparated (item :: items) = item ++ (',' :: commaSeparated items) := by
  rw [commaSeparated, List.intercalate_cons_of_ne_nil hne, List.append_assoc]
  rfl

theorem commaSeparated_singleton (item : List Char) : commaSeparated [item] = item :=
  List.intercalate_singleton

theorem Kept.commaSeparated {items : List (List Char)} (h : ∀ item ∈ items, Kept 0 item)
    : Kept 1 (commaSeparated items) := by
  induction items with
  | nil => exact Kept.nil 1
  | cons item items ih =>
    rw [List.forall_mem_cons] at h
    have hitem : Kept 1 item := h.1.mono (by decide)
    cases items with
    | nil =>
      rw [commaSeparated_singleton]
      exact hitem
    | cons next items =>
      rw [commaSeparated_cons _ (List.cons_ne_nil _ _)]
      apply hitem.append
      apply Kept.append (s := [','])
      . exact Kept.char (by decide) (by decide) (fun _ => Int.one_pos)
      . exact ih h.2

/--
An item that is neither split nor left out.
-/
structure Whole (item : List Char) : Prop where
  kept : Kept 0 item
  ne : item ≠ []
  starts : Starts item
  ends : Ends item

theorem isBlank_of_starts {s : List Char} (hne : s ≠ []) (hstarts : Starts s) (rest : List Char)
    : isBlank (s ++ rest) = false := by
  cases s with
  | nil => contradiction
  | cons c s =>
    have hc : Rust.Str.isWhitespace c = false := hstarts c rfl
    rw [isBlank, trimChars, Rust.Str.trimStart, List.cons_append, List.dropWhile_cons_of_neg (by simp [hc])]
    rw [List.isEmpty_eq_false_iff, Rust.Str.trimEnd, ne_eq, List.reverse_eq_nil_iff,
      List.dropWhile_eq_nil_iff]
    intro hall
    have := hall c (by simp)
    rw [hc] at this
    cases this

theorem Whole.trim {item : List Char} (h : Whole item) : trimChars item = item :=
  Dialect.trimChars_eq h.starts h.ends

theorem Whole.flush {item : List Char} (h : Whole item) : flush item = [item] := by
  have := isBlank_of_starts h.ne h.starts []
  rw [List.append_nil] at this
  rw [Query.flush, this]
  rfl

theorem isBlank_commaSeparated {items : List (List Char)} (hne : items ≠ [])
    (h : ∀ item ∈ items, Whole item) : isBlank (commaSeparated items) = false := by
  cases items with
  | nil => contradiction
  | cons item items =>
    have hitem := h item List.mem_cons_self
    cases items with
    | nil =>
      have := isBlank_of_starts hitem.ne hitem.starts []
      rw [List.append_nil] at this
      rw [commaSeparated_singleton, this]
    | cons next items =>
      rw [commaSeparated_cons _ (List.cons_ne_nil _ _)]
      exact isBlank_of_starts hitem.ne hitem.starts _

theorem splitItems_commaSeparated {items : List (List Char)} (hne : items ≠ [])
    (h : ∀ item ∈ items, Whole item) : splitItems 0 [] (commaSeparated items) = items := by
  induction items with
  | nil => contradiction
  | cons item items ih =>
    rw [List.forall_mem_cons] at h
    cases items with
    | nil =>
      have := h.1.kept 0 [] [] (Int.le_refl 0)
      rw [List.append_nil, List.nil_append] at this
      rw [commaSeparated_singleton, this, splitItems, h.1.flush]
    | cons next items =>
      have hrest := ih (List.cons_ne_nil _ _) h.2
      rw [commaSeparated_cons _ (List.cons_ne_nil _ _), h.1.kept 0 [] _ (Int.le_refl 0),
        List.nil_append, splitItems]
      rw [if_neg (by decide), if_neg (by decide), if_pos ⟨rfl, rfl⟩, h.1.flush, hrest]
      rfl

/-! The parts of an item -/

theorem splitFirst_none {sep : Char} {s : List Char} (h : sep ∉ s) : splitFirst sep s = none := by
  have : s.dropWhile (· ≠ sep) = [] := by
    rw [List.dropWhile_eq_nil_iff]
    intro c hc
    rw [decide_eq_true_eq]
    rintro rfl
    exact h hc
  rw [splitFirst, this]

theorem splitFirst_append {sep : Char} {before : List Char} (h : sep ∉ before) (after : List Char)
    : splitFirst sep (before ++ sep :: after) = some (before, after) := by
  have hbefore : ∀ c ∈ before, decide (c ≠ sep) = true := by
    intro c hc
    rw [decide_eq_true_eq]
    rintro rfl
    exact h hc
  have hsep : ∀ c ∈ (sep :: after).head?, decide (c ≠ sep) = false := by
    intro c hc
    cases hc
    rw [decide_eq_false_iff_not, not_not]
  rw [splitFirst, Rust.Str.dropWhile_append hbefore hsep, Rust.Str.takeWhile_append hbefore hsep]

section

variable {name aliasName hint : String}

theorem PlainName.not_mem (h : PlainName name) {c : Char} (hc : c ∈ [',', '(', ')', ':', '!', '*'])
    : c ∉ name.toList :=
  h.plain c hc

theorem PlainName.toList_ne (h : PlainName name) : name.toList ≠ [] := by
  intro hnil
  exact h.ne (String.toList_eq_nil_iff.mp hnil)

theorem PlainName.kept (h : PlainName name) : Kept 0 name.toList := by
  apply Kept.of_chars
  intro c hc
  apply h.not_mem
  revert hc
  simp only [List.mem_cons, List.not_mem_nil, or_false]
  tauto

theorem PlainName.whole (h : PlainName name) : Whole name.toList :=
  ⟨h.kept, h.toList_ne, h.starts, h.ends⟩

theorem PlainName.parseColumn (h : PlainName name)
    : Query.parseColumn name.toList = .ok (.column name) := by
  rw [Query.parseColumn, splitFirst_none (h.not_mem (by simp)), String.ofList_toList]

theorem PlainName.parseColumn_aliased (h : PlainName aliasName) (hname : PlainName name)
    : Query.parseColumn (aliasName.toList ++ ':' :: name.toList) = .ok (.aliased aliasName name) := by
  rw [Query.parseColumn, splitFirst_append (h.not_mem (by simp))]
  simp [h.whole.trim, hname.whole.trim, h.toList_ne, hname.toList_ne]

theorem PlainName.append_hint (h : PlainName name) {fkHint : Option String}
    (hhint : ∀ hint ∈ fkHint, PlainName hint) : Whole (namePart name fkHint none) := by
  cases fkHint with
  | none =>
    rw [namePart, List.nil_append, List.append_nil]
    exact h.whole
  | some hint =>
    have hhint := hhint hint rfl
    have hends : Ends ('!' :: hint.toList) := hhint.ends.append_of_ne_nil ['!'] hhint.toList_ne
    rw [namePart, List.nil_append]
    refine ⟨h.kept.append (Kept.append (s := ['!']) ?_ hhint.kept), ?_, h.starts.append h.toList_ne,
      hends.append_of_ne_nil _ (List.cons_ne_nil _ _)⟩
    . exact Kept.char (by decide) (by decide) (by decide)
    . simp

theorem not_mem_namePart (h : PlainName name) {fkHint : Option String}
    (hhint : ∀ hint ∈ fkHint, PlainName hint) {c : Char} (hc : c ∈ [',', '(', ')', ':', '*'])
    : c ∉ namePart name fkHint none := by
  have hc' : c ∈ [',', '(', ')', ':', '!', '*'] := by
    revert hc
    simp only [List.mem_cons, List.not_mem_nil, or_false]
    tauto
  have hbang : c ≠ '!' := by
    rintro rfl
    revert hc
    decide
  have hname := h.not_mem hc'
  cases fkHint with
  | none => simpa [namePart] using hname
  | some hint =>
    have := (hhint hint rfl).not_mem hc'
    simp [namePart, hname, hbang, this]

theorem namePart_some (name : String) (fkHint : Option String) (aliasName : String)
    : namePart name fkHint (some aliasName) = aliasName.toList ++ ':' :: namePart name fkHint none := by
  simp [namePart]

theorem parseEmbedName_namePart {fkHint aliasName : Option String} (hname : PlainName name)
    (hhint : ∀ hint ∈ fkHint, PlainName hint) (halias : ∀ a ∈ aliasName, PlainName a)
    : parseEmbedName (namePart name fkHint aliasName) = ⟨name, fkHint, aliasName⟩ := by
  have hwhole := (hname.append_hint hhint).trim
  have hhinted : splitFirst '!' (namePart name fkHint none) = fkHint.map (name.toList, ·.toList) := by
    cases fkHint with
    | none =>
      apply splitFirst_none
      simpa [namePart] using hname.not_mem (by simp)
    | some hint => exact splitFirst_append (hname.not_mem (by simp)) _
  have hplain : fkHint = none → namePart name fkHint none = name.toList := by
    rintro rfl
    simp [namePart]
  rw [parseEmbedName]
  cases aliasName with
  | none =>
    rw [splitFirst_none (not_mem_namePart hname hhint (by simp))]
    simp only [hwhole, hhinted]
    cases fkHint with
    | none => simp [hplain]
    | some hint => simp
  | some aliasName =>
    have halias := halias aliasName rfl
    rw [namePart_some, splitFirst_append (halias.not_mem (by simp))]
    simp only [hwhole, hhinted, halias.whole.trim]
    cases fkHint with
    | none => simp [hplain]
    | some hint => simp

theorem whole_namePart {fkHint aliasName : Option String} (hname : PlainName name)
    (hhint : ∀ hint ∈ fkHint, PlainName hint) (halias : ∀ a ∈ aliasName, PlainName a)
    : Whole (namePart name fkHint aliasName) := by
  have hwhole := hname.append_hint hhint
  cases aliasName with
  | none => exact hwhole
  | some aliasName =>
    have halias := halias aliasName rfl
    rw [namePart_some]
    refine ⟨halias.kept.append (Kept.append (s := [':']) ?_ hwhole.kept), by simp,
      halias.starts.append halias.toList_ne, ?_⟩
    . exact Kept.char (by decide) (by decide) (by decide)
    . rw [← List.singleton_append, ← List.append_assoc]
      exact hwhole.ends.append_of_ne_nil _ hwhole.ne

end

/-! The items of a select -/

/--
An item that is read back.
-/
structure ReadBack (column : SelectColumn) : Prop where
  whole : Whole (printColumn column)
  parse : parseSingleSelectItem (printColumn column) = .ok column

theorem parseSelectItems_eq (input : List Char)
    : parseSelectItems input =
        if isBlank input then
          .ok [.all]
        else
          ((splitItems 0 [] input).mapM parseSingleSelectItem).bind fun columns =>
            .ok (if columns.isEmpty then [.all] else columns) := by
  have hattach : (splitItems 0 [] input).attach.mapM (fun item => parseSingleSelectItem item.1)
      = (splitItems 0 [] input).mapM parseSingleSelectItem := by
    conv => rhs; rw [← List.attach_map_subtype_val (splitItems 0 [] input), List.mapM_map]
    rfl
  rw [parseSelectItems, ← hattach]
  rfl

theorem parseSelectItems_commaSeparated {columns : List SelectColumn} (hne : columns ≠ [])
    (h : ∀ column ∈ columns, ReadBack column)
    : parseSelectItems (commaSeparated (columns.map printColumn)) = .ok columns := by
  have hne' : columns.map printColumn ≠ [] := by simpa using hne
  have hwhole : ∀ item ∈ columns.map printColumn, Whole item := by
    intro item hitem
    obtain ⟨column, hcolumn, rfl⟩ := List.mem_map.mp hitem
    exact (h column hcolumn).whole
  have hall : (columns.map printColumn).mapM parseSingleSelectItem = .ok columns := by
    clear hne hne' hwhole
    induction columns with
    | nil => rfl
    | cons column columns ih =>
      rw [List.forall_mem_cons] at h
      rw [List.map_cons, Rust.mapM_cons_eq_ok]
      exact ⟨column, columns, h.1.parse, ih h.2, rfl⟩
  rw [parseSelectItems_eq, isBlank_commaSeparated hne' hwhole, splitItems_commaSeparated hne' hwhole,
    hall]
  cases columns with
  | nil => contradiction
  | cons column columns => rfl

theorem parseSingleSelectItem_column {item : List Char} (hwhole : Whole item) (hparen : '(' ∉ item)
    (hstar : '*' ∉ item) : parseSingleSelectItem item = parseColumn item := by
  rw [parseSingleSelectItem]
  simp only [hwhole.trim]
  rw [if_neg]
  . split
    . next hsplit =>
      rw [hwhole.trim, splitFirst_none hparen] at hsplit
      cases hsplit
    . rfl
  . rintro rfl
    exact hstar List.mem_cons_self

theorem parseSingleSelectItem_embed {part inner : List Char} {columns : List SelectColumn}
    (hwhole : Whole (part ++ '(' :: inner ++ [')'])) (hparen : '(' ∉ part)
    (hname : (parseEmbedName part).name ≠ "") (hinner : parseSelectItems inner = .ok columns)
    : parseSingleSelectItem (part ++ '(' :: inner ++ [')'])
        = .ok (.embed ⟨(parseEmbedName part).name, (parseEmbedName part).fkHint, columns,
            (parseEmbedName part).aliasName⟩) := by
  have hstar : part ++ '(' :: inner ++ [')'] ≠ ['*'] := by
    intro heq
    have : '(' ∈ ['*'] := by simp [← heq]
    revert this
    decide
  have hfirst : splitFirst '(' (part ++ '(' :: inner ++ [')']) = some (part, inner ++ [')']) := by
    rw [List.append_assoc]
    exact splitFirst_append hparen _
  rw [parseSingleSelectItem]
  simp only [hwhole.trim]
  rw [if_neg hstar]
  split
  . next before rest hsplit =>
    rw [hwhole.trim, hfirst] at hsplit
    cases hsplit
    have hlast : (part ++ '(' :: inner ++ [')']).getLast? = some ')' := List.getLast?_concat
    rw [if_neg (by simp only [hlast, not_true, ne_eq, not_false_eq_true]), if_neg (by simpa using hname), List.dropLast_concat, hinner]
    rfl
  . next hsplit =>
    rw [hwhole.trim, hfirst] at hsplit
    cases hsplit

theorem whole_all : Whole ['*'] := by
  refine ⟨Kept.char (by decide) (by decide) (by decide), List.cons_ne_nil _ _, ?_, ?_⟩
  . intro c hc
    cases hc
    decide
  . intro c hc
    cases hc
    decide

theorem readBack_all : ReadBack .all := by
  constructor
  . rw [printColumn]
    exact whole_all
  . rw [printColumn, parseSingleSelectItem]
    simp only [whole_all.trim]
    rw [if_pos trivial]

theorem readBack_column {name : String} (h : PlainName name) : ReadBack (.column name) := by
  constructor
  . rw [printColumn]
    exact h.whole
  . rw [printColumn, parseSingleSelectItem_column h.whole (h.not_mem (by simp)) (h.not_mem (by simp))]
    exact h.parseColumn

theorem readBack_aliased {aliasName name : String} (h : PlainName aliasName) (hname : PlainName name)
    : ReadBack (.aliased aliasName name) := by
  have hwhole : Whole (aliasName.toList ++ ':' :: name.toList) := by
    have := @whole_namePart name none (some aliasName) hname (by simp) (by simpa using h)
    rw [namePart_some] at this
    simpa [namePart] using this
  have hnot {c : Char} (hc : c ∈ [',', '(', ')', ':', '!', '*']) (hcolon : c ≠ ':')
      : c ∉ aliasName.toList ++ ':' :: name.toList := by
    simp [h.not_mem hc, hname.not_mem hc, hcolon]
  constructor
  . rw [printColumn]
    exact hwhole
  . rw [printColumn, parseSingleSelectItem_column hwhole (hnot (by simp) (by decide))
      (hnot (by simp) (by decide))]
    exact h.parseColumn_aliased hname

theorem readBack_embed {spec : EmbedSpec SelectColumn} (hname : PlainName spec.name)
    (hhint : ∀ hint ∈ spec.fkHint, PlainName hint)
    (halias : ∀ aliasName ∈ spec.aliasName, PlainName aliasName) (hne : spec.columns ≠ [])
    (hcolumns : ∀ column ∈ spec.columns, ReadBack column) : ReadBack (.embed spec) := by
  have ⟨name, fkHint, columns, aliasName⟩ := spec
  have hpart := whole_namePart hname hhint halias
  have hparse := parseEmbedName_namePart hname hhint halias
  have hparen : '(' ∉ namePart name fkHint aliasName := by
    have := not_mem_namePart (c := '(') hname hhint (by simp)
    cases aliasName with
    | none => exact this
    | some aliasName =>
      have := (halias aliasName rfl).not_mem (c := '(') (by simp)
      rw [namePart_some]
      simp_all
  have hkept : Kept 1 (commaSeparated (columns.map printColumn)) := by
    apply Kept.commaSeparated
    intro item hitem
    obtain ⟨column, hcolumn, rfl⟩ := List.mem_map.mp hitem
    exact (hcolumns column hcolumn).whole.kept
  have hends : Ends [')'] := by
    intro c hc
    cases hc
    decide
  have hwhole : Whole (namePart name fkHint aliasName
      ++ '(' :: commaSeparated (columns.map printColumn) ++ [')']) := by
    refine ⟨?_, by simp, ?_, hends.append_of_ne_nil _ (List.cons_ne_nil _ _)⟩
    . rw [List.append_assoc]
      exact hpart.kept.append hkept.parens
    . rw [List.append_assoc]
      exact hpart.starts.append hpart.ne
  constructor
  . rw [printColumn]
    exact hwhole
  . rw [printColumn, parseSingleSelectItem_embed hwhole hparen ?_
      (parseSelectItems_commaSeparated hne hcolumns), hparse]
    rw [hparse]
    exact hname.ne

theorem WellFormed.readBack {column : SelectColumn} (h : WellFormed column) : ReadBack column := by
  induction h with
  | all => exact readBack_all
  | column name h => exact readBack_column h
  | aliased aliasName column halias hcolumn => exact readBack_aliased halias hcolumn
  | embed spec hname hhint halias hne _ ih => exact readBack_embed hname hhint halias hne ih

/--
What is written in the syntax of a select is read back.
-/
theorem parseSelect_printSelect {columns : List SelectColumn} (hne : columns ≠ [])
    (h : ∀ column ∈ columns, WellFormed column) : parseSelect (printSelect columns) = .ok columns :=
  parseSelectItems_commaSeparated hne (fun column hcolumn => (h column hcolumn).readBack)

/--
`id,who:author!fk(*,n:name)`
-/
theorem parseSelect_printSelect_author
    : parseSelect (printSelect [.column "id",
          .embed ⟨"author", some "fk", [.all, .aliased "n" "name"], some "who"⟩])
        = .ok [.column "id", .embed ⟨"author", some "fk", [.all, .aliased "n" "name"], some "who"⟩] := by
  have hplain (name : String) (h : name ∈ ["id", "author", "fk", "n", "name", "who"])
      : PlainName name := by
    simp only [List.mem_cons, List.not_mem_nil, or_false] at h
    rcases h with rfl | rfl | rfl | rfl | rfl | rfl
    all_goals
      refine ⟨by decide, List.all_iff_forall_prop.mp (by decide), ?_, ?_⟩
      . intro c hc
        cases hc
        decide
      . intro c hc
        cases hc
        decide
  apply parseSelect_printSelect
  . simp
  . simp only [List.forall_mem_cons, List.not_mem_nil, false_implies, implies_true, and_true]
    refine ⟨.column _ (hplain _ (by simp)), .embed _ (hplain _ (by simp)) ?_ ?_ (by simp) ?_⟩
    . simpa using hplain "fk" (by simp)
    . simpa using hplain "who" (by simp)
    . simp only [List.forall_mem_cons, List.not_mem_nil, false_implies, implies_true, and_true]
      exact ⟨.all, .aliased _ _ (hplain _ (by simp)) (hplain _ (by simp))⟩

end Reactor.Data.Query
