import ReactorCloud.Analytics.Scoped

/-!
This module contains the texts of the columns a query selects and groups by, and where the names of the
request stand in them.
-/

namespace Reactor.Analytics

open Sql

/-! The names of a request that are written into its text -/

def GroupKey.propName : GroupKey → Option String
  | .prop name => some name
  | _ => none

def Measure.propName : Measure → Option String
  | .sum prop => some prop
  | .avg prop => some prop
  | .p50 prop => some prop
  | .p95 prop => some prop
  | .p99 prop => some prop
  | _ => none

/--
The properties of `group_by` and `measure`.
-/
def QueryRequest.selectedNames (req : QueryRequest) : List String :=
  req.groupBy.filterMap GroupKey.propName ++ (req.measure.bind Measure.propName).toList

/--
A hot column or a name without an unpaired quote.
-/
def Quotable (name : String) : Prop :=
  name ∈ hotColumns ∨ paired '\'' name.toList = true

instance (name : String) : Decidable (Quotable name) :=
  inferInstanceAs (Decidable (_ ∨ _))

/--
The strings of the request among the pieces are hot columns or fill a string literal, where the pieces
stand between two texts.
-/
def PlacedIn (before : String) (ps : List Piece) (after : String) : Prop :=
  ∀ front s back, ps = front ++ .given s :: back
    → s ∈ hotColumns ∨ InLiteral (before ++ textOf front) s (textOf back ++ after)

theorem placedIn_hot {ps : List Piece} (h : ∀ s, Piece.given s ∈ ps → s ∈ hotColumns) (before after : String)
    : PlacedIn before ps after := by
  intro front s back heq
  refine .inl (h s ?_)
  rw [heq]
  simp

theorem PlacedIn.append {before after : String} {ps qs : List Piece} (hps : PlacedIn before ps (textOf qs ++ after))
    (hqs : PlacedIn (before ++ textOf ps) qs after) : PlacedIn before (ps ++ qs) after := by
  intro front s back heq
  rcases List.append_eq_append_iff.mp heq with ⟨mid, hfront, hmid⟩ | ⟨mid, hmid, hback⟩
  . have := hqs mid s back hmid
    rw [hfront, textOf_append, ← String.append_assoc]
    exact this
  . cases mid with
    | nil =>
      rw [List.append_nil] at hmid
      rw [List.nil_append] at hback
      have := hqs [] s back hback.symm
      rw [← hmid]
      simpa using this
    | cons piece mid =>
      rw [List.cons_append, List.cons.injEq] at hback
      have := hps front s mid (by rw [hmid, hback.1])
      rw [hback.2, textOf_append, String.append_assoc]
      exact this

theorem placedIn_sql (before text after : String) : PlacedIn before [.sql text] after :=
  placedIn_hot (by simp) before after

theorem PlacedIn.cons_sql {before text after : String} {ps : List Piece} (h : PlacedIn (before ++ text) ps after)
    : PlacedIn before (.sql text :: ps) after := by
  have htext : PlacedIn before [.sql text] (textOf ps ++ after) := placedIn_sql before text _
  have := htext.append (by simpa using h)
  simpa using this

/--
A name between two texts, the first of which opens a literal and the second closes it.
-/
theorem placedIn_literal {before opening name closing after : String}
    (hopened : skimAll .start (before ++ opening).toList = .str []) (hname : Quotable name)
    (hclosed : (closing ++ after).toList.head? ≠ some '\'')
    : PlacedIn before [.sql opening, .given name, .sql ("'" ++ closing)] after := by
  apply PlacedIn.cons_sql
  intro front s back heq
  cases front with
  | nil =>
    cases heq
    refine hname.imp_right ?_
    intro hpaired
    have := inLiteral_of_paired hopened hpaired hclosed
    simpa [String.append_assoc] using this
  | cons piece front =>
    rw [List.cons_append, List.cons.injEq] at heq
    have hmem : Piece.given s ∈ [Piece.sql ("'" ++ closing)] := by
      rw [heq.2]
      simp
    simp at hmem

/-! Columns -/

/--
Pieces that may stand in a list of columns, behind a text that is complete.
-/
structure Selects (ps : List Piece) : Prop where
  reads : ∃ toks, Lexes (textOf ps) toks ∧ Harmless toks
  placed : ∀ before after, AtStart before → after.toList.head? ≠ some '\'' → PlacedIn before ps after

theorem Harmless.append {s t : List Token} (hs : Harmless s) (ht : Harmless t) : Harmless (s ++ t) := by
  refine ⟨?_, hs.unnamed.append ht.unnamed⟩
  rw [List.mem_append, not_or]
  exact ⟨hs.noOr, ht.noOr⟩

theorem harmless_iff (toks : List Token) : Harmless toks ↔ Token.word "or" ∉ toks ∧ Unnamed toks :=
  ⟨fun h => ⟨h.noOr, h.unnamed⟩, fun h => ⟨h.1, h.2⟩⟩

instance (toks : List Token) : Decidable (Harmless toks) :=
  decidable_of_iff _ (harmless_iff toks).symm

theorem selects_nil : Selects [] :=
  ⟨⟨[], lexesOpen_empty.lexes, by decide⟩, fun before after _ _ => placedIn_hot (by simp) before after⟩

theorem selects_of_lexes {text : String} {toks : List Token} (hlexes : Lexes text toks) (h : Harmless toks)
    : Selects [.sql text] :=
  ⟨⟨toks, by simpa using hlexes, h⟩, fun before after _ _ => placedIn_sql before text after⟩

theorem selects_sql {text : String} (toks : List Token) (htoks : tokensOf text = some toks) (h : Harmless toks)
    : Selects [.sql text] :=
  selects_of_lexes (lexes_of_tokensOf htoks) h

/--
A text of the compiler in front of columns.
-/
theorem Selects.cons_open {text : String} {toks : List Token} {ps : List Piece} (h : Selects ps)
    (hopen : LexesOpen text toks) (hharmless : Harmless toks) : Selects (.sql text :: ps) := by
  have ⟨toks', hlexes, hharmless'⟩ := h.reads
  refine ⟨⟨toks ++ toks', hopen.append hlexes, hharmless.append hharmless'⟩, ?_⟩
  intro before after hstart hafter
  apply PlacedIn.cons_sql
  apply h.placed _ _ (hstart.append_open hopen) hafter

/--
Columns in front of a text that closes them.
-/
theorem Selects.append_closing {ps qs : List Piece} {text : String} {toks : List Token} (h : Selects ps)
    (h' : Selects qs) (hbreak : Breaking text) (hopen : LexesOpen text toks) (hharmless : Harmless toks)
    : Selects (ps ++ .sql text :: qs) := by
  have ⟨ptoks, hps, hps'⟩ := h.reads
  have ⟨qtoks, hqs, hqs'⟩ := h'.reads
  refine ⟨⟨ptoks ++ (toks ++ qtoks), ?_, hps'.append (hharmless.append hqs')⟩, ?_⟩
  . have := hps.append (hbreak.append _) (hopen.append hqs)
    simpa using this
  . intro before after hstart hafter
    apply PlacedIn.append
    . apply h.placed _ _ hstart
      have ⟨c, cs, htext, _⟩ := hbreak.closing
      have hc : Lexer.breaks c = true := by
        unfold Breaking at hbreak
        simpa [htext] using hbreak
      rw [textOf_cons, text_sql, String.toList_append, String.toList_append, htext]
      rw [List.cons_append, List.cons_append, List.head?_cons]
      rintro heq
      rw [Option.some.injEq] at heq
      subst heq
      revert hc
      decide
    . apply PlacedIn.cons_sql
      refine h'.placed _ _ ?_ hafter
      exact hstart.append_closing hps hbreak.closing hopen.skim

theorem harmless_hot {name : String} (h : name ∈ hotColumns) : Harmless [.word name] := by
  have hspecial := hot_not_special h
  simp only [List.mem_cons, List.not_mem_nil, or_false, not_or] at hspecial
  rw [harmless_iff]
  simp [Unnamed, Token.names, hspecial, Ne.symm hspecial.1]

theorem selects_hot {name : String} (h : name ∈ hotColumns) : Selects [.given name] := by
  refine ⟨⟨[.word name], by simpa using lexes_hot h, harmless_hot h⟩, ?_⟩
  intro before after _ _
  apply placedIn_hot
  intro s hs
  simp only [List.mem_singleton, Piece.given.injEq] at hs
  rw [hs]
  exact h

/--
A name as a literal between two texts of the compiler.
-/
theorem selects_literal {opening name closing : String} {toks toks' : List Token}
    (hrun : Lexer.run .start opening.toList = some (toks, .str [])) (hharmless : Harmless toks)
    (h : paired '\'' name.toList = true) (hclose : closing = "" ∨ Closing closing) (hquote : closing.toList.head? ≠ some '\'')
    (hclosing : Lexes closing toks') (hharmless' : Harmless toks')
    : Selects [.sql opening, .given name, .sql ("'" ++ closing)] := by
  have hlit : Harmless [.str name] := by
    rw [harmless_iff]
    simp [Unnamed, Token.names]
  have hname := lexes_literal hrun h
  refine ⟨⟨toks ++ [.str name] ++ toks', ?_, (hharmless.append hlit).append hharmless'⟩, ?_⟩
  . cases hclose with
    | inl hempty =>
      subst hempty
      have := lexes_empty_iff.mp hclosing
      simpa [this] using hname
    | inr hclosed =>
      have := hname.append_closing hclosed hclosing
      simpa [String.append_assoc] using this
  . intro before after hstart hafter
    apply placedIn_literal ?_ (.inr h) ?_
    . unfold AtStart at hstart
      rw [String.toList_append, skimAll_append, hstart, skimAll_of_run hrun]
    . cases hc : closing.toList with
      | nil => simpa [hc] using hafter
      | cons c cs => simpa [hc] using hquote

theorem selects_column {key : GroupKey} (h : ∀ name ∈ key.propName, Quotable name)
    : Selects (groupKeyToColumn key) := by
  cases key with
  | event => exact selects_sql [.word "event"] (by decide) (by decide)
  | user => exact selects_sql [.word "user_id"] (by decide) (by decide)
  | anon => exact selects_sql [.word "anonymous_id"] (by decide) (by decide)
  | prop name =>
    have hname := h name rfl
    simp only [groupKeyToColumn]
    split
    . next hhot => exact selects_hot hhot
    . next hcold =>
      have hrun : Lexer.run .start "properties->>'".toList = some ([.word "properties", .op "->>"], .str []) := by
        decide
      exact selects_literal hrun (by decide) (hname.resolve_left hcold) (.inl rfl) (by decide)
        lexesOpen_empty.lexes (by decide)

theorem selects_numericOf {before prop : String} {toks : List Token} (hprop : Quotable prop)
    (hopen : LexesOpen before toks) (hharmless : Harmless toks) : Selects (numericOf before prop) := by
  have hclosed : Closing "::numeric) as value" := closing_colon (by decide)
  have hcast : Lexes "::numeric) as value"
      [.punct ':', .punct ':', .word "numeric", .punct ')', .word "as", .word "value"] :=
    lexes_of_tokensOf (by decide)
  unfold numericOf
  split
  . next hhot =>
    refine Selects.cons_open ?_ hopen hharmless
    have hcast' : Harmless [.punct ':', .punct ':', .word "numeric", .punct ')', .word "as", .word "value"] := by
      decide
    refine ⟨⟨_, ?_, (harmless_hot hhot).append hcast'⟩, ?_⟩
    . simpa using (lexes_hot hhot).append_closing hclosed hcast
    . intro before after hstart _
      apply placedIn_hot
      intro s hs
      simp only [List.mem_cons, Piece.given.injEq, reduceCtorEq, List.not_mem_nil, or_false] at hs
      rw [hs]
      exact hhot
  . next hcold =>
    refine Selects.cons_open ?_ hopen hharmless
    have hrun : Lexer.run .start "(properties->>'".toList
        = some ([.punct '(', .word "properties", .op "->>"], .str []) := by
      decide
    have hparen : Lexes (")" ++ "::numeric) as value") [.punct ')', .punct ':', .punct ':', .word "numeric",
        .punct ')', .word "as", .word "value"] :=
      lexes_of_tokensOf (by decide)
    exact selects_literal hrun (by decide) (hprop.resolve_left hcold) (.inr (Breaking.closing (by decide)))
      (by decide) hparen (by decide)

theorem selects_measure {m : Measure} (h : ∀ name ∈ m.propName, Quotable name) : Selects (measureToSql m) := by
  cases m with
  | count =>
    exact selects_sql [.word "count", .punct '(', .op "*", .punct ')', .word "as", .word "value"] (by decide)
      (by decide)
  | uniqueUsers =>
    exact selects_sql [.word "count", .punct '(', .word "distinct", .word "user_id", .punct ')', .word "as",
      .word "value"] (by decide) (by decide)
  | uniqueSessions =>
    exact selects_sql [.word "count", .punct '(', .word "distinct", .word "session_id", .punct ')', .word "as",
      .word "value"] (by decide) (by decide)
  | sum prop =>
    have hopen : LexesOpen "SUM(" [.word "sum", .punct '('] := by decide
    exact selects_numericOf (h prop rfl) hopen (by decide)
  | avg prop =>
    have hopen : LexesOpen "AVG(" [.word "avg", .punct '('] := by decide
    exact selects_numericOf (h prop rfl) hopen (by decide)
  | p50 prop =>
    have hopen : LexesOpen "PERCENTILE_CONT(0.5) WITHIN GROUP (ORDER BY " [.word "percentile_cont", .punct '(',
        .num "0.5", .punct ')', .word "within", .word "group", .punct '(', .word "order", .word "by"] := by
      decide
    exact selects_numericOf (h prop rfl) hopen (by decide)
  | p95 prop =>
    have hopen : LexesOpen "PERCENTILE_CONT(0.95) WITHIN GROUP (ORDER BY " [.word "percentile_cont", .punct '(',
        .num "0.95", .punct ')', .word "within", .word "group", .punct '(', .word "order", .word "by"] := by
      decide
    exact selects_numericOf (h prop rfl) hopen (by decide)
  | p99 prop =>
    have hopen : LexesOpen "PERCENTILE_CONT(0.99) WITHIN GROUP (ORDER BY " [.word "percentile_cont", .punct '(',
        .num "0.99", .punct ')', .word "within", .word "group", .punct '(', .word "order", .word "by"] := by
      decide
    exact selects_numericOf (h prop rfl) hopen (by decide)

/-! Queries with columns -/

section

variable {req : QueryRequest} (h : ∀ name ∈ req.selectedNames, Quotable name)

include h

theorem quotable_groupBy {key : GroupKey} (hkey : key ∈ req.groupBy) : ∀ name ∈ key.propName, Quotable name := by
  intro name hname
  apply h
  rw [QueryRequest.selectedNames, List.mem_append, List.mem_filterMap]
  exact .inl ⟨key, hkey, hname⟩

theorem quotable_measure : ∀ name ∈ (req.measure.getD .count).propName, Quotable name := by
  intro name hname
  cases hm : req.measure with
  | none =>
    rw [hm] at hname
    cases hname
  | some m =>
    apply h
    rw [QueryRequest.selectedNames, List.mem_append]
    rw [hm] at hname
    refine .inr ?_
    rw [hm]
    simpa using hname

/--
The text up to the first condition.
-/
theorem selects_head : ∃ ps, aggregateHead req = ps ++ [.sql " FROM _reactor_analytics.events WHERE "] ∧ Selects ps := by
  refine ⟨_, rfl, ?_⟩
  have hkeys : ∀ keys : List GroupKey, (∀ key ∈ keys, key ∈ req.groupBy)
      → Selects (keys.flatMap (fun key => groupKeyToColumn key ++ [.sql ", "]) ++ measureToSql (req.measure.getD .count)) := by
    intro keys
    induction keys with
    | nil =>
      intro _
      exact selects_measure (quotable_measure h)
    | cons key keys ih =>
      intro hmem
      rw [List.forall_mem_cons] at hmem
      have hsep : LexesOpen ", " [.punct ','] := by decide
      have hharmless : Harmless [.punct ','] := by decide
      have := (selects_column (quotable_groupBy h hmem.1)).append_closing (ih hmem.2) (by decide) hsep hharmless
      simpa using this
  have hselect : LexesOpen "SELECT " [.word "select"] := by decide
  have hharmless : Harmless [.word "select"] := by decide
  have hrest := hkeys req.groupBy (fun key hkey => hkey)
  cases hbucket : req.timeBucket with
  | none => simpa using hrest.cons_open hselect hharmless
  | some bucket =>
    have htrunc : ∃ toks, LexesOpen ("date_trunc('" ++ bucketToInterval bucket ++ "', received_at) as time_bucket, ") toks
        ∧ Harmless toks := by
      refine ⟨[.word "date_trunc", .punct '(', .str (bucketToInterval bucket), .punct ',', .word "received_at",
        .punct ')', .word "as", .word "time_bucket", .punct ','], ?_, ?_⟩
      . cases bucket <;> decide
      . cases bucket <;> decide
    have ⟨toks, hopen, htoks⟩ := htrunc
    simpa using (hrest.cons_open hopen htoks).cons_open hselect hharmless

theorem selects_groupCols : Selects (joinPieces (groupCols req)) := by
  have hcols : ∀ ps ∈ groupCols req, Selects ps := by
    intro ps hps
    rw [groupCols, List.mem_append] at hps
    rcases hps with hps | hps
    . split at hps
      . rw [List.mem_singleton] at hps
        subst hps
        exact selects_sql [.word "time_bucket"] (by decide) (by decide)
      . cases hps
    . rw [List.mem_map] at hps
      have ⟨key, hkey, heq⟩ := hps
      subst heq
      exact selects_column (quotable_groupBy h hkey)
  have hjoin : ∀ cols : List (List Piece), (∀ ps ∈ cols, Selects ps) → Selects (joinPieces cols) := by
    intro cols
    induction cols with
    | nil =>
      intro _
      exact selects_nil
    | cons ps cols ih =>
      intro hmem
      rw [List.forall_mem_cons] at hmem
      cases cols with
      | nil => exact hmem.1
      | cons qs cols =>
        have hsep : LexesOpen ", " [.punct ','] := by decide
        have hharmless : Harmless [.punct ','] := by decide
        exact hmem.1.append_closing (ih hmem.2) (by decide) hsep hharmless
  apply hjoin _ hcols

end

/-! The texts behind the filter -/

theorem harmless_num (n : String) : Harmless [.num n] := by
  rw [harmless_iff]
  simp [Unnamed, Token.names]

theorem selects_limitClause (req : QueryRequest) : Selects (limitClause req) := by
  unfold limitClause
  split
  . exact selects_nil
  . next limit _ =>
    have hopen : LexesOpen "LIMIT " [.word "limit"] := by decide
    exact selects_of_lexes (hopen.append (lexes_nat limit.toNat)) (Harmless.append (by decide) (harmless_num _))

theorem tail_limitClause (req : QueryRequest) : Tail (textOf (limitClause req)) := by
  unfold limitClause
  split
  . exact .inl rfl
  . next limit _ =>
    have hsplit : "LIMIT " = "LIMIT" ++ " " := by decide
    have hopen : LexesOpen " " [] := by decide
    have hbreak : Breaking " " := by decide
    refine .inr ⟨"LIMIT", " " ++ Nat.repr limit.toNat, [.num (Nat.repr limit.toNat)], ?_, by decide,
      .inr (hbreak.append _).closing, hopen.append (lexes_nat limit.toNat), harmless_num _⟩
    rw [textOf_cons, textOf_nil, text_sql, hsplit, String.append_empty, String.append_assoc]

theorem skim_groupBy {state : LexState} {out : List Token} (h : Lexer.flush state = some out)
    : skimAll state "GROUP BY ".toList = .start := by
  have ⟨acc, hword⟩ := @skim_letter state out 'G' h (by decide)
  show skimAll (skim state 'G') "ROUP BY ".toList = .start
  rw [hword]
  rfl

/--
What stands behind the filter, wherever the filter ends.
-/
theorem aggregateTail_spec {req : QueryRequest} (h : ∀ name ∈ req.selectedNames, Quotable name)
    : Tail (textOf (aggregateTail req))
      ∧ ∀ before out, Lexer.flush (skimAll .start before.toList) = some out → PlacedIn before (aggregateTail req) "" := by
  unfold aggregateTail
  by_cases hcols : groupCols req = []
  . -- without columns there is no order either
    have hempty : req.timeBucket.isSome = false ∧ req.groupBy = [] := by
      rw [groupCols, List.append_eq_nil_iff, List.map_eq_nil_iff] at hcols
      refine ⟨?_, hcols.2⟩
      cases hbucket : req.timeBucket with
      | none => rfl
      | some bucket => simp [hbucket] at hcols
    rw [if_pos hcols, hempty.1, hempty.2]
    simp only [Bool.false_eq_true, if_false, List.isEmpty_nil, if_true, List.nil_append]
    refine ⟨tail_limitClause req, ?_⟩
    intro before out _
    apply placedIn_hot
    intro s hs
    unfold limitClause at hs
    split at hs <;> simp at hs
  . rw [if_neg hcols]
    have hspace : LexesOpen " " [] := by decide
    have horder : Selects ((if req.timeBucket.isSome then [.sql "ORDER BY time_bucket ASC "]
        else if req.groupBy.isEmpty then [] else [.sql "ORDER BY value DESC "]) ++ limitClause req) := by
      have hlimit := selects_limitClause req
      have hbucket : LexesOpen "ORDER BY time_bucket ASC " [.word "order", .word "by", .word "time_bucket", .word "asc"] := by
        decide
      have hvalue : LexesOpen "ORDER BY value DESC " [.word "order", .word "by", .word "value", .word "desc"] := by
        decide
      split
      . exact hlimit.cons_open hbucket (by decide)
      . split
        . simpa using hlimit
        . exact hlimit.cons_open hvalue (by decide)
    have hbody := (selects_groupCols h).append_closing horder (by decide) hspace (by decide)
    have hsplit : "GROUP BY " = "GROUP" ++ " BY " := by decide
    have hby : LexesOpen " BY " [.word "by"] := by decide
    have hbreak : Breaking " BY " := by decide
    have ⟨toks, hlexes, hharmless⟩ := hbody.reads
    constructor
    . refine .inr ⟨"GROUP", _, _, ?_, by decide, .inr (hbreak.append _).closing, hby.append hlexes,
        Harmless.append (by decide) hharmless⟩
      simp only [textOf_append, textOf_cons, textOf_nil, text_sql, hsplit, String.append_assoc, String.append_empty]
    . intro before out hflush
      have hstart : AtStart (before ++ "GROUP BY ") := by
        unfold AtStart
        rw [String.toList_append, skimAll_append]
        apply skim_groupBy hflush
      have := PlacedIn.cons_sql (hbody.placed _ "" hstart (by decide))
      simpa using this

end Reactor.Analytics
