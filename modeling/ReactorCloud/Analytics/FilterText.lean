import ReactorCloud.Analytics.Compiler
import ReactorCloud.Rust.Result
import ReactorCloud.Sql.Glue
import ReactorCloud.Sql.Placeholders
import ReactorCloud.Sql.Scan

/-!
This module contains the tokens of compiled filters. Whatever a filter looks like, its text has no `OR`
outside of its parentheses and does not name the table of the events.
-/

namespace Reactor.Analytics

open Rust (Json)
open Sql

@[simp]
theorem textOf_nil : textOf [] = "" := rfl

@[simp]
theorem textOf_cons (piece : Piece) (pieces : List Piece)
    : textOf (piece :: pieces) = piece.text ++ textOf pieces := rfl

@[simp]
theorem textOf_append (ps qs : List Piece) : textOf (ps ++ qs) = textOf ps ++ textOf qs := by
  induction ps with
  | nil => simp
  | cons p ps ih => simp [ih, String.append_assoc]

theorem toList_textOf (ps : List Piece) : (textOf ps).toList = ps.flatMap (·.text.toList) := by
  induction ps with
  | nil => rfl
  | cons p ps ih => simp [ih]

@[simp]
theorem text_sql (text : String) : (Piece.sql text).text = text := rfl

@[simp]
theorem text_given (s : String) : (Piece.given s).text = s := rfl

section

variable {req : QueryRequest} {start stop : Time} {c : SqlCompiler}

theorem scopeClause_params (before and after : String)
    : (scopeClause req start stop c before and after).2.params
        = c.params ++ [.uuid req.projectId, .timestamp start, .timestamp stop] := by
  simp [scopeClause, SqlCompiler.withParam, SqlCompiler.nextParam, SqlCompiler.push]

theorem scopeClause_paramIdx (before and after : String)
    : (scopeClause req start stop c before and after).2.paramIdx = c.paramIdx + 3 := rfl

theorem scopeClause_sql {before and after s : String} : Piece.given s ∉ (scopeClause req start stop c before and after).1 := by
  simp [scopeClause, SqlCompiler.withParam]

end

theorem lexes_hot {name : String} (h : name ∈ hotColumns) : Lexes name [.word name] := by
  have hall : ∀ name ∈ hotColumns, tokensOf name = some [.word name] := by decide
  apply lexes_of_tokensOf (hall name h)

/-! The tokens of the operators -/

section

variable (col n : String)

def StringOp.tokens : StringOp → List Token
  | .eq _ => [.word col, .op "=", .param n]
  | .neq _ => [.word col, .op "!=", .param n]
  | .contains _ => [.word col, .word "like", .str "%", .op "||", .param n, .op "||", .str "%"]
  | .startsWith _ => [.word col, .word "like", .param n, .op "||", .str "%"]
  | .endsWith _ => [.word col, .word "like", .str "%", .op "||", .param n]
  | .oneOf _ => [.word col, .op "=", .word "any", .punct '(', .param n, .punct ')']
  | .notIn _ => [.word col, .op "!=", .word "all", .punct '(', .param n, .punct ')']

def ValueOp.tokens : ValueOp → List Token
  | .eq _ => [.word col, .op "=", .param n]
  | .neq _ => [.word col, .op "!=", .param n]
  | .gt _ => [.word col, .op ">", .param n]
  | .gte _ => [.word col, .op ">=", .param n]
  | .lt _ => [.word col, .op "<", .param n]
  | .lte _ => [.word col, .op "<=", .param n]
  | .oneOf _ => [.word col, .op "=", .word "any", .punct '(', .param n, .punct ')']
  | .notIn _ => [.word col, .op "!=", .word "all", .punct '(', .param n, .punct ')']
  | .isNull => [.word col, .word "is", .word "null"]
  | .isNotNull => [.word col, .word "is", .word "not", .word "null"]

/--
`idx` is the number that stands for the name of the property.
-/
def castTokens (idx op type : String) : List Token :=
  [.punct '(', .word "properties", .op "->>", .num idx, .punct ')', .punct ':', .punct ':', .word type, .op op,
    .param n, .punct ':', .punct ':', .word type]

def ValueOp.jsonbTokens (idx : String) : ValueOp → List Token
  | .eq _ => castTokens n idx "=" "text"
  | .neq _ => castTokens n idx "!=" "text"
  | .gt _ => castTokens n idx ">" "numeric"
  | .gte _ => castTokens n idx ">=" "numeric"
  | .lt _ => castTokens n idx "<" "numeric"
  | .lte _ => castTokens n idx "<=" "numeric"
  | .isNull => [.punct '(', .word "properties", .op "->>", .num idx, .punct ')', .word "is", .word "null"]
  | .isNotNull =>
    [.punct '(', .word "properties", .op "->>", .num idx, .punct ')', .word "is", .word "not", .word "null"]
  | _ => []

end

/-! The texts of the operators -/

theorem lexes_operatorOn {col : List Piece} {before after : String} {ct at' : List Token} (bt : List Token)
    (hcol : Lexes (textOf col) ct) (hbreak : Breaking before) (hbefore : LexesOpen before bt)
    (hclose : after = "" ∨ Closing after) (hafter : Lexes after at') (c : SqlCompiler) (p : QueryParam)
    : Lexes (textOf (operatorOn c col before p after).1) (ct ++ (bt ++ (.param (Nat.repr c.paramIdx) :: at'))) := by
  have hparam : Lexes ("$" ++ Nat.repr c.paramIdx ++ after) (.param (Nat.repr c.paramIdx) :: at') := by
    cases hclose with
    | inl hempty =>
      subst hempty
      simpa [lexes_empty_iff.mp hafter] using lexes_param c.paramIdx
    | inr hclosing => exact (lexes_param c.paramIdx).append_closing hclosing hafter
  have := hcol.append (hbreak.append _) (hbefore.append hparam)
  simpa [operatorOn, SqlCompiler.withParam, SqlCompiler.nextParam, String.append_assoc] using this

theorem closing_colon {s : String} (h : s.toList.head? = some ':') : Closing s := by
  cases hs : s.toList with
  | nil => simp [hs] at h
  | cons c cs =>
    rw [hs, List.head?_cons, Option.some.injEq] at h
    subst h
    exact ⟨':', cs, hs, Lexer.closes_colon⟩

section

variable {col : String} (c : SqlCompiler)

theorem lexes_compileStringOp (hcol : Lexes col [.word col]) (op : StringOp)
    : Lexes (textOf (compileStringOp c col op).1) (op.tokens col (Nat.repr c.paramIdx)) := by
  have htext : Lexes (textOf [.sql col]) [.word col] := by simpa using hcol
  have hpercent : Lexes " || '%'" [.op "||", .str "%"] := lexes_of_tokensOf (by decide)
  have hpercent' : Closing " || '%'" := Breaking.closing (by decide)
  have hparen : Lexes ")" [.punct ')'] := lexes_of_tokensOf (by decide)
  have hparen' : Closing ")" := Breaking.closing (by decide)
  have hlike : LexesOpen " LIKE '%' || " [.word "like", .str "%", .op "||"] := by decide
  cases op with
  | eq v => apply lexes_operatorOn [.op "="] htext (by decide) (by decide) (.inl rfl) lexesOpen_empty.lexes
  | neq v => apply lexes_operatorOn [.op "!="] htext (by decide) (by decide) (.inl rfl) lexesOpen_empty.lexes
  | contains v => apply lexes_operatorOn _ htext (by decide) hlike (.inr hpercent') hpercent
  | startsWith v =>
    apply lexes_operatorOn [.word "like"] htext (by decide) (by decide) (.inr hpercent') hpercent
  | endsWith v => apply lexes_operatorOn _ htext (by decide) hlike (.inl rfl) lexesOpen_empty.lexes
  | oneOf vals =>
    apply lexes_operatorOn [.op "=", .word "any", .punct '('] htext (by decide) (by decide) (.inr hparen') hparen
  | notIn vals =>
    apply lexes_operatorOn [.op "!=", .word "all", .punct '('] htext (by decide) (by decide) (.inr hparen') hparen

theorem lexes_compileValueOp (hcol : Lexes col [.word col]) (op : ValueOp)
    : Lexes (textOf (compileValueOp c col op).1) (op.tokens col (Nat.repr c.paramIdx)) := by
  have htext : Lexes (textOf [.given col]) [.word col] := by simpa using hcol
  have hparen : Lexes ")" [.punct ')'] := lexes_of_tokensOf (by decide)
  have hparen' : Closing ")" := Breaking.closing (by decide)
  cases op with
  | eq v => apply lexes_operatorOn [.op "="] htext (by decide) (by decide) (.inl rfl) lexesOpen_empty.lexes
  | neq v => apply lexes_operatorOn [.op "!="] htext (by decide) (by decide) (.inl rfl) lexesOpen_empty.lexes
  | gt v => apply lexes_operatorOn [.op ">"] htext (by decide) (by decide) (.inl rfl) lexesOpen_empty.lexes
  | gte v => apply lexes_operatorOn [.op ">="] htext (by decide) (by decide) (.inl rfl) lexesOpen_empty.lexes
  | lt v => apply lexes_operatorOn [.op "<"] htext (by decide) (by decide) (.inl rfl) lexesOpen_empty.lexes
  | lte v => apply lexes_operatorOn [.op "<="] htext (by decide) (by decide) (.inl rfl) lexesOpen_empty.lexes
  | oneOf vals =>
    apply lexes_operatorOn [.op "=", .word "any", .punct '('] htext (by decide) (by decide) (.inr hparen') hparen
  | notIn vals =>
    apply lexes_operatorOn [.op "!=", .word "all", .punct '('] htext (by decide) (by decide) (.inr hparen') hparen
  | isNull =>
    have hnull : Lexes " IS NULL" [.word "is", .word "null"] := lexes_of_tokensOf (by decide)
    simpa [compileValueOp, ValueOp.tokens] using hcol.append (by decide) hnull
  | isNotNull =>
    have hnull : Lexes " IS NOT NULL" [.word "is", .word "not", .word "null"] := lexes_of_tokensOf (by decide)
    simpa [compileValueOp, ValueOp.tokens] using hcol.append (by decide) hnull

theorem lexes_jsonPath (idx : Nat)
    : Lexes (textOf [.sql ("(" ++ ("properties->>" ++ Nat.repr idx))])
        [.punct '(', .word "properties", .op "->>", .num (Nat.repr idx)] := by
  have hrun : Lexer.run .start "(properties->>".toList
      = some ([.punct '(', .word "properties"], .op ['>', '>', '-']) := by decide
  cases hdigits : (Nat.repr idx).toList with
  | nil => exact absurd (String.toList_eq_nil_iff.mp hdigits) (repr_ne_empty idx)
  | cons d ds =>
    have hall := isDigit_repr idx
    rw [hdigits, List.forall_mem_cons] at hall
    obtain ⟨out, state, last, hnum, hflush, heq⟩ := lexes_nat idx
    rw [hdigits] at hnum
    refine ⟨.punct '(' :: .word "properties" :: .op "->>" :: out, state, last, ?_, hflush, by simp [← heq]⟩
    have htext : (textOf [.sql ("(" ++ ("properties->>" ++ Nat.repr idx))]).toList
        = "(properties->>".toList ++ (d :: ds) := by
      simp [hdigits]
    have hop : Lexer.splitOp ['>', '>', '-'] = [.op "->>"] := by decide
    simp only [htext, Lexer.run_append, hrun, Lexer.run_op_digit hall.1, hnum, hop, Lexer.emit_some]
    rfl

theorem lexes_compileValueOpJsonb {idx : Nat} {op : ValueOp} {ps : List Piece} {c' : SqlCompiler}
    (h : compileValueOpJsonb c ("properties->>" ++ Nat.repr idx) op = .ok (ps, c'))
    : Lexes (textOf ps) (op.jsonbTokens (Nat.repr c.paramIdx) (Nat.repr idx)) := by
  have hpath := lexes_jsonPath idx
  have htext : Lexes "::text" [.punct ':', .punct ':', .word "text"] := lexes_of_tokensOf (by decide)
  have htext' : Closing "::text" := closing_colon (by decide)
  have hnumeric : Lexes "::numeric" [.punct ':', .punct ':', .word "numeric"] := lexes_of_tokensOf (by decide)
  have hnumeric' : Closing "::numeric" := closing_colon (by decide)
  cases op with
  | oneOf vals => cases h
  | notIn vals => cases h
  | isNull =>
    cases h
    have hnull : Lexes ") IS NULL" [.punct ')', .word "is", .word "null"] := lexes_of_tokensOf (by decide)
    simpa [ValueOp.jsonbTokens] using hpath.append (by decide) hnull
  | isNotNull =>
    cases h
    have hnull : Lexes ") IS NOT NULL" [.punct ')', .word "is", .word "not", .word "null"] :=
      lexes_of_tokensOf (by decide)
    simpa [ValueOp.jsonbTokens] using hpath.append (by decide) hnull
  | eq v =>
    cases h
    apply lexes_operatorOn [.punct ')', .punct ':', .punct ':', .word "text", .op "="] hpath (by decide)
      (by decide) (.inr htext') htext c (valueToParam v)
  | neq v =>
    cases h
    apply lexes_operatorOn [.punct ')', .punct ':', .punct ':', .word "text", .op "!="] hpath (by decide)
      (by decide) (.inr htext') htext c (valueToParam v)
  | gt v =>
    cases h
    apply lexes_operatorOn [.punct ')', .punct ':', .punct ':', .word "numeric", .op ">"] hpath (by decide)
      (by decide) (.inr hnumeric') hnumeric c (valueToParam v)
  | gte v =>
    cases h
    apply lexes_operatorOn [.punct ')', .punct ':', .punct ':', .word "numeric", .op ">="] hpath (by decide)
      (by decide) (.inr hnumeric') hnumeric c (valueToParam v)
  | lt v =>
    cases h
    apply lexes_operatorOn [.punct ')', .punct ':', .punct ':', .word "numeric", .op "<"] hpath (by decide)
      (by decide) (.inr hnumeric') hnumeric c (valueToParam v)
  | lte v =>
    cases h
    apply lexes_operatorOn [.punct ')', .punct ':', .punct ':', .word "numeric", .op "<="] hpath (by decide)
      (by decide) (.inr hnumeric') hnumeric c (valueToParam v)

end

/-! Filters -/

/--
The schema of the events.
-/
def eventsSchema : String := "_reactor_analytics"

/--
Tokens that can stand anywhere in a condition.
-/
structure Inside (toks : List Token) : Prop where
  level : walk "or" 0 toks = some 0
  unnamed : ∀ tok ∈ toks, tok.names eventsSchema = false

theorem Inside.append {s t : List Token} (hs : Inside s) (ht : Inside t) : Inside (s ++ t) := by
  constructor
  . rw [walk_append, hs.level]
    exact ht.level
  . rw [List.forall_mem_append]
    exact ⟨hs.unnamed, ht.unnamed⟩

/--
Between parentheses an `OR` does no harm.
-/
theorem inside_parens {toks : List Token} (hwalk : walk "or" 1 toks = some 1)
    (hunnamed : ∀ tok ∈ toks, tok.names eventsSchema = false)
    : Inside (.punct '(' :: toks ++ [.punct ')']) := by
  constructor
  . rw [List.cons_append, walk, if_neg (by decide), show nesting 0 (.punct '(') = 1 from rfl, walk_append, hwalk]
    rfl
  . simp only [List.cons_append, List.forall_mem_cons, List.forall_mem_append]
    exact ⟨by decide, hunnamed, by decide, List.forall_mem_nil _⟩

section

variable {col : String} (n idx : String)

theorem inside_stringOp (hcol : col ∉ ["or", eventsSchema]) (op : StringOp) : Inside (op.tokens col n) := by
  simp only [eventsSchema, List.mem_cons, List.not_mem_nil, or_false, not_or] at hcol
  constructor
  . cases op <;> simp [StringOp.tokens, walk, nesting, hcol]
  . cases op <;> simp [StringOp.tokens, Token.names, eventsSchema, hcol]

theorem inside_valueOp (hcol : col ∉ ["or", eventsSchema]) (op : ValueOp) : Inside (op.tokens col n) := by
  simp only [eventsSchema, List.mem_cons, List.not_mem_nil, or_false, not_or] at hcol
  constructor
  . cases op <;> simp [ValueOp.tokens, walk, nesting, hcol]
  . cases op <;> simp [ValueOp.tokens, Token.names, eventsSchema, hcol]

theorem inside_jsonbOp (op : ValueOp) : Inside (op.jsonbTokens n idx) := by
  constructor
  . cases op <;> simp [ValueOp.jsonbTokens, castTokens, walk, nesting]
  . cases op <;> simp [ValueOp.jsonbTokens, castTokens, Token.names, eventsSchema]

end

theorem hot_not_special {name : String} (h : name ∈ hotColumns) : name ∉ ["or", eventsSchema] := by
  revert name
  decide

/--
What the compiler writes for a filter, where `depth` parentheses are open.
-/
structure Emitted (depth : Nat) (c : SqlCompiler) (ps : List Piece) (c' : SqlCompiler) : Prop where
  reads : ∃ toks, Lexes (textOf ps) toks ∧ walk "or" depth toks = some depth
    ∧ ∀ tok ∈ toks, tok.names eventsSchema = false
  hot : ∀ s, Piece.given s ∈ ps → s ∈ hotColumns
  params : c.params <+: c'.params

theorem emitted_of_inside {c c' : SqlCompiler} {ps : List Piece} {toks : List Token}
    (hlexes : Lexes (textOf ps) toks) (hinside : Inside toks) (hhot : ∀ s, Piece.given s ∈ ps → s ∈ hotColumns)
    (hparams : c.params <+: c'.params) : Emitted 0 c ps c' :=
  ⟨⟨toks, hlexes, hinside.level, hinside.unnamed⟩, hhot, hparams⟩

theorem Emitted.deeper {c c' : SqlCompiler} {ps : List Piece} (h : Emitted 0 c ps c') : Emitted 1 c ps c' := by
  have ⟨toks, hlexes, hlevel, hunnamed⟩ := h.reads
  exact ⟨⟨toks, hlexes, walk_deeper hlevel 1, hunnamed⟩, h.hot, h.params⟩

theorem Emitted.parens {c c' : SqlCompiler} {ps : List Piece} (h : Emitted 1 c ps c')
    : Emitted 0 c (.sql "(" :: ps ++ [.sql ")"]) c' := by
  have ⟨toks, hlexes, hlevel, hunnamed⟩ := h.reads
  have hopen : LexesOpen "(" [.punct '('] := by decide
  have hclose : Lexes ")" [.punct ')'] := lexes_of_tokensOf (by decide)
  refine emitted_of_inside ?_ (inside_parens hlevel hunnamed) ?_ h.params
  . have := hopen.append (hlexes.append (by decide) hclose)
    simpa using this
  . intro s hs
    apply h.hot
    simpa using hs

theorem Emitted.join {c c' c'' : SqlCompiler} {ps qs : List Piece} {sep : String} {w : String}
    (h : Emitted 0 c ps c') (h' : Emitted 1 c' qs c'') (hsep : LexesOpen sep [.word w]) (hbreak : Breaking sep)
    (hw : (Token.word w).names eventsSchema = false) : Emitted 1 c (ps ++ .sql sep :: qs) c'' := by
  have ⟨toks, hlexes, hlevel, hunnamed⟩ := h.deeper.reads
  have ⟨toks', hlexes', hlevel', hunnamed'⟩ := h'.reads
  refine ⟨⟨toks ++ (.word w :: toks'), ?_, ?_, ?_⟩, ?_, h.params.trans h'.params⟩
  . have := hlexes.append (hbreak.append _) (hsep.append hlexes')
    simpa using this
  . rw [walk_append, hlevel, Option.bind_some, walk, if_neg (by omega)]
    exact hlevel'
  . rw [List.forall_mem_append, List.forall_mem_cons]
    exact ⟨hunnamed, hw, hunnamed'⟩
  . intro s hs
    rw [List.mem_append, List.mem_cons] at hs
    rcases hs with hs | hs | hs
    . apply h.hot s hs
    . cases hs
    . apply h'.hot s hs

theorem push_params (c : SqlCompiler) (p : QueryParam) : c.params <+: (c.push p).params :=
  List.prefix_append _ _

theorem emitted_stringOp (c : SqlCompiler) {col : String} (hcol : Lexes col [.word col])
    (hspecial : col ∉ ["or", eventsSchema]) (op : StringOp)
    : Emitted 0 c (compileStringOp c col op).1 (compileStringOp c col op).2 := by
  refine emitted_of_inside (lexes_compileStringOp c hcol op) (inside_stringOp _ hspecial op) ?_ ?_
  . intro s hs
    cases op <;> simp [compileStringOp, operatorOn, SqlCompiler.withParam] at hs
  . cases op <;> apply push_params

theorem emitted_of_eq {depth : Nat} {c c' : SqlCompiler} {ps : List Piece} {result : List Piece × SqlCompiler}
    (h : Emitted depth c result.1 result.2)
    (heq : (.ok result : Except AnalyticsError (List Piece × SqlCompiler)) = .ok (ps, c')) : Emitted depth c ps c' := by
  have := Except.ok.inj heq
  subst this
  exact h

theorem emitted_valueOp (c : SqlCompiler) {name : String} (hhot : name ∈ hotColumns) (op : ValueOp)
    : Emitted 0 c (compileValueOp c name op).1 (compileValueOp c name op).2 := by
  refine emitted_of_inside (lexes_compileValueOp c (lexes_hot hhot) op)
    (inside_valueOp _ (hot_not_special hhot) op) ?_ ?_
  . intro s hs
    have heq : s = name := by
      cases op <;> simpa [compileValueOp, operatorOn, SqlCompiler.withParam] using hs
    rw [heq]
    exact hhot
  . cases op with
    | isNull => apply List.prefix_rfl
    | isNotNull => apply List.prefix_rfl
    | _ => apply push_params

theorem emitted_jsonbOp {c c' : SqlCompiler} {idx : Nat} {op : ValueOp} {ps : List Piece}
    (h : compileValueOpJsonb c ("properties->>" ++ Nat.repr idx) op = .ok (ps, c')) : Emitted 0 c ps c' := by
  refine emitted_of_inside (lexes_compileValueOpJsonb c h) (inside_jsonbOp _ _ op) ?_ ?_
  . intro s hs
    cases op <;> cases h <;> simp at hs
  . cases op with
    | oneOf vals => cases h
    | notIn vals => cases h
    | isNull =>
      cases h
      apply List.prefix_rfl
    | isNotNull =>
      cases h
      apply List.prefix_rfl
    | _ =>
      cases h
      apply push_params

mutual

theorem compileFilter_emitted {c c' : SqlCompiler} {ps : List Piece} (f : FilterExpr)
    (h : compileFilter c f = .ok (ps, c')) : Emitted 0 c ps c' := by
  cases f with
  | all exprs =>
    rw [compileFilter, Rust.bind_eq_ok] at h
    have ⟨(inner, next), hinner, hret⟩ := h
    cases hret
    apply (compileFilters_emitted exprs (w := "and") (by decide) (by decide) (by decide) hinner).parens
  | any exprs =>
    rw [compileFilter, Rust.bind_eq_ok] at h
    have ⟨(inner, next), hinner, hret⟩ := h
    cases hret
    apply (compileFilters_emitted exprs (w := "or") (by decide) (by decide) (by decide) hinner).parens
  | not expr =>
    rw [compileFilter, Rust.bind_eq_ok] at h
    have ⟨(inner, next), hinner, hret⟩ := h
    cases hret
    have hrec := compileFilter_emitted expr hinner
    have ⟨toks, hlexes, hlevel, hunnamed⟩ := hrec.reads
    have hnot : LexesOpen "NOT " [.word "not"] := by decide
    have htext : Lexes (textOf (.sql "NOT " :: inner)) (.word "not" :: toks) := by
      simpa using hnot.append hlexes
    refine emitted_of_inside htext ⟨?_, ?_⟩ ?_ hrec.params
    . rw [walk, if_neg (by decide)]
      exact hlevel
    . rw [List.forall_mem_cons]
      exact ⟨by decide, hunnamed⟩
    . intro s hs
      apply hrec.hot
      simpa using hs
  | event op => exact emitted_of_eq (emitted_stringOp c (lexes_of_tokensOf (by decide)) (by decide) op) h
  | user op => exact emitted_of_eq (emitted_stringOp c (lexes_of_tokensOf (by decide)) (by decide) op) h
  | anon op => exact emitted_of_eq (emitted_stringOp c (lexes_of_tokensOf (by decide)) (by decide) op) h
  | prop name op =>
    rw [compileFilter] at h
    split at h
    . next hhot => exact emitted_of_eq (emitted_valueOp c hhot op) h
    . have hrec := emitted_jsonbOp h
      refine ⟨hrec.reads, hrec.hot, ?_⟩
      apply (push_params c (.string name)).trans hrec.params

theorem compileFilters_emitted {c c' : SqlCompiler} {ps : List Piece} {sep w : String} (fs : List FilterExpr)
    (hsep : LexesOpen sep [.word w]) (hbreak : Breaking sep) (hw : (Token.word w).names eventsSchema = false)
    (h : compileFilters c sep fs = .ok (ps, c')) : Emitted 1 c ps c' := by
  match fs with
  | [] =>
    cases h
    exact ⟨⟨[], lexesOpen_empty.lexes, rfl, nofun⟩, nofun, List.prefix_rfl⟩
  | [f] =>
    rw [compileFilters] at h
    apply (compileFilter_emitted f h).deeper
  | f :: g :: fs =>
    rw [compileFilters.eq_3 _ _ _ _ (by simp), Rust.bind_eq_ok] at h
    have ⟨(first, mid), hfirst, hrest⟩ := h
    rw [Rust.bind_eq_ok] at hrest
    have ⟨(rest, last), hrest, hret⟩ := hrest
    cases hret
    apply (compileFilter_emitted f hfirst).join (compileFilters_emitted (g :: fs) hsep hbreak hw hrest) hsep hbreak hw

end

end Reactor.Analytics
