import ReactorCloud.Analytics.Selected

/-!
This module contains the proof that compiled queries only read the events of their project and have the
strings of the request in their place.
-/

namespace Reactor.Analytics

open Rust (Uuid)
open Sql

/-! Texts of the compiler -/

/--
The text is complete and its tokens may stand anywhere behind the condition on the project.
-/
def opensHarmless (text : String) : Bool :=
  match Lexer.run .start text.toList with
  | some (toks, .start) => decide (Harmless toks)
  | _ => false

theorem harmless_of_opens {text : String} (h : opensHarmless text = true)
    : ∃ toks, LexesOpen text toks ∧ Harmless toks := by
  unfold opensHarmless at h
  split at h
  . next toks hrun => exact ⟨toks, hrun, of_decide_eq_true h⟩
  . cases h

theorem timeout_opens {s : String} (hdigits : ∀ c ∈ s.toList, c.isDigit = true)
    : ∃ toks, LexesOpen ("SET statement_timeout = '" ++ s ++ "ms';\n") toks ∧ Unnamed toks := by
  have hrun : Lexer.run .start "SET statement_timeout = '".toList
      = some ([.word "set", .word "statement_timeout", .op "="], .str []) := by decide
  have hpaired : paired '\'' (s ++ "ms").toList = true := by
    apply paired_of_not_mem
    rw [String.toList_append, List.mem_append, not_or]
    refine ⟨?_, by decide⟩
    intro hmem
    have := hdigits _ hmem
    revert this
    decide
  have hend : LexesOpen ";\n" [.punct ';'] := by decide
  have hclosing : Closing ";\n" := ⟨';', ['\n'], rfl, Lexer.closes_semicolon⟩
  have hline := (lexes_literal hrun hpaired).append_closing_open hclosing hend
  have hclose : "ms';\n" = "ms" ++ ("'" ++ ";\n") := by simp
  refine ⟨[.word "set", .word "statement_timeout", .op "=", .str (s ++ "ms"), .punct ';'], ?_, ?_⟩
  . rw [hclose]
    simpa only [String.append_assoc, List.append_assoc, List.cons_append, List.nil_append] using hline
  . simp [Unnamed, Token.names, eventsSchema]

section

variable (env : Env)

/--
The first line of a compiled query.
-/
def setLine : String :=
  "SET statement_timeout = '" ++ Nat.repr env.config.queryTimeoutMs.toNat ++ "ms';\n"

theorem setLine_opens : ∃ toks, LexesOpen (setLine env) toks ∧ Unnamed toks :=
  timeout_opens (isDigit_repr _)

end

/--
The text with the next parameter in it.
-/
theorem withParam_opens {before after : String} {btoks : List Token} (hbefore : LexesOpen before btoks)
    (hafter : LexesOpen after []) (hclosing : Closing after) (c : SqlCompiler) (p : QueryParam)
    : LexesOpen (textOf (c.withParam before p after).1) (btoks ++ [.param (Nat.repr c.paramIdx)]) := by
  have hparam := (lexes_param c.paramIdx).append_closing_open hclosing hafter
  have := hbefore.append_open hparam
  simpa [SqlCompiler.withParam, SqlCompiler.nextParam] using this

/--
The tokens of the condition on the project and of those on the time range.
-/
def scopeTokens (n : Nat) : List Token :=
  [.word "project_id", .op "=", .param (Nat.repr (n + 1)), .word "and"]

def rangeTokens (n : Nat) : List Token :=
  [.word "received_at", .op ">=", .param (Nat.repr (n + 2)), .word "and", .word "received_at", .op "<",
    .param (Nat.repr (n + 3))]

theorem inside_rangeTokens (n : Nat) : Inside (rangeTokens n) := by
  constructor
  . simp [rangeTokens, walk, nesting]
  . simp [rangeTokens, Token.names, eventsSchema]

theorem harmless_rangeTokens (n : Nat) : Harmless (rangeTokens n) := by
  rw [harmless_iff]
  simp [rangeTokens, Unnamed, Token.names, eventsSchema]

section

variable {req : QueryRequest} {start stop : Time} {c : SqlCompiler}

theorem scopeClause_opens {n : Nat} (hn : c.paramIdx = n + 1) {before and after : String} {lead : List Token}
    (hproject : LexesOpen (before ++ "project_id = ") (lead ++ [.word "project_id", .op "="]))
    (hsince : LexesOpen (and ++ "received_at >= ") [.word "and", .word "received_at", .op ">="])
    (htill : LexesOpen (and ++ "received_at < ") [.word "and", .word "received_at", .op "<"])
    (hafter : LexesOpen after []) (hclosing : Closing after)
    : LexesOpen (textOf (scopeClause req start stop c before and after).1) (lead ++ (scopeTokens n ++ rangeTokens n)) := by
  have hall := (withParam_opens hproject hafter hclosing c (.uuid req.projectId)).append_open
    ((withParam_opens hsince hafter hclosing (c.withParam (before ++ "project_id = ") (.uuid req.projectId) after).2
      (.timestamp start)).append_open
    (withParam_opens htill hafter hclosing ((c.withParam (before ++ "project_id = ") (.uuid req.projectId) after).2.withParam
      (and ++ "received_at >= ") (.timestamp start) after).2 (.timestamp stop)))
  have htext : textOf (scopeClause req start stop c before and after).1
      = textOf (c.withParam (before ++ "project_id = ") (.uuid req.projectId) after).1
        ++ (textOf ((c.withParam (before ++ "project_id = ") (.uuid req.projectId) after).2.withParam
            (and ++ "received_at >= ") (.timestamp start) after).1
          ++ textOf (((c.withParam (before ++ "project_id = ") (.uuid req.projectId) after).2.withParam
            (and ++ "received_at >= ") (.timestamp start) after).2.withParam (and ++ "received_at < ") (.timestamp stop)
              after).1) := by
    simp only [scopeClause, textOf_append, String.append_assoc]
  rw [htext]
  simpa [scopeTokens, rangeTokens, SqlCompiler.withParam, SqlCompiler.nextParam, SqlCompiler.push, hn] using hall

/--
The clause on one line and on several lines.
-/
theorem scopeClause_line {n : Nat} (hn : c.paramIdx = n + 1)
    : LexesOpen (textOf (scopeClause req start stop c "" "AND " " ").1) ([] ++ (scopeTokens n ++ rangeTokens n)) :=
  scopeClause_opens hn (by decide) (by decide) (by decide) (by decide) (Breaking.closing (by decide))

theorem closing_newline : Closing "\n" :=
  ⟨'\n', [], rfl, Lexer.closes_newline⟩

theorem scopeClause_lines {n : Nat} (hn : c.paramIdx = n + 1)
    : LexesOpen (textOf (scopeClause req start stop c "  WHERE " "    AND " "\n").1)
        ([.word "where"] ++ (scopeTokens n ++ rangeTokens n)) :=
  scopeClause_opens hn (by decide) (by decide) (by decide) (by decide) closing_newline

end

theorem customFilter_emitted {req : QueryRequest} {c c' : SqlCompiler} {before after : String} {ps : List Piece}
    (h : compileCustomFilter req c before after = .ok (ps, c')) (hbefore : LexesOpen before [.word "and"])
    (hafter : after = "" ∨ Closing after ∧ LexesOpen after []) : Emitted 0 c ps c' := by
  unfold compileCustomFilter at h
  split at h
  . cases h
    exact ⟨⟨[], lexesOpen_empty.lexes, rfl, List.forall_mem_nil _⟩, fun _ => List.not_mem_nil.elim, List.prefix_rfl⟩
  . next f _ =>
    rw [Rust.bind_eq_ok] at h
    obtain ⟨⟨inner, next⟩, hinner, hret⟩ := h
    cases hret
    have hrec := compileFilter_emitted f hinner
    obtain ⟨toks, hlexes, hlevel, hunnamed⟩ := hrec.reads
    have hend : Lexes (textOf inner ++ after) toks := by
      rcases hafter with rfl | ⟨hclosing, hopen⟩
      . simpa using hlexes
      . have := hlexes.append_closing hclosing hopen.lexes
        simpa using this
    refine emitted_of_inside (by simpa using hbefore.append hend) ⟨?_, ?_⟩ ?_ hrec.params
    . rw [walk, if_neg (by decide)]
      exact hlevel
    . rw [List.forall_mem_cons]
      exact ⟨by decide, hunnamed⟩
    . intro s hs
      apply hrec.hot
      simpa using hs

/-! Texts that read the events -/

def fromTokens : List Token :=
  [.word eventsSchema, .punct '.', .word "events"]

/--
The word `WHERE` may end the text with the table or start the one with the condition.
-/
theorem lexes_scoped {head scope rest : String} {htoks wtoks wtoks' rtoks : List Token} {n : Nat}
    (hhead : LexesOpen head (htoks ++ (fromTokens ++ wtoks)))
    (hscope : LexesOpen scope (wtoks' ++ (scopeTokens n ++ rangeTokens n))) (hwhere : wtoks ++ wtoks' = [.word "where"])
    (hrest : Lexes rest rtoks)
    : Lexes (head ++ (scope ++ rest)) (htoks ++ (fromWhere n ++ (rangeTokens n ++ rtoks))) := by
  have hall := hhead.append (hscope.append hrest)
  have hplace : fromWhere n = fromTokens ++ (wtoks ++ wtoks') ++ scopeTokens n := by
    rw [hwhere]
    rfl
  rw [hplace]
  simpa using hall

theorem scoped_of_lexes {text : String} {params : List QueryParam} {project : Uuid} {n : Nat} {htoks rtoks : List Token}
    (h : Lexes text (htoks ++ (fromWhere n ++ rtoks))) (hhead : Unnamed htoks) (hparam : params[n]? = some (.uuid project))
    (hor : noTop "or" 0 rtoks = true) (hscoped : TokensScoped params project rtoks)
    : ∀ toks, lex text = some toks → TokensScoped params project toks := by
  intro toks hlex
  rw [h.lex] at hlex
  cases hlex
  apply TokensScoped.unnamed_append hhead
  apply tokensScoped_fromWhere hparam hor hscoped

/--
A compiled query behind the first line.
-/
structure Safe (req : QueryRequest) (set : String) (sql : List Piece) (c : SqlCompiler) : Prop where
  tokens : ∀ toks, lex (set ++ textOf sql) = some toks → TokensScoped c.params req.projectId toks
  placed : PlacedIn set sql ""

section

variable {env : Env} {req : QueryRequest} {start stop : Time} {set : String} {stoks : List Token}
  (hset : LexesOpen set stoks) (hstoks : Unnamed stoks)

theorem project_param {params : List QueryParam} (h : [.uuid req.projectId, .timestamp start, .timestamp stop] <+: params)
    : params[0]? = some (.uuid req.projectId) := by
  have ⟨rest, heq⟩ := h
  rw [← heq]
  rfl

include hset hstoks

theorem compileEvents_safe {sql : List Piece} {c : SqlCompiler} (h : compileEvents env req start stop {} = .ok (sql, c))
    : Safe req set sql c := by
  unfold compileEvents at h
  simp only [Rust.bind_eq_ok] at h
  obtain ⟨⟨fs, c'⟩, hfilter, hret⟩ := h
  cases hret
  have hand : LexesOpen "AND " [.word "and"] := by decide
  have hemitted := customFilter_emitted hfilter hand (.inl rfl)
  have hparams := hemitted.params
  rw [scopeClause_params] at hparams
  constructor
  . have hselect : LexesOpen "SELECT * FROM _reactor_analytics.events WHERE "
        ([.word "select", .op "*", .word "from"] ++ (fromTokens ++ [.word "where"])) := by decide
    have hhead := hset.append_open hselect
    rw [← List.append_assoc] at hhead
    obtain ⟨ftoks, hlexes, hlevel, hunnamed⟩ := hemitted.reads
    have hscoped := lexes_scoped hhead (@scopeClause_line req start stop {} 0 rfl) rfl hlexes
    have hby : LexesOpen " BY received_at DESC LIMIT " [.word "by", .word "received_at", .word "desc", .word "limit"] := by
      decide
    have hbreak : Breaking " BY received_at DESC LIMIT " := by decide
    have hlimit := hby.append (lexes_nat (min (req.limit.getD 1000) env.config.queryMaxRows.toUInt32).toNat)
    have hread := lex_tail hscoped (project_param hparams) (hstoks.append (by decide)) (by simp [rangeTokens])
      ((inside_rangeTokens 0).append ⟨hlevel, hunnamed⟩) (.inr ⟨"ORDER", _, _, rfl, by decide,
        .inr (hbreak.append _).closing, hlimit, Harmless.append (by decide) (harmless_num _)⟩)
    have horder : "ORDER BY received_at DESC " = "ORDER" ++ " BY received_at DESC " := by simp
    have hlast : " BY received_at DESC LIMIT " = " BY received_at DESC " ++ "LIMIT " := by simp
    intro toks hlex
    apply hread toks
    rw [← hlex]
    simp only [textOf_append, textOf_cons, textOf_nil, text_sql, horder, hlast, String.append_assoc,
      String.append_empty]
  . apply placedIn_hot
    intro s hs
    apply hemitted.hot
    simpa [scopeClause_sql] using hs

theorem compileAggregate_safe {sql : List Piece} {c : SqlCompiler} (hnames : ∀ name ∈ req.selectedNames, Quotable name)
    (h : compileAggregate req start stop {} = .ok (sql, c)) : Safe req set sql c := by
  unfold compileAggregate at h
  simp only [Rust.bind_eq_ok] at h
  obtain ⟨⟨fs, c'⟩, hfilter, hret⟩ := h
  cases hret
  have hand : LexesOpen "AND " [.word "and"] := by decide
  have hemitted := customFilter_emitted hfilter hand (.inl rfl)
  have hparams := hemitted.params
  rw [scopeClause_params] at hparams
  obtain ⟨ps, hselect, hselects⟩ := selects_head hnames
  obtain ⟨htail, hplaced⟩ := aggregateTail_spec hnames
  obtain ⟨ptoks, hps, hptoks⟩ := hselects.reads
  have hfrom : LexesOpen " FROM _reactor_analytics.events WHERE "
      ([.word "from"] ++ (fromTokens ++ [.word "where"])) := by decide
  have hhead := (hset.append hps).append_open (by decide) hfrom
  rw [← List.append_assoc] at hhead
  have hunnamed := (hstoks.append hptoks.unnamed).append (show Unnamed [.word "from"] by decide)
  obtain ⟨ftoks, hlexes, hlevel, hftoks⟩ := hemitted.reads
  have hscoped := lexes_scoped hhead (@scopeClause_line req start stop {} 0 rfl) rfl hlexes
  constructor
  . have hread := lex_tail hscoped (project_param hparams) hunnamed (by simp [rangeTokens])
      ((inside_rangeTokens 0).append ⟨hlevel, hftoks⟩) htail
    intro toks hlex
    apply hread toks
    rw [← hlex, hselect]
    simp only [textOf_append, textOf_cons, textOf_nil, text_sql, String.append_assoc, String.append_empty]
  . -- what stands before the tail ends outside of every literal
    obtain ⟨out, hout⟩ := hscoped.skim
    have hrest : ∀ s, Piece.given s ∈ .sql " FROM _reactor_analytics.events WHERE "
        :: (scopeClause req start stop {} "" "AND " " ").1 ++ fs → s ∈ hotColumns := by
      intro s hs
      apply hemitted.hot
      simpa [scopeClause_sql] using hs
    have hlist : aggregateHead req ++ (scopeClause req start stop {} "" "AND " " ").1 ++ fs ++ aggregateTail req
        = (ps ++ (.sql " FROM _reactor_analytics.events WHERE " :: (scopeClause req start stop {} "" "AND " " ").1 ++ fs))
          ++ aggregateTail req := by
      simp [hselect]
    rw [hlist]
    apply PlacedIn.append
    . apply PlacedIn.append
      . apply hselects.placed _ _ hset.skim
        rw [List.cons_append, textOf_cons, text_sql, String.toList_append, String.toList_append]
        simp
      . apply placedIn_hot hrest
    . apply hplaced _ out
      rw [← hout]
      congr 2
      simp only [textOf_append, textOf_cons, text_sql, String.append_assoc, List.cons_append]

omit hset hstoks

/--
The pieces are complete texts each, with harmless tokens.
-/
def piecesHarmless (ps : List Piece) : Bool :=
  ps.all (fun p => opensHarmless p.text)

theorem harmless_of_pieces {ps : List Piece} (h : piecesHarmless ps = true)
    : ∃ toks, LexesOpen (textOf ps) toks ∧ Harmless toks := by
  induction ps with
  | nil => exact ⟨[], lexesOpen_empty, by decide⟩
  | cons p ps ih =>
    rw [piecesHarmless, List.all_cons, Bool.and_eq_true] at h
    have ⟨toks, hopen, hharmless⟩ := harmless_of_opens h.1
    have ⟨toks', hopen', hharmless'⟩ := ih h.2
    exact ⟨toks ++ toks', hopen.append_open hopen', hharmless.append hharmless'⟩

/--
The line with the table.
-/
theorem fromLine_opens : LexesOpen "  FROM _reactor_analytics.events\n" ([.word "from"] ++ (fromTokens ++ [])) := by
  decide

theorem lines_opens {ps : List Piece} (h : piecesHarmless ps = true)
    : ∃ toks, LexesOpen (textOf (ps ++ [.sql "  FROM _reactor_analytics.events\n"])) (toks ++ (fromTokens ++ []))
        ∧ Harmless toks := by
  have ⟨toks, hopen, hharmless⟩ := harmless_of_pieces h
  refine ⟨toks ++ [.word "from"], ?_, hharmless.append (by decide)⟩
  have := hopen.append_open fromLine_opens
  simpa using this

abbrev pathHead : List Piece :=
  [.sql "WITH user_paths AS (\n", .sql "  SELECT COALESCE(user_id, anonymous_id) as user_key,\n",
    .sql "         event,\n",
    .sql "         LEAD(event) OVER (PARTITION BY COALESCE(user_id, anonymous_id) ORDER BY timestamp) as next_event\n"]

abbrev pathEnd : List Piece :=
  [.sql ")\n", .sql "SELECT event as from_event, next_event as to_event, COUNT(*) as transitions\n",
    .sql "FROM user_paths\n", .sql "WHERE next_event IS NOT NULL\n", .sql "GROUP BY event, next_event\n",
    .sql "ORDER BY transitions DESC\n"]

abbrev stepSelect : String :=
  " as step, COUNT(DISTINCT COALESCE(user_id, anonymous_id)) as users\n"
    ++ ("  FROM user_events\n" ++ "  WHERE event = ")

abbrev funnelHead : List Piece :=
  [.sql "WITH user_events AS (\n", .sql "  SELECT user_id, anonymous_id, event, timestamp,\n",
    .sql "         ROW_NUMBER() OVER (PARTITION BY COALESCE(user_id, anonymous_id) ORDER BY timestamp) as rn\n"]

abbrev funnelMiddle : List Piece :=
  [.sql ")\n", .sql "),\n", .sql "funnel_counts AS (\n"]

abbrev cohortHead : List Piece :=
  [.sql "WITH cohorts AS (\n", .sql "  SELECT DISTINCT COALESCE(user_id, anonymous_id) as user_key,\n",
    .sql "         DATE_TRUNC('day', timestamp) as cohort_date\n"]

abbrev returnHead : List Piece :=
  [.sql "),\n", .sql "returns AS (\n", .sql "  SELECT COALESCE(user_id, anonymous_id) as user_key,\n",
    .sql "         DATE_TRUNC('day', timestamp) as return_date\n"]

abbrev retentionEnd : List Piece :=
  [.sql ")\n", .sql "SELECT c.cohort_date, (r.return_date - c.cohort_date)::int as day_n,\n",
    .sql "       COUNT(DISTINCT c.user_key) as cohort_size,\n", .sql "       COUNT(DISTINCT r.user_key) as retained\n",
    .sql "FROM cohorts c\n",
    .sql "LEFT JOIN returns r ON c.user_key = r.user_key AND r.return_date >= c.cohort_date\n",
    .sql "GROUP BY c.cohort_date, day_n\n"]

theorem lines_harmless
    : (piecesHarmless pathHead = true ∧ piecesHarmless pathEnd = true)
      ∧ (piecesHarmless funnelHead = true ∧ piecesHarmless funnelMiddle = true ∧ opensHarmless stepSelect = true)
      ∧ piecesHarmless cohortHead = true ∧ piecesHarmless returnHead = true
      ∧ piecesHarmless retentionEnd = true := by
  decide +kernel

include hset hstoks

theorem compilePath_safe {sql : List Piece} {c : SqlCompiler} (h : compilePath req start stop {} = .ok (sql, c))
    : Safe req set sql c := by
  unfold compilePath at h
  simp only [Rust.bind_eq_ok] at h
  obtain ⟨⟨fs, c'⟩, hfilter, hret⟩ := h
  cases hret
  have hand : LexesOpen "    AND " [.word "and"] := by decide
  have hemitted := customFilter_emitted hfilter hand (.inr ⟨closing_newline, by decide⟩)
  have hparams := hemitted.params
  rw [scopeClause_params] at hparams
  constructor
  . obtain ⟨ftoks, hlexes, hlevel, hunnamed⟩ := hemitted.reads
    obtain ⟨htoks, hhead, hhtoks⟩ := lines_opens lines_harmless.1.1
    obtain ⟨etoks, hend, hetoks⟩ := harmless_of_pieces lines_harmless.1.2
    obtain ⟨ltoks, hlimit, hltoks⟩ := (selects_limitClause req).reads
    have hparen : Breaking ")\n" := by decide
    have hrest := hlexes.append ((hparen.append _).append _) (hend.append hlimit)
    have hbehind := hetoks.append hltoks
    have hinside := (inside_rangeTokens 0).append ⟨hlevel, hunnamed⟩
    have hopen := hset.append_open hhead
    rw [← List.append_assoc] at hopen
    have hscoped := lexes_scoped hopen (@scopeClause_lines req start stop {} 0 rfl) rfl hrest
    rw [← List.append_assoc (rangeTokens 0)] at hscoped
    have hor : noTop "or" 0 (rangeTokens 0 ++ ftoks ++ (etoks ++ ltoks)) = true := by
      rw [noTop_append hinside.level]
      apply noTop_of_not_mem hbehind.noOr
    have hread := scoped_of_lexes hscoped (hstoks.append hhtoks.unnamed) (project_param hparams) hor
      (tokensScoped_of_unnamed (Unnamed.append hinside.unnamed hbehind.unnamed))
    intro toks hlex
    apply hread toks
    rw [← hlex]
    simp only [textOf_append, textOf_cons, textOf_nil, text_sql, String.append_assoc, String.append_empty]
  . apply placedIn_hot
    intro s hs
    apply hemitted.hot
    unfold limitClause at hs
    split at hs <;> simpa [scopeClause_sql] using hs

omit hset hstoks

theorem harmless_param (n : String) : Harmless [.param n] := by
  rw [harmless_iff]
  simp [Unnamed, Token.names]

/--
The parameters of a list of steps.
-/
theorem stepParams_spec (c : SqlCompiler) (i : Nat) (steps : List FunnelStep)
    : (∃ toks, Lexes (textOf (stepParams c i steps).1) toks ∧ Harmless toks)
      ∧ (0 < i → textOf (stepParams c i steps).1 = "" ∨ Breaking (textOf (stepParams c i steps).1))
      ∧ (∀ s, Piece.given s ∉ (stepParams c i steps).1) ∧ c.params <+: (stepParams c i steps).2.params := by
  induction steps generalizing c i with
  | nil => exact ⟨⟨[], lexesOpen_empty.lexes, by decide⟩, fun _ => .inl rfl, nofun, List.prefix_rfl⟩
  | cons step steps ih =>
    have ⟨⟨toks, hlexes, hharmless⟩, hbreak, hsql, hparams⟩ :=
      ih (c.withParam (if i > 0 then ", " else "") (.string step.event) "").2 (i + 1)
    have hparam : Lexes ("$" ++ Nat.repr c.paramIdx
        ++ textOf (stepParams (c.withParam (if i > 0 then ", " else "") (.string step.event) "").2 (i + 1) steps).1)
        ([.param (Nat.repr c.paramIdx)] ++ toks) := by
      rcases hbreak (by omega) with hempty | hbreak
      . rw [hempty] at hlexes ⊢
        rw [lexes_empty_iff.mp hlexes]
        simpa using lexes_param c.paramIdx
      . apply (lexes_param c.paramIdx).append hbreak hlexes
    have htext : textOf (stepParams c i (step :: steps)).1 = (if i > 0 then ", " else "") ++ ("$" ++ Nat.repr c.paramIdx
        ++ textOf (stepParams (c.withParam (if i > 0 then ", " else "") (.string step.event) "").2 (i + 1) steps).1) := by
      simp [stepParams, SqlCompiler.withParam, SqlCompiler.nextParam, String.append_assoc]
    rw [htext]
    refine ⟨?_, ?_, ?_, ?_⟩
    . split
      . have hsep : LexesOpen ", " [.punct ','] := by decide
        exact ⟨_, hsep.append hparam, Harmless.append (by decide) ((harmless_param _).append hharmless)⟩
      . rw [String.empty_append]
        exact ⟨_, hparam, (harmless_param _).append hharmless⟩
    . intro hi
      rw [if_pos hi]
      have hsep : Breaking ", " := by decide
      exact .inr (hsep.append _)
    . intro s hs
      simp only [stepParams, SqlCompiler.withParam, SqlCompiler.nextParam, List.cons_append, List.nil_append,
        List.mem_cons, reduceCtorEq, false_or] at hs
      exact hsql s hs
    . exact (push_params { c with paramIdx := c.paramIdx + 1 } (.string step.event)).trans hparams

theorem stepCounts_spec (c : SqlCompiler) (i : Nat) (steps : List FunnelStep)
    : (∃ toks, LexesOpen (textOf (stepCounts c i steps).1) toks ∧ Harmless toks)
      ∧ (∀ s, Piece.given s ∉ (stepCounts c i steps).1) ∧ c.params <+: (stepCounts c i steps).2.params := by
  induction steps generalizing c i with
  | nil => exact ⟨⟨[], lexesOpen_empty, by decide⟩, nofun, List.prefix_rfl⟩
  | cons step steps ih =>
    have ⟨⟨toks, hopen, hharmless⟩, hsql, hparams⟩ :=
      ih (c.withParam "  WHERE event = " (.string step.event) "\n").2 (i + 1)
    refine ⟨?_, ?_, ?_⟩
    . have hunion : ∃ toks, LexesOpen (if i > 0 then "  UNION ALL\n" else "") toks ∧ Harmless toks := by
        split
        . exact harmless_of_opens (by decide)
        . exact ⟨[], lexesOpen_empty, by decide⟩
      have ⟨utoks, hunion, hutoks⟩ := hunion
      have hselect : LexesOpen "  SELECT " [.word "select"] := by decide
      have ⟨mtoks, hmid, hmtoks⟩ := harmless_of_opens lines_harmless.2.1.2.2
      have hnewline : LexesOpen "\n" [] := by decide
      have hclosing : Closing "\n" := ⟨'\n', [], rfl, Lexer.closes_newline⟩
      have hbreak : Breaking (" as step, COUNT(DISTINCT COALESCE(user_id, anonymous_id)) as users\n"
          ++ ("  FROM user_events\n" ++ "  WHERE event = ")) := Breaking.append (by decide) _
      have hparam := ((lexes_param c.paramIdx).append_closing_open hclosing hnewline).append_open hopen
      have hnumber := (lexes_nat (i + 1)).append_open hbreak hmid
      refine ⟨_, ?_, hutoks.append ((Harmless.append (s := [.word "select"]) (by decide)
        ((harmless_num (Nat.repr (i + 1))).append hmtoks)).append
        (((harmless_param (Nat.repr c.paramIdx)).append (t := []) (by decide)).append hharmless))⟩
      have hall := hunion.append_open ((hselect.append_open hnumber).append_open hparam)
      simpa only [stepCounts, SqlCompiler.withParam, SqlCompiler.nextParam, textOf_append, textOf_cons, textOf_nil,
        text_sql, String.append_assoc, String.append_empty, List.cons_append, List.nil_append] using hall
    . intro s hs
      simp only [stepCounts, SqlCompiler.withParam, SqlCompiler.nextParam, List.cons_append, List.nil_append,
        List.mem_cons, reduceCtorEq, false_or] at hs
      exact hsql s hs
    . exact (push_params { c with paramIdx := c.paramIdx + 1 } (.string step.event)).trans hparams

include hset hstoks

theorem compileFunnel_safe {sql : List Piece} {c : SqlCompiler} (h : compileFunnel req start stop {} = .ok (sql, c))
    : Safe req set sql c := by
  unfold compileFunnel at h
  split at h
  . cases h
  . cases h
  . next steps _ _ =>
    rw [Rust.bind_eq_ok] at h
    have ⟨_, _, hret⟩ := h
    have hscope := @scopeClause_lines req start stop {} 0 rfl
    have hscopeParams := @scopeClause_params req start stop {} "  WHERE " "    AND " "\n"
    have hscopeSql : ∀ s, Piece.given s ∉ (scopeClause req start stop {} "  WHERE " "    AND " "\n").1 :=
      fun s => scopeClause_sql
    rcases hclause : scopeClause req start stop {} "  WHERE " "    AND " "\n" with ⟨scope, c₀⟩
    rw [hclause] at hret hscope hscopeParams hscopeSql
    have ⟨⟨ptoks, hp, hptoks⟩, _, hpsql, hpparams⟩ := stepParams_spec c₀ 0 steps
    rcases hevents : stepParams c₀ 0 steps with ⟨events, c₁⟩
    rw [hevents] at hp hpsql hpparams
    have ⟨⟨ctoks, hc, hctoks⟩, hcsql, hcparams⟩ := stepCounts_spec c₁ 0 steps
    rcases hcounts : stepCounts c₁ 0 steps with ⟨counts, c₂⟩
    rw [hcounts] at hc hcsql hcparams
    simp only [hevents, hcounts] at hret
    cases hret
    have hparams := hpparams.trans hcparams
    rw [show c₀.params = _ from hscopeParams] at hparams
    constructor
    . have ⟨htoks, hhead, hhtoks⟩ := lines_opens lines_harmless.2.1.1
      have ⟨itoks, hin, hitoks⟩ := @harmless_of_opens "    AND event IN (" (by decide)
      have ⟨mtoks, hmid, hmtoks⟩ := harmless_of_pieces lines_harmless.2.1.2.1
      have ⟨ftoks, hfinal, hftoks⟩ := @harmless_of_opens ")\n" (by decide)
      have hselect : Lexes "SELECT step, users FROM funnel_counts ORDER BY step" [.word "select", .word "step", .punct ',',
          .word "users", .word "from", .word "funnel_counts", .word "order", .word "by", .word "step"] :=
        lexes_of_tokensOf (by decide)
      have hselect' : Harmless [.word "select", .word "step", .punct ',', .word "users", .word "from",
          .word "funnel_counts", .word "order", .word "by", .word "step"] := by decide
      have hparen : Breaking ")\n" := by decide
      have hrest := hin.append ((hp.append_open (hparen.append _) hmid).append (hc.append (hfinal.append hselect)))
      have hharmless := (harmless_rangeTokens 0).append
        (hitoks.append ((hptoks.append hmtoks).append (hctoks.append (hftoks.append hselect'))))
      have hopen := hset.append_open hhead
      rw [← List.append_assoc] at hopen
      have hscoped := lexes_scoped hopen hscope rfl hrest
      have hread := scoped_of_lexes hscoped (hstoks.append hhtoks.unnamed) (project_param hparams)
        (noTop_of_not_mem hharmless.noOr 0) (tokensScoped_of_unnamed hharmless.unnamed)
      intro toks hlex
      apply hread toks
      rw [← hlex]
      simp only [textOf_append, textOf_cons, textOf_nil, text_sql, String.append_assoc, String.append_empty,
        List.cons_append, List.nil_append]
    . apply placedIn_hot
      intro s hs
      simp [hscopeSql, hpsql, hcsql] at hs

theorem compileRetention_safe {sql : List Piece} {c : SqlCompiler}
    (h : compileRetention req start stop {} = .ok (sql, c)) : Safe req set sql c := by
  unfold compileRetention at h
  split at h
  . cases h
  . cases h
  . next cohort returnEvent _ _ =>
    have hevent : LexesOpen "    AND event = " [.word "and", .word "event", .op "="] := by decide
    have hscope := @scopeClause_lines req start stop {} 0 rfl
    have hscopeParams := @scopeClause_params req start stop {} "  WHERE " "    AND " "\n"
    have hscopeIdx := @scopeClause_paramIdx req start stop {} "  WHERE " "    AND " "\n"
    have hscopeSql : ∀ s, Piece.given s ∉ (scopeClause req start stop {} "  WHERE " "    AND " "\n").1 :=
      fun s => scopeClause_sql
    rcases hclause : scopeClause req start stop {} "  WHERE " "    AND " "\n" with ⟨scope, c₀⟩
    rw [hclause] at h hscope hscopeParams hscopeIdx hscopeSql
    have hcohort := withParam_opens hevent (show LexesOpen "\n" [] by decide) closing_newline c₀ (.string cohort.event)
    have hcohortSql : ∀ s, Piece.given s ∉ (c₀.withParam "    AND event = " (.string cohort.event) "\n").1 := by
      simp [SqlCompiler.withParam]
    rcases hwith : c₀.withParam "    AND event = " (.string cohort.event) "\n" with ⟨cohortEvent, c₁⟩
    have hidx : c₁.paramIdx = 4 + 1 := by
      have := congrArg (fun r => r.2.paramIdx) hwith
      rw [show c₁.paramIdx = c₀.paramIdx + 1 from this.symm, show c₀.paramIdx = _ from hscopeIdx]
    have hparams₁ : c₁.params = [.uuid req.projectId, .timestamp start, .timestamp stop, .string cohort.event] := by
      have := congrArg (fun r => r.2.params) hwith
      rw [show c₁.params = c₀.params ++ [.string cohort.event] from this.symm, show c₀.params = _ from hscopeParams]
      rfl
    rw [hwith] at hcohort hcohortSql
    have hscope' := @scopeClause_lines req start stop c₁ 4 hidx
    have hscopeParams' := @scopeClause_params req start stop c₁ "  WHERE " "    AND " "\n"
    have hscopeSql' : ∀ s, Piece.given s ∉ (scopeClause req start stop c₁ "  WHERE " "    AND " "\n").1 :=
      fun s => scopeClause_sql
    rcases hclause' : scopeClause req start stop c₁ "  WHERE " "    AND " "\n" with ⟨scope', c₂⟩
    rw [hclause'] at hscope' hscopeParams' hscopeSql'
    have hreturn := withParam_opens hevent (show LexesOpen "\n" [] by decide) closing_newline c₂ (.string returnEvent)
    have hreturnSql : ∀ s, Piece.given s ∉ (c₂.withParam "    AND event = " (.string returnEvent) "\n").1 := by
      simp [SqlCompiler.withParam]
    rcases hwith' : c₂.withParam "    AND event = " (.string returnEvent) "\n" with ⟨event, c₃⟩
    have hparams₃ : c₃.params = [.uuid req.projectId, .timestamp start, .timestamp stop, .string cohort.event,
        .uuid req.projectId, .timestamp start, .timestamp stop, .string returnEvent] := by
      have := congrArg (fun r => r.2.params) hwith'
      rw [show c₃.params = c₂.params ++ [.string returnEvent] from this.symm, show c₂.params = _ from hscopeParams',
        hparams₁]
      rfl
    rw [hwith'] at hreturn hreturnSql
    simp only [hwith, hclause', hwith'] at h
    cases h
    constructor
    . obtain ⟨htoks, hhead, hhtoks⟩ := lines_opens lines_harmless.2.2.1
      obtain ⟨mtoks, hmid, hmtoks⟩ := lines_opens lines_harmless.2.2.2.1
      obtain ⟨etoks, hend, hetoks⟩ := harmless_of_pieces lines_harmless.2.2.2.2
      have horder : Lexes "ORDER BY c.cohort_date, day_n" [.word "order", .word "by", .word "c", .punct '.',
          .word "cohort_date", .punct ',', .word "day_n"] := lexes_of_tokensOf (by decide)
      have horder' : Harmless [.word "order", .word "by", .word "c", .punct '.', .word "cohort_date", .punct ',',
          .word "day_n"] := by decide
      have hparam (n : String) : Harmless ([.word "and", .word "event", .op "="] ++ [.param n]) :=
        Harmless.append (by decide) (harmless_param n)
      -- the second place, from its own list of columns on
      have hsecond := lexes_scoped (hcohort.append_open hmid |> fun h => by rwa [← List.append_assoc] at h) hscope' rfl
        (hreturn.append (hend.append horder))
      have hharmless := (harmless_rangeTokens 4).append ((hparam (Nat.repr c₂.paramIdx)).append (hetoks.append horder'))
      have htoks' := (hparam (Nat.repr c₀.paramIdx)).append hmtoks
      have hopen := hset.append_open hhead
      rw [← List.append_assoc] at hopen
      have hscoped := lexes_scoped hopen hscope rfl hsecond
      rw [hparams₃]
      have hsecondScoped := @tokensScoped_fromWhere [.uuid req.projectId, .timestamp start, .timestamp stop,
        .string cohort.event, .uuid req.projectId, .timestamp start, .timestamp stop, .string returnEvent]
        req.projectId 4 _ rfl (noTop_of_not_mem hharmless.noOr 0) (tokensScoped_of_unnamed hharmless.unnamed)
      have hread := scoped_of_lexes hscoped (hstoks.append hhtoks.unnamed) rfl (noTop_of_not_mem ?_ 0)
        (TokensScoped.unnamed_append (harmless_rangeTokens 0).unnamed (hsecondScoped.unnamed_append htoks'.unnamed))
      . intro toks hlex
        apply hread toks
        rw [← hlex]
        simp only [textOf_append, textOf_cons, textOf_nil, text_sql, String.append_assoc, String.append_empty,
          List.cons_append, List.nil_append]
      . apply List.not_mem_append (harmless_rangeTokens 0).noOr
        apply List.not_mem_append htoks'.noOr
        apply List.not_mem_append (by decide) hharmless.noOr
    . apply placedIn_hot
      intro s hs
      simp [hscopeSql, hcohortSql, hscopeSql', hreturnSql] at hs

theorem compileKind_safe {sql : List Piece} {c : SqlCompiler}
    (hnames : req.kind = .aggregate ∨ req.kind = .breakdown → ∀ name ∈ req.selectedNames, Quotable name)
    (h : compileKind env req start stop {} = .ok (sql, c)) : Safe req set sql c := by
  unfold compileKind at h
  cases hkind : req.kind with
  | events =>
    rw [hkind] at h
    exact compileEvents_safe hset hstoks h
  | aggregate =>
    rw [hkind] at h
    exact compileAggregate_safe hset hstoks (hnames (.inl hkind)) h
  | breakdown =>
    rw [hkind] at h
    exact compileAggregate_safe hset hstoks (hnames (.inr hkind)) h
  | funnel =>
    rw [hkind] at h
    exact compileFunnel_safe hset hstoks h
  | retention =>
    rw [hkind] at h
    exact compileRetention_safe hset hstoks h
  | path =>
    rw [hkind] at h
    exact compilePath_safe hset hstoks h

end

/-! Compiled queries -/

/--
The strings of the request in the text of a query fill a string literal each, hot columns aside.
-/
theorem compile_isolated {env : Env} {req : QueryRequest} {q : CompiledQuery}
    (hnames : req.kind = .aggregate ∨ req.kind = .breakdown
      → ∀ name ∈ req.selectedNames, name ∉ hotColumns → paired '\'' name.toList = true)
    (h : compile env req = .ok q)
    : (∀ before s after, q.sql = before ++ .given s :: after
        → s ∈ hotColumns ∨ InLiteral (textOf before) s (textOf after))
      ∧ Scoped q req.projectId ∧ Isolated q req.projectId := by
  have hquotable : req.kind = .aggregate ∨ req.kind = .breakdown → ∀ name ∈ req.selectedNames, Quotable name := by
    intro hkind name hname
    by_cases hhot : name ∈ hotColumns
    . exact .inl hhot
    . exact .inr (hnames hkind name hname hhot)
  unfold compile at h
  rw [Rust.bind_eq_ok] at h
  have ⟨(start, stop), _, h⟩ := h
  dsimp only at h
  by_cases hdays : env.config.queryRawRangeDays < daysBetween start stop
  . rw [if_pos hdays] at h
    cases h
  . rw [if_neg hdays, Rust.bind_eq_ok] at h
    have ⟨(sql, c), hkind, hret⟩ := h
    cases hret
    have ⟨stoks, hset, hstoks⟩ := setLine_opens env
    have hsafe := compileKind_safe hset hstoks hquotable hkind
    have hscoped : Scoped ⟨.sql (setLine env) :: sql, c.params, (daysBetween start stop).toNat * 1000⟩ req.projectId :=
      hsafe.tokens
    refine ⟨?_, hscoped, hscoped.isolated⟩
    intro before s after heq
    have hplaced : PlacedIn "" (.sql (setLine env) :: sql) "" := by
      apply PlacedIn.cons_sql
      rw [String.empty_append]
      exact hsafe.placed
    have := hplaced before s after heq
    simpa using this

def plainEnv : Env :=
  ⟨{}, 0⟩

/--
A request with a hot column and a doubled quote.
-/
def quotedRequest : QueryRequest :=
  { projectId := 1,
    kind := .breakdown,
    timeRange := .absolute 0 0,
    groupBy := [.prop "country"],
    measure := some (.sum "it''s") }

theorem compile_isolated_quoted
    : ∃ q, compile plainEnv quotedRequest = .ok q ∧ Scoped q quotedRequest.projectId
        ∧ Isolated q quotedRequest.projectId := by
  refine ⟨_, rfl, ?_⟩
  have hnames : ∀ name ∈ quotedRequest.selectedNames, name ∉ hotColumns → paired '\'' name.toList = true := by
    decide
  exact (compile_isolated (fun _ => hnames) rfl).2

/-! A request that injects -/

/--
A hot column is written as it is.
-/
def hotRequest : QueryRequest :=
  { projectId := 1, kind := .aggregate, timeRange := .absolute 0 0, groupBy := [.prop "country"] }

def injectingRequest : QueryRequest :=
  { projectId := 1,
    kind := .aggregate,
    timeRange := .absolute 0 0,
    groupBy := [.prop "x', (SELECT COUNT(*) FROM _reactor_analytics.events), properties->>'y"] }

/--
A database that only tells how many events are read in each place.
-/
def countingDatabase : Database Uuid (List Nat) where
  projectOf := id
  atom := fun _ _ _ => some false
  answer := fun _ _ scans => scans.map Multiset.card
  refused := []
  atom_project := by
    intro params n id e _ hholds
    cases hholds

/--
The first place where a text that is complete reads the events.
-/
theorem firstScan_of_run {ps : List Piece} {scan : Option (List Token)}
    (h : (Lexer.run .start (ps.flatMap (·.text.toList))).bind
      (fun r => if r.2 = .start then (scansOf eventsSchema "events" r.1).head? else none) = some scan)
    : ∃ toks, lex (textOf ps) = some toks ∧ (scansOf eventsSchema "events" toks).head? = some scan := by
  rw [Option.bind_eq_some_iff] at h
  have ⟨(toks, state), hrun, hhead⟩ := h
  split at hhead
  . next hstart =>
    refine ⟨toks, ?_, hhead⟩
    apply Lexes.lex
    apply LexesOpen.lexes
    unfold LexesOpen
    rw [toList_textOf, hrun]
    rw [show state = .start from hstart]
  . cases hhead

theorem not_compile_isolated
    : (∃ q before s after, compile plainEnv hotRequest = .ok q ∧ q.sql = before ++ .given s :: after
        ∧ ¬ InLiteral (textOf before) s (textOf after))
      ∧ ∃ q, compile plainEnv injectingRequest = .ok q ∧ ¬ Scoped q injectingRequest.projectId
        ∧ ¬ Isolated q injectingRequest.projectId := by
  constructor
  . refine ⟨_, [_, _], "country", _, rfl, rfl, ?_⟩
    intro hlit
    have := hlit.opened
    revert this
    decide
  . have hread : ∀ q, compile plainEnv injectingRequest = .ok q
        → ∀ store, (countingDatabase.run q store).head? = some (Multiset.card store) := by
      intro q hq store
      have hscans : ∃ toks, lex q.text = some toks ∧ (scansOf eventsSchema "events" toks).head? = some none := by
        cases hq
        apply firstScan_of_run
        decide +kernel
      have ⟨toks, hlex, hhead⟩ := hscans
      unfold Database.run
      rw [hlex]
      -- there is no condition in the first place
      simp only [countingDatabase, List.head?_map, hhead, Option.map_some, Database.scan]
    have hisolated : ∀ q, compile plainEnv injectingRequest = .ok q → ¬ Isolated q injectingRequest.projectId := by
      intro q hq hiso
      have hagree : countingDatabase.Agree injectingRequest.projectId {2} 0 := by
        show Multiset.filter _ _ = Multiset.filter _ _
        decide
      have heq := congrArg List.head? (hiso _ _ countingDatabase _ _ hagree)
      rw [hread q hq, hread q hq] at heq
      cases heq
    refine ⟨_, rfl, ?_, hisolated _ rfl⟩
    intro hscoped
    exact hisolated _ rfl hscoped.isolated

end Reactor.Analytics
