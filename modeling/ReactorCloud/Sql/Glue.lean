import ReactorCloud.Sql.LexerLemmas

/-!
This module contains the rules for a text that is written directly behind another one, and a reading
that goes on behind the characters the lexer has no token for.
-/

namespace Sql

namespace Lexer

/--
The character ends every token that is open.
-/
def Closes (c : Char) : Prop :=
  ∀ state out, flush state = some out → step state c = emit out (startStep c)

theorem closes_of_breaks {c : Char} (h : breaks c = true) : Closes c := by
  intro state out hstate
  apply step_breaks hstate h

theorem closes_newline : Closes '\n' := by
  have hword : isWordChar '\n' = false ∧ isWordStart '\n' = false ∧ isOpChar '\n' = false := by decide
  intro state out hstate
  cases state <;> simp_all [flush, step]

theorem closes_colon : Closes ':' := by
  have hword : isWordChar ':' = false ∧ isWordStart ':' = false ∧ isOpChar ':' = false := by decide
  intro state out hstate
  cases state <;> simp_all [flush, step]

theorem closes_semicolon : Closes ';' := by
  have hword : isWordChar ';' = false ∧ isWordStart ';' = false ∧ isOpChar ';' = false := by decide
  intro state out hstate
  cases state <;> simp_all [flush, step]

theorem run_of_closes {state : LexState} {out : List Token} {c : Char} (hstate : flush state = some out)
    (hc : Closes c) (cs : List Char) : run state (c :: cs) = emit out (run .start (c :: cs)) := by
  rw [run, run, hc state out hstate, show step .start c = startStep c from rfl]
  cases startStep c with
  | none => rfl
  | some result =>
    obtain ⟨toks, next⟩ := result
    simp [emit_emit]

theorem isWordStart_facts {c : Char} (h : isWordStart c = true)
    : c.isDigit = false ∧ isOpChar c = false ∧ c ≠ '.' ∧ c ≠ '"' ∧ c ≠ '\'' ∧ c ≠ '-' ∧ c ≠ '*' := by
  have hdigit : c.isDigit = false := by
    cases hc : c.isDigit with
    | false => rfl
    | true =>
      rw [isWordStart_digit hc] at h
      cases h
  have hop : isOpChar c = false := by
    rw [← Bool.not_eq_true]
    intro hc
    simp only [isOpChar, List.mem_cons, List.not_mem_nil, or_false, decide_eq_true_eq] at hc
    rcases hc with rfl | rfl | rfl | rfl | rfl | rfl | rfl | rfl | rfl | rfl | rfl | rfl | rfl | rfl | rfl | rfl
      <;> revert h <;> decide
  refine ⟨hdigit, hop, ?_, ?_, ?_, ?_, ?_⟩ <;> rintro rfl <;> revert h <;> decide

/--
A digit ends an operator.
-/
theorem run_op_digit {acc : List Char} {d : Char} (hd : d.isDigit = true) (ds : List Char)
    : run (.op acc) (d :: ds) = emit (splitOp acc) (run .start (d :: ds)) := by
  have hop : isOpChar d = false := by
    rw [← Bool.not_eq_true]
    intro hc
    simp only [isOpChar, List.mem_cons, List.not_mem_nil, or_false, decide_eq_true_eq] at hc
    rcases hc with rfl | rfl | rfl | rfl | rfl | rfl | rfl | rfl | rfl | rfl | rfl | rfl | rfl | rfl | rfl | rfl
      <;> revert hd <;> decide
  have hminus : d ≠ '-' := by rintro rfl; revert hd; decide
  have hstar : d ≠ '*' := by rintro rfl; revert hd; decide
  rw [run, run, show step .start d = startStep d from rfl]
  simp [step, hop, hminus, hstar, startStep_digit hd]

/--
A letter goes on with a word, is refused behind a number and ends every other token.
-/
theorem step_letter {state : LexState} {out : List Token} {c : Char} (hstate : flush state = some out)
    (hc : isWordStart c = true)
    : step state c = none ∨ step state c = emit out (startStep c) ∨ ∃ acc, state = .word acc := by
  have hfacts := isWordStart_facts hc
  cases state <;> simp_all [flush, step]

theorem run_word {u : List Char} (hu : ∀ c ∈ u, isWordChar c = true) (acc rest : List Char)
    : run (.word acc) (u ++ rest) = run (.word (u.reverse ++ acc)) rest := by
  induction u generalizing acc with
  | nil => rfl
  | cons c cs ih =>
    rw [List.forall_mem_cons] at hu
    rw [List.cons_append, run]
    simp [step, hu.1, ih hu.2]

theorem startStep_letter {c : Char} (hc : isWordStart c = true) : startStep c = some ([], .word [c]) := by
  have hfacts := isWordStart_facts hc
  have hspace : isSpace c = false := by
    rw [← Bool.not_eq_true]
    intro h
    simp only [isSpace, List.mem_cons, List.not_mem_nil, or_false, decide_eq_true_eq] at h
    rcases h with rfl | rfl | rfl | rfl | rfl | rfl <;> revert hc <;> decide
  simp [startStep, hspace, hfacts, hc]

end Lexer

open Lexer

/--
A text that starts with a character which ends every open token.
-/
def Closing (s : String) : Prop :=
  ∃ c cs, s.toList = c :: cs ∧ Closes c

theorem Breaking.closing {s : String} (h : Breaking s) : Closing s := by
  unfold Breaking at h
  cases hs : s.toList with
  | nil => simp [hs] at h
  | cons c cs =>
    rw [hs, List.head?_cons, Option.map_some, Option.some.injEq] at h
    exact ⟨c, cs, hs, closes_of_breaks h⟩

section

variable {s t : String} {toks toks' : List Token}

theorem Lexes.run_append_closing (hs : Lexes s toks) (hclose : Closing t)
    : run .start (s ++ t).toList = emit toks (run .start t.toList) := by
  obtain ⟨out, state, last, hrun, hflush, heq⟩ := hs
  have ⟨c, cs, ht, hc⟩ := hclose
  rw [String.toList_append, Lexer.run_append, hrun, ht]
  simp only [run_of_closes hflush hc, emit_emit, heq]

theorem Lexes.append_closing (hs : Lexes s toks) (hclose : Closing t) (ht : Lexes t toks')
    : Lexes (s ++ t) (toks ++ toks') := by
  obtain ⟨out, state, last, hrun, hflush, heq⟩ := ht
  refine ⟨toks ++ out, state, last, ?_, hflush, by simp [heq]⟩
  rw [hs.run_append_closing hclose, hrun]
  rfl

theorem Lexes.append_closing_open (hs : Lexes s toks) (hclose : Closing t) (ht : LexesOpen t toks')
    : LexesOpen (s ++ t) (toks ++ toks') := by
  unfold LexesOpen at *
  rw [hs.run_append_closing hclose, ht]
  rfl

end

/--
The tokens of a text, if the automaton gets to its end.
-/
def tokensOf (s : String) : Option (List Token) :=
  (run .start s.toList).bind (fun (out, state) => (flush state).map (out ++ ·))

theorem lexes_of_tokensOf {s : String} {toks : List Token} (h : tokensOf s = some toks) : Lexes s toks := by
  rw [tokensOf, Option.bind_eq_some_iff] at h
  have ⟨(out, state), hrun, hmap⟩ := h
  rw [Option.map_eq_some_iff] at hmap
  have ⟨last, hflush, heq⟩ := hmap
  exact ⟨out, state, last, hrun, hflush, heq.symm⟩

/-! A word directly behind a text -/

/--
`u` is one word.
-/
def Wordlike (u : String) : Prop :=
  (u.toList.head?.any isWordStart && u.toList.all isWordChar) = true

instance (u : String) : Decidable (Wordlike u) :=
  inferInstanceAs (Decidable (_ = _))

def lowered (u : String) : String :=
  String.ofList (u.toList.map Char.toLower)

section

variable {s u rest : String} {toks toks' : List Token}

theorem run_word_closing {acc us : List Char} (hu : ∀ c ∈ us, isWordChar c = true)
    (hclose : rest = "" ∨ Closing rest) (hrest : Lexes rest toks')
    : ∃ out state last, run (.word acc) (us ++ rest.toList) = some (out, state) ∧ flush state = some last
        ∧ out ++ last = wordOf (us.reverse ++ acc) :: toks' := by
  rw [run_word hu]
  obtain ⟨out, state, last, hrun, hflush, heq⟩ := hrest
  cases hclose with
  | inl hempty =>
    subst hempty
    cases hrun
    refine ⟨[], _, [wordOf (us.reverse ++ acc)], rfl, rfl, ?_⟩
    cases hflush
    simp [heq]
  | inr hclose =>
    have ⟨c, cs, ht, hc⟩ := hclose
    rw [ht] at hrun ⊢
    rw [run_of_closes rfl hc, hrun]
    exact ⟨_, state, last, rfl, hflush, by simp [heq]⟩

theorem lex_of_run {out last : List Token} {state : LexState} (hrun : run .start s.toList = some (out, state))
    (hflush : flush state = some last) : lex s = some (out ++ last) :=
  Lexes.lex ⟨out, state, last, hrun, hflush, rfl⟩

/--
What a text becomes with a word directly behind it: the word is refused, is a token of its own or goes
on with the last word of the text.
-/
theorem Lexes.glue (hs : Lexes s toks) (hu : Wordlike u) (hclose : rest = "" ∨ Closing rest)
    (hrest : Lexes rest toks')
    : Sql.lex (s ++ (u ++ rest)) = none
        ∨ Sql.lex (s ++ (u ++ rest)) = some (toks ++ .word (lowered u) :: toks')
        ∨ ∃ init v, toks = init ++ [.word v]
          ∧ Sql.lex (s ++ (u ++ rest)) = some (init ++ .word (v ++ lowered u) :: toks') := by
  obtain ⟨out, state, last, hrun, hflush, heq⟩ := hs
  unfold Wordlike at hu
  cases hut : u.toList with
  | nil => simp [hut] at hu
  | cons c cs =>
    simp only [hut, List.head?_cons, Option.any_some, List.all_cons, Bool.and_eq_true, List.all_eq_true] at hu
    obtain ⟨hstart, hc, hcs⟩ := hu
    have htext : (s ++ (u ++ rest)).toList = s.toList ++ (c :: (cs ++ rest.toList)) := by
      simp [hut]
    have hown := @run_word_closing rest toks' [c] cs hcs hclose hrest
    obtain ⟨out', state', last', hrun', hflush', heq'⟩ := hown
    have hstart' : run .start (c :: (cs ++ rest.toList)) = some (out', state') := by
      rw [run, show step .start c = startStep c from rfl, startStep_letter hstart]
      simp [hrun']
    rcases step_letter hflush hstart with hnone | hemit | ⟨acc, hword⟩
    . refine .inl ?_
      unfold Sql.lex
      rw [htext, Lexer.run_append, hrun]
      simp [run, hnone, emit]
    . refine .inr (.inl ?_)
      have hall : run .start (s ++ (u ++ rest)).toList = some (toks ++ out', state') := by
        rw [htext, Lexer.run_append, hrun]
        simp only [run, hemit, startStep_letter hstart, emit_some, hrun', List.append_nil, heq,
          List.append_assoc]
      rw [lex_of_run hall hflush', List.append_assoc, heq']
      simp [wordOf, lowered, hut]
    . refine .inr (.inr ?_)
      subst hword
      cases hflush
      have hmore : ∀ d ∈ c :: cs, isWordChar d = true := by
        rw [List.forall_mem_cons]
        exact ⟨hc, hcs⟩
      obtain ⟨out'', state'', last'', hrun'', hflush'', heq''⟩ :=
        @run_word_closing rest toks' acc (c :: cs) hmore hclose hrest
      have hall : run .start (s ++ (u ++ rest)).toList = some (out ++ out'', state'') := by
        rw [htext, Lexer.run_append, hrun]
        rw [List.cons_append] at hrun''
        simp [hrun'']
      refine ⟨out, String.ofList (acc.reverse.map Char.toLower), heq, ?_⟩
      rw [lex_of_run hall hflush'', List.append_assoc, heq'']
      simp [wordOf, lowered, hut]

end

/-! Reading on -/

/--
The next state, from the start state if the character does not fit.
-/
def skim (state : LexState) (c : Char) : LexState :=
  match step state c with
  | some (_, next) => next
  | none =>
    match startStep c with
    | some (_, next) => next
    | none => .start

def skimAll (state : LexState) (s : List Char) : LexState :=
  s.foldl skim state

@[simp]
theorem skimAll_append (state : LexState) (s t : List Char)
    : skimAll state (s ++ t) = skimAll (skimAll state s) t := by
  simp [skimAll]

theorem skimAll_of_run {state next : LexState} {s : List Char} {toks : List Token}
    (h : run state s = some (toks, next)) : skimAll state s = next := by
  induction s generalizing state toks with
  | nil =>
    cases h
    rfl
  | cons c cs ih =>
    rw [run] at h
    cases hstep : step state c with
    | none => simp [hstep] at h
    | some result =>
      obtain ⟨out, mid⟩ := result
      simp only [hstep] at h
      cases hrun : run mid cs with
      | none => simp [hrun, emit] at h
      | some result =>
        obtain ⟨out', last⟩ := result
        simp only [hrun, emit_some, Option.some.injEq, Prod.mk.injEq] at h
        rw [skimAll, List.foldl_cons, show skim state c = mid by simp [skim, hstep]]
        obtain ⟨-, rfl⟩ := h
        apply ih hrun

theorem skimAll_closes {state : LexState} {out : List Token} (hstate : flush state = some out) {t : String}
    (hclose : Closing t) : skimAll state t.toList = skimAll .start t.toList := by
  have ⟨c, cs, ht, hc⟩ := hclose
  have hstep : skim state c = skim .start c := by
    unfold skim
    rw [hc state out hstate, show step .start c = startStep c from rfl]
    cases startStep c with
    | none => rfl
    | some result => rfl
  rw [ht, skimAll, skimAll, List.foldl_cons, List.foldl_cons, hstep]

theorem skim_letter {state : LexState} {out : List Token} {c : Char} (hstate : flush state = some out)
    (hc : isWordStart c = true) : ∃ acc, skim state c = .word acc := by
  unfold skim
  rcases step_letter hstate hc with hnone | hemit | ⟨acc, hword⟩
  . rw [hnone, startStep_letter hc]
    exact ⟨[c], rfl⟩
  . rw [hemit, startStep_letter hc]
    exact ⟨[c], rfl⟩
  . subst hword
    exact ⟨c :: acc, by simp [step, isWordChar, hc]⟩

theorem LexesOpen.skim {s : String} {toks : List Token} (h : LexesOpen s toks)
    : skimAll .start s.toList = .start :=
  skimAll_of_run h

theorem Lexes.skim {s : String} {toks : List Token} (h : Lexes s toks)
    : ∃ out, flush (skimAll .start s.toList) = some out := by
  obtain ⟨out, state, last, hrun, hflush, heq⟩ := h
  rw [skimAll_of_run hrun]
  exact ⟨last, hflush⟩

/--
A text with its quotes in pairs does not leave the literal it stands in.
-/
theorem skimAll_str {s acc : List Char} (h : paired '\'' s = true)
    : skimAll (.str acc) s = .str (s.reverse ++ acc) := by
  induction s using paired.induct '\'' generalizing acc with
  | case1 => rfl
  | case2 c =>
    simp only [paired, ne_eq, decide_not, Bool.not_eq_true', decide_eq_false_iff_not] at h
    simp [skimAll, Sql.skim, step, h]
  | case3 d cs ih =>
    simp only [paired, if_true, Bool.and_eq_true, decide_eq_true_eq] at h
    have := @ih ('\'' :: '\'' :: acc) h.2
    simp only [skimAll] at this
    simp [skimAll, Sql.skim, step, h.1, this]
  | case4 c d cs hne ih =>
    simp only [paired, hne, if_false] at h
    have := @ih (c :: acc) h
    simp only [skimAll] at this
    rw [skimAll, List.foldl_cons, show Sql.skim (.str acc) c = .str (c :: acc) by simp [Sql.skim, step, hne]]
    rw [this]
    simp

/--
A text that opens a literal with what it is closed by.
-/
theorem lexes_literal {s name : String} {toks : List Token} (hs : run .start s.toList = some (toks, .str []))
    (h : paired '\'' name.toList = true) : Lexes (s ++ (name ++ "'")) (toks ++ [.str name]) := by
  refine ⟨toks, .strQuote (name.toList.reverse ++ []), [.str name], ?_, by simp [flush, textOf], rfl⟩
  have hname := @run_str name.toList [] h
  rw [String.toList_append, String.toList_append, Lexer.run_append, hs]
  simp only [show "'".toList = ['\''] from rfl, hname, emit_some, List.append_nil]

/--
`s` stands inside of one string literal of the text `before ++ s ++ after`, which it fills.
-/
structure InLiteral (before s after : String) : Prop where
  opened : skimAll .start before.toList = .str []
  inside : skimAll (.str []) s.toList = .str s.toList.reverse
  closed : ∃ rest, after.toList = '\'' :: rest ∧ rest.head? ≠ some '\''

theorem inLiteral_of_paired {before s after : String} (hopened : skimAll .start before.toList = .str [])
    (h : paired '\'' s.toList = true) (hclosed : after.toList.head? ≠ some '\'')
    : InLiteral before s ("'" ++ after) := by
  refine ⟨hopened, ?_, after.toList, ?_, hclosed⟩
  . simpa using @skimAll_str s.toList [] h
  . rw [String.toList_append]
    rfl

/--
The reading of a text ends outside of every token.
-/
def AtStart (s : String) : Prop :=
  skimAll .start s.toList = .start

instance (s : String) : Decidable (AtStart s) :=
  inferInstanceAs (Decidable (_ = _))

theorem AtStart.append_open {s t : String} {toks : List Token} (hs : AtStart s) (ht : LexesOpen t toks)
    : AtStart (s ++ t) := by
  unfold AtStart at *
  rw [String.toList_append, skimAll_append, hs, ht.skim]

/--
What is read on behind a text that stands outside of every token.
-/
theorem AtStart.append_closing {s t u : String} {toks : List Token} (hs : AtStart s) (ht : Lexes t toks)
    (hclose : Closing u) (hu : AtStart u) : AtStart (s ++ t ++ u) := by
  have ⟨out, hflush⟩ := ht.skim
  unfold AtStart at *
  rw [String.toList_append, String.toList_append, skimAll_append, skimAll_append, hs, skimAll_closes hflush hclose,
    hu]

end Sql
