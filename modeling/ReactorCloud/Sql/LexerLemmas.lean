import ReactorCloud.Rust.Str
import ReactorCloud.Sql.Lexer

/-!
This module contains the rules by which the tokens of a text follow from the tokens of its parts. A
part may be followed by anything if it ends in the start state, and by a breaking text otherwise.
-/

namespace Sql

open Lexer

namespace Lexer

theorem emit_emit (toks toks' : List Token) (s : Step) : emit toks (emit toks' s) = emit (toks ++ toks') s := by
  cases s <;> simp [emit]

@[simp]
theorem emit_nil (s : Step) : emit [] s = s := by
  cases s <;> simp [emit]

@[simp]
theorem emit_some (toks out : List Token) (state : LexState)
    : emit toks (some (out, state)) = some (toks ++ out, state) := rfl

theorem run_append (state : LexState) (s t : List Char)
    : run state (s ++ t)
        =
      match run state s with
      | none => none
      | some (toks, state) => emit toks (run state t) := by
  induction s generalizing state with
  | nil => simp [run]
  | cons c cs ih =>
    rw [List.cons_append, run, run]
    cases step state c with
    | none => rfl
    | some result =>
      obtain ⟨toks, next⟩ := result
      simp only [ih]
      cases run next cs with
      | none => rfl
      | some result =>
        obtain ⟨out, last⟩ := result
        simp [emit_emit]

/--
A character that ends every token.
-/
def breaks (c : Char) : Bool :=
  c ∈ [' ', '(', ')', ',']

theorem step_breaks {state : LexState} {out : List Token} {c : Char} (hstate : flush state = some out)
    (hc : breaks c = true) : step state c = emit out (startStep c) := by
  have hword : isWordChar c = false ∧ isWordStart c = false ∧ c.isDigit = false ∧ isOpChar c = false
      ∧ c ≠ '.' ∧ c ≠ '"' ∧ c ≠ '\'' ∧ c ≠ '-' ∧ c ≠ '*' := by
    simp only [breaks, List.mem_cons, List.not_mem_nil, or_false, decide_eq_true_eq] at hc
    rcases hc with rfl | rfl | rfl | rfl <;> decide
  cases state <;> simp_all [flush, step]

end Lexer

/--
The tokens of a text that ends in the start state.
-/
def LexesOpen (s : String) (toks : List Token) : Prop :=
  run .start s.toList = some (toks, .start)

instance (s : String) (toks : List Token) : Decidable (LexesOpen s toks) :=
  inferInstanceAs (Decidable (_ = _))

/--
The tokens of a text that may end with an open token which any breaking character closes.
-/
def Lexes (s : String) (toks : List Token) : Prop :=
  ∃ out state last, run .start s.toList = some (out, state) ∧ flush state = some last ∧ toks = out ++ last

def Breaking (s : String) : Prop :=
  (s.toList.head?.map breaks) = some true

instance (s : String) : Decidable (Breaking s) :=
  inferInstanceAs (Decidable (_ = _))

theorem Breaking.append {s : String} (h : Breaking s) (t : String) : Breaking (s ++ t) := by
  unfold Breaking at *
  rw [String.toList_append]
  cases hs : s.toList with
  | nil => simp [hs] at h
  | cons c cs => simpa [hs] using h

theorem LexesOpen.lexes {s : String} {toks : List Token} (h : LexesOpen s toks) : Lexes s toks :=
  ⟨toks, .start, [], h, rfl, by simp⟩

section

variable {s t : String} {toks toks' : List Token}

theorem LexesOpen.append_open (hs : LexesOpen s toks) (ht : LexesOpen t toks')
    : LexesOpen (s ++ t) (toks ++ toks') := by
  unfold LexesOpen at *
  rw [String.toList_append, run_append, hs]
  simp [ht]

theorem LexesOpen.append (hs : LexesOpen s toks) (ht : Lexes t toks') : Lexes (s ++ t) (toks ++ toks') := by
  obtain ⟨out, state, last, hrun, hflush, heq⟩ := ht
  refine ⟨toks ++ out, state, last, ?_, hflush, by simp [heq]⟩
  unfold LexesOpen at hs
  rw [String.toList_append, run_append, hs]
  simp [hrun]

theorem Lexes.run_append (hs : Lexes s toks) (hbreak : Breaking t)
    : run .start (s ++ t).toList = emit toks (run .start t.toList) := by
  obtain ⟨out, state, last, hrun, hflush, heq⟩ := hs
  rw [String.toList_append, Lexer.run_append, hrun]
  unfold Breaking at hbreak
  cases ht : t.toList with
  | nil => simp [ht] at hbreak
  | cons c cs =>
    rw [ht, List.head?_cons, Option.map_some, Option.some.injEq] at hbreak
    simp only [run, step_breaks hflush hbreak, show step .start c = startStep c from rfl]
    cases startStep c with
    | none => rfl
    | some result =>
      obtain ⟨toks', next⟩ := result
      simp [emit_emit, heq]

theorem Lexes.append_open (hs : Lexes s toks) (hbreak : Breaking t) (ht : LexesOpen t toks')
    : LexesOpen (s ++ t) (toks ++ toks') := by
  unfold LexesOpen at *
  rw [hs.run_append hbreak, ht]
  rfl

theorem Lexes.append (hs : Lexes s toks) (hbreak : Breaking t) (ht : Lexes t toks')
    : Lexes (s ++ t) (toks ++ toks') := by
  obtain ⟨out, state, last, hrun, hflush, heq⟩ := ht
  refine ⟨toks ++ out, state, last, ?_, hflush, by simp [heq]⟩
  rw [hs.run_append hbreak, hrun]
  rfl

theorem Lexes.lex (h : Lexes s toks) : lex s = some toks := by
  obtain ⟨out, state, last, hrun, hflush, heq⟩ := h
  unfold Sql.lex
  rw [hrun, heq]
  cases state <;> simp_all [flush]

end

/-! Quoted tokens -/

/--
All occurrences of a quote come in pairs.
-/
def paired (q : Char) : List Char → Bool
  | [] => true
  | [c] => c ≠ q
  | c :: d :: cs => if c = q then d = q && paired q cs else paired q (d :: cs)

theorem paired_of_not_mem {q : Char} {s : List Char} (h : q ∉ s) : paired q s = true := by
  induction s using paired.induct q with
  | case1 => rfl
  | case2 c =>
    rw [List.mem_singleton] at h
    simp [paired, Ne.symm h]
  | case3 d cs ih => simp at h
  | case4 c d cs hne ih =>
    rw [List.mem_cons, not_or] at h
    simp [paired, hne, ih h.2]

theorem run_ident {s acc : List Char} (h : paired '"' s = true)
    : run (.ident acc) (s ++ ['"']) = some ([], .identQuote (s.reverse ++ acc)) := by
  induction s using paired.induct '"' generalizing acc with
  | case1 => rfl
  | case2 c =>
    simp only [paired, ne_eq, decide_not, Bool.not_eq_true', decide_eq_false_iff_not] at h
    simp [run, step, h]
  | case3 d cs ih =>
    simp only [paired, if_true, Bool.and_eq_true, decide_eq_true_eq] at h
    simp [run, step, h.1, ih h.2]
  | case4 c d cs hne ih =>
    simp only [paired, hne, if_false] at h
    have := @ih (c :: acc) h
    simp only [List.cons_append] at this ⊢
    rw [run]
    simp [step, hne, this]

theorem run_str {s acc : List Char} (h : paired '\'' s = true)
    : run (.str acc) (s ++ ['\'']) = some ([], .strQuote (s.reverse ++ acc)) := by
  induction s using paired.induct '\'' generalizing acc with
  | case1 => rfl
  | case2 c =>
    simp only [paired, ne_eq, decide_not, Bool.not_eq_true', decide_eq_false_iff_not] at h
    simp [run, step, h]
  | case3 d cs ih =>
    simp only [paired, if_true, Bool.and_eq_true, decide_eq_true_eq] at h
    simp [run, step, h.1, ih h.2]
  | case4 c d cs hne ih =>
    simp only [paired, hne, if_false] at h
    have := @ih (c :: acc) h
    simp only [List.cons_append] at this ⊢
    rw [run]
    simp [step, hne, this]

theorem lexes_ident {name : String} (h : paired '"' name.toList = true)
    : Lexes ("\"" ++ name ++ "\"") [.ident name] := by
  refine ⟨[], .identQuote (name.toList.reverse ++ []), [.ident name], ?_, by simp [flush, textOf], rfl⟩
  have := @run_ident name.toList [] h
  simp only [String.toList_append]
  rw [show "\"".toList = ['"'] from rfl, List.singleton_append, List.cons_append, run]
  simp [step, startStep, isSpace, this]

theorem lexes_str {raw : String} (h : paired '\'' raw.toList = true)
    : Lexes ("'" ++ raw ++ "'") [.str raw] := by
  refine ⟨[], .strQuote (raw.toList.reverse ++ []), [.str raw], ?_, by simp [flush, textOf], rfl⟩
  have := @run_str raw.toList [] h
  simp only [String.toList_append]
  rw [show "'".toList = ['\''] from rfl, List.singleton_append, List.cons_append, run]
  simp [step, startStep, isSpace, this]

theorem unescape_of_not_mem {q : Char} {s : List Char} (h : q ∉ s) : unescape q s = s := by
  induction s using unescape.induct q with
  | case1 => rfl
  | case2 c => rfl
  | case3 c d cs hq ih => simp [hq.1] at h
  | case4 c d cs hne ih =>
    rw [List.mem_cons, not_or] at h
    simp [unescape, hne, ih h.2]

/-! Numbers and parameters -/

theorem run_num {s acc : List Char} {dot : Bool} (h : ∀ c ∈ s, c.isDigit = true)
    : run (.num acc dot) s = some ([], .num (s.reverse ++ acc) dot) := by
  induction s generalizing acc with
  | nil => rfl
  | cons c s ih =>
    rw [List.forall_mem_cons] at h
    simp [run, step, h.1, ih h.2]

theorem run_param {s acc : List Char} (h : ∀ c ∈ s, c.isDigit = true)
    : run (.param acc) s = some ([], .param (s.reverse ++ acc)) := by
  induction s generalizing acc with
  | nil => rfl
  | cons c s ih =>
    rw [List.forall_mem_cons] at h
    simp [run, step, h.1, ih h.2]

theorem isWordStart_digit {c : Char} (h : c.isDigit = true) : isWordStart c = false := by
  have hrange : 48 ≤ c.toNat ∧ c.toNat ≤ 57 := Char.isDigit_iff_toNat.mp h
  have halpha : c.isAlpha = false := by
    rw [← Bool.not_eq_true, Rust.isAlpha_iff]
    omega
  have hunder : c ≠ '_' := by
    intro heq
    simp [heq] at h
  simp [isWordStart, halpha, hunder]
  omega

theorem startStep_digit {c : Char} (h : c.isDigit = true) : startStep c = some ([], .num [c] false) := by
  have hspace : isSpace c = false := by
    simp only [isSpace, decide_eq_false_iff_not, List.mem_cons, List.not_mem_nil, or_false, not_or]
    refine ⟨?_, ?_, ?_, ?_, ?_, ?_⟩ <;> rintro rfl <;> simp at h
  have hquote : c ≠ '"' := by rintro rfl; simp at h
  have hquote' : c ≠ '\'' := by rintro rfl; simp at h
  simp [startStep, hspace, isWordStart_digit h, hquote, hquote', h]

theorem lexes_digits {s : String} (h : ∀ c ∈ s.toList, c.isDigit = true) (hne : s ≠ "")
    : Lexes s [.num s] := by
  cases hs : s.toList with
  | nil => exact absurd (String.toList_eq_nil_iff.mp hs) hne
  | cons c cs =>
    rw [hs, List.forall_mem_cons] at h
    refine ⟨[], .num (cs.reverse ++ [c]) false, [.num s], ?_, ?_, rfl⟩
    . rw [hs, run]
      simp [step, startStep_digit h.1, run_num h.2]
    . have : s = String.ofList (c :: cs) := by rw [← hs, String.ofList_toList]
      simp [flush, textOf, this]

theorem isDigit_repr (n : Nat) : ∀ c ∈ (Nat.repr n).toList, c.isDigit = true := by
  intro c hc
  rw [Nat.repr, String.toList_ofList] at hc
  exact Nat.isDigit_of_mem_toDigits (by decide) (by decide) hc

theorem repr_ne_empty (n : Nat) : Nat.repr n ≠ "" := by
  intro h
  have := congrArg String.toList h
  rw [Nat.repr, String.toList_ofList] at this
  exact Nat.toDigits_ne_nil this

theorem lexes_nat (n : Nat) : Lexes (Nat.repr n) [.num (Nat.repr n)] :=
  lexes_digits (isDigit_repr n) (repr_ne_empty n)

theorem lexes_param (n : Nat) : Lexes ("$" ++ Nat.repr n) [.param (Nat.repr n)] := by
  have hdigits := isDigit_repr n
  cases hs : (Nat.repr n).toList with
  | nil => exact absurd (String.toList_eq_nil_iff.mp hs) (repr_ne_empty n)
  | cons c cs =>
    rw [hs, List.forall_mem_cons] at hdigits
    refine ⟨[], .param (cs.reverse ++ [c]), [.param (Nat.repr n)], ?_, ?_, rfl⟩
    . rw [String.toList_append, hs]
      simp only [show "$".toList = ['$'] from rfl, List.singleton_append, run]
      simp [step, startStep, isSpace, isWordStart, hdigits.1,
        run_param hdigits.2]
    . have : Nat.repr n = String.ofList (c :: cs) := by rw [← hs, String.ofList_toList]
      simp [flush, textOf, this]

end Sql
