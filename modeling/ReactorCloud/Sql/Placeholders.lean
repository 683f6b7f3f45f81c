import Mathlib.Data.List.Forall2
import ReactorCloud.Sql.LexerLemmas

/-!
This module contains the placeholders of a text, each with the last quoted name before it, and the
rules by which those of a text follow from those of its parts.
-/

namespace Sql

open Lexer
open Rust.Str (joinWith)

def bindings (last : String) : List Token → List (String × String)
  | [] => []
  | .ident name :: toks => bindings name toks
  | .param digits :: toks => (last, digits) :: bindings last toks
  | _ :: toks => bindings last toks

def lastIdent (last : String) : List Token → String
  | [] => last
  | .ident name :: toks => lastIdent name toks
  | _ :: toks => lastIdent last toks

/--
The names with the placeholders that follow the first `n` ones.
-/
def numbered (n : Nat) : List String → List (String × String)
  | [] => []
  | name :: names => (name, Nat.repr (n + 1)) :: numbered (n + 1) names

def Token.isParam : Token → Bool
  | .param _ => true
  | _ => false

def Token.isIdent : Token → Bool
  | .ident _ => true
  | _ => false

/--
Tokens that neither are placeholders nor say what the following ones are for.
-/
def still (toks : List Token) : Bool :=
  toks.all (fun tok => !tok.isParam && !tok.isIdent)

theorem bindings_append (last : String) (s t : List Token)
    : bindings last (s ++ t) = bindings last s ++ bindings (lastIdent last s) t := by
  induction s generalizing last with
  | nil => rfl
  | cons tok s ih => cases tok <;> simp [bindings, lastIdent, ih]

theorem numbered_append (n : Nat) (s t : List String)
    : numbered n (s ++ t) = numbered n s ++ numbered (n + s.length) t := by
  induction s generalizing n with
  | nil => rfl
  | cons name s ih =>
    simp only [List.cons_append, numbered, ih, List.length_cons]
    rw [Nat.add_assoc, Nat.add_comm 1]

theorem bindings_still {toks : List Token} (h : still toks = true) (last : String)
    : bindings last toks = [] ∧ lastIdent last toks = last := by
  induction toks with
  | nil => exact ⟨rfl, rfl⟩
  | cons tok toks ih =>
    rw [still, List.all_cons, Bool.and_eq_true] at h
    have hrest := ih h.2
    cases tok with
    | ident name => simp [Token.isIdent] at h
    | param digits => simp [Token.isParam] at h
    | _ => exact hrest

theorem bindings_of_no_param {toks : List Token} (h : toks.all (!·.isParam) = true) (last : String)
    : bindings last toks = [] := by
  induction toks generalizing last with
  | nil => rfl
  | cons tok toks ih =>
    rw [List.all_cons, Bool.and_eq_true] at h
    cases tok with
    | param digits => simp [Token.isParam] at h
    | _ => exact ih h.2 _

theorem no_param_of_bindings {toks : List Token} {last : String} (h : bindings last toks = [])
    : toks.all (!·.isParam) = true := by
  induction toks generalizing last with
  | nil => rfl
  | cons tok toks ih =>
    rw [List.all_cons, Bool.and_eq_true]
    cases tok with
    | param digits => cases h
    | ident name => exact ⟨rfl, @ih name h⟩
    | _ => exact ⟨rfl, @ih last h⟩

theorem lexesOpen_empty : LexesOpen "" [] :=
  rfl

theorem lexes_empty_iff {toks : List Token} : Lexes "" toks ↔ toks = [] := by
  constructor
  . intro ⟨out, state, last, hrun, hflush, heq⟩
    cases hrun
    cases hflush
    exact heq
  . intro h
    subst h
    exact lexesOpen_empty.lexes

/-! Texts whose placeholders do not depend on what stands before -/

def Fills (s : String) (items : List (String × String)) : Prop :=
  ∃ toks, Lexes s toks ∧ ∀ last, bindings last toks = items

def FillsOpen (s : String) (items : List (String × String)) : Prop :=
  ∃ toks, LexesOpen s toks ∧ ∀ last, bindings last toks = items

/--
A text that ends in the start state and has still tokens only.
-/
def stillOpen (s : String) : Bool :=
  match run .start s.toList with
  | some (toks, .start) => still toks
  | _ => false

/--
A text that ends in a word or number and has still tokens only.
-/
def stillWord (s : String) : Bool :=
  match run .start s.toList with
  | some (toks, state) => (flush state).any (fun last => still (toks ++ last))
  | none => false

theorem stillOpen_spec {s : String} (h : stillOpen s = true) : ∃ toks, LexesOpen s toks ∧ still toks = true := by
  unfold stillOpen at h
  split at h
  . next toks hrun => exact ⟨toks, hrun, h⟩
  . cases h

theorem fillsOpen_of_still {s : String} (h : stillOpen s = true) : FillsOpen s [] := by
  have ⟨toks, hlexes, hstill⟩ := stillOpen_spec h
  exact ⟨toks, hlexes, fun last => (bindings_still hstill last).1⟩

theorem fills_of_still {s : String} (h : stillWord s = true) : Fills s [] := by
  unfold stillWord at h
  split at h
  . next toks state hrun =>
    rw [Option.any_eq_true] at h
    have ⟨last, hflush, hstill⟩ := h
    refine ⟨toks ++ last, ⟨toks, state, last, hrun, hflush, rfl⟩, ?_⟩
    intro name
    exact (bindings_still hstill name).1
  . cases h

section

variable {s t : String} {items items' : List (String × String)}

theorem FillsOpen.fills (h : FillsOpen s items) : Fills s items := by
  have ⟨toks, hlexes, hitems⟩ := h
  exact ⟨toks, hlexes.lexes, hitems⟩

theorem FillsOpen.append_open (hs : FillsOpen s items) (ht : FillsOpen t items')
    : FillsOpen (s ++ t) (items ++ items') := by
  have ⟨toks, hlexes, hitems⟩ := hs
  have ⟨toks', hlexes', hitems'⟩ := ht
  refine ⟨toks ++ toks', hlexes.append_open hlexes', ?_⟩
  intro last
  rw [bindings_append, hitems, hitems']

theorem FillsOpen.append (hs : FillsOpen s items) (ht : Fills t items')
    : Fills (s ++ t) (items ++ items') := by
  have ⟨toks, hlexes, hitems⟩ := hs
  have ⟨toks', hlexes', hitems'⟩ := ht
  refine ⟨toks ++ toks', hlexes.append hlexes', ?_⟩
  intro last
  rw [bindings_append, hitems, hitems']

theorem Fills.append (hs : Fills s items) (hbreak : Breaking t) (ht : Fills t items')
    : Fills (s ++ t) (items ++ items') := by
  have ⟨toks, hlexes, hitems⟩ := hs
  have ⟨toks', hlexes', hitems'⟩ := ht
  refine ⟨toks ++ toks', hlexes.append hbreak hlexes', ?_⟩
  intro last
  rw [bindings_append, hitems, hitems']

theorem Fills.append_open (hs : Fills s items) (hbreak : Breaking t) (ht : FillsOpen t items')
    : FillsOpen (s ++ t) (items ++ items') := by
  have ⟨toks, hlexes, hitems⟩ := hs
  have ⟨toks', hlexes', hitems'⟩ := ht
  refine ⟨toks ++ toks', hlexes.append_open hbreak hlexes', ?_⟩
  intro last
  rw [bindings_append, hitems, hitems']

theorem fills_empty : Fills "" [] :=
  ⟨[], lexesOpen_empty.lexes, fun _ => rfl⟩

/--
A clause that may be missing.
-/
def Clause (s : String) (items : List (String × String)) : Prop :=
  Fills s items ∧ (s = "" ∨ Breaking s)

theorem clause_empty : Clause "" [] :=
  ⟨fills_empty, .inl rfl⟩

theorem Fills.append_clause (hs : Fills s items) (ht : Clause t items') : Fills (s ++ t) (items ++ items') := by
  cases ht.2 with
  | inr hbreak => exact hs.append hbreak ht.1
  | inl hempty =>
    subst hempty
    have ⟨toks, hlexes, hitems⟩ := ht.1
    rw [lexes_empty_iff] at hlexes
    subst hlexes
    have hnil : items' = [] := (hitems "").symm
    rw [hnil, List.append_nil, String.append_empty]
    exact hs

theorem Clause.append (hs : Clause s items) (ht : Clause t items') : Clause (s ++ t) (items ++ items') := by
  refine ⟨hs.1.append_clause ht, ?_⟩
  cases hs.2 with
  | inr hbreak => exact .inr (hbreak.append t)
  | inl hempty =>
    subst hempty
    rw [String.empty_append]
    exact ht.2

theorem Fills.lex (h : Fills s items) : ∃ toks, lex s = some toks ∧ ∀ last, bindings last toks = items := by
  have ⟨toks, hlexes, hitems⟩ := h
  exact ⟨toks, hlexes.lex, hitems⟩

end

theorem fills_ident {name : String} (h : paired '"' name.toList = true)
    : Fills ("\"" ++ name ++ "\"") [] :=
  ⟨[.ident name], lexes_ident h, fun _ => rfl⟩

/--
A quoted name with a point.
-/
theorem lexesOpen_ident_dot {name : String} (h : paired '"' name.toList = true)
    : LexesOpen ("\"" ++ name ++ "\"" ++ ".") [.ident name, .punct '.'] := by
  unfold LexesOpen
  have hrun := @run_ident name.toList [] h
  have hname : run .start ("\"" ++ name ++ "\"").toList = some ([], .identQuote name.toList.reverse) := by
    simp only [String.toList_append]
    rw [show "\"".toList = ['"'] from rfl, List.singleton_append, List.cons_append, run]
    simp [step, startStep, isSpace, hrun]
  rw [String.toList_append, run_append, hname]
  simp [run, step, startStep, isSpace, isWordStart, isPunct, textOf, emit]

/-! Lists -/

theorem lexes_joinWith {sep : String} {sepToks : List Token} (hsep : LexesOpen sep sepToks)
    (hbreak : Breaking sep) {parts : List String} {tokss : List (List Token)}
    (h : List.Forall₂ Lexes parts tokss) : Lexes (joinWith sep parts) (sepToks.intercalate tokss) := by
  induction h with
  | nil => exact lexesOpen_empty.lexes
  | @cons part toks parts tokss hpart hparts ih =>
    cases hparts with
    | nil => simpa [joinWith] using hpart
    | cons hnext hrest =>
      have := (hpart.append_open hbreak hsep).append ih
      simpa [joinWith, List.intercalate] using this

theorem fills_joinWith {sep : String} (hsep : stillOpen sep = true) (hbreak : Breaking sep)
    {parts : List String} {itemss : List (List (String × String))} (h : List.Forall₂ Fills parts itemss)
    : Fills (joinWith sep parts) itemss.flatten := by
  induction h with
  | nil => exact fills_empty
  | @cons part items parts itemss hpart hparts ih =>
    cases hparts with
    | nil => simpa [joinWith] using hpart
    | cons hnext hrest =>
      have := (hpart.append_open hbreak (fillsOpen_of_still hsep)).append ih
      simpa [joinWith] using this

/--
A list of parts without placeholders.
-/
theorem fills_joinWith_nil {sep : String} (hsep : stillOpen sep = true) (hbreak : Breaking sep)
    {parts : List String} (h : ∀ part ∈ parts, Fills part []) : Fills (joinWith sep parts) [] := by
  have hparts : List.Forall₂ Fills parts (parts.map (fun _ => [])) := by
    rw [List.forall₂_map_right_iff, List.forall₂_same]
    exact h
  have := fills_joinWith hsep hbreak hparts
  simpa using this

/--
The tokens of `n` placeholders after the first `offset` ones.
-/
def paramTokens : Nat → Nat → List (List Token)
  | 0, _ => []
  | n + 1, offset => [.param (Nat.repr (offset + 1))] :: paramTokens n (offset + 1)

theorem forall₂_paramTokens (n offset : Nat)
    : List.Forall₂ Lexes ((List.range n).map (fun i => "$" ++ Nat.repr (offset + (i + 1))))
        (paramTokens n offset) := by
  induction n generalizing offset with
  | zero => exact .nil
  | succ n ih =>
    rw [List.range_succ_eq_map, List.map_cons, List.map_map]
    refine .cons (lexes_param _) ?_
    have hshift : (fun i => "$" ++ Nat.repr (offset + (i + 1))) ∘ Nat.succ
        = fun i => "$" ++ Nat.repr (offset + 1 + (i + 1)) := by
      funext i
      simp only [Function.comp_apply]
      congr 2
      omega
    rw [hshift]
    exact ih (offset + 1)

theorem bindings_paramTokens (n offset : Nat) (last : String)
    : bindings last (List.intercalate [.punct ','] (paramTokens n offset))
        = numbered offset (List.replicate n last)
      ∧ lastIdent last (List.intercalate [.punct ','] (paramTokens n offset)) = last := by
  induction n generalizing offset with
  | zero => exact ⟨rfl, rfl⟩
  | succ n ih =>
    have hrest := ih (offset + 1)
    cases n with
    | zero => exact ⟨rfl, rfl⟩
    | succ n =>
      simp only [paramTokens, List.intercalate, List.intersperse, List.flatten] at hrest ⊢
      simpa [bindings, lastIdent, numbered, List.replicate_succ] using hrest

end Sql
