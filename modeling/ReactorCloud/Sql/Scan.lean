import ReactorCloud.Sql.Lexer
import ReactorCloud.Sql.Truth

/-!
This module contains a coarse reading of the tokens of a query: the places where it reads a table, each
with the condition of its `WHERE` clause, and the parts that condition is made of.
-/

namespace Sql

/--
The token is this name, quoted or not.
-/
def Token.names (tok : Token) (name : String) : Bool :=
  tok == .word name || tok == .ident name

/--
The words that end a condition and the end of a statement.
-/
def Token.endsClause : Token → Bool
  | .word w =>
    w ∈ ["group", "having", "window", "union", "intersect", "except", "order", "limit", "offset", "fetch", "for"]
  | .punct c => c == ';'
  | _ => false

/-- The number of open parentheses behind a token. -/
def nesting (depth : Nat) (tok : Token) : Nat :=
  if tok = .punct '(' then depth + 1
  else if tok = .punct ')' then depth - 1
  else depth

/--
The tokens of a condition, up to the end of the clause it stands in.
-/
def clause (depth : Nat) : List Token → List Token
  | [] => []
  | tok :: toks =>
    if depth = 0 ∧ (tok = .punct ')' ∨ tok.endsClause) then [] else tok :: clause (nesting depth tok) toks

/--
The parts between the occurrences of a word outside of all parentheses.
-/
def splitTop (w : String) (depth : Nat) : List Token → List (List Token)
  | [] => [[]]
  | tok :: toks =>
    if depth = 0 ∧ tok = .word w then
      [] :: splitTop w 0 toks
    else
      match splitTop w (nesting depth tok) toks with
      | [] => [[tok]]
      | part :: parts => (tok :: part) :: parts

/--
A disjunction of conjunctions, `atom` is the truth of what neither is.
-/
def conditionTruth (atom : List Token → Truth) (condition : List Token) : Truth :=
  Truth.any ((splitTop "or" 0 condition).map (fun part => Truth.all ((splitTop "and" 0 part).map atom)))

/--
The condition of the clause the tokens start with.
-/
def conditionOf : List Token → Option (List Token)
  | .word "where" :: toks => some (clause 0 toks)
  | _ => none

/--
Every place where the table is read, with its condition if it has one.
-/
def scansOf (schema table : String) : List Token → List (Option (List Token))
  | [] => []
  | tok :: toks =>
    if tok.names schema ∧ toks.head? = some (.punct '.') ∧ toks[1]?.any (·.names table) then
      conditionOf (toks.drop 2) :: scansOf schema table toks
    else
      scansOf schema table toks

/--
The condition is a conjunction with the part `conj`.
-/
def Conjoined (conj condition : List Token) : Prop :=
  splitTop "or" 0 condition = [condition] ∧ conj ∈ splitTop "and" 0 condition

theorem Conjoined.holds {atom : List Token → Truth} {conj condition : List Token}
    (h : Conjoined conj condition) (hholds : (conditionTruth atom condition).Holds) : (atom conj).Holds := by
  obtain ⟨hsingle, hmem⟩ := h
  rw [conditionTruth, hsingle] at hholds
  simp only [List.map_cons, List.map_nil, Truth.any_cons, Truth.any_nil, Truth.or_false] at hholds
  rw [Truth.all_holds] at hholds
  apply hholds
  apply List.mem_map_of_mem hmem

/-! Texts without a word outside of the parentheses -/

/--
The word does not occur outside of the parentheses before these are closed once too often.
-/
def noTop (w : String) (depth : Nat) : List Token → Bool
  | [] => true
  | tok :: toks =>
    if depth = 0 ∧ tok = .punct ')' then true
    else !(decide (depth = 0) && tok == .word w) && noTop w (nesting depth tok) toks

/--
The parentheses that are open behind the tokens, `none` if the word occurs outside of them or too many
are closed.
-/
def walk (w : String) (depth : Nat) : List Token → Option Nat
  | [] => some depth
  | tok :: toks =>
    if depth = 0 ∧ (tok = .punct ')' ∨ tok = .word w) then none else walk w (nesting depth tok) toks

theorem walk_append (w : String) (depth : Nat) (s t : List Token)
    : walk w depth (s ++ t) = (walk w depth s).bind (fun depth => walk w depth t) := by
  induction s generalizing depth with
  | nil => rfl
  | cons tok s ih =>
    rw [List.cons_append, walk, walk]
    split
    . rfl
    . apply ih

theorem nesting_succ {depth : Nat} {tok : Token} (h : ¬ (depth = 0 ∧ tok = .punct ')'))
    (k : Nat) : nesting (depth + k) tok = nesting depth tok + k := by
  unfold nesting
  split
  . omega
  . split
    . next hclose =>
      have : depth ≠ 0 := fun hzero => h ⟨hzero, hclose⟩
      omega
    . rfl

theorem walk_deeper {w : String} {depth depth' : Nat} {toks : List Token}
    (h : walk w depth toks = some depth') (k : Nat) : walk w (depth + k) toks = some (depth' + k) := by
  induction toks generalizing depth with
  | nil =>
    cases h
    rfl
  | cons tok toks ih =>
    rw [walk] at h ⊢
    split at h
    . cases h
    . next hgo =>
      have hclose : ¬ (depth = 0 ∧ tok = .punct ')') := fun hand => hgo ⟨hand.1, .inl hand.2⟩
      rw [if_neg (fun hand => hgo ⟨by omega, hand.2⟩), nesting_succ hclose]
      apply ih h

theorem noTop_append {w : String} {depth depth' : Nat} {s : List Token} (h : walk w depth s = some depth')
    (t : List Token) : noTop w depth (s ++ t) = noTop w depth' t := by
  induction s generalizing depth with
  | nil =>
    cases h
    rfl
  | cons tok s ih =>
    rw [walk] at h
    split at h
    . cases h
    . next hgo =>
      rw [List.cons_append, noTop, ih h]
      have hclose : ¬ (depth = 0 ∧ tok = .punct ')') := fun hand => hgo ⟨hand.1, .inl hand.2⟩
      have hword : (decide (depth = 0) && tok == .word w) = false := by
        rw [← Bool.not_eq_true]
        intro hand
        rw [Bool.and_eq_true, decide_eq_true_eq, beq_iff_eq] at hand
        exact hgo ⟨hand.1, .inr hand.2⟩
      rw [if_neg hclose, hword]
      rfl

theorem noTop_of_not_mem {w : String} {toks : List Token} (h : Token.word w ∉ toks) (depth : Nat)
    : noTop w depth toks = true := by
  induction toks generalizing depth with
  | nil => rfl
  | cons tok toks ih =>
    rw [List.mem_cons, not_or] at h
    rw [noTop, ih h.2]
    simp [Ne.symm h.1]

theorem splitTop_clause {w : String} {depth : Nat} {toks : List Token} (h : noTop w depth toks = true)
    : splitTop w depth (clause depth toks) = [clause depth toks] := by
  induction toks generalizing depth with
  | nil => rfl
  | cons tok toks ih =>
    rw [clause]
    split
    . rfl
    . next hgo =>
      rw [noTop, if_neg (fun hand => hgo ⟨hand.1, .inl hand.2⟩), Bool.and_eq_true, Bool.not_eq_true',
        Bool.and_eq_false_iff] at h
      have hword : ¬ (depth = 0 ∧ tok = .word w) := by
        rintro ⟨hzero, rfl⟩
        simp [hzero] at h
      rw [splitTop, if_neg hword, ih h.2]

/--
A token that neither nests nor ends a condition.
-/
structure Token.Plain (tok : Token) : Prop where
  nesting : nesting 0 tok = 0
  goesOn : ¬ (tok = .punct ')' ∨ tok.endsClause = true)

instance (tok : Token) : Decidable tok.Plain :=
  decidable_of_iff (Sql.nesting 0 tok = 0 ∧ ¬ (tok = .punct ')' ∨ tok.endsClause = true))
    ⟨fun h => ⟨h.1, h.2⟩, fun h => ⟨h.nesting, h.goesOn⟩⟩

theorem clause_append {s : List Token} (h : ∀ tok ∈ s, tok.Plain) (t : List Token)
    : clause 0 (s ++ t) = s ++ clause 0 t := by
  induction s with
  | nil => rfl
  | cons tok s ih =>
    rw [List.forall_mem_cons] at h
    rw [List.cons_append, clause, if_neg (fun hand => h.1.goesOn hand.2), h.1.nesting, ih h.2]
    rfl

theorem splitTop_append {w : String} {s : List Token} (h : ∀ tok ∈ s, nesting 0 tok = 0 ∧ tok ≠ .word w)
    (t : List Token) : splitTop w 0 (s ++ .word w :: t) = s :: splitTop w 0 t := by
  induction s with
  | nil => simp [splitTop]
  | cons tok s ih =>
    rw [List.forall_mem_cons] at h
    rw [List.cons_append, splitTop, if_neg (fun hand => h.1.2 hand.2), h.1.1, ih h.2]

/--
A condition that starts with a part and `AND` and has no `OR` outside of its parentheses.
-/
theorem conjoined_clause {conj toks : List Token} (hplain : ∀ tok ∈ conj, tok.Plain ∧ tok ≠ .word "and")
    (hor : noTop "or" 0 (conj ++ .word "and" :: toks) = true)
    : Conjoined conj (clause 0 (conj ++ .word "and" :: toks)) := by
  refine ⟨splitTop_clause hor, ?_⟩
  rw [clause_append (fun tok htok => (hplain tok htok).1)]
  have hand : clause 0 (.word "and" :: toks) = .word "and" :: clause 0 toks := by
    simp [clause, Token.endsClause, nesting]
  rw [hand, splitTop_append (fun tok htok => ⟨(hplain tok htok).1.nesting, (hplain tok htok).2⟩)]
  apply List.mem_cons_self

/-! The places where a table is read -/

section

variable {schema table : String}

theorem scansOf_append {s : List Token} (h : ∀ tok ∈ s, tok.names schema = false) (t : List Token)
    : scansOf schema table (s ++ t) = scansOf schema table t := by
  induction s with
  | nil => rfl
  | cons tok s ih =>
    rw [List.forall_mem_cons] at h
    rw [List.cons_append, scansOf, h.1, ih h.2]
    simp

theorem scansOf_eq_nil {s : List Token} (h : ∀ tok ∈ s, tok.names schema = false)
    : scansOf schema table s = [] := by
  have := @scansOf_append schema table s h []
  simpa [scansOf] using this

theorem scansOf_where (toks : List Token)
    : scansOf schema table (.word schema :: .punct '.' :: .word table :: .word "where" :: toks)
        =
      some (clause 0 toks) :: scansOf schema table (.word "where" :: toks) := by
  simp [scansOf, Token.names, conditionOf]

end

end Sql
