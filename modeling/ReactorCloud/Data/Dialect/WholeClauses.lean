import ReactorCloud.Data.Dialect.ExtractPolicies

/-!
This module proves when the parser of policy statements keeps the clauses of a statement as they are.
-/

namespace Reactor.Data.Dialect

open Rust.Str

/--
Whether the parentheses of a text match outside of its string literals.
-/
def balancedOutside (depth : Nat) (quoted : Bool) : List Char → Bool
  | [] => depth = 0 && !quoted
  | c :: cs =>
    if c = '\'' then
      balancedOutside depth (!quoted) cs
    else if quoted then
      balancedOutside depth quoted cs
    else if c = '(' then
      balancedOutside (depth + 1) quoted cs
    else if c = ')' then
      0 < depth && balancedOutside (depth - 1) quoted cs
    else
      balancedOutside depth quoted cs

inductive ClauseOrder where
  | usingFirst
  | checkFirst

/--
The parser finds the end of the expression or no end at all.
-/
def Ended (expr rest : List Char) : Prop :=
  Unclosed expr rest ∨ Counted expr rest

namespace Clauses

def textIn (order : ClauseOrder) : Clauses → List Char
  | .both gap c gap' c' =>
    match order with
    | .usingFirst => gap.text ++ (c.text ++ (gap'.val ++ c'.text))
    | .checkFirst => gap.text ++ (c'.text ++ (gap'.val ++ c.text))
  | clauses => clauses.text

def trimmedIn (order : ClauseOrder) : Clauses → List Char
  | .both _ c gap' c' =>
    match order with
    | .usingFirst => c.text ++ (gap'.val ++ c'.text)
    | .checkFirst => c'.text ++ (gap'.val ++ c.text)
  | clauses => clauses.trimmed

/--
The parser finds the end of every expression, or of the first one that has another end no end at all.
After `check` it does not look for `using`.
-/
def Kept (order : ClauseOrder) : Clauses → Prop
  | .none => True
  | .usingOnly _ c => Ended c.expr []
  | .checkOnly _ c => Ended c.expr []
  | .both _ c gap c' =>
    match order with
    | .usingFirst =>
      Unclosed c.expr (gap.val ++ c'.text)
        ∨ (Counted c.expr (gap.val ++ c'.text) ∧ Ended c'.expr [])
    | .checkFirst => Unclosed c'.expr (gap.val ++ c.text)

end Clauses

section

variable {U : Unicode}

/--
The statement is rejected or read with its clauses.
-/
def KeepsClauses (p : PolicyText U) (order : ClauseOrder) (semicolons : Nat) : Prop :=
  (∃ e, parsePolicyStmt U
      (p.textWith (p.clauses.textIn order) ++ List.replicate semicolons ';') = .error (.error e))
    ∨ parsePolicyStmt U (p.textWith (p.clauses.textIn order) ++ List.replicate semicolons ';')
      = .ok p.value

theorem Clause.getLast_eq {keyword : String} (c : Clause keyword) : c.text.getLast? = some ')' := by
  have hsplit : c.text = (c.word.text ++ (c.gap.val ++ '(' :: c.expr)) ++ [')'] := by
    simp [Clause.text]
  rw [hsplit]
  exact List.getLast?_concat

theorem Clause.head_alpha {keyword : String} (c : Clause keyword) (s : List Char)
    : ∀ d ∈ (c.text ++ s).head?, d.isAlpha = true := by
  intro d hd
  rw [Clause.text, List.append_assoc, List.head?_append_of_ne_nil _ c.word.ne_nil] at hd
  exact c.word.alpha d (List.mem_of_mem_head? hd)

namespace Clauses

variable (clauses : Clauses) (order : ClauseOrder)

theorem textIn_not_ident : ∀ c ∈ (clauses.textIn order).head?, isIdentChar U c = false := by
  cases clauses with
  | none => exact Clauses.none.not_ident
  | usingOnly gap c => exact (Clauses.usingOnly gap c).not_ident
  | checkOnly gap c => exact (Clauses.checkOnly gap c).not_ident
  | both gap c gap' c' => cases order <;> exact gap.not_ident _

theorem textIn_ends : Ends (clauses.textIn order) := by
  cases clauses with
  | none => exact Clauses.none.ends
  | usingOnly gap c => exact (Clauses.usingOnly gap c).ends
  | checkOnly gap c => exact (Clauses.checkOnly gap c).ends
  | both gap c gap' c' =>
    cases order with
    | usingFirst => exact (Clauses.both gap c gap' c').ends
    | checkFirst =>
      apply Ends.append_of_ne_nil
      . exact c'.ends.append (c.ends.append_of_ne_nil _ c.ne_nil)
      . simp [c'.ne_nil]

theorem textIn_last : ∀ c ∈ (clauses.textIn order).getLast?, c ≠ ';' := by
  have hlast {keyword : String} (c : Clause keyword) (s : List Char)
      : ∀ d ∈ (s ++ c.text).getLast?, d ≠ ';' := by
    intro d hd
    rw [List.getLast?_append, c.getLast_eq] at hd
    cases hd
    decide
  cases clauses with
  | none => simp [textIn, text]
  | usingOnly gap c => exact hlast c _
  | checkOnly gap c => exact hlast c _
  | both gap c gap' c' =>
    cases order with
    | usingFirst => simpa [textIn] using hlast c' (gap.text ++ (c.text ++ gap'.val))
    | checkFirst => simpa [textIn] using hlast c (gap.text ++ (c'.text ++ gap'.val))

theorem trimChars_textIn : trimChars (clauses.textIn order) = clauses.trimmedIn order := by
  cases clauses with
  | none => rfl
  | usingOnly gap c => exact trimChars_clauses (.usingOnly gap c)
  | checkOnly gap c => exact trimChars_clauses (.checkOnly gap c)
  | both gap c gap' c' =>
    cases order with
    | usingFirst => exact trimChars_clauses (.both gap c gap' c')
    | checkFirst =>
      apply trimChars_append gap.blank
      . exact c'.starts.append c'.ne_nil
      . exact c'.ends.append (c.ends.append_of_ne_nil _ c.ne_nil)

theorem trimmedIn_alpha : ∀ c ∈ (clauses.trimmedIn order).head?, c.isAlpha = true := by
  cases clauses with
  | none => exact Clauses.none.trimmed_head
  | usingOnly gap c => exact (Clauses.usingOnly gap c).trimmed_head
  | checkOnly gap c => exact (Clauses.checkOnly gap c).trimmed_head
  | both gap c gap' c' =>
    cases order with
    | usingFirst => exact c.head_alpha _
    | checkFirst => exact c'.head_alpha _

theorem trimmedIn_head : ∀ c ∈ (clauses.trimmedIn order).head?, c ≠ ',' :=
  fun c hc => isAlpha_ne (clauses.trimmedIn_alpha order c hc) (by decide)

theorem trimChars_trimmedIn : trimChars (clauses.trimmedIn order) = clauses.trimmedIn order := by
  apply trimChars_eq
  . intro c hc
    exact isAlpha_not_whitespace (clauses.trimmedIn_alpha order c hc)
  . cases clauses with
    | none => simp [trimmedIn, trimmed, Ends]
    | usingOnly gap c => exact c.ends
    | checkOnly gap c => exact c.ends
    | both gap c gap' c' =>
      cases order with
      | usingFirst => exact c.ends.append (c'.ends.append_of_ne_nil _ c'.ne_nil)
      | checkFirst => exact c'.ends.append (c.ends.append_of_ne_nil _ c.ne_nil)

end Clauses

/--
The result of the two blocks when nothing of the clauses may be lost.
-/
def Exact (clauses : Clauses) (result : Except Failure (Option Expr × Option Expr × List Char)) : Prop :=
  (∃ e, result = .error (.error e)) ∨ ∃ rest, result = .ok (clauses.usingExpr, clauses.checkExpr, rest)

theorem parseClause_ended {keyword : String} (c : Clause keyword) (hkeyword : keyword.length = 5)
    (hended : Ended c.expr [])
    : parseClause keyword c.text = invalidSyntax "unmatched parentheses"
        ∨ parseClause keyword c.text = .ok (some c.value, []) := by
  have hnil : Ends [] := by simp [Ends]
  cases hended with
  | inl hunclosed =>
    left
    have hclause := parseClause_unclosed c hkeyword hunclosed hnil
    rwa [List.append_nil] at hclause
  | inr hcounted =>
    right
    have hclause := parseClause_spec c hkeyword hcounted hnil
    rwa [List.append_nil] at hclause

theorem parseUsingCheck_kept (clauses : Clauses) (order : ClauseOrder) (h : clauses.Kept order)
    : Exact clauses (parseUsingCheck (clauses.trimmedIn order)) := by
  unfold parseUsingCheck
  rw [clauses.trimChars_trimmedIn order]
  cases clauses with
  | none =>
    right
    exact ⟨_, rfl⟩
  | usingOnly gap c =>
    simp only [Clauses.trimmedIn, Clauses.trimmed]
    cases parseClause_ended c rfl h with
    | inl herror =>
      left
      rw [herror]
      exact ⟨_, rfl⟩
    | inr hok =>
      right
      rw [hok]
      exact ⟨_, rfl⟩
  | checkOnly gap c =>
    have hskip := startsWithLower_using c []
    rw [List.append_nil] at hskip
    simp only [Clauses.trimmedIn, Clauses.trimmed, parseClause_skip hskip, bind, Except.bind]
    cases parseClause_ended c rfl h with
    | inl herror =>
      left
      rw [herror]
      exact ⟨_, rfl⟩
    | inr hok =>
      right
      rw [hok]
      exact ⟨_, rfl⟩
  | both gap c gap' c' =>
    have hends : Ends (gap'.val ++ c'.text) := c'.ends.append_of_ne_nil _ c'.ne_nil
    have hends' : Ends (gap'.val ++ c.text) := c.ends.append_of_ne_nil _ c.ne_nil
    cases order with
    | checkFirst =>
      left
      have hskip := startsWithLower_using c' (gap'.val ++ c.text)
      simp only [Clauses.trimmedIn, parseClause_skip hskip, bind, Except.bind,
        parseClause_unclosed c' rfl h hends']
      exact ⟨_, rfl⟩
    | usingFirst =>
      simp only [Clauses.trimmedIn]
      cases h with
      | inl hunclosed =>
        left
        rw [parseClause_unclosed c rfl hunclosed hends]
        exact ⟨_, rfl⟩
      | inr hcounted =>
        have hclause := parseClause_spec c rfl hcounted.1 hends
        rw [trimChars_append gap'.property c'.starts c'.ends] at hclause
        simp only [hclause, bind, Except.bind]
        cases parseClause_ended c' rfl hcounted.2 with
        | inl herror =>
          left
          rw [herror]
          exact ⟨_, rfl⟩
        | inr hok =>
          right
          rw [hok]
          exact ⟨_, rfl⟩

theorem parsePolicyStmt_whole (p : PolicyText U) (order : ClauseOrder) (semicolons : Nat)
    (h : p.Spaced → p.clauses.Kept order) : KeepsClauses p order semicolons := by
  have hhead := parsePolicyStmt_head p (p.clauses.textIn_not_ident order) (p.clauses.textIn_ends order)
    (p.clauses.trimChars_textIn order) (p.clauses.trimmedIn_head order) (p.clauses.textIn_last order)
    semicolons
  by_cases hspaced : p.Spaced
  . unfold KeepsClauses
    rw [hhead.1 hspaced]
    cases parseUsingCheck_kept p.clauses order (h hspaced) with
    | inl herror =>
      have ⟨e, herror⟩ := herror
      left
      rw [herror]
      exact ⟨e, rfl⟩
    | inr hok =>
      have ⟨rest, hok⟩ := hok
      right
      rw [hok]
      rfl
  . left
    exact hhead.2 hspaced

end

/--
`policy owner on todos for select using (...) check (...)`
-/
def bothPolicy (usingExpr checkExpr : String) : PolicyText Unicode.ascii :=
  { ownerPolicy with clauses := bothClauses usingExpr checkExpr }

theorem parsePolicyStmt_whole_quoted : KeepsClauses (bothPolicy "f('()')" "a") .usingFirst 1 := by
  apply parsePolicyStmt_whole
  intro _
  right
  exact ⟨by decide, .inr (by decide)⟩

-- The clause that stands second is lost without an error.
theorem not_parsePolicyStmt_whole
    : ¬ ∀ (p : PolicyText Unicode.ascii) (order : ClauseOrder) (semicolons : Nat),
        (∀ expr ∈ p.clauses.exprs, balancedOutside 0 false expr = true) → KeepsClauses p order semicolons := by
  have hbalanced : ∀ expr ∈ (bothPolicy "a" "b").clauses.exprs, balancedOutside 0 false expr = true := by
    decide
  have hresult : (parsePolicyStmt Unicode.ascii
        ((bothPolicy "a" "b").textWith ((bothPolicy "a" "b").clauses.textIn .checkFirst)
          ++ List.replicate 1 ';')).toOption.map (fun policy => policy.usingExpr.isSome)
      = some false := by
    decide
  intro h
  cases h (bothPolicy "a" "b") .checkFirst 1 hbalanced with
  | inl herror =>
    have ⟨e, herror⟩ := herror
    rw [herror] at hresult
    cases hresult
  | inr hok =>
    rw [hok] at hresult
    cases hresult

end Reactor.Data.Dialect
