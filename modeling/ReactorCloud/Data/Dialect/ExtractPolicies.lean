import ReactorCloud.Data.Dialect.PolicyText

/-!
This module proves when a migration is divided into its ordinary statements and its policies.
-/

namespace Reactor.Data.Dialect

open Rust.Str

section

variable {U : Unicode}

theorem Keyword.takeWhile_word {keyword : String} (k : Keyword keyword) (gap : Gap) (s : List Char)
    : splitWord (k.text ++ (gap.text ++ s)) = (k.text, gap.text.tail ++ s) := by
  have hchars : ∀ c ∈ k.text, (!isWhitespace c) = true := by
    intro c hc
    rw [isAlpha_not_whitespace (k.alpha c hc)]
    rfl
  have hgap : ∀ c ∈ (gap.text ++ s).head?, (!isWhitespace c) = false := by
    intro c hc
    cases hgap : gap.text with
    | nil => exact absurd hgap gap.ne_nil
    | cons d ds =>
      simp only [hgap, List.cons_append, List.head?_cons, Option.mem_def, Option.some.injEq] at hc
      subst hc
      simp [gap.blank d (hgap ▸ List.mem_cons_self)]
  unfold splitWord
  simp only [takeWhile_append hchars hgap, dropWhile_append hchars hgap]
  cases hgap : gap.text with
  | nil => exact absurd hgap gap.ne_nil
  | cons d ds => rfl

theorem Gap.not_ident (gap : Gap) (s : List Char)
    : ∀ c ∈ (gap.text ++ s).head?, isIdentChar U c = false := by
  intro c hc
  cases hgap : gap.text with
  | nil => exact absurd hgap gap.ne_nil
  | cons d ds =>
    simp only [hgap, List.cons_append, List.head?_cons, Option.mem_def, Option.some.injEq] at hc
    subst hc
    exact isIdentChar_of_whitespace (gap.blank d (hgap ▸ List.mem_cons_self))

theorem scopesText_length (scopes : List ({ s // Blank s } × { s // Blank s } × ScopeText))
    : scopes.length ≤ (scopesText scopes).length := by
  induction scopes with
  | nil => exact Nat.le_refl 0
  | cons more scopes ih =>
    simp only [scopesText, List.length_append, List.length_cons]
    omega

/-! Semicolons -/

theorem isAlpha_ne {c d : Char} (h : c.isAlpha = true) (hd : d.isAlpha = false) : c ≠ d := by
  intro heq
  rw [heq, hd] at h
  cases h

theorem whitespace_ne {c d : Char} (h : isWhitespace c = true) (hd : isWhitespace d = false) : c ≠ d := by
  intro heq
  rw [heq, hd] at h
  cases h

theorem isIdentChar_ne {c d : Char} (h : isIdentChar U c = true) (hd : isIdentChar U d = false)
    : c ≠ d := by
  intro heq
  rw [heq, hd] at h
  cases h

theorem isIdentChar_semicolon : isIdentChar U ';' = false :=
  isIdentChar_eq_false (by decide) (by decide) (by decide)

def NoSemicolon (s : List Char) : Prop :=
  ∀ c ∈ s, c ≠ ';'

theorem NoSemicolon.append {s t : List Char} (hs : NoSemicolon s) (ht : NoSemicolon t)
    : NoSemicolon (s ++ t) := by
  intro c hc
  rw [List.mem_append] at hc
  exact hc.elim (hs c) (ht c)

theorem Keyword.noSemicolon {keyword : String} (k : Keyword keyword) : NoSemicolon k.text :=
  fun c hc => isAlpha_ne (k.alpha c hc) (by decide)

theorem Ident.noSemicolon (ident : Ident U) : NoSemicolon ident.text :=
  fun c hc => isIdentChar_ne (ident.chars c hc) isIdentChar_semicolon

theorem noSemicolon_of_blank {s : List Char} (h : Blank s) : NoSemicolon s :=
  fun c hc => whitespace_ne (h c hc) (by decide)

theorem Clause.noSemicolon {keyword : String} (c : Clause keyword) (h : Plain c.expr)
    : NoSemicolon c.text := by
  apply c.word.noSemicolon.append
  apply (noSemicolon_of_blank c.gap.property).append
  have hexpr : NoSemicolon c.expr := fun d hd => (h.1 d hd).2
  have hopen : NoSemicolon ['('] := by simp [NoSemicolon]
  have hclose : NoSemicolon [')'] := by simp [NoSemicolon]
  exact hopen.append (hexpr.append hclose)

theorem scopesText_noSemicolon (scopes : List ({ s // Blank s } × { s // Blank s } × ScopeText))
    : NoSemicolon (scopesText scopes) := by
  induction scopes with
  | nil => simp [NoSemicolon, scopesText]
  | cons more scopes ih =>
    have hcomma : NoSemicolon [','] := by simp [NoSemicolon]
    apply (noSemicolon_of_blank more.1.property).append
    apply hcomma.append
    apply (noSemicolon_of_blank more.2.1.property).append
    exact more.2.2.word.noSemicolon.append ih

theorem Clauses.noSemicolon (clauses : Clauses) (h : ∀ expr ∈ clauses.exprs, Plain expr)
    : NoSemicolon clauses.text := by
  cases clauses with
  | none => simp [NoSemicolon, Clauses.text]
  | usingOnly gap c =>
    apply (noSemicolon_of_blank gap.blank).append
    exact c.noSemicolon (h c.expr (by simp [Clauses.exprs]))
  | checkOnly gap c =>
    apply (noSemicolon_of_blank gap.blank).append
    exact c.noSemicolon (h c.expr (by simp [Clauses.exprs]))
  | both gap c gap' c' =>
    apply (noSemicolon_of_blank gap.blank).append
    apply (c.noSemicolon (h c.expr (by simp [Clauses.exprs]))).append
    apply (noSemicolon_of_blank gap'.property).append
    exact c'.noSemicolon (h c'.expr (by simp [Clauses.exprs]))

theorem PolicyText.noSemicolon (p : PolicyText U) (h : ∀ expr ∈ p.clauses.exprs, Plain expr)
    : NoSemicolon (p.gapName.text ++ ((p.name.text ++ p.afterName) ++ p.gapEnd.val)) := by
  apply (noSemicolon_of_blank p.gapName.blank).append
  refine NoSemicolon.append (p.name.noSemicolon.append ?_) (noSemicolon_of_blank p.gapEnd.property)
  apply (noSemicolon_of_blank p.gapOn.blank).append
  apply p.on.noSemicolon.append
  apply (noSemicolon_of_blank p.gapTable.blank).append
  apply p.table.noSemicolon.append
  apply (noSemicolon_of_blank p.gapFor.blank).append
  apply p.forWord.noSemicolon.append
  apply (noSemicolon_of_blank p.gapScopes.blank).append
  apply p.scope.word.noSemicolon.append
  exact (scopesText_noSemicolon p.moreScopes).append (p.clauses.noSemicolon h)

theorem trimEndSemicolons_append {s : List Char} (h : ∀ c ∈ s.getLast?, c ≠ ';') (n : Nat)
    : trimEndSemicolons (s ++ List.replicate n ';') = s := by
  unfold trimEndSemicolons
  rw [List.reverse_append, List.reverse_replicate, dropWhile_append, List.reverse_reverse]
  . intro c hc
    simp [(List.mem_replicate.mp hc).2]
  . intro c hc
    rw [List.head?_reverse] at hc
    simp [h c hc]

theorem Clauses.trimmed_head (clauses : Clauses) : ∀ c ∈ clauses.trimmed.head?, c.isAlpha = true := by
  have hclause {keyword : String} (c : Clause keyword) (s : List Char)
      : ∀ d ∈ (c.text ++ s).head?, d.isAlpha = true := by
    intro d hd
    rw [Clause.text, List.append_assoc, List.head?_append_of_ne_nil _ c.word.ne_nil] at hd
    exact c.word.alpha d (List.mem_of_mem_head? hd)
  cases clauses with
  | none => simp [Clauses.trimmed]
  | usingOnly gap c => simpa [Clauses.trimmed] using hclause c []
  | checkOnly gap c => simpa [Clauses.trimmed] using hclause c []
  | both gap c gap' c' => exact hclause c _

theorem Clauses.not_ident (clauses : Clauses) : ∀ c ∈ clauses.text.head?, isIdentChar U c = false := by
  cases clauses with
  | none => simp [Clauses.text]
  | usingOnly gap c => exact gap.not_ident _
  | checkOnly gap c => exact gap.not_ident _
  | both gap c gap' c' => exact gap.not_ident _

theorem Clauses.ends (clauses : Clauses) : Ends clauses.text := by
  cases clauses with
  | none => simp [Clauses.text, Ends]
  | usingOnly gap c => exact c.ends.append_of_ne_nil _ c.ne_nil
  | checkOnly gap c => exact c.ends.append_of_ne_nil _ c.ne_nil
  | both gap c gap' c' =>
    apply Ends.append_of_ne_nil
    . exact c.ends.append (c'.ends.append_of_ne_nil _ c'.ne_nil)
    . simp [c.ne_nil]

namespace PolicyText

variable (p : PolicyText U)

/--
`afterFor` with another text for the clauses.
-/
def afterForWith (tail : List Char) : List Char :=
  p.scope.word.text ++ (scopesText p.moreScopes ++ tail)

def afterTableWith (tail : List Char) : List Char :=
  p.gapFor.text ++ (p.forWord.text ++ (p.gapScopes.text ++ p.afterForWith tail))

def afterNameWith (tail : List Char) : List Char :=
  p.gapOn.text ++ (p.on.text ++ (p.gapTable.text ++ (p.table.text ++ p.afterTableWith tail)))

def textWith (tail : List Char) : List Char :=
  p.policy.text ++ (p.gapName.text ++ ((p.name.text ++ p.afterNameWith tail) ++ p.gapEnd.val))

/--
The words `on` and `for` are followed by a space, other white space is an error.
-/
def Spaced : Prop :=
  p.gapTable.text.head? = some ' ' ∧ p.gapScopes.text.head? = some ' '

instance : Decidable p.Spaced :=
  inferInstanceAs (Decidable (_ ∧ _))

theorem ends_afterFor {tail : List Char} (htail : Ends tail) : Ends (p.afterForWith tail) :=
  ends_scopes p.scope p.moreScopes htail

theorem starts_afterFor (tail : List Char) : Starts (p.afterForWith tail) :=
  p.scope.word.starts.append p.scope.word.ne_nil

theorem afterFor_ne_nil (tail : List Char) : p.afterForWith tail ≠ [] := by
  simp [afterForWith, p.scope.word.ne_nil]

theorem ends_afterTable {tail : List Char} (htail : Ends tail) : Ends (p.afterTableWith tail) := by
  have := (p.ends_afterFor htail).append_of_ne_nil
    (p.gapFor.text ++ (p.forWord.text ++ p.gapScopes.text)) (p.afterFor_ne_nil tail)
  simpa [afterTableWith] using this

theorem ends_afterName {tail : List Char} (htail : Ends tail) : Ends (p.afterNameWith tail) := by
  have := (p.ends_afterTable htail).append_of_ne_nil
    (p.gapOn.text ++ (p.on.text ++ (p.gapTable.text ++ p.table.text)))
    (by simp [afterTableWith, p.forWord.ne_nil])
  simpa [afterNameWith] using this

/--
The text without the white space at its end.
-/
def core (tail : List Char) : List Char :=
  p.policy.text ++ (p.gapName.text ++ (p.name.text ++ p.afterNameWith tail))

theorem textWith_eq (tail : List Char) : p.textWith tail = p.core tail ++ p.gapEnd.val := by
  simp [textWith, core]

theorem starts_core (tail : List Char) : Starts (p.core tail) :=
  p.policy.starts.append p.policy.ne_nil

theorem core_eq (tail : List Char)
    : ∃ s, p.core tail = s ++ (p.scope.word.text ++ (scopesText p.moreScopes ++ tail)) := by
  refine ⟨p.policy.text ++ (p.gapName.text ++ (p.name.text ++ (p.gapOn.text ++ (p.on.text
    ++ (p.gapTable.text ++ (p.table.text ++ (p.gapFor.text ++ (p.forWord.text
    ++ p.gapScopes.text)))))))), ?_⟩
  simp [core, afterNameWith, afterTableWith, afterForWith]

theorem ends_core {tail : List Char} (htail : Ends tail) : Ends (p.core tail) := by
  have ⟨s, hs⟩ := p.core_eq tail
  rw [hs]
  exact (p.ends_afterFor htail).append_of_ne_nil s (p.afterFor_ne_nil tail)

theorem core_last {tail : List Char} (hlast : ∀ c ∈ tail.getLast?, c ≠ ';')
    : ∀ c ∈ (p.core tail).getLast?, c ≠ ';' := by
  have ⟨s, hs⟩ := p.core_eq tail
  have hscopes : NoSemicolon (p.scope.word.text ++ scopesText p.moreScopes) :=
    p.scope.word.noSemicolon.append (scopesText_noSemicolon p.moreScopes)
  have hne : p.scope.word.text ++ scopesText p.moreScopes ≠ [] := by simp [p.scope.word.ne_nil]
  intro c hc
  rw [hs, ← List.append_assoc, ← List.append_assoc, List.getLast?_append] at hc
  cases htail : tail.getLast? with
  | some d =>
    rw [htail] at hc
    exact hlast c (htail ▸ hc)
  | none =>
    rw [htail, Option.none_or, List.append_assoc, List.getLast?_append_of_ne_nil _ hne] at hc
    exact hscopes c (List.mem_of_getLast? hc)

/--
The text of a statement with its semicolons, trimmed as the parser does.
-/
theorem trimChars_textWith {tail : List Char} (hends : Ends tail)
    (hlast : ∀ c ∈ tail.getLast?, c ≠ ';') (n : Nat)
    : trimChars (trimEndSemicolons (trimChars (p.textWith tail ++ List.replicate n ';')))
        =
      p.core tail := by
  have htight := trimChars_eq (p.starts_core tail) (p.ends_core hends)
  have htrim : trimChars (p.textWith tail) = p.core tail := by
    have hstart := @trimStart_append [] (p.core tail ++ p.gapEnd.val) (by simp [Blank])
      ((p.starts_core tail).append (by simp [core, p.policy.ne_nil]))
    unfold trimChars
    rw [p.textWith_eq, ← List.nil_append (p.core tail ++ p.gapEnd.val), hstart]
    exact trimEnd_append p.gapEnd.property (p.ends_core hends)
  cases n with
  | zero =>
    have hsemicolons := trimEndSemicolons_append (p.core_last hlast) 0
    rw [List.replicate_zero, List.append_nil] at hsemicolons ⊢
    rw [htrim, hsemicolons, htight]
  | succ n =>
    have hsemicolons : Ends (List.replicate (n + 1) ';') := by
      intro c hc
      simp [(List.mem_replicate.mp (List.mem_of_getLast? hc)).2, isWhitespace]
    have hwhole : trimChars (p.textWith tail ++ List.replicate (n + 1) ';')
        = p.textWith tail ++ List.replicate (n + 1) ';' := by
      apply trimChars_eq
      . rw [p.textWith_eq, List.append_assoc]
        exact (p.starts_core tail).append (by simp [core, p.policy.ne_nil])
      . exact hsemicolons.append_of_ne_nil _ (by simp)
    have hlast' : ∀ c ∈ (p.textWith tail).getLast?, c ≠ ';' := by
      intro c hc
      rw [p.textWith_eq, List.getLast?_append] at hc
      cases hgap : p.gapEnd.val.getLast? with
      | some d =>
        rw [hgap] at hc
        exact noSemicolon_of_blank p.gapEnd.property c (List.mem_of_getLast? (hgap ▸ hc))
      | none =>
        rw [hgap] at hc
        exact p.core_last hlast c hc
    rw [hwhole, trimEndSemicolons_append hlast', htrim]

end PolicyText

theorem parseScopes_afterFor (p : PolicyText U) {tail rest : List Char}
    (hident : ∀ c ∈ tail.head?, isIdentChar U c = false) (hends : Ends tail)
    (htrim : trimChars tail = rest) (hcomma : ∀ c ∈ rest.head?, c ≠ ',')
    : parseScopes U ((p.afterForWith tail).length + 1) (p.afterForWith tail)
        =
      .ok (p.value.scopes, rest) := by
  have hnil : Blank [] := by simp [Blank]
  apply parseScopes_spec p.scope p.moreScopes hnil hident hends htrim hcomma
  have := scopesText_length p.moreScopes
  simp only [PolicyText.afterForWith, List.length_append]
  omega

/--
The words before the clauses are read, or their spelling is rejected.
-/
theorem parsePolicyStmt_head (p : PolicyText U) {tail rest : List Char}
    (hident : ∀ c ∈ tail.head?, isIdentChar U c = false) (hends : Ends tail)
    (htrim : trimChars tail = rest) (hcomma : ∀ c ∈ rest.head?, c ≠ ',')
    (hlast : ∀ c ∈ tail.getLast?, c ≠ ';') (n : Nat)
    : (p.Spaced
        →
      parsePolicyStmt U (p.textWith tail ++ List.replicate n ';')
        =
      (parseUsingCheck rest).map
        (fun (u, c, _) => { p.value with usingExpr := u, checkExpr := c }))
        ∧
      (¬ p.Spaced → ∃ e, parsePolicyStmt U (p.textWith tail ++ List.replicate n ';') = .error (.error e))
        := by
  have hnil : Blank [] := by simp [Blank]
  have hblank : Blank p.gapName.text.tail :=
    fun c hc => p.gapName.blank c (List.mem_of_mem_tail hc)
  have hafterName := trimChars_append hblank (p.name.starts.append p.name.ne_nil)
    (p.name.ends.append (p.ends_afterName hends))
  have hword : isPolicyWord p.policy.text = true := by simp [isPolicyWord, p.policy.map_lowerChar]
  have hname : parseIdentifier U (p.name.text ++ p.afterNameWith tail)
      = .ok (p.name.text, p.afterNameWith tail) :=
    parseIdentifier_append p.name hnil (p.gapOn.not_ident _) (p.ends_afterName hends)
  have htable : parseIdentifier U (p.table.text ++ p.afterTableWith tail)
      = .ok (p.table.text, p.afterTableWith tail) :=
    parseIdentifier_append p.table hnil (p.gapFor.not_ident _) (p.ends_afterTable hends)
  have hon : expectWord "on " "expected 'on'" (p.afterNameWith tail)
      = if p.gapTable.text.head? = some ' ' then .ok (p.table.text ++ p.afterTableWith tail)
        else invalidSyntax "expected 'on'" :=
    expectWord_spec p.on rfl p.gapOn.blank p.gapTable (p.table.starts.append p.table.ne_nil)
      (p.table.ends.append (p.ends_afterTable hends)) (by simp [p.table.ne_nil])
  have hfor : expectWord "for " "expected 'for'" (p.afterTableWith tail)
      = if p.gapScopes.text.head? = some ' ' then .ok (p.afterForWith tail)
        else invalidSyntax "expected 'for'" :=
    expectWord_spec p.forWord rfl p.gapFor.blank p.gapScopes (p.starts_afterFor tail)
      (p.ends_afterFor hends) (p.afterFor_ne_nil tail)
  have hscopes := parseScopes_afterFor p hident hends htrim hcomma
  have htight := trimChars_eq (p.starts_afterFor tail) (p.ends_afterFor hends)
  unfold parsePolicyStmt
  simp only [p.trimChars_textWith hends hlast n, PolicyText.core, p.policy.takeWhile_word, hword,
    hafterName, hname, Bool.not_true, Bool.false_eq_true, if_false, bind, Except.bind, hon]
  constructor
  . intro hspaced
    simp only [hspaced.1, if_true, htable, hfor, hspaced.2, htight, hscopes]
    cases parseUsingCheck rest <;> rfl
  . intro hspaced
    by_cases htab : p.gapTable.text.head? = some ' '
    . have hscope : p.gapScopes.text.head? ≠ some ' ' := fun h => hspaced ⟨htab, h⟩
      simp only [htab, if_true, htable, hfor, hscope, if_false, invalidSyntax]
      exact ⟨_, rfl⟩
    . simp only [htab, if_false, invalidSyntax]
      exact ⟨_, rfl⟩

/--
The parser reads the statement or rejects its spelling.
-/
theorem parsePolicyStmt_spec (p : PolicyText U) (h : ∀ expr ∈ p.clauses.exprs, Plain expr)
    : parsePolicyStmt U (p.text ++ [';']) = .ok p.value
        ∨ ∃ e, parsePolicyStmt U (p.text ++ [';']) = .error (.error e) := by
  have hcomma : ∀ c ∈ p.clauses.trimmed.head?, c ≠ ',' :=
    fun c hc => isAlpha_ne (p.clauses.trimmed_head c hc) (by decide)
  have hlast : ∀ c ∈ p.clauses.text.getLast?, c ≠ ';' :=
    fun c hc => p.clauses.noSemicolon h c (List.mem_of_getLast? hc)
  have hhead := parsePolicyStmt_head p p.clauses.not_ident p.clauses.ends
    (trimChars_clauses p.clauses) hcomma hlast 1
  by_cases hspaced : p.Spaced
  . left
    have hparse := hhead.1 hspaced
    rw [parseUsingCheck_spec p.clauses h] at hparse
    exact hparse
  . right
    exact hhead.2 hspaced

end

section

variable (U : Unicode)

/--
A piece of a migration: ordinary text with its semicolons, or a policy statement with or without the
semicolon that ends it.
-/
inductive Item where
  | sql (text : List Char)
  | policy (p : PolicyText U) (terminated : Bool)

variable {U}

def Item.text : Item U → List Char
  | .sql text => text
  | .policy p terminated => p.text ++ (if terminated then [';'] else [])

def migrationText (items : List (Item U)) : List Char :=
  items.flatMap Item.text

def ordinaryText (items : List (Item U)) : List Char :=
  items.flatMap (fun
    | .sql text => text
    | .policy .. => [])

def policyStmts (items : List (Item U)) : List PolicyStmt :=
  items.filterMap (fun
    | .sql _ => none
    | .policy p _ => some p.value)

/--
No ordinary text runs into what follows it.
-/
def Separated : List (Item U) → Prop
  | .sql text :: item :: items =>
    (∀ c ∈ text.getLast?, isIdentChar U c = false) ∧ Separated (item :: items)
  | .policy _ _ :: items => Separated items
  | _ => True

variable (U)

/--
The words of a text. A word starts with a letter, digits and underscores before it are no part of it.
-/
def words (word : List Char) : List Char → List (List Char)
  | [] => [word]
  | c :: cs =>
    if isIdentChar U c then
      if word.isEmpty && !U.isAlphabetic c then words [] cs else words (word ++ [c]) cs
    else
      word :: words [] cs

variable {U}

/--
Ordinary text has no word `policy`, also not in its literals and comments, and policies end with a
semicolon and have plain expressions.
-/
def Item.Clean : Item U → Prop
  | .sql text => ∀ word ∈ words U [] text, isPolicyWord word = false
  | .policy p terminated => terminated = true ∧ ∀ expr ∈ p.clauses.exprs, Plain expr

/--
The result after ordinary text.
-/
def prepend (text : List Char) (x : Except Failure (List Char × List PolicyStmt))
    : Except Failure (List Char × List PolicyStmt) :=
  x.map (fun (sql, policies) => (text ++ sql, policies))

@[simp]
theorem prepend_nil (x : Except Failure (List Char × List PolicyStmt)) : prepend [] x = x := by
  cases x <;> rfl

theorem prepend_cons (c : Char) (text : List Char) (x : Except Failure (List Char × List PolicyStmt))
    : (prepend text x).bind (fun (sql, policies) => .ok (c :: sql, policies)) = prepend (c :: text) x := by
  cases x <;> rfl

def wordMode (word : List Char) : ScanMode :=
  if word.isEmpty then .sql else .word word

theorem scanPolicies_sql {text rest word : List Char} (hword : ∀ c ∈ word, isIdentChar U c = true)
    (h : ∀ w ∈ words U word text, isPolicyWord w = false)
    (hends : rest = [] ∨ ∀ c ∈ (word ++ text).getLast?, isIdentChar U c = false)
    : scanPolicies U (wordMode word) (text ++ rest) = prepend (word ++ text) (scanPolicies U .sql rest) := by
  induction text generalizing word with
  | nil =>
    cases word with
    | nil => simp [wordMode]
    | cons d ds =>
      cases hends with
      | inl hnil =>
        have hpolicy := h (d :: ds) (by simp [words])
        simp [hnil, wordMode, scanPolicies, hpolicy, prepend, Except.map]
      | inr hends =>
        have hlast := List.getLast_mem (List.cons_ne_nil d ds)
        have := hends _ (by rw [List.append_nil]; exact List.getLast?_eq_some_getLast (List.cons_ne_nil d ds))
        rw [hword _ hlast] at this
        cases this
  | cons c cs ih =>
    have hends' : rest = [] ∨ ∀ d ∈ cs.getLast?, isIdentChar U d = false := by
      apply hends.imp_right
      intro hends d hd
      apply hends d
      rw [List.getLast?_append, List.getLast?_cons, hd]
      rfl
    have hrest (h : ∀ w ∈ words U [] cs, isPolicyWord w = false)
        : scanPolicies U .sql (cs ++ rest) = prepend cs (scanPolicies U .sql rest) :=
      ih (by simp) h hends'
    cases word with
    | nil =>
      simp only [wordMode, List.isEmpty_nil, if_true, List.cons_append, scanPolicies, List.nil_append]
      by_cases halpha : U.isAlphabetic c = true
      . have hident : isIdentChar U c = true := by simp [isIdentChar, halpha]
        simp only [words, hident, halpha, if_true, Bool.not_true, Bool.and_false, Bool.false_eq_true,
          if_false, List.nil_append] at h ⊢
        exact ih (by simpa using hident) h (by simpa using hends)
      . rw [Bool.not_eq_true] at halpha
        have hwords : ∀ w ∈ words U [] cs, isPolicyWord w = false := by
          intro w hw
          apply h
          simp only [words, halpha]
          split
          . exact hw
          . exact List.mem_cons_of_mem _ hw
        simp only [halpha, Bool.false_eq_true, if_false, hrest hwords]
        exact prepend_cons c cs _
    | cons d ds =>
      simp only [wordMode, List.isEmpty_cons, Bool.false_eq_true, if_false, List.cons_append, scanPolicies]
      by_cases hident : isIdentChar U c = true
      . simp only [words, hident, if_true, List.isEmpty_cons, Bool.false_and, Bool.false_eq_true,
          if_false] at h ⊢
        have := @ih (d :: ds ++ [c]) (by
          intro e he
          rw [List.mem_append, List.mem_singleton] at he
          exact he.elim (hword e) (fun heq => heq ▸ hident)) h (by simpa using hends)
        simpa [wordMode] using this
      . have hpolicy := h (d :: ds) (by simp [words, hident])
        have hwords : ∀ w ∈ words U [] cs, isPolicyWord w = false := by
          intro w hw
          apply h
          simp [words, hident, hw]
        simp only [hident, hpolicy, Bool.false_eq_true, if_false, hrest hwords]
        cases scanPolicies U .sql rest with
        | error e => rfl
        | ok result => simp [prepend, Except.map, bind, Except.bind]

theorem scanPolicies_word {w rest word : List Char} (h : ∀ c ∈ w, isIdentChar U c = true)
    : scanPolicies U (.word word) (w ++ rest) = scanPolicies U (.word (word ++ w)) rest := by
  induction w generalizing word with
  | nil => simp
  | cons c w ih =>
    rw [List.forall_mem_cons] at h
    simp only [List.cons_append, scanPolicies, h.1, if_true, ih h.2]
    simp

/--
The scanner after a policy statement of which `text` are all characters before the semicolon.
-/
def afterPolicy (U : Unicode) (text rest : List Char) : Except Failure (List Char × List PolicyStmt) :=
  (parsePolicyStmt U (text ++ [';'])).bind (fun policy =>
    (scanPolicies U .sql rest).map (fun (sql, policies) => (sql, policy :: policies)))

theorem scanPolicies_policy {s rest text : List Char} (h : NoSemicolon s)
    : scanPolicies U (.policy text) (s ++ ';' :: rest) = afterPolicy U (text ++ s) rest := by
  induction s generalizing text with
  | nil =>
    simp only [List.nil_append, scanPolicies, if_true, List.append_nil, afterPolicy]
    cases parsePolicyStmt U (text ++ [';']) with
    | error e => rfl
    | ok policy => cases scanPolicies U .sql rest <;> rfl
  | cons c s ih =>
    have hc : c ≠ ';' := h c List.mem_cons_self
    simp only [List.cons_append, scanPolicies, hc, if_false, ih (fun d hd => h d (List.mem_cons_of_mem c hd))]
    simp

theorem scanPolicies_policyText (p : PolicyText U) (rest : List Char)
    (h : ∀ expr ∈ p.clauses.exprs, Plain expr)
    : scanPolicies U .sql (p.text ++ ';' :: rest) = afterPolicy U p.text rest := by
  have hsemicolon := p.noSemicolon h
  have hpolicy : isPolicyWord p.policy.text = true := by simp [isPolicyWord, p.policy.map_lowerChar]
  have halpha := p.policy.alpha
  unfold PolicyText.text
  cases hword : p.policy.text with
  | nil => exact absurd hword p.policy.ne_nil
  | cons c cs =>
    rw [hword] at hpolicy halpha
    rw [List.forall_mem_cons] at halpha
    have hc : U.isAlphabetic c = true := by
      rw [U.alphabetic_ascii c (isAlpha_ascii halpha.1)]
      exact halpha.1
    have hcs : ∀ d ∈ cs, isIdentChar U d = true := fun d hd => isIdentChar_of_isAlpha (halpha.2 d hd)
    cases hgap : p.gapName.text with
    | nil => exact absurd hgap p.gapName.ne_nil
    | cons d ds =>
      have hspace : isWhitespace d = true := p.gapName.blank d (hgap ▸ List.mem_cons_self)
      have hd : isIdentChar U d = false := isIdentChar_of_whitespace hspace
      have hd' : d ≠ ';' := whitespace_ne hspace (by decide)
      have hrest : NoSemicolon (ds ++ ((p.name.text ++ p.afterName) ++ p.gapEnd.val)) := by
        intro e he
        apply hsemicolon e
        rw [hgap]
        exact List.mem_cons_of_mem d he
      have hscan := @scanPolicies_policy U _ rest (c :: cs ++ [d]) hrest
      simp only [List.cons_append, List.append_assoc, scanPolicies, hc, if_true, scanPolicies_word hcs,
        List.nil_append, hd, hpolicy, hd', Bool.false_eq_true, if_false] at hscan ⊢
      simpa using hscan

/--
The migration is rejected or divided into its ordinary text and its policies.
-/
def Divided (U : Unicode) (items : List (Item U)) : Prop :=
  (∃ e, extractPolicies U (migrationText items) = .error (.error e))
    ∨ extractPolicies U (migrationText items) = .ok (ordinaryText items, policyStmts items)

end

def blank : Gap where
  text := [' ']
  blank := by simp [Blank, isWhitespace]
  ne_nil := by simp

def selectScope : ScopeText where
  scope := .select
  word := ⟨"select".toList, by decide, List.all_eq_true.mp (by decide), by decide⟩

/--
`policy owner on todos for select using (user_id = auth.user_id())`
-/
def ownerPolicy : PolicyText Unicode.ascii where
  policy := ⟨"policy".toList, by decide, List.all_eq_true.mp (by decide), by decide⟩
  gapName := blank
  name := ⟨"owner".toList, List.all_eq_true.mp (by decide), by decide⟩
  gapOn := blank
  on := ⟨"on".toList, by decide, List.all_eq_true.mp (by decide), by decide⟩
  gapTable := blank
  table := ⟨"todos".toList, List.all_eq_true.mp (by decide), by decide⟩
  gapFor := blank
  forWord := ⟨"for".toList, by decide, List.all_eq_true.mp (by decide), by decide⟩
  gapScopes := blank
  scope := selectScope
  moreScopes := []
  clauses := .usingOnly blank {
    word := ⟨"using".toList, by decide, List.all_eq_true.mp (by decide), by decide⟩
    gap := ⟨[' '], blank.blank⟩
    expr := "user_id = auth.user_id()".toList
  }
  gapEnd := ⟨[], by simp [Blank]⟩

/--
`using (...)` and `check (...)` with given expressions.
-/
def bothClauses (usingExpr checkExpr : String) : Clauses :=
  .both blank
    {
      word := ⟨"using".toList, by decide, List.all_eq_true.mp (by decide), by decide⟩
      gap := ⟨[' '], blank.blank⟩
      expr := usingExpr.toList
    }
    ⟨[' '], blank.blank⟩
    {
      word := ⟨"check".toList, by decide, List.all_eq_true.mp (by decide), by decide⟩
      gap := ⟨[' '], blank.blank⟩
      expr := checkExpr.toList
    }

end Reactor.Data.Dialect
