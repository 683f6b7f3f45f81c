import ReactorCloud.Data.Dialect.Parser

/-!
This module contains the texts of policy statements and proves that the parser reads a text without
non-ASCII characters, semicolons and unbalanced parentheses in its expressions as the statement that
it is, or rejects it.
-/

namespace Reactor.Data.Dialect

open Rust.Str

/--
At least one white space.
-/
structure Gap where
  text : List Char
  blank : Blank text
  ne_nil : text ≠ []

/--
A keyword in upper or lower case letters.
-/
structure Keyword (keyword : String) where
  text : List Char
  spells : text.map Char.toLower = keyword.toList
  alpha : ∀ c ∈ text, c.isAlpha = true
  ne_nil : text ≠ []

structure Ident (U : Unicode) where
  text : List Char
  chars : ∀ c ∈ text, isIdentChar U c = true
  ne_nil : text ≠ []

/--
`using (...)` or `check (...)`
-/
structure Clause (keyword : String) where
  word : Keyword keyword
  gap : { s // Blank s }
  expr : List Char

def Clause.text {keyword : String} (c : Clause keyword) : List Char :=
  c.word.text ++ (c.gap.val ++ '(' :: (c.expr ++ [')']))

def Clause.value {keyword : String} (c : Clause keyword) : Expr :=
  .raw (trim (String.ofList c.expr))

inductive Clauses where
  | none
  | usingOnly (gap : Gap) (c : Clause "using")
  | checkOnly (gap : Gap) (c : Clause "check")
  | both (gap : Gap) (c : Clause "using") (gap' : { s // Blank s }) (c' : Clause "check")

namespace Clauses

def text : Clauses → List Char
  | .none => []
  | .usingOnly gap c => gap.text ++ c.text
  | .checkOnly gap c => gap.text ++ c.text
  | .both gap c gap' c' => gap.text ++ (c.text ++ (gap'.val ++ c'.text))

def usingExpr : Clauses → Option Expr
  | .usingOnly _ c => some c.value
  | .both _ c _ _ => some c.value
  | _ => .none

def checkExpr : Clauses → Option Expr
  | .checkOnly _ c => some c.value
  | .both _ _ _ c' => some c'.value
  | _ => .none

def exprs : Clauses → List (List Char)
  | .none => []
  | .usingOnly _ c => [c.expr]
  | .checkOnly _ c => [c.expr]
  | .both _ c _ c' => [c.expr, c'.expr]

end Clauses

def scopeName : PolicyScope → String
  | .select => "select"
  | .insert => "insert"
  | .update => "update"
  | .delete => "delete"

structure ScopeText where
  scope : PolicyScope
  word : Keyword (scopeName scope)

structure PolicyText (U : Unicode) where
  policy : Keyword "policy"
  gapName : Gap
  name : Ident U
  gapOn : Gap
  on : Keyword "on"
  gapTable : Gap
  table : Ident U
  gapFor : Gap
  forWord : Keyword "for"
  gapScopes : Gap
  scope : ScopeText
  moreScopes : List ({ s // Blank s } × { s // Blank s } × ScopeText)
  clauses : Clauses
  gapEnd : { s // Blank s }

/--
The scopes after the first one.
-/
def scopesText : List ({ s // Blank s } × { s // Blank s } × ScopeText) → List Char
  | [] => []
  | (gap, gap', scope) :: scopes =>
    gap.val ++ ',' :: (gap'.val ++ (scope.word.text ++ scopesText scopes))

namespace PolicyText

variable {U : Unicode} (p : PolicyText U)

def afterFor : List Char :=
  p.scope.word.text ++ (scopesText p.moreScopes ++ p.clauses.text)

def afterTable : List Char :=
  p.gapFor.text ++ (p.forWord.text ++ (p.gapScopes.text ++ p.afterFor))

def afterName : List Char :=
  p.gapOn.text ++ (p.on.text ++ (p.gapTable.text ++ (p.table.text ++ p.afterTable)))

/--
The text of the statement up to its semicolon.
-/
def text : List Char :=
  p.policy.text ++ (p.gapName.text ++ ((p.name.text ++ p.afterName) ++ p.gapEnd.val))

def value : PolicyStmt where
  name := String.ofList p.name.text
  table := String.ofList p.table.text
  scopes := p.scope.scope :: p.moreScopes.map (·.2.2.scope)
  usingExpr := p.clauses.usingExpr
  checkExpr := p.clauses.checkExpr

end PolicyText

/--
Whether the parentheses of a text match if those in string literals count like all others.
-/
def balanced (depth : Nat) : List Char → Bool
  | [] => depth = 0
  | '(' :: cs => balanced (depth + 1) cs
  | ')' :: cs => 0 < depth && balanced (depth - 1) cs
  | _ :: cs => balanced depth cs

/--
An expression that the scanner and the parser can handle.
-/
def Plain (expr : List Char) : Prop :=
  (∀ c ∈ expr, c.toNat < 128 ∧ c ≠ ';') ∧ balanced 0 expr = true

/--
The number of bytes of a text.
-/
def byteLength (s : List Char) : Nat :=
  (s.map Char.utf8Size).sum

/--
The parenthesis before the expression is closed, by the count of the parser, after as many characters
as the expression has bytes.
-/
def Counted (expr rest : List Char) : Prop :=
  closingIndex 0 0 ('(' :: (expr ++ ')' :: rest)) = some (byteLength expr + 1)

/--
The parenthesis before the expression is never closed by the count of the parser.
-/
def Unclosed (expr rest : List Char) : Prop :=
  closingIndex 0 0 ('(' :: (expr ++ ')' :: rest)) = none

instance (expr rest : List Char) : Decidable (Counted expr rest) :=
  inferInstanceAs (Decidable (_ = _))

instance (expr rest : List Char) : Decidable (Unclosed expr rest) :=
  inferInstanceAs (Decidable (_ = _))

theorem byteLength_cons (c : Char) (s : List Char) : byteLength (c :: s) = c.utf8Size + byteLength s := by
  simp [byteLength]

theorem byteLength_append (s t : List Char) : byteLength (s ++ t) = byteLength s + byteLength t := by
  simp [byteLength]

section

variable {U : Unicode}

theorem closingIndex_append {expr rest : List Char} {depth index : Nat}
    (h : balanced depth expr = true)
    : closingIndex (depth + 1) index (expr ++ ')' :: rest) = some (index + expr.length) := by
  induction depth, expr using balanced.induct generalizing index with
  | case1 depth =>
    simp only [balanced, decide_eq_true_eq] at h
    simp [closingIndex, h]
  | case2 depth cs ih =>
    simp only [balanced] at h
    rw [List.cons_append, closingIndex, ih h, List.length_cons]
    congr 1
    omega
  | case3 depth cs ih =>
    simp only [balanced, Bool.and_eq_true, decide_eq_true_eq] at h
    rw [List.cons_append, closingIndex, if_neg (by omega), List.length_cons]
    have hdepth : depth + 1 - 1 = depth - 1 + 1 := by omega
    rw [hdepth, ih h.2]
    congr 1
    omega
  | case4 depth c cs hopen hclose ih =>
    rw [balanced] at h
    . rw [List.cons_append, closingIndex, ih h, List.length_cons]
      . congr 1
        omega
      . exact hopen
      . exact hclose
    . exact hopen
    . exact hclose

theorem utf8Size_ascii {c : Char} (h : c.toNat < 128) : c.utf8Size = 1 := by
  rw [Char.utf8Size_eq_one_iff, UInt32.le_iff_toNat_le]
  exact Nat.le_of_lt_succ h

theorem byteLength_ascii {s : List Char} (h : ∀ c ∈ s, c.toNat < 128) : byteLength s = s.length := by
  induction s with
  | nil => rfl
  | cons c s ih =>
    rw [List.forall_mem_cons] at h
    rw [byteLength_cons, utf8Size_ascii h.1, ih h.2, List.length_cons, Nat.add_comm]

theorem takeBytes_append (s rest : List Char) : takeBytes (byteLength s) (s ++ rest) = .ok s := by
  induction s with
  | nil => simp [byteLength, takeBytes]
  | cons c s ih =>
    have hpos := c.utf8Size_pos
    rw [byteLength_cons, List.cons_append, takeBytes, if_pos (Nat.le_add_right ..),
      Nat.add_sub_cancel_left, ih]
    . rfl
    . omega

theorem dropBytes_append (s rest : List Char) : dropBytes (byteLength s) (s ++ rest) = .ok rest := by
  induction s with
  | nil => simp [byteLength, dropBytes]
  | cons c s ih =>
    have hpos := c.utf8Size_pos
    rw [byteLength_cons, List.cons_append, dropBytes, if_pos (Nat.le_add_right ..),
      Nat.add_sub_cancel_left, ih]
    omega

theorem dropBytes_ascii {s rest : List Char} (h : ∀ c ∈ s, c.toNat < 128)
    : dropBytes s.length (s ++ rest) = .ok rest := by
  rw [← byteLength_ascii h]
  exact dropBytes_append s rest

theorem extractParens_counted {expr rest : List Char} (h : Counted expr rest)
    : extractParens ('(' :: (expr ++ ')' :: rest)) = .ok (expr, rest) := by
  have hdrop : dropBytes (byteLength expr + 1 + 1) ('(' :: (expr ++ ')' :: rest)) = .ok rest := by
    have hlength : byteLength ('(' :: (expr ++ [')'])) = byteLength expr + 1 + 1 := by
      have hopen : '('.utf8Size = 1 := rfl
      have hclose : byteLength [')'] = 1 := rfl
      rw [byteLength_cons, byteLength_append, hopen, hclose]
      omega
    have hbytes := dropBytes_append ('(' :: (expr ++ [')'])) rest
    rw [hlength] at hbytes
    simpa using hbytes
  unfold extractParens
  simp only [show closingIndex 0 0 ('(' :: (expr ++ ')' :: rest)) = _ from h, List.drop_one,
    List.tail_cons, Nat.add_sub_cancel, takeBytes_append, hdrop, bind, Except.bind]

theorem extractParens_unclosed {expr rest : List Char} (h : Unclosed expr rest)
    : extractParens ('(' :: (expr ++ ')' :: rest)) = invalidSyntax "unmatched parentheses" := by
  unfold extractParens
  simp only [show closingIndex 0 0 ('(' :: (expr ++ ')' :: rest)) = none from h]

theorem Plain.counted {expr : List Char} (h : Plain expr) (rest : List Char) : Counted expr rest := by
  have hascii : ∀ c ∈ expr, c.toNat < 128 := fun c hc => (h.1 c hc).1
  unfold Counted
  rw [closingIndex, closingIndex_append h.2, byteLength_ascii hascii]
  congr 1
  omega

/-! Words -/

theorem lowerChar_of_ascii {c : Char} (h : c.toNat < 128) : lowerChar c = c.toLower := by
  unfold lowerChar
  rw [if_neg]
  rintro rfl
  simp at h

theorem isAlpha_ascii {c : Char} (h : c.isAlpha = true) : c.toNat < 128 := by
  rw [Rust.isAlpha_iff] at h
  omega

theorem isAlpha_not_whitespace {c : Char} (h : c.isAlpha = true) : isWhitespace c = false := by
  have := Unicode.ascii.alphabetic_whitespace c
  cases hspace : isWhitespace c with
  | false => rfl
  | true =>
    rw [show Unicode.ascii.isAlphabetic c = c.isAlpha from rfl, h] at this
    simp [hspace] at this

theorem isIdentChar_of_isAlpha {c : Char} (h : c.isAlpha = true) : isIdentChar U c = true := by
  simp [isIdentChar, U.alphabetic_ascii c (isAlpha_ascii h), h]

theorem isIdentChar_not_whitespace {c : Char} (h : isIdentChar U c = true)
    : isWhitespace c = false := by
  cases hspace : isWhitespace c with
  | false => rfl
  | true =>
    rw [isIdentChar, U.alphabetic_whitespace c hspace, U.numeric_whitespace c hspace,
      Bool.false_or, Bool.false_or, beq_iff_eq] at h
    subst h
    simp [isWhitespace] at hspace

namespace Keyword

variable {keyword : String} (k : Keyword keyword)

theorem ascii : ∀ c ∈ k.text, c.toNat < 128 :=
  fun c hc => isAlpha_ascii (k.alpha c hc)

theorem map_lowerChar : k.text.map lowerChar = keyword.toList := by
  rw [← k.spells]
  apply List.map_congr_left
  intro c hc
  exact lowerChar_of_ascii (k.ascii c hc)

theorem starts : Starts k.text := by
  intro c hc
  exact isAlpha_not_whitespace (k.alpha c (List.mem_of_mem_head? hc))

theorem ends : Ends k.text := by
  intro c hc
  exact isAlpha_not_whitespace (k.alpha c (List.mem_of_getLast? hc))

theorem length_eq : k.text.length = keyword.length := by
  have := congrArg List.length k.spells
  rwa [List.length_map, String.length_toList] at this

end Keyword

theorem Ident.starts (ident : Ident U) : Starts ident.text := by
  intro c hc
  exact isIdentChar_not_whitespace (ident.chars c (List.mem_of_mem_head? hc))

theorem Ident.ends (ident : Ident U) : Ends ident.text := by
  intro c hc
  exact isIdentChar_not_whitespace (ident.chars c (List.mem_of_getLast? hc))

theorem trimChars_append {gap s : List Char} (hgap : Blank gap) (hstarts : Starts s) (hends : Ends s)
    : trimChars (gap ++ s) = s := by
  unfold trimChars
  rw [trimStart_append hgap hstarts]
  have := @trimEnd_append [] s (by simp [Blank]) hends
  rwa [List.append_nil] at this

theorem trimChars_eq {s : List Char} (hstarts : Starts s) (hends : Ends s) : trimChars s = s :=
  @trimChars_append [] s (by simp [Blank]) hstarts hends

theorem parseIdentifier_append {gap rest : List Char} (ident : Ident U) (hgap : Blank gap)
    (hrest : ∀ c ∈ rest.head?, isIdentChar U c = false) (hends : Ends rest)
    : parseIdentifier U (gap ++ (ident.text ++ rest)) = .ok (ident.text, rest) := by
  unfold parseIdentifier
  rw [trimChars_append hgap (ident.starts.append ident.ne_nil) (ident.ends.append hends)]
  simp only [takeWhile_append ident.chars hrest, dropWhile_append ident.chars hrest,
    List.isEmpty_iff, ident.ne_nil, if_false]

theorem lowerChar_eq_space {c : Char} (h : lowerChar c = ' ') : c = ' ' := by
  unfold lowerChar at h
  split at h
  . simp at h
  . unfold Char.toLower at h
    split at h
    . next hupper =>
      have hlow := UInt32.le_iff_toNat_le.mp hupper.1
      have hhigh := UInt32.le_iff_toNat_le.mp hupper.2
      have hA : 'A'.val.toNat = 65 := rfl
      have hZ : 'Z'.val.toNat = 90 := rfl
      have h32 : ('a'.val - 'A'.val).toNat = 32 := rfl
      have hsum : (c.val + ('a'.val - 'A'.val)).toNat = 32 := congrArg Char.toNat h
      rw [UInt32.toNat_add, h32] at hsum
      omega
    . exact h

theorem startsWithLower_append {keyword : String} (k : Keyword keyword) (word : String)
    (s suffix : List Char) (hword : word.toList = keyword.toList ++ suffix)
    : startsWithLower word (k.text ++ s) = suffix.isPrefixOf (s.map lowerChar) := by
  unfold startsWithLower
  rw [hword, List.map_append, k.map_lowerChar]
  induction keyword.toList with
  | nil => rfl
  | cons c cs ih => simpa using ih

theorem expectWord_spec {keyword word message : String} (k : Keyword keyword)
    (hword : word.toList = keyword.toList ++ [' ']) {gap s : List Char} (hgap : Blank gap) (gap' : Gap)
    (hstarts : Starts s) (hends : Ends s) (hne : s ≠ [])
    : expectWord word message (gap ++ (k.text ++ (gap'.text ++ s)))
        =
      if gap'.text.head? = some ' ' then .ok s else invalidSyntax message := by
  have hends' : Ends (k.text ++ (gap'.text ++ s)) := by
    rw [← List.append_assoc]
    exact hends.append_of_ne_nil _ hne
  unfold expectWord
  simp only [trimChars_append hgap (k.starts.append k.ne_nil) hends',
    startsWithLower_append k word _ [' '] hword]
  cases hgap' : gap'.text with
  | nil => exact absurd hgap' gap'.ne_nil
  | cons c cs =>
    by_cases hc : lowerChar c = ' '
    . have hspace := lowerChar_eq_space hc
      subst hspace
      have hdrop : dropBytes word.length (k.text ++ ' ' :: (cs ++ s)) = .ok (cs ++ s) := by
        have hascii : ∀ c ∈ k.text ++ [' '], c.toNat < 128 := by
          intro c hc
          rw [List.mem_append, List.mem_singleton] at hc
          cases hc with
          | inl hc => exact k.ascii c hc
          | inr hc =>
            subst hc
            decide
        have hlength : word.length = (k.text ++ [' ']).length := by
          rw [List.length_append, k.length_eq, ← String.length_toList, hword, List.length_append,
            String.length_toList]
        rw [hlength, ← dropBytes_ascii hascii, List.append_assoc]
        rfl
      have hblank : Blank cs := by
        intro d hd
        exact gap'.blank d (hgap' ▸ List.mem_cons_of_mem _ hd)
      simp [hc, hdrop, Except.map, trimChars_append hblank hstarts hends]
    . have hspace : c ≠ ' ' := by
        intro hspace
        subst hspace
        exact hc rfl
      simp [Ne.symm hc, hspace]

theorem scopeOfWord_spec (scope : ScopeText) : scopeOfWord scope.word.text = .ok scope.scope := by
  unfold scopeOfWord
  rw [scope.word.map_lowerChar, String.ofList_toList]
  cases scope.scope <;> rfl

def ScopeText.ident (scope : ScopeText) : Ident U where
  text := scope.word.text
  chars c hc := isIdentChar_of_isAlpha (scope.word.alpha c hc)
  ne_nil := scope.word.ne_nil

theorem isIdentChar_eq_false {c : Char} (h : c.toNat < 128) (halpha : c.isAlphanum = false)
    (hunderscore : c ≠ '_') : isIdentChar U c = false := by
  rw [Char.isAlphanum, Bool.or_eq_false_iff] at halpha
  simp [isIdentChar, U.alphabetic_ascii c h, U.numeric_ascii c h, halpha, hunderscore]

theorem isIdentChar_of_whitespace {c : Char} (h : isWhitespace c = true) : isIdentChar U c = false := by
  rw [← Bool.not_eq_true]
  intro hident
  rw [isIdentChar_not_whitespace hident] at h
  cases h

theorem scopesText_cons (gap gap' : { s // Blank s }) (scope : ScopeText)
    (scopes : List ({ s // Blank s } × { s // Blank s } × ScopeText)) (rest : List Char)
    : scopesText ((gap, gap', scope) :: scopes) ++ rest
        =
      gap.val ++ ',' :: (gap'.val ++ (scope.word.text ++ (scopesText scopes ++ rest))) := by
  simp [scopesText]

theorem ends_scopes (scope : ScopeText) (scopes : List ({ s // Blank s } × { s // Blank s } × ScopeText))
    {rest : List Char} (h : Ends rest) : Ends (scope.word.text ++ (scopesText scopes ++ rest)) := by
  induction scopes generalizing scope with
  | nil => exact scope.word.ends.append h
  | cons more scopes ih =>
    have ⟨gap, gap', scope'⟩ := more
    have hsplit : scope.word.text ++ (scopesText ((gap, gap', scope') :: scopes) ++ rest)
        = (scope.word.text ++ gap.val ++ ',' :: gap'.val)
          ++ (scope'.word.text ++ (scopesText scopes ++ rest)) := by
      simp [scopesText]
    rw [hsplit]
    exact (ih scope').append_of_ne_nil _ (by simp [scope'.word.ne_nil])

/--
What follows the scopes starts with neither an identifier nor a comma.
-/
theorem parseScopes_spec (scope : ScopeText)
    (scopes : List ({ s // Blank s } × { s // Blank s } × ScopeText)) {gap rest tail : List Char}
    (hgap : Blank gap) (hrest : ∀ c ∈ rest.head?, isIdentChar U c = false) (hends : Ends rest)
    (htail : trimChars rest = tail) (hcomma : ∀ c ∈ tail.head?, c ≠ ',') {fuel : Nat}
    (hfuel : scopes.length < fuel)
    : parseScopes U fuel (gap ++ (scope.word.text ++ (scopesText scopes ++ rest)))
        =
      .ok (scope.scope :: scopes.map (·.2.2.scope), tail) := by
  induction scopes generalizing scope gap fuel with
  | nil =>
    cases fuel with
    | zero => simp at hfuel
    | succ fuel =>
      have hparse := parseIdentifier_append (U := U) scope.ident hgap hrest hends
      simp only [ScopeText.ident] at hparse
      simp only [scopesText, List.nil_append, parseScopes, hparse, scopeOfWord_spec, bind, Except.bind]
      rw [htail]
      split
      . simp at hcomma
      . rfl
  | cons more scopes ih =>
    have ⟨before, after, scope'⟩ := more
    cases fuel with
    | zero => simp at hfuel
    | succ fuel =>
      rw [scopesText_cons]
      have hends' := ends_scopes scope' scopes hends
      have hcomma' : Ends (',' :: (after.val ++ (scope'.word.text ++ (scopesText scopes ++ rest)))) := by
        have := hends'.append_of_ne_nil (',' :: after.val) (by simp [scope'.word.ne_nil])
        simpa using this
      have hparse := @parseIdentifier_append U gap
        (before.val ++ ',' :: (after.val ++ (scope'.word.text ++ (scopesText scopes ++ rest))))
        scope.ident hgap
        (by
          intro c hc
          cases hbefore : before.val with
          | nil =>
            simp only [hbefore, List.nil_append, List.head?_cons, Option.mem_def,
              Option.some.injEq] at hc
            subst hc
            exact isIdentChar_eq_false (by decide) (by decide) (by decide)
          | cons d ds =>
            simp only [hbefore, List.cons_append, List.head?_cons, Option.mem_def,
              Option.some.injEq] at hc
            subst hc
            exact isIdentChar_of_whitespace (before.property d (hbefore ▸ List.mem_cons_self)))
        (hcomma'.append_of_ne_nil before.val (by simp))
      simp only [ScopeText.ident] at hparse
      have htrim := trimChars_append before.property (by simp [Starts, isWhitespace]) hcomma'
      have htrim' := trimChars_append after.property (scope'.word.starts.append scope'.word.ne_nil) hends'
      have hrec : parseScopes U fuel ([] ++ (scope'.word.text ++ (scopesText scopes ++ rest)))
          = .ok (scope'.scope :: scopes.map (·.2.2.scope), tail) :=
        ih scope' (by simp [Blank]) (by simpa using hfuel)
      simp only [parseScopes, hparse, scopeOfWord_spec, bind, Except.bind, htrim, htrim']
      rw [List.nil_append] at hrec
      rw [hrec]
      rfl

/--
What is in the parentheses decides.
-/
theorem parseClause_eq {keyword : String} (c : Clause keyword) (hkeyword : keyword.length = 5)
    {rest : List Char} (hends : Ends rest)
    : parseClause keyword (c.text ++ rest)
        =
      (extractParens ('(' :: (c.expr ++ ')' :: rest))).map
        (fun (content, after) => (some (parseExpr content), trimChars after)) := by
  have hparens : Ends ('(' :: (c.expr ++ ')' :: rest)) := by
    have hclose : Ends [')'] := by simp [Ends, isWhitespace]
    simpa using (hclose.append hends).append_of_ne_nil ('(' :: c.expr) (by simp)
  have htext : c.text ++ rest = c.word.text ++ (c.gap.val ++ '(' :: (c.expr ++ ')' :: rest)) := by
    simp [Clause.text]
  have hdrop : dropBytes 5 (c.word.text ++ (c.gap.val ++ '(' :: (c.expr ++ ')' :: rest)))
      = .ok (c.gap.val ++ '(' :: (c.expr ++ ')' :: rest)) := by
    rw [← hkeyword, ← c.word.length_eq]
    exact dropBytes_ascii c.word.ascii
  have htrim := trimChars_append c.gap.property (by simp [Starts, isWhitespace]) hparens
  unfold parseClause
  rw [htext, startsWithLower_append c.word keyword _ [] (by simp), List.isPrefixOf_nil_left, if_pos rfl]
  simp only [hdrop, bind, Except.bind, htrim, List.head?_cons, ne_eq, not_true_eq_false, if_false]
  cases extractParens ('(' :: (c.expr ++ ')' :: rest)) <;> rfl

theorem parseClause_spec {keyword : String} (c : Clause keyword) (hkeyword : keyword.length = 5)
    {rest : List Char} (hcounted : Counted c.expr rest) (hends : Ends rest)
    : parseClause keyword (c.text ++ rest) = .ok (some c.value, trimChars rest) := by
  rw [parseClause_eq c hkeyword hends, extractParens_counted hcounted]
  simp [Except.map, Clause.value, parseExpr, trim, trimChars]

theorem parseClause_unclosed {keyword : String} (c : Clause keyword) (hkeyword : keyword.length = 5)
    {rest : List Char} (hunclosed : Unclosed c.expr rest) (hends : Ends rest)
    : parseClause keyword (c.text ++ rest) = invalidSyntax "unmatched parentheses" := by
  rw [parseClause_eq c hkeyword hends, extractParens_unclosed hunclosed]
  rfl

theorem parseClause_skip {keyword : String} {s : List Char} (h : startsWithLower keyword s = false)
    : parseClause keyword s = .ok (none, s) := by
  unfold parseClause
  rw [h]
  rfl

namespace Clauses

/--
The text without the first gap.
-/
def trimmed : Clauses → List Char
  | .none => []
  | .usingOnly _ c => c.text
  | .checkOnly _ c => c.text
  | .both _ c gap c' => c.text ++ (gap.val ++ c'.text)

end Clauses

theorem Clause.starts {keyword : String} (c : Clause keyword) : Starts c.text :=
  c.word.starts.append c.word.ne_nil

theorem Clause.ends {keyword : String} (c : Clause keyword) : Ends c.text := by
  have : Ends [')'] := by simp [Ends, isWhitespace]
  have := this.append_of_ne_nil (c.word.text ++ (c.gap.val ++ '(' :: c.expr)) (by simp)
  simpa [Clause.text] using this

theorem Clause.ne_nil {keyword : String} (c : Clause keyword) : c.text ≠ [] := by
  simp [Clause.text, c.word.ne_nil]

theorem trimChars_clauses (clauses : Clauses) : trimChars clauses.text = clauses.trimmed := by
  cases clauses with
  | none => rfl
  | usingOnly gap c => exact trimChars_append gap.blank c.starts c.ends
  | checkOnly gap c => exact trimChars_append gap.blank c.starts c.ends
  | both gap c gap' c' =>
    apply trimChars_append gap.blank
    . exact c.starts.append c.ne_nil
    . exact c.ends.append (c'.ends.append_of_ne_nil _ c'.ne_nil)

theorem startsWithLower_using (c : Clause "check") (s : List Char)
    : startsWithLower "using" (c.text ++ s) = false := by
  unfold startsWithLower
  rw [Clause.text, List.append_assoc, List.map_append, c.word.map_lowerChar]
  rfl

theorem parseUsingCheck_spec (clauses : Clauses) (h : ∀ expr ∈ clauses.exprs, Plain expr)
    : parseUsingCheck clauses.trimmed = .ok (clauses.usingExpr, clauses.checkExpr, []) := by
  have hnil : Ends [] := by simp [Ends]
  have htrim : trimChars clauses.trimmed = clauses.trimmed := by
    cases clauses with
    | none => rfl
    | usingOnly gap c => exact trimChars_eq c.starts c.ends
    | checkOnly gap c => exact trimChars_eq c.starts c.ends
    | both gap c gap' c' =>
      exact trimChars_eq (c.starts.append c.ne_nil)
        (c.ends.append (c'.ends.append_of_ne_nil _ c'.ne_nil))
  unfold parseUsingCheck
  rw [htrim]
  cases clauses with
  | none => rfl
  | usingOnly gap c =>
    have hclause := parseClause_spec c rfl ((h c.expr (by simp [Clauses.exprs])).counted []) hnil
    rw [List.append_nil] at hclause
    simp only [Clauses.trimmed, hclause, bind, Except.bind]
    rfl
  | checkOnly gap c =>
    have hskip := startsWithLower_using c []
    have hclause := parseClause_spec c rfl ((h c.expr (by simp [Clauses.exprs])).counted []) hnil
    rw [List.append_nil] at hskip hclause
    simp only [Clauses.trimmed, parseClause_skip hskip, hclause, bind, Except.bind]
    rfl
  | both gap c gap' c' =>
    have hends : Ends (gap'.val ++ c'.text) := c'.ends.append_of_ne_nil _ c'.ne_nil
    have hclause := parseClause_spec c rfl ((h c.expr (by simp [Clauses.exprs])).counted _) hends
    have hclause' := parseClause_spec c' rfl ((h c'.expr (by simp [Clauses.exprs])).counted []) hnil
    rw [trimChars_append gap'.property c'.starts c'.ends] at hclause
    rw [List.append_nil] at hclause'
    simp only [Clauses.trimmed, hclause, hclause', bind, Except.bind]
    rfl

end

end Reactor.Data.Dialect
