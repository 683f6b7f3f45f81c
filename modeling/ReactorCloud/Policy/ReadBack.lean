import ReactorCloud.Policy.Ascii
import ReactorCloud.Policy.Printed

/-!
This module proves that the parser reads back what the printer writes, unless a keyword that is looked
for ends inside of a character.
-/

namespace Reactor.Policy

open Rust.Str (isWhitespace)
open Grammar

/-! Outcomes -/

/--
The parser returns what `Q` says, panics or runs out of fuel. It only fails if `E` holds.
-/
def Upto {α : Type} (E : Prop) (Q : α → Prop) : Except ParseFailure α → Prop
  | .ok x => Q x
  | .error (.error _) => E
  | .error _ => True

section

variable {α β : Type} {E : Prop} {Q : α → Prop} {Q' : β → Prop}

theorem Upto.bind {res : Except ParseFailure α} (h : Upto E Q res) {f : α → Except ParseFailure β}
    (hf : ∀ x, Q x → Upto E Q' (f x)) : Upto E Q' (res >>= f) := by
  match res with
  | .ok x => exact hf x h
  | .error (.error _) => exact h
  | .error .sliced => trivial
  | .error .outOfFuel => trivial

theorem upto_word {keyword : String} (hkeyword : IsKeyword keyword) {rest : List Char}
    {f : Option (List Char) → Except ParseFailure β} (hf : Upto E Q' (f (word keyword rest)))
    : Upto E Q' (matchKeyword keyword rest >>= f) := by
  rw [matchKeyword_eq hkeyword]
  split
  . exact hf
  . trivial

end

/-! What stands around a text -/

/--
What follows an operand: a blank, a parenthesis, a comma or nothing, and no qualifier and no arguments
behind blanks.
-/
structure Stops (rest : List Char) : Prop where
  head : ∀ c ∈ rest.head?, c = ' ' ∨ c = ')' ∨ c = ','
  next : ∀ c ∈ (skipWhitespace rest).head?, c ≠ '.' ∧ c ≠ '('

/--
What follows an expression of the level.
-/
structure Follow (k : Nat) (rest : List Char) : Prop extends Stops rest where
  symbol : symbol (skipWhitespace rest) = none
  words : ∀ keyword ∈ ["IS", "NOT", "IN", "LIKE", "ILIKE"], word keyword (skipWhitespace rest) = none
  and : k ≤ 1 → word "AND" (skipWhitespace rest) = none
  or : k = 0 → word "OR" (skipWhitespace rest) = none

theorem Follow.mono {k k' : Nat} {rest : List Char} (h : Follow k rest) (hle : k ≤ k') : Follow k' rest where
  toStops := h.toStops
  symbol := h.symbol
  words := h.words
  and := fun hk => h.and (by omega)
  or := fun hk => h.or (by omega)

theorem follow_close (k : Nat) (rest : List Char) : Follow k (')' :: rest) where
  head := by
    intro c hc
    cases hc
    decide
  next := by
    intro c hc
    cases hc
    decide
  symbol := rfl
  words := by
    intro keyword hkeyword
    simp only [List.mem_cons, List.not_mem_nil, or_false] at hkeyword
    rcases hkeyword with rfl | rfl | rfl | rfl | rfl <;> rfl
  and := fun _ => rfl
  or := fun _ => rfl

theorem follow_comma (k : Nat) (rest : List Char) : Follow k (',' :: rest) where
  head := by
    intro c hc
    cases hc
    decide
  next := by
    intro c hc
    cases hc
    decide
  symbol := rfl
  words := by
    intro keyword hkeyword
    simp only [List.mem_cons, List.not_mem_nil, or_false] at hkeyword
    rcases hkeyword with rfl | rfl | rfl | rfl | rfl <;> rfl
  and := fun _ => rfl
  or := fun _ => rfl

/--
A text starts with something else than a blank or a closing parenthesis.
-/
def Starts (text : List Char) : Prop :=
  ∃ c cs, text = c :: cs ∧ isWhitespace c = false ∧ c ≠ ')'

theorem Starts.skip {text : List Char} (h : Starts text) (rest : List Char)
    : skipWhitespace (text ++ rest) = text ++ rest := by
  have ⟨c, cs, htext, hc, _⟩ := h
  rw [htext, skipWhitespace, List.cons_append, List.dropWhile_cons, hc]
  rfl

theorem Starts.skip_blank {text : List Char} (h : Starts text) (rest : List Char)
    : skipWhitespace (' ' :: (text ++ rest)) = text ++ rest :=
  h.skip rest

theorem Starts.append {text : List Char} (h : Starts text) (rest : List Char) : Starts (text ++ rest) := by
  have ⟨c, cs, htext, hc⟩ := h
  rw [htext]
  exact ⟨c, cs ++ rest, rfl, hc⟩

/--
A text starts like an operand, not with `NOT`.
-/
structure Head (text : List Char) : Prop where
  starts : Starts text
  not : ∀ rest, Stops rest → word "NOT" (text ++ rest) = none

/-! Words -/

/--
No keyword is there where another character stands.
-/
theorem word_of_head {keyword : String} {c d : Char} {keys : List Char} (hkeyword : keyword.toList = d :: keys)
    (hne : c.toLower ≠ d.toLower) (rest : List Char) : word keyword (c :: rest) = none := by
  rw [word, hkeyword, if_neg]
  rintro ⟨htake, _⟩
  rw [List.length_cons, List.take_succ_cons, List.map_cons, List.map_cons] at htake
  exact hne (List.cons.inj htake).1

theorem word_self {keyword : String} {rest : List Char}
    (hrest : (rest.head?.map isIdentChar).getD false = false)
    : word keyword (keyword.toList ++ rest) = some rest := by
  unfold word
  dsimp only
  rw [List.take_left, List.drop_left, if_pos ⟨rfl, hrest⟩]

/-! Identifiers -/

/--
An identifier ends here.
-/
def Breaks (rest : List Char) : Prop :=
  ∀ c ∈ rest.head?, isIdentChar c = false ∧ isIdentChar c.toLower = false

theorem Stops.breaks {rest : List Char} (h : Stops rest) : Breaks rest := by
  intro c hc
  rcases h.head c hc with rfl | rfl | rfl <;> decide

theorem Breaks.getD {rest : List Char} (h : Breaks rest) : (rest.head?.map isIdentChar).getD false = false := by
  cases rest with
  | nil => rfl
  | cons c rest => exact (h c rfl).1

theorem word_of_ident {name keyword : String} (hname : IsIdent name) (hne : lower name ≠ lower keyword)
    (hkeyword : ∀ c ∈ lower keyword, isIdentChar c = true) {rest : List Char} (hrest : Breaks rest)
    : word keyword (name.toList ++ rest) = none := by
  rw [word, if_neg]
  rintro ⟨htake, hafter⟩
  rcases Nat.lt_trichotomy keyword.toList.length name.toList.length with hlt | heq | hgt
  . -- The name goes on behind the keyword.
    have hchar : name.toList[keyword.toList.length] ∈ name.toList := List.getElem_mem hlt
    have hident := List.all_eq_true.mp hname.2 _ hchar
    rw [List.head?_drop, List.getElem?_append_left hlt, List.getElem?_eq_getElem hlt] at hafter
    rw [Option.map_some, Option.getD_some, hident] at hafter
    cases hafter
  . rw [heq, List.take_left] at htake
    exact hne htake
  . -- The keyword goes on behind the name.
    cases rest with
    | nil =>
      rw [List.append_nil, List.take_of_length_le (by omega)] at htake
      exact hne htake
    | cons c rest =>
      have hmem : c ∈ (name.toList ++ c :: rest).take keyword.toList.length := by
        rw [List.take_append, List.take_of_length_le (by omega)]
        apply List.mem_append_right
        have hsub : keyword.toList.length - name.toList.length
            = (keyword.toList.length - name.toList.length - 1) + 1 := by omega
        rw [hsub, List.take_succ_cons]
        exact List.mem_cons_self
      have hlower := List.mem_map_of_mem (f := Char.toLower) hmem
      rw [htake] at hlower
      have hident := hkeyword _ hlower
      rw [(hrest c rfl).2] at hident
      cases hident

theorem IsIdent.cons {name : String} (h : IsIdent name)
    : ∃ c cs, name.toList = c :: cs ∧ isIdentStart c = true ∧ ∀ d ∈ cs, isIdentChar d = true := by
  have ⟨hhead, hall⟩ := h
  cases hname : name.toList with
  | nil =>
    rw [hname] at hhead
    cases hhead
  | cons c cs =>
    rw [hname] at hhead hall
    rw [List.all_cons, Bool.and_eq_true, List.all_eq_true] at hall
    exact ⟨c, cs, rfl, hhead, hall.2⟩

theorem parseIdentifier_ident {name : String} (hname : IsIdent name) {s rest : List Char}
    (hs : skipWhitespace s = name.toList ++ rest) (hrest : Breaks rest)
    : parseIdentifier s = .ok (name, rest) := by
  have ⟨c, cs, hcons, hstart, hchars⟩ := hname.cons
  have hbreak : ∀ d ∈ rest.head?, isIdentChar d = false := fun d hd => (hrest d hd).1
  rw [parseIdentifier, hs, hcons, List.cons_append]
  dsimp only
  rw [if_pos hstart, Rust.Str.takeWhile_append hchars hbreak, Rust.Str.dropWhile_append hchars hbreak,
    ← hcons, String.ofList_toList]

theorem isIdentStart_toNat {c : Char} (h : isIdentStart c = true)
    : (65 ≤ c.toNat ∧ c.toNat ≤ 90) ∨ (97 ≤ c.toNat ∧ c.toNat ≤ 122) ∨ c.toNat = 95 := by
  unfold isIdentStart at h
  rw [Bool.or_eq_true, Rust.isAlpha_iff, beq_iff_eq] at h
  rcases h with (hupper | hlower) | hunder
  . exact .inl hupper
  . exact .inr (.inl hlower)
  . rw [hunder]
    exact .inr (.inr rfl)

theorem isWhitespace_of_isIdentStart {c : Char} (h : isIdentStart c = true) : isWhitespace c = false := by
  have hrange := isIdentStart_toNat h
  simp only [isWhitespace, Bool.or_eq_false_iff, Bool.and_eq_false_iff, decide_eq_false_iff_not, beq_eq_false_iff_ne]
  omega

theorem ne_of_isIdentStart {c d : Char} (h : isIdentStart c = true) (hd : isIdentStart d = false) : c ≠ d := by
  intro heq
  rw [heq, hd] at h
  cases h

theorem isDigit_of_isIdentStart {c : Char} (h : isIdentStart c = true) : c.isDigit = false := by
  have hrange := isIdentStart_toNat h
  simp only [Char.isDigit, Bool.and_eq_false_iff, decide_eq_false_iff_not, ge_iff_le, UInt32.le_iff_toNat_le]
  right
  show ¬ c.toNat ≤ 57
  omega

theorem starts_ident {name : String} (hname : IsIdent name) : Starts name.toList := by
  have ⟨c, cs, hcons, hstart, hchars⟩ := hname.cons
  exact ⟨c, cs, hcons, isWhitespace_of_isIdentStart hstart, ne_of_isIdentStart hstart (by decide)⟩

theorem IsName.word {name : String} (h : IsName name) {keyword : String}
    (hkeyword : keyword ∈ ["NOT", "TRUE", "FALSE", "NULL"]) {rest : List Char} (hrest : Breaks rest)
    : word keyword (name.toList ++ rest) = none := by
  apply word_of_ident h.1 (h.2 keyword hkeyword) _ hrest
  have hall : ∀ keyword ∈ ["NOT", "TRUE", "FALSE", "NULL"], (lower keyword).all isIdentChar = true := by
    decide
  exact List.all_eq_true.mp (hall keyword hkeyword)

/-! Operands -/

def Is (expr : PolicyExpr) (rest : List Char) (x : PolicyExpr × List Char) : Prop :=
  x.1 = expr ∧ skipWhitespace x.2 = skipWhitespace rest

section

variable {E : Prop}

/--
The text is read as the operand.
-/
structure Prim (E : Prop) (text : List Char) (expr : PolicyExpr) : Prop extends Head text where
  parse : ∀ fuel s rest, skipWhitespace s = text ++ rest → Stops rest
    → Upto E (Is expr rest) (parsePrimary fuel s)

theorem upto_name {Q : PolicyExpr × List Char → Prop} {name : String} (hname : IsName name) {rest : List Char}
    (hrest : Breaks rest)
    (h : ∀ fuel, Upto E Q (parseIdentifierOrCall fuel (name.toList ++ rest))) {fuel : Nat} {s : List Char}
    (hs : skipWhitespace s = name.toList ++ rest) : Upto E Q (parsePrimary fuel s) := by
  have ⟨c, cs, hcons, hstart, hchars⟩ := hname.1.cons
  match fuel with
  | 0 => trivial
  | fuel + 1 =>
    rw [parsePrimary, hs]
    split
    . next rest' heq =>
      rw [hcons] at heq
      exact absurd (List.cons.inj heq).1 (ne_of_isIdentStart hstart (by decide))
    . next rest' heq =>
      rw [hcons] at heq
      exact absurd (List.cons.inj heq).1 (ne_of_isIdentStart hstart (by decide))
    . next rest' heq =>
      rw [hcons] at heq
      exact absurd (List.cons.inj heq).1 (ne_of_isIdentStart hstart (by decide))
    . have hdigit : ((name.toList ++ rest).head?.map Char.isDigit).getD false = false := by
        rw [hcons]
        exact isDigit_of_isIdentStart hstart
      rw [hdigit, if_neg Bool.false_ne_true]
      apply upto_word (by decide)
      rw [hname.word (by decide) hrest]
      apply upto_word (by decide)
      rw [hname.word (by decide) hrest]
      apply upto_word (by decide)
      rw [hname.word (by decide) hrest]
      exact h fuel

theorem head_name {name : String} (hname : IsName name) {tail : List Char} (htail : ∀ rest, Stops rest → Breaks (tail ++ rest))
    : Head (name.toList ++ tail) where
  starts := (starts_ident hname.1).append tail
  not := by
    intro rest hrest
    rw [List.append_assoc]
    exact hname.word (by decide) (htail rest hrest)

theorem Stops.split {rest : List Char} (h : Stops rest)
    : (∀ r, skipWhitespace rest ≠ '.' :: r) ∧ ∀ r, skipWhitespace rest ≠ '(' :: r := by
  constructor
  . intro r heq
    have hnext := h.next
    rw [heq] at hnext
    exact (hnext _ rfl).1 rfl
  . intro r heq
    have hnext := h.next
    rw [heq] at hnext
    exact (hnext _ rfl).2 rfl

theorem Stops.matchChar {rest : List Char} (h : Stops rest) : matchChar '(' (skipWhitespace rest) = none := by
  cases hs : skipWhitespace rest with
  | nil => rfl
  | cons c r =>
    rw [matchChar_cons, if_neg]
    intro hc
    rw [hc] at hs
    exact h.split.2 r hs

theorem is_skip (expr : PolicyExpr) (rest : List Char) : Is expr rest (expr, skipWhitespace rest) :=
  ⟨rfl, skipWhitespace_idem rest⟩

theorem prim_column {name : String} (hname : IsName name) : Prim E name.toList (.column name) where
  toHead := by
    have h := @head_name name hname [] (fun rest hrest => hrest.breaks)
    rwa [List.append_nil] at h
  parse := by
    intro fuel s rest hs hrest
    apply upto_name hname hrest.breaks _ hs
    intro fuel
    match fuel with
    | 0 => trivial
    | fuel + 1 =>
      rw [parseIdentifierOrCall, parseIdentifier_ident hname.1 ((starts_ident hname.1).skip rest) hrest.breaks]
      dsimp only [bind, Except.bind]
      split
      . next r heq => exact absurd heq (hrest.split.1 r)
      . next r heq => exact absurd heq (hrest.split.2 r)
      . exact is_skip _ rest

theorem breaks_cons {c : Char} (hc : isIdentChar c = false ∧ isIdentChar c.toLower = false) (rest : List Char)
    : Breaks (c :: rest) := by
  intro d hd
  cases hd
  exact hc

/--
A name with a qualifier.
-/
theorem upto_field {Q : PolicyExpr × List Char → Prop} {first second : String} (hfirst : IsName first)
    (hsecond : IsIdent second) {rest : List Char} (hrest : Breaks rest)
    (h : ∀ fuel, Upto E Q
      (if lower first = "auth".toList then
        match matchChar '(' (skipWhitespace rest) with
        | none => unexpected "expected ( for auth builtin"
        | some rest => do
          let (args, rest) ← parseArgs fuel rest
          match validateBuiltinCall second args.length with
          | .error e => .error (.error (.invalidBuiltin e.toString))
          | .ok _ => .ok (.authBuiltin second args, rest)
      else if isDomainBuiltin first then
        match matchChar '(' (skipWhitespace rest) with
        | some rest => do
          let (args, rest) ← parseArgs fuel rest
          .ok (.domainBuiltin first second args, rest)
        | none => .ok (.domainBuiltin first second [], skipWhitespace rest)
      else
        match skipWhitespace rest with
        | '.' :: rest => do
          let (_, rest) ← parseIdentifier rest
          .ok (.qualifiedColumn first second, rest)
        | rest => .ok (.qualifiedColumn first second, rest)))
    {fuel : Nat} {s : List Char} (hs : skipWhitespace s = first.toList ++ '.' :: (second.toList ++ rest))
    : Upto E Q (parsePrimary fuel s) := by
  have hdot : Breaks ('.' :: (second.toList ++ rest)) := breaks_cons (by decide) _
  apply upto_name hfirst hdot _ hs
  intro fuel
  match fuel with
  | 0 => trivial
  | fuel + 1 =>
    rw [parseIdentifierOrCall, parseIdentifier_ident hfirst.1 ((starts_ident hfirst.1).skip _) hdot]
    have hskip : skipWhitespace ('.' :: (second.toList ++ rest)) = '.' :: (second.toList ++ rest) := rfl
    have hident := parseIdentifier_ident hsecond ((starts_ident hsecond).skip rest) hrest
    simp only [bind, Except.bind, hskip, hident]
    exact h fuel

theorem head_field {name : String} (hname : IsName name) (tail : List Char) : Head (name.toList ++ '.' :: tail) :=
  head_name hname (fun rest _ => breaks_cons (by decide) _)

theorem prim_qualifiedColumn {table column : String} (htable : IsName table) (hauth : lower table ≠ "auth".toList)
    (hdomain : isDomainBuiltin table = false) (hcolumn : IsIdent column)
    : Prim E (table.toList ++ '.' :: column.toList) (.qualifiedColumn table column) where
  toHead := head_field htable column.toList
  parse := by
    intro fuel s rest hs hrest
    rw [List.append_assoc, List.cons_append] at hs
    apply upto_field htable hcolumn hrest.breaks _ hs
    intro fuel
    rw [if_neg hauth, hdomain, if_neg Bool.false_ne_true]
    split
    . next r heq => exact absurd heq (hrest.split.1 r)
    . exact is_skip _ rest

/-! Literals -/

theorem head_of_char {c : Char} (hblank : isWhitespace c = false) (hclose : c ≠ ')') (hletter : c.toLower ≠ 'n')
    (cs : List Char) : Head (c :: cs) where
  starts := ⟨c, cs, rfl, hblank, hclose⟩
  not := fun rest _ => word_of_head rfl hletter (cs ++ rest)

theorem stringBody_cons {c : Char} (hc : c ≠ '\'') (rest : List Char)
    : stringBody (c :: rest) = (stringBody rest).map (fun (value, rest) => (c :: value, rest)) := by
  rw [stringBody]
  . intro heq
    exact absurd heq hc
  . intro _ _ heq
    exact absurd heq hc

theorem stringBody_quoteBody (value : List Char) {rest : List Char} (hrest : ∀ c ∈ rest.head?, c ≠ '\'')
    : stringBody (Printer.quoteBody value ++ '\'' :: rest) = .ok (value, rest) := by
  induction value with
  | nil =>
    cases rest with
    | nil => rfl
    | cons c rest =>
      show stringBody ('\'' :: c :: rest) = _
      rw [stringBody, if_neg (hrest c rfl)]
  | cons c value ih =>
    by_cases hc : c = '\''
    . subst hc
      show stringBody ('\'' :: '\'' :: (Printer.quoteBody value ++ '\'' :: rest)) = _
      rw [stringBody, if_pos rfl, ih]
      rfl
    . have hcons : Printer.quoteBody (c :: value) = c :: Printer.quoteBody value := by
        rw [Printer.quoteBody, List.flatMap_cons, if_neg hc]
        rfl
      rw [hcons, List.cons_append, stringBody_cons hc, ih]
      rfl

theorem prim_string (value : String)
    : Prim E ('\'' :: Printer.quoteBody value.toList ++ ['\'']) (.literal (.string value)) where
  toHead := head_of_char (by decide) (by decide) (by decide) _
  parse := by
    intro fuel s rest hs hrest
    match fuel with
    | 0 => trivial
    | fuel + 1 =>
      have hquote : ∀ c ∈ rest.head?, c ≠ '\'' := by
        intro c hc
        rcases hrest.head c hc with rfl | rfl | rfl <;> decide
      have htext : '\'' :: Printer.quoteBody value.toList ++ ['\''] ++ rest
          = '\'' :: (Printer.quoteBody value.toList ++ '\'' :: rest) := by simp
      rw [parsePrimary, hs, htext]
      simp only [stringBody_quoteBody _ hquote, bind, Except.bind]
      refine ⟨?_, rfl⟩
      rw [String.ofList_toList]
      rfl

theorem prim_true : Prim E "TRUE".toList (.literal (.bool true)) where
  toHead := head_of_char (by decide) (by decide) (by decide) _
  parse := by
    intro fuel s rest hs hrest
    match fuel with
    | 0 => trivial
    | fuel + 1 =>
      rw [parsePrimary, hs]
      apply upto_word (by decide)
      rw [word_self hrest.breaks.getD]
      exact ⟨rfl, rfl⟩

theorem prim_false : Prim E "FALSE".toList (.literal (.bool false)) where
  toHead := head_of_char (by decide) (by decide) (by decide) _
  parse := by
    intro fuel s rest hs hrest
    match fuel with
    | 0 => trivial
    | fuel + 1 =>
      have htrue : word "TRUE" ("FALSE".toList ++ rest) = none := word_of_head rfl (by decide) _
      rw [parsePrimary, hs]
      apply upto_word (by decide)
      rw [htrue]
      apply upto_word (by decide)
      rw [word_self hrest.breaks.getD]
      exact ⟨rfl, rfl⟩

theorem prim_null : Prim E "NULL".toList (.literal .null) where
  starts := ⟨'N', "ULL".toList, rfl, by decide, by decide⟩
  not := fun rest _ => rfl
  parse := by
    intro fuel s rest hs hrest
    match fuel with
    | 0 => trivial
    | fuel + 1 =>
      have htrue : word "TRUE" ("NULL".toList ++ rest) = none := word_of_head rfl (by decide) _
      have hfalse : word "FALSE" ("NULL".toList ++ rest) = none := word_of_head rfl (by decide) _
      rw [parsePrimary, hs]
      apply upto_word (by decide)
      rw [htrue]
      apply upto_word (by decide)
      rw [hfalse]
      apply upto_word (by decide)
      rw [word_self hrest.breaks.getD]
      exact ⟨rfl, rfl⟩

theorem numberBody_digits {digits : List Char} (hdigits : ∀ c ∈ digits, c.isDigit = true) {rest : List Char}
    (hrest : ∀ c ∈ rest.head?, c.isDigit = false ∧ c ≠ '.') : numberBody false (digits ++ rest) = (digits, false, rest) := by
  induction digits with
  | nil =>
    cases rest with
    | nil => rfl
    | cons c rest =>
      have ⟨hdigit, hdot⟩ := hrest c rfl
      show numberBody false (c :: rest) = _
      rw [numberBody, hdigit, if_neg Bool.false_ne_true, if_neg (fun h => hdot h.1)]
  | cons c digits ih =>
    rw [List.forall_mem_cons] at hdigits
    rw [List.cons_append, numberBody, if_pos hdigits.1, ih hdigits.2]

theorem parseI64_digits (n : Nat)
    : Rust.parseI64 (Nat.toDigits 10 n) = if n < 2 ^ 63 then some (Int64.ofInt n) else none := by
  have hdigits : ∀ c ∈ Nat.toDigits 10 n, c.isDigit = true :=
    fun c hc => Nat.isDigit_of_mem_toDigits (by decide) (by decide) hc
  have hnat : Rust.parseNat (Nat.toDigits 10 n) = some n := by
    rw [Rust.parseNat, if_pos ⟨Nat.toDigits_ne_nil, List.all_eq_true.mpr hdigits⟩]
    congr 1
    exact Nat.ofDigitChars_ten_toDigits
  have hint : Rust.parseInt (Nat.toDigits 10 n) = some (n : Int) := by
    unfold Rust.parseInt
    split
    . next digits heq => exact absurd (hdigits '-' (by simp [heq])) (by decide)
    . next digits heq => exact absurd (hdigits '+' (by simp [heq])) (by decide)
    . rw [hnat]
      rfl
  rw [Rust.parseI64, hint, Option.bind_eq_bind, Option.bind_some]
  by_cases hn : n < 2 ^ 63
  . rw [if_pos hn, if_pos (by omega)]
  . rw [if_neg hn, if_neg (by omega)]

theorem isDigit_toNat {c : Char} (h : c.isDigit = true) : 48 ≤ c.toNat ∧ c.toNat ≤ 57 := by
  simp only [Char.isDigit, Bool.and_eq_true, decide_eq_true_eq, ge_iff_le, UInt32.le_iff_toNat_le] at h
  exact h

theorem isWhitespace_of_isDigit {c : Char} (h : c.isDigit = true) : isWhitespace c = false := by
  have hrange := isDigit_toNat h
  simp only [isWhitespace, Bool.or_eq_false_iff, Bool.and_eq_false_iff, decide_eq_false_iff_not, beq_eq_false_iff_ne]
  omega

theorem toLower_of_isDigit {c : Char} (h : c.isDigit = true) : c.toLower = c := by
  have hrange := isDigit_toNat h
  unfold Char.toLower
  rw [dif_neg]
  intro ⟨hupper, _⟩
  have hle : 65 ≤ c.toNat := UInt32.le_iff_toNat_le.mp hupper
  omega

theorem prim_digits (n : Nat) (hE : 2 ^ 63 ≤ n → E)
    : Prim E (Nat.toDigits 10 n) (.literal (.int (Int64.ofInt n))) := by
  have hdigits : ∀ c ∈ Nat.toDigits 10 n, c.isDigit = true :=
    fun c hc => Nat.isDigit_of_mem_toDigits (by decide) (by decide) hc
  have ⟨c, cs, hcons⟩ := List.exists_cons_of_ne_nil (@Nat.toDigits_ne_nil n 10)
  have hc : c.isDigit = true := hdigits c (by simp [hcons])
  constructor
  . rw [hcons]
    apply head_of_char (isWhitespace_of_isDigit hc)
    . intro heq
      rw [heq] at hc
      cases hc
    . rw [toLower_of_isDigit hc]
      intro heq
      rw [heq] at hc
      cases hc
  . intro fuel s rest hs hrest
    match fuel with
    | 0 => trivial
    | fuel + 1 =>
      have hstop : ∀ c ∈ rest.head?, c.isDigit = false ∧ c ≠ '.' := by
        intro c hc
        rcases hrest.head c hc with rfl | rfl | rfl <;> decide
      have hnumber : Upto E (Is (.literal (.int (Int64.ofInt n))) rest) (parseNumber (Nat.toDigits 10 n ++ rest)) := by
        rw [parseNumber, numberBody_digits hdigits hstop]
        dsimp only
        rw [if_neg Bool.false_ne_true, parseI64_digits]
        by_cases hn : n < 2 ^ 63
        . rw [if_pos hn]
          exact ⟨rfl, rfl⟩
        . rw [if_neg hn]
          exact hE (by omega)
      rw [parsePrimary, hs]
      split
      . next r heq =>
        rw [hcons] at heq
        rw [(List.cons.inj heq).1] at hc
        cases hc
      . next r heq =>
        rw [hcons] at heq
        rw [(List.cons.inj heq).1] at hc
        cases hc
      . next r heq =>
        rw [hcons] at heq
        rw [(List.cons.inj heq).1] at hc
        cases hc
      . rw [if_pos]
        . exact hnumber
        . rw [hcons]
          exact hc

theorem prim_minus {text : List Char} {expr : PolicyExpr} (h : Prim E text expr)
    : Prim E ('-' :: text) (.unaryOp .minus expr) where
  toHead := head_of_char (by decide) (by decide) (by decide) _
  parse := by
    intro fuel s rest hs hrest
    match fuel with
    | 0 => trivial
    | fuel + 1 =>
      rw [parsePrimary, hs]
      apply (h.parse fuel (text ++ rest) rest (h.starts.skip rest) hrest).bind
      intro x ⟨hexpr, hskip⟩
      rw [← hexpr]
      exact ⟨rfl, hskip⟩

theorem prim_int (n : Int64) (hE : n < 0 → E)
    : Prim E (Printer.intText n) (if n < 0 then .unaryOp .minus (.literal (.int (-n))) else .literal (.int n)) := by
  have hlt := n.toInt_lt
  have hle := n.le_toInt
  unfold Printer.intText
  by_cases hn : n < 0
  . have hneg : n.toInt < 0 := Int64.lt_iff_toInt_lt.mp hn
    have hvalue : Int64.ofInt (n.toInt.natAbs : Int) = -n := by
      have habs : (n.toInt.natAbs : Int) = -n.toInt := by omega
      rw [habs, Int64.ofInt_neg, Int64.ofInt_toInt]
    rw [if_pos hn, if_pos hn, ← hvalue]
    exact prim_minus (prim_digits _ (fun _ => hE hn))
  . have hnonneg : 0 ≤ n.toInt := by
      have hnot := mt Int64.lt_iff_toInt_lt.mpr hn
      exact Int.not_lt.mp hnot
    have hvalue : Int64.ofInt (n.toInt.natAbs : Int) = n := by
      rw [Int.natAbs_of_nonneg hnonneg, Int64.ofInt_toInt]
    rw [if_neg hn, if_neg hn, List.nil_append]
    have hprim := @prim_digits E n.toInt.natAbs (fun h => by omega)
    rwa [hvalue] at hprim

/-! Levels -/

/--
The text is read as the comparison or the operand.
-/
structure Comp (E : Prop) (text : List Char) (expr : PolicyExpr) : Prop extends Head text where
  parse : ∀ fuel s rest, skipWhitespace s = text ++ rest → Follow 3 rest
    → Upto E (Is expr rest) (parseComparison fuel s)

structure Nots (E : Prop) (text : List Char) (expr : PolicyExpr) : Prop where
  starts : Starts text
  parse : ∀ fuel s rest, skipWhitespace s = text ++ rest → Follow 2 rest
    → Upto E (Is expr rest) (parseNotExpr fuel s)

/--
The text is read as what is to the left of the next `AND`.
-/
structure Ands (E : Prop) (text : List Char) (expr : PolicyExpr) : Prop where
  starts : Starts text
  parse : ∀ (Q : PolicyExpr × List Char → Prop) fuel s rest, skipWhitespace s = text ++ rest → Follow 2 rest
    → (∀ fuel' rest', skipWhitespace rest' = skipWhitespace rest → Upto E Q (parseAndLoop fuel' expr rest'))
    → Upto E Q (parseAndExpr fuel s)

/--
The text is read as what is to the left of the next `OR`.
-/
structure Ors (E : Prop) (text : List Char) (expr : PolicyExpr) : Prop where
  starts : Starts text
  parse : ∀ (Q : PolicyExpr × List Char → Prop) fuel s rest, skipWhitespace s = text ++ rest → Follow 1 rest
    → (∀ fuel' rest', skipWhitespace rest' = skipWhitespace rest → Upto E Q (parseOrLoop fuel' expr rest'))
    → Upto E Q (parseOrExpr fuel s)

theorem Prim.comp {text : List Char} {expr : PolicyExpr} (h : Prim E text expr) : Comp E text expr where
  toHead := h.toHead
  parse := by
    intro fuel s rest hs hrest
    match fuel with
    | 0 => trivial
    | fuel + 1 =>
      rw [parseComparison]
      apply (h.parse fuel s rest hs hrest.toStops).bind
      intro x ⟨hexpr, hskip⟩
      have hwords := hrest.words
      have hsymbol := hrest.symbol
      rw [← hskip] at hwords hsymbol
      dsimp only
      apply upto_word (by decide)
      rw [hwords "IS" (by simp)]
      apply upto_word (by decide)
      rw [hwords "NOT" (by simp)]
      apply upto_word (by decide)
      rw [hwords "IN" (by simp)]
      have hops := tryParseComparisonOp_eq (skipWhitespace x.2)
      rw [skipWhitespace_idem] at hops
      rcases hops with ⟨op, after, hsome, _⟩ | ⟨_, hop⟩
      . rw [hsymbol] at hsome
        cases hsome
      . rw [hop, bind_assoc]
        apply upto_word (by decide)
        rw [hwords "LIKE" (by simp)]
        dsimp only
        rw [bind_assoc]
        apply upto_word (by decide)
        rw [hwords "ILIKE" (by simp), hskip]
        exact ⟨hexpr, skipWhitespace_idem rest⟩

theorem Comp.nots {text : List Char} {expr : PolicyExpr} (h : Comp E text expr) : Nots E text expr where
  starts := h.starts
  parse := by
    intro fuel s rest hs hrest
    match fuel with
    | 0 => trivial
    | fuel + 1 =>
      rw [parseNotExpr, hs]
      apply upto_word (by decide)
      rw [h.not rest hrest.toStops]
      exact h.parse fuel (text ++ rest) rest (h.starts.skip rest) (hrest.mono (by decide))

theorem Nots.ands {text : List Char} {expr : PolicyExpr} (h : Nots E text expr) : Ands E text expr where
  starts := h.starts
  parse := by
    intro Q fuel s rest hs hrest hloop
    match fuel with
    | 0 => trivial
    | fuel + 1 =>
      rw [parseAndExpr]
      apply (h.parse fuel s rest hs hrest).bind
      intro x ⟨hexpr, hskip⟩
      rw [← hexpr] at hloop
      exact hloop fuel x.2 hskip

theorem Ands.andExpr {text : List Char} {expr : PolicyExpr} (h : Ands E text expr) {fuel : Nat} {s rest : List Char}
    (hs : skipWhitespace s = text ++ rest) (hrest : Follow 1 rest) : Upto E (Is expr rest) (parseAndExpr fuel s) := by
  apply h.parse _ fuel s rest hs (hrest.mono (by decide))
  intro fuel' rest' hrest'
  match fuel' with
  | 0 => trivial
  | fuel' + 1 =>
    rw [parseAndLoop, hrest']
    apply upto_word (by decide)
    rw [hrest.and (by decide)]
    exact is_skip expr rest

theorem Ands.ors {text : List Char} {expr : PolicyExpr} (h : Ands E text expr) : Ors E text expr where
  starts := h.starts
  parse := by
    intro Q fuel s rest hs hrest hloop
    match fuel with
    | 0 => trivial
    | fuel + 1 =>
      rw [parseOrExpr]
      apply (h.andExpr hs hrest).bind
      intro x ⟨hexpr, hskip⟩
      rw [← hexpr] at hloop
      exact hloop fuel x.2 hskip

theorem Ors.orExpr {text : List Char} {expr : PolicyExpr} (h : Ors E text expr) {fuel : Nat} {s rest : List Char}
    (hs : skipWhitespace s = text ++ rest) (hrest : Follow 0 rest) : Upto E (Is expr rest) (parseOrExpr fuel s) := by
  apply h.parse _ fuel s rest hs (hrest.mono (by decide))
  intro fuel' rest' hrest'
  match fuel' with
  | 0 => trivial
  | fuel' + 1 =>
    rw [parseOrLoop, hrest']
    apply upto_word (by decide)
    rw [hrest.or rfl]
    exact is_skip expr rest

theorem Ors.parens {text : List Char} {expr : PolicyExpr} (h : Ors E text expr)
    : Prim E (Printer.parens text) expr where
  toHead := head_of_char (by decide) (by decide) (by decide) _
  parse := by
    intro fuel s rest hs hrest
    match fuel with
    | 0 => trivial
    | fuel + 1 =>
      have htext : Printer.parens text ++ rest = '(' :: (text ++ ')' :: rest) := by simp [Printer.parens]
      rw [parsePrimary, hs, htext]
      apply (h.orExpr (h.starts.skip _) (follow_close 0 rest)).bind
      intro x ⟨hexpr, hskip⟩
      have hclose : skipWhitespace x.2 = ')' :: rest := hskip
      dsimp only
      rw [hclose, ← hexpr]
      exact ⟨rfl, rfl⟩

/-! Lists -/

theorem commas_starts {text : List Char} {texts : List (List Char)} (h : Starts text)
    : Starts (Printer.commas (text :: texts)) := by
  cases texts with
  | nil =>
    rw [Printer.commas, List.intercalate_singleton]
    exact h
  | cons text' texts =>
    rw [Printer.commas, List.intercalate_cons_cons, List.append_assoc]
    exact h.append _

theorem Starts.ne_close {text : List Char} (h : Starts text) (rest r : List Char) : text ++ rest ≠ ')' :: r := by
  have ⟨c, cs, hcons, _, hclose⟩ := h
  rw [hcons]
  intro heq
  exact hclose (List.cons.inj heq).1

theorem upto_parseListLoop {text : List Char} {expr : PolicyExpr} {texts : List (List Char)}
    {exprs : List PolicyExpr} (h : Prim E text expr) (hrest : List.Forall₂ (Prim E) texts exprs) (rest : List Char)
    {fuel : Nat} {s : List Char} (hs : skipWhitespace s = Printer.commas (text :: texts) ++ ')' :: rest)
    : Upto E (· = (expr :: exprs, rest)) (parseListLoop fuel s) := by
  induction hrest generalizing text expr fuel s with
  | nil =>
    rw [Printer.commas, List.intercalate_singleton] at hs
    match fuel with
    | 0 => trivial
    | fuel + 1 =>
      rw [parseListLoop]
      apply (h.parse fuel s (')' :: rest) hs (follow_close 0 rest).toStops).bind
      intro x ⟨hexpr, hskip⟩
      have hclose : skipWhitespace x.2 = ')' :: rest := hskip
      dsimp only
      rw [hclose, ← hexpr]
      exact rfl
  | @cons text' expr' texts exprs h' hrest ih =>
    rw [Printer.commas, List.intercalate_cons_cons, List.append_assoc, List.append_assoc] at hs
    match fuel with
    | 0 => trivial
    | fuel + 1 =>
      rw [parseListLoop]
      apply (h.parse fuel s _ hs (follow_comma 0 _).toStops).bind
      intro x ⟨hexpr, hskip⟩
      have hcomma : skipWhitespace x.2 = ',' :: ' ' :: (Printer.commas (text' :: texts) ++ ')' :: rest) := hskip
      dsimp only
      rw [hcomma, ← hexpr]
      have hblank : skipWhitespace (' ' :: (Printer.commas (text' :: texts) ++ ')' :: rest))
          = Printer.commas (text' :: texts) ++ ')' :: rest := (commas_starts h'.starts).skip (')' :: rest)
      apply (ih h' hblank).bind
      intro y hy
      rw [hy]
      exact rfl

theorem upto_parseList {texts : List (List Char)} {exprs : List PolicyExpr} (h : List.Forall₂ (Prim E) texts exprs)
    (rest : List Char) {fuel : Nat} {s : List Char}
    (hs : skipWhitespace s = Printer.parens (Printer.commas texts) ++ rest)
    : Upto E (· = (exprs, rest)) (parseList fuel s) := by
  have htext : Printer.parens (Printer.commas texts) ++ rest = '(' :: (Printer.commas texts ++ ')' :: rest) := by
    simp [Printer.parens]
  match fuel with
  | 0 => trivial
  | fuel + 1 =>
    rw [parseList, hs, htext, matchChar_cons, if_pos rfl]
    dsimp only
    cases h with
    | nil => exact rfl
    | @cons text expr texts exprs h hrest =>
      have hstarts := @commas_starts text texts h.starts
      rw [hstarts.skip]
      split
      . next r heq => exact absurd heq (hstarts.ne_close _ r)
      . exact upto_parseListLoop h hrest rest (hstarts.skip _)

theorem upto_parseArgsLoop {text : List Char} {expr : PolicyExpr} {texts : List (List Char)}
    {exprs : List PolicyExpr} (h : Ors E text expr) (hrest : List.Forall₂ (Ors E) texts exprs) (rest : List Char)
    {fuel : Nat} {s : List Char} (hs : skipWhitespace s = Printer.commas (text :: texts) ++ ')' :: rest)
    : Upto E (· = (expr :: exprs, rest)) (parseArgsLoop fuel s) := by
  induction hrest generalizing text expr fuel s with
  | nil =>
    rw [Printer.commas, List.intercalate_singleton] at hs
    match fuel with
    | 0 => trivial
    | fuel + 1 =>
      rw [parseArgsLoop]
      apply (h.orExpr hs (follow_close 0 rest)).bind
      intro x ⟨hexpr, hskip⟩
      have hclose : skipWhitespace x.2 = ')' :: rest := hskip
      dsimp only
      rw [hclose, ← hexpr]
      exact rfl
  | @cons text' expr' texts exprs h' hrest ih =>
    rw [Printer.commas, List.intercalate_cons_cons, List.append_assoc, List.append_assoc] at hs
    match fuel with
    | 0 => trivial
    | fuel + 1 =>
      rw [parseArgsLoop]
      apply (h.orExpr hs (follow_comma 0 _)).bind
      intro x ⟨hexpr, hskip⟩
      have hcomma : skipWhitespace x.2 = ',' :: ' ' :: (Printer.commas (text' :: texts) ++ ')' :: rest) := hskip
      dsimp only
      rw [hcomma, ← hexpr]
      have hblank : skipWhitespace (' ' :: (Printer.commas (text' :: texts) ++ ')' :: rest))
          = Printer.commas (text' :: texts) ++ ')' :: rest := (commas_starts h'.starts).skip (')' :: rest)
      apply (ih h' hblank).bind
      intro y hy
      rw [hy]
      exact rfl

theorem upto_parseArgs {texts : List (List Char)} {exprs : List PolicyExpr} (h : List.Forall₂ (Ors E) texts exprs)
    (rest : List Char) (fuel : Nat)
    : Upto E (· = (exprs, rest)) (parseArgs fuel (Printer.commas texts ++ ')' :: rest)) := by
  match fuel with
  | 0 => trivial
  | fuel + 1 =>
    rw [parseArgs]
    cases h with
    | nil => exact rfl
    | @cons text expr texts exprs h hrest =>
      have hstarts := @commas_starts text texts h.starts
      rw [hstarts.skip]
      split
      . next r heq => exact absurd heq (hstarts.ne_close _ r)
      . exact upto_parseArgsLoop h hrest rest (hstarts.skip _)

/-! Calls -/

theorem isName_of_lower {name : String} (hname : IsIdent name) {l : List (List Char)} (hmem : lower name ∈ l)
    (hkeywords : ∀ keyword ∈ ["NOT", "TRUE", "FALSE", "NULL"], lower keyword ∉ l) : IsName name := by
  refine ⟨hname, ?_⟩
  intro keyword hkeyword heq
  rw [heq] at hmem
  exact hkeywords keyword hkeyword hmem

theorem lower_of_domain {domain : String} (h : isDomainBuiltin domain = true)
    : lower domain ∈ ["object".toList, "bucket".toList, "row".toList, "table".toList, "connect".toList] := by
  unfold isDomainBuiltin at h
  rw [decide_eq_true_eq] at h
  have hmem := List.mem_map_of_mem (f := String.toList) h
  rw [String.toList_ofList] at hmem
  exact hmem

theorem isName_domain {domain : String} (hident : IsIdent domain) (hdomain : isDomainBuiltin domain = true)
    : IsName domain :=
  isName_of_lower hident (lower_of_domain hdomain) (by decide)

theorem lower_domain_ne {domain : String} (h : isDomainBuiltin domain = true) : lower domain ≠ "auth".toList := by
  intro heq
  have hmem := lower_of_domain h
  rw [heq] at hmem
  exact absurd hmem (by decide)

theorem isIdent_of_known {name : String} {count : Nat} (h : KnownCall name count) : IsIdent name := by
  have ⟨builtin, hname, _⟩ := h
  unfold AuthBuiltin.fromName at hname
  split at hname
  all_goals first | decide | cases hname

theorem validate_of_known {name : String} {count : Nat} (h : KnownCall name count)
    : ∃ builtin, validateBuiltinCall name count = .ok builtin := by
  have ⟨builtin, hname, hcount⟩ := h
  refine ⟨builtin, ?_⟩
  rw [validateBuiltinCall, hname]
  exact if_neg (not_not.mpr hcount)

theorem prim_authBuiltin {name : String} {texts : List (List Char)} {args : List PolicyExpr}
    (hcall : KnownCall name args.length) (h : List.Forall₂ (Ors E) texts args)
    : Prim E ("auth.".toList ++ name.toList ++ Printer.parens (Printer.commas texts)) (.authBuiltin name args) where
  toHead := @head_field "auth" (by decide) _
  parse := by
    intro fuel s rest hs hrest
    have ⟨builtin, hvalid⟩ := validate_of_known hcall
    have htext : "auth.".toList ++ name.toList ++ Printer.parens (Printer.commas texts) ++ rest
        = "auth".toList ++ '.' :: (name.toList ++ '(' :: (Printer.commas texts ++ ')' :: rest)) := by
      simp [Printer.parens]
    rw [htext] at hs
    apply upto_field (by decide) (isIdent_of_known hcall) (breaks_cons (by decide) _) _ hs
    intro fuel
    rw [if_pos (by decide)]
    apply (upto_parseArgs h rest fuel).bind
    intro x hx
    rw [hx]
    dsimp only
    rw [hvalid]
    exact ⟨rfl, rfl⟩

theorem prim_domainBuiltin {domain name : String} {texts : List (List Char)} {args : List PolicyExpr}
    (hident : IsIdent domain) (hdomain : isDomainBuiltin domain = true) (hname : IsIdent name)
    (h : List.Forall₂ (Ors E) texts args)
    : Prim E (domain.toList ++ '.' :: name.toList
        ++ (if args.isEmpty then [] else Printer.parens (Printer.commas texts))) (.domainBuiltin domain name args) where
  toHead := by
    rw [List.append_assoc]
    exact head_field (isName_domain hident hdomain) _
  parse := by
    intro fuel s rest hs hrest
    rw [List.append_assoc, List.append_assoc, List.cons_append] at hs
    cases args with
    | nil =>
      rw [List.isEmpty_nil, if_pos rfl, List.nil_append] at hs
      apply upto_field (isName_domain hident hdomain) hname hrest.breaks _ hs
      intro fuel
      rw [if_neg (lower_domain_ne hdomain), if_pos hdomain, hrest.matchChar]
      exact is_skip _ rest
    | cons arg args =>
      have htext : name.toList ++ ((if (arg :: args).isEmpty then [] else Printer.parens (Printer.commas texts)) ++ rest)
          = name.toList ++ '(' :: (Printer.commas texts ++ ')' :: rest) := by
        simp [Printer.parens]
      rw [htext] at hs
      apply upto_field (isName_domain hident hdomain) hname (breaks_cons (by decide) _) _ hs
      intro fuel
      rw [if_neg (lower_domain_ne hdomain), if_pos hdomain]
      apply (upto_parseArgs h rest fuel).bind
      intro x hx
      rw [hx]
      exact ⟨rfl, rfl⟩

/-! Comparisons -/

theorem head_append {text tail : List Char} (h : Head text) (htail : ∀ rest, Stops (tail ++ rest))
    : Head (text ++ tail) where
  starts := h.starts.append tail
  not := by
    intro rest _
    rw [List.append_assoc]
    exact h.not _ (htail rest)

def IsComparison (op : PolicyBinaryOp) : Prop :=
  op ≠ .and ∧ op ≠ .or

theorem stops_op (op : PolicyBinaryOp) (rest : List Char) : Stops (' ' :: (op.asSql.toList ++ rest)) where
  head := by
    intro c hc
    cases hc
    exact .inl rfl
  next := by
    intro c hc
    cases op <;> (cases hc; decide)

theorem upto_op {op : PolicyBinaryOp} (hop : IsComparison op) {s rest : List Char}
    (hs : skipWhitespace s = op.asSql.toList ++ ' ' :: rest)
    : Upto E (· = (some op, ' ' :: rest)) (tryParseComparisonOp s) := by
  have hbreak : ((' ' :: rest).head?.map isIdentChar).getD false = false := rfl
  cases op with
  | and => exact absurd rfl hop.1
  | or => exact absurd rfl hop.2
  | like =>
    have hops := tryParseComparisonOp_eq s
    rw [hs] at hops
    rcases hops with ⟨op, after, hsome, _⟩ | ⟨_, heq⟩
    . cases hsome
    . rw [heq]
      apply upto_word (by decide)
      rw [PolicyBinaryOp.asSql, word_self hbreak]
      exact rfl
  | iLike =>
    have hops := tryParseComparisonOp_eq s
    rw [hs] at hops
    rcases hops with ⟨op, after, hsome, _⟩ | ⟨_, heq⟩
    . cases hsome
    . have hlike : word "LIKE" ("ILIKE".toList ++ ' ' :: rest) = none := word_of_head rfl (by decide) _
      rw [heq]
      apply upto_word (by decide)
      rw [PolicyBinaryOp.asSql, hlike]
      apply upto_word (by decide)
      rw [word_self hbreak]
      exact rfl
  | _ =>
    rw [tryParseComparisonOp, hs]
    exact rfl

theorem comp_binaryOp {op : PolicyBinaryOp} (hop : IsComparison op) {left right : List Char} {l r : PolicyExpr}
    (hleft : Prim E left l) (hright : Prim E right r)
    : Comp E (left ++ ' ' :: (op.asSql.toList ++ ' ' :: right)) (.binaryOp op l r) where
  toHead := by
    apply head_append hleft.toHead
    intro rest
    rw [List.cons_append, List.append_assoc]
    exact stops_op op _
  parse := by
    intro fuel s rest hs hrest
    match fuel with
    | 0 => trivial
    | fuel + 1 =>
      have htext : left ++ ' ' :: (op.asSql.toList ++ ' ' :: right) ++ rest
          = left ++ ' ' :: (op.asSql.toList ++ ' ' :: (right ++ rest)) := by simp
      rw [htext] at hs
      rw [parseComparison]
      apply (hleft.parse fuel s _ hs (stops_op op _)).bind
      intro x ⟨hexpr, hskip⟩
      have hop' : skipWhitespace x.2 = op.asSql.toList ++ ' ' :: (right ++ rest) := by
        rw [hskip]
        cases op <;> rfl
      have hwords : ∀ keyword ∈ ["IS", "NOT", "IN"], word keyword (skipWhitespace x.2) = none := by
        intro keyword hkeyword
        rw [hop']
        simp only [List.mem_cons, List.not_mem_nil, or_false] at hkeyword
        rcases hkeyword with rfl | rfl | rfl <;> cases op <;> rfl
      dsimp only
      apply upto_word (by decide)
      rw [hwords "IS" (by simp)]
      apply upto_word (by decide)
      rw [hwords "NOT" (by simp)]
      apply upto_word (by decide)
      rw [hwords "IN" (by simp)]
      have htry : skipWhitespace (skipWhitespace x.2) = op.asSql.toList ++ ' ' :: (right ++ rest) := by
        rw [skipWhitespace_idem, hop']
      apply (upto_op hop htry).bind
      intro y hy
      rw [hy]
      apply (hright.parse fuel (' ' :: (right ++ rest)) rest (hright.starts.skip rest) hrest.toStops).bind
      intro z ⟨hz, hrest'⟩
      rw [← hexpr, ← hz]
      exact ⟨rfl, hrest'⟩

theorem stops_blank {c : Char} (hblank : isWhitespace c = false) (hnext : c ≠ '.' ∧ c ≠ '(') (rest : List Char)
    : Stops (' ' :: c :: rest) where
  head := by
    intro d hd
    cases hd
    exact .inl rfl
  next := by
    intro d hd
    have hskip : skipWhitespace (' ' :: c :: rest) = c :: rest := by
      show skipWhitespace (c :: rest) = c :: rest
      rw [skipWhitespace, List.dropWhile_cons, hblank]
      rfl
    rw [hskip] at hd
    cases hd
    exact hnext

theorem comp_isNull {text : List Char} {expr : PolicyExpr} (h : Prim E text expr) (negated : Bool)
    : Comp E (text ++ (if negated then " IS NOT NULL".toList else " IS NULL".toList)) (.isNull expr negated) where
  toHead := by
    apply head_append h.toHead
    intro rest
    cases negated <;> exact stops_blank (by decide) (by decide) _
  parse := by
    intro fuel s rest hs hrest
    match fuel with
    | 0 => trivial
    | fuel + 1 =>
      have hbreak := hrest.toStops.breaks.getD
      rw [List.append_assoc] at hs
      rw [parseComparison]
      cases negated with
      | false =>
        apply (h.parse fuel s _ hs (stops_blank (by decide) (by decide) _)).bind
        intro x ⟨hexpr, hskip⟩
        have his : skipWhitespace x.2 = "IS".toList ++ " NULL".toList ++ rest := hskip
        dsimp only
        rw [his, List.append_assoc]
        apply upto_word (by decide)
        rw [word_self rfl]
        have hnull : skipWhitespace (" NULL".toList ++ rest) = "NULL".toList ++ rest := rfl
        dsimp only
        rw [hnull, parseIsNull_eq]
        apply upto_word (by decide)
        have hnot : word "NOT" ("NULL".toList ++ rest) = none := rfl
        rw [hnot]
        apply upto_word (by decide)
        rw [word_self hbreak, ← hexpr]
        exact ⟨rfl, rfl⟩
      | true =>
        apply (h.parse fuel s _ hs (stops_blank (by decide) (by decide) _)).bind
        intro x ⟨hexpr, hskip⟩
        have his : skipWhitespace x.2 = "IS".toList ++ " NOT NULL".toList ++ rest := hskip
        dsimp only
        rw [his, List.append_assoc]
        apply upto_word (by decide)
        rw [word_self rfl]
        have hnot : skipWhitespace (" NOT NULL".toList ++ rest) = "NOT".toList ++ (" NULL".toList ++ rest) := rfl
        dsimp only
        rw [hnot, parseIsNull_eq]
        apply upto_word (by decide)
        rw [word_self rfl]
        have hnull : skipWhitespace (" NULL".toList ++ rest) = "NULL".toList ++ rest := rfl
        dsimp only
        rw [hnull]
        apply upto_word (by decide)
        rw [word_self hbreak, ← hexpr]
        exact ⟨rfl, rfl⟩

theorem comp_inList {text : List Char} {expr : PolicyExpr} (h : Prim E text expr) {texts : List (List Char)}
    {list : List PolicyExpr} (hlist : List.Forall₂ (Prim E) texts list) (negated : Bool)
    : Comp E (text ++ (if negated then " NOT IN ".toList else " IN ".toList) ++ Printer.parens (Printer.commas texts))
        (.inList expr list negated) where
  toHead := by
    rw [List.append_assoc]
    apply head_append h.toHead
    intro rest
    cases negated <;> exact stops_blank (by decide) (by decide) _
  parse := by
    intro fuel s rest hs hrest
    match fuel with
    | 0 => trivial
    | fuel + 1 =>
      rw [List.append_assoc, List.append_assoc] at hs
      rw [parseComparison]
      have hparens : skipWhitespace (' ' :: (Printer.parens (Printer.commas texts) ++ rest))
          = Printer.parens (Printer.commas texts) ++ rest := rfl
      cases negated with
      | false =>
        apply (h.parse fuel s _ hs (stops_blank (by decide) (by decide) _)).bind
        intro x ⟨hexpr, hskip⟩
        have hin : skipWhitespace x.2
            = "IN".toList ++ (' ' :: (Printer.parens (Printer.commas texts) ++ rest)) := hskip
        dsimp only
        have his : word "IS" ("IN".toList ++ (' ' :: (Printer.parens (Printer.commas texts) ++ rest))) = none := rfl
        have hnot : word "NOT" ("IN".toList ++ (' ' :: (Printer.parens (Printer.commas texts) ++ rest))) = none := rfl
        rw [hin]
        apply upto_word (by decide)
        rw [his]
        apply upto_word (by decide)
        rw [hnot]
        apply upto_word (by decide)
        rw [word_self rfl]
        apply (upto_parseList hlist rest hparens).bind
        intro y hy
        rw [hy, ← hexpr]
        exact ⟨rfl, rfl⟩
      | true =>
        apply (h.parse fuel s _ hs (stops_blank (by decide) (by decide) _)).bind
        intro x ⟨hexpr, hskip⟩
        have hnot : skipWhitespace x.2
            = "NOT".toList ++ (" IN ".toList ++ (Printer.parens (Printer.commas texts) ++ rest)) := hskip
        dsimp only
        have his : word "IS" ("NOT".toList ++ (" IN ".toList ++ (Printer.parens (Printer.commas texts) ++ rest))) = none := rfl
        have hin : skipWhitespace (" IN ".toList ++ (Printer.parens (Printer.commas texts) ++ rest))
            = "IN".toList ++ (' ' :: (Printer.parens (Printer.commas texts) ++ rest)) := rfl
        rw [hnot]
        apply upto_word (by decide)
        rw [his]
        apply upto_word (by decide)
        rw [word_self rfl]
        dsimp only
        rw [hin]
        apply upto_word (by decide)
        rw [word_self rfl]
        apply (upto_parseList hlist rest hparens).bind
        intro y hy
        rw [hy, ← hexpr]
        exact ⟨rfl, rfl⟩

theorem nots_not {text : List Char} {expr : PolicyExpr} (h : Nots E text expr)
    : Nots E ("NOT ".toList ++ text) (.unaryOp .not expr) where
  starts := ⟨'N', "OT ".toList ++ text, rfl, by decide, by decide⟩
  parse := by
    intro fuel s rest hs hrest
    match fuel with
    | 0 => trivial
    | fuel + 1 =>
      have hnot : skipWhitespace s = "NOT".toList ++ ' ' :: (text ++ rest) := hs
      rw [parseNotExpr, hnot]
      apply upto_word (by decide)
      rw [word_self rfl]
      apply (h.parse fuel _ rest (h.starts.skip_blank rest) hrest).bind
      intro x ⟨hexpr, hskip⟩
      rw [← hexpr]
      exact ⟨rfl, hskip⟩

theorem follow_and (rest : List Char) : Follow 2 (' ' :: ("AND".toList ++ rest)) where
  toStops := stops_blank (by decide) (by decide) _
  symbol := rfl
  words := by
    intro keyword hkeyword
    simp only [List.mem_cons, List.not_mem_nil, or_false] at hkeyword
    rcases hkeyword with rfl | rfl | rfl | rfl | rfl <;> rfl
  and := fun h => absurd h (by decide)
  or := fun h => absurd h (by decide)

theorem follow_or (rest : List Char) : Follow 1 (' ' :: ("OR".toList ++ rest)) where
  toStops := stops_blank (by decide) (by decide) _
  symbol := rfl
  words := by
    intro keyword hkeyword
    simp only [List.mem_cons, List.not_mem_nil, or_false] at hkeyword
    rcases hkeyword with rfl | rfl | rfl | rfl | rfl <;> rfl
  and := fun _ => rfl
  or := fun h => absurd h (by decide)

theorem ands_and {left right : List Char} {l r : PolicyExpr} (hleft : Ands E left l) (hright : Nots E right r)
    : Ands E (left ++ ' ' :: ("AND".toList ++ ' ' :: right)) (.binaryOp .and l r) where
  starts := hleft.starts.append _
  parse := by
    intro Q fuel s rest hs hrest hloop
    have htext : left ++ ' ' :: ("AND".toList ++ ' ' :: right) ++ rest
        = left ++ ' ' :: ("AND".toList ++ ' ' :: (right ++ rest)) := by simp
    rw [htext] at hs
    apply hleft.parse Q fuel s _ hs (follow_and _)
    intro fuel' rest' hrest'
    match fuel' with
    | 0 => trivial
    | fuel' + 1 =>
      have hand : skipWhitespace rest' = "AND".toList ++ ' ' :: (right ++ rest) := hrest'
      rw [parseAndLoop, hand]
      apply upto_word (by decide)
      rw [word_self rfl]
      apply (hright.parse fuel' _ rest (hright.starts.skip_blank rest) hrest).bind
      intro x ⟨hexpr, hskip⟩
      rw [← hexpr] at hloop
      exact hloop fuel' x.2 hskip

theorem ors_or {left right : List Char} {l r : PolicyExpr} (hleft : Ors E left l) (hright : Ands E right r)
    : Ors E (left ++ ' ' :: ("OR".toList ++ ' ' :: right)) (.binaryOp .or l r) where
  starts := hleft.starts.append _
  parse := by
    intro Q fuel s rest hs hrest hloop
    have htext : left ++ ' ' :: ("OR".toList ++ ' ' :: right) ++ rest
        = left ++ ' ' :: ("OR".toList ++ ' ' :: (right ++ rest)) := by simp
    rw [htext] at hs
    apply hleft.parse Q fuel s _ hs (follow_or _)
    intro fuel' rest' hrest'
    match fuel' with
    | 0 => trivial
    | fuel' + 1 =>
      have hor : skipWhitespace rest' = "OR".toList ++ ' ' :: (right ++ rest) := hrest'
      rw [parseOrLoop, hor]
      apply upto_word (by decide)
      rw [word_self rfl]
      apply (hright.andExpr (hright.starts.skip_blank rest) hrest).bind
      intro x ⟨hexpr, hskip⟩
      rw [← hexpr] at hloop
      exact hloop fuel' x.2 hskip

/-! Expressions -/

/--
The text is read as the expression where one of the level is asked for.
-/
def At (E : Prop) : Nat → List Char → PolicyExpr → Prop
  | 0 => Ors E
  | 1 => Ands E
  | 2 => Nots E
  | 3 => Comp E
  | _ => Prim E

theorem At.step {k : Nat} {text : List Char} {expr : PolicyExpr} (h : At E (k + 1) text expr) : At E k text expr := by
  match k with
  | 0 => exact Ands.ors h
  | 1 => exact Nots.ands h
  | 2 => exact Comp.nots h
  | 3 => exact Prim.comp h
  | k + 4 => exact h

theorem At.mono {k k' : Nat} (hle : k ≤ k') {text : List Char} {expr : PolicyExpr} (h : At E k' text expr)
    : At E k text expr := by
  induction hle with
  | refl => exact h
  | step hle ih => exact ih h.step

theorem Prim.at {text : List Char} {expr : PolicyExpr} (h : Prim E text expr) (k : Nat) : At E k text expr :=
  At.mono (Nat.le_add_right k 4) h

theorem At.wrap {l : Nat} {text : List Char} {expr : PolicyExpr} (h : At E l text expr) (k : Nat) (p : Bool)
    : At E k (Printer.wrap (p || l < k) text) expr := by
  unfold Printer.wrap
  split
  . exact (Ors.parens (At.mono (Nat.zero_le l) h)).at k
  . next hcond =>
    rw [Bool.or_eq_true, decide_eq_true_eq, not_or] at hcond
    exact At.mono (by omega) h

theorem length_unsignAll (exprs : List PolicyExpr) : (unsignAll exprs).length = exprs.length := by
  induction exprs with
  | nil => rfl
  | cons expr exprs ih => rw [unsignAll, List.length_cons, List.length_cons, ih]

theorem isEmpty_unsignAll (exprs : List PolicyExpr) : (unsignAll exprs).isEmpty = exprs.isEmpty := by
  cases exprs <;> rfl

variable (paren : PolicyExpr → Bool)

theorem at_literal {lit : PolicyLiteral} (hprint : (PolicyExpr.literal lit).Printable)
    (hE : ¬ (PolicyExpr.literal lit).Unsigned → E)
    : Prim E (Printer.literalText lit) (PolicyExpr.literal lit).unsign := by
  match lit with
  | .null => exact prim_null
  | .bool true => exact prim_true
  | .bool false => exact prim_false
  | .int n => exact prim_int n (fun hn => hE (by rw [PolicyExpr.Unsigned]; exact Int64.not_le.mpr hn))
  | .string value => exact prim_string value
  | .float _ => exact hprint.elim

theorem at_binaryOp {op : PolicyBinaryOp} {left right : List Char} {l r : PolicyExpr}
    (hleft : At E (Printer.leftLevel op) left l) (hright : At E (Printer.rightLevel op) right r) (x y : PolicyExpr)
    : At E (Printer.level (.binaryOp op x y)) (left ++ ' ' :: (op.asSql.toList ++ ' ' :: right)) (.binaryOp op l r) := by
  cases op with
  | or => exact ors_or hleft hright
  | and => exact ands_and hleft hright
  | _ =>
    apply comp_binaryOp _ hleft hright
    constructor <;> decide

mutual

/--
Each expression is read back where one of its level is asked for.
-/
theorem at_body (expr : PolicyExpr) (hprint : expr.Printable) (hE : ¬ expr.Unsigned → E)
    : At E (Printer.level expr) (Printer.body paren expr) expr.unsign := by
  match expr with
  | .column name => exact prim_column hprint
  | .qualifiedColumn table column =>
    have ⟨htable, hauth, hdomain, hcolumn⟩ := hprint
    exact prim_qualifiedColumn htable hauth hdomain hcolumn
  | .literal lit => exact at_literal hprint hE
  | .binaryOp op left right =>
    have hleft := at_body left hprint.1 (fun h => hE (fun hu => h hu.1))
    have hright := at_body right hprint.2 (fun h => hE (fun hu => h hu.2))
    exact at_binaryOp (hleft.wrap _ _) (hright.wrap _ _) left right
  | .unaryOp .not expr =>
    have h := at_body expr hprint hE
    exact nots_not (h.wrap 2 _)
  | .unaryOp .minus expr =>
    have h := at_body expr hprint hE
    exact prim_minus (h.wrap 4 _)
  | .authBuiltin name args =>
    have h := at_texts 0 args hprint.2 hE
    have hcall := hprint.1
    rw [← length_unsignAll] at hcall
    exact prim_authBuiltin hcall h
  | .domainBuiltin domain name args =>
    have ⟨hident, hdomain, hname, hargs⟩ := hprint
    have h := at_texts 0 args hargs hE
    rw [Printer.body, ← isEmpty_unsignAll]
    exact prim_domainBuiltin hident hdomain hname h
  | .isNull expr negated =>
    have h := at_body expr hprint hE
    exact comp_isNull (h.wrap 4 _) negated
  | .inList expr list negated =>
    have h := at_body expr hprint.1 (fun h => hE (fun hu => h hu.1))
    have hlist := at_texts 4 list hprint.2 (fun h => hE (fun hu => h hu.2))
    exact comp_inList (h.wrap 4 _) hlist negated
  | .subquery _ => exact hprint.elim

theorem at_texts (k : Nat) (exprs : List PolicyExpr) (hprint : AllPrintable exprs) (hE : ¬ AllUnsigned exprs → E)
    : List.Forall₂ (At E k) (Printer.texts paren k exprs) (unsignAll exprs) := by
  match exprs with
  | [] => exact List.Forall₂.nil
  | expr :: exprs =>
    have h := at_body expr hprint.1 (fun h => hE (fun hu => h hu.1))
    exact List.Forall₂.cons (h.wrap k _) (at_texts k exprs hprint.2 (fun h => hE (fun hu => h hu.2)))

end

end

mutual

theorem unsign_eq_iff (expr : PolicyExpr) : expr.unsign = expr ↔ expr.Unsigned := by
  match expr with
  | .literal (.int n) =>
    rw [PolicyExpr.unsign, PolicyExpr.Unsigned]
    split
    . next hn =>
      apply iff_of_false
      . intro heq
        cases heq
      . exact Int64.not_le.mpr hn
    . next hn => exact iff_of_true rfl (Int64.not_lt.mp hn)
  | .binaryOp op left right =>
    rw [PolicyExpr.unsign, PolicyExpr.Unsigned, ← unsign_eq_iff left, ← unsign_eq_iff right, PolicyExpr.binaryOp.injEq,
      and_iff_right rfl]
  | .unaryOp op expr =>
    rw [PolicyExpr.unsign, PolicyExpr.Unsigned, ← unsign_eq_iff expr, PolicyExpr.unaryOp.injEq, and_iff_right rfl]
  | .authBuiltin name args =>
    rw [PolicyExpr.unsign, PolicyExpr.Unsigned, ← unsignAll_eq_iff args, PolicyExpr.authBuiltin.injEq, and_iff_right rfl]
  | .domainBuiltin domain name args =>
    rw [PolicyExpr.unsign, PolicyExpr.Unsigned, ← unsignAll_eq_iff args, PolicyExpr.domainBuiltin.injEq, and_iff_right rfl,
      and_iff_right rfl]
  | .isNull expr negated =>
    rw [PolicyExpr.unsign, PolicyExpr.Unsigned, ← unsign_eq_iff expr, PolicyExpr.isNull.injEq, and_iff_left rfl]
  | .inList expr list negated =>
    rw [PolicyExpr.unsign, PolicyExpr.Unsigned, ← unsign_eq_iff expr, ← unsignAll_eq_iff list, PolicyExpr.inList.injEq,
      and_iff_left rfl]
  | .column _ => exact iff_of_true rfl trivial
  | .qualifiedColumn _ _ => exact iff_of_true rfl trivial
  | .literal .null => exact iff_of_true rfl trivial
  | .literal (.bool _) => exact iff_of_true rfl trivial
  | .literal (.string _) => exact iff_of_true rfl trivial
  | .literal (.float _) => exact iff_of_true rfl trivial
  | .subquery _ => exact iff_of_true rfl trivial

theorem unsignAll_eq_iff (exprs : List PolicyExpr) : unsignAll exprs = exprs ↔ AllUnsigned exprs := by
  match exprs with
  | [] => exact iff_of_true rfl trivial
  | expr :: exprs =>
    rw [unsignAll, AllUnsigned, ← unsign_eq_iff expr, ← unsignAll_eq_iff exprs, List.cons.injEq]

end

theorem starts_of_at {E : Prop} {k : Nat} {text : List Char} {expr : PolicyExpr} (h : At E k text expr)
    : Starts text :=
  (At.mono (Nat.zero_le k) h : Ors E text expr).starts

/--
What is read back is the expression with a minus for the sign of its integers. Without negative integers
the parser only fails where it panics.
-/
theorem parsePolicyExpr_body (paren : PolicyExpr → Bool) {expr : PolicyExpr} (hprint : expr.Printable)
    : (parsePolicyExpr (Printer.print paren expr) = .ok expr.unsign ∧ Clear (Printer.print paren expr))
        ∨ (¬ expr.Unsigned ∧ ∃ e, parsePolicyExpr (Printer.print paren expr) = .error (.error e))
        ∨ (parsePolicyExpr (Printer.print paren expr) = .error .sliced ∧ ¬ Clear (Printer.print paren expr)) := by
  have hat := at_body paren expr hprint (E := ¬ expr.Unsigned) id
  have htext : (Printer.print paren expr).toList = Printer.body paren expr := String.toList_ofList
  have hnil : Follow 0 [] := {
    head := nofun
    next := nofun
    symbol := rfl
    words := by decide
    and := fun _ => rfl
    or := fun _ => rfl
  }
  have hskip := (starts_of_at hat).skip []
  have hparse := @Ors.orExpr _ _ _ (At.mono (Nat.zero_le _) hat)
    (8 * (Printer.print paren expr).toList.length + 16) (Printer.print paren expr).toList [] (by
      rw [htext]
      rwa [List.append_nil] at hskip ⊢) hnil
  unfold parsePolicyExpr
  dsimp only
  rcases parse_cases (Printer.print paren expr) with ⟨⟨expr', rest⟩, hok, hclear⟩ | ⟨e, he, hclear⟩ | ⟨hsliced, hclear⟩
  . rw [hok] at hparse
    have ⟨hexpr, hrest⟩ := hparse
    left
    rw [hok]
    refine ⟨?_, hclear⟩
    have hend : skipWhitespace rest = [] := hrest
    dsimp only [bind, Except.bind]
    rw [hend, ← hexpr]
  . rw [he] at hparse
    rw [he]
    exact .inr (.inl ⟨hparse, e, rfl⟩)
  . rw [hsliced]
    exact .inr (.inr ⟨rfl, hclear⟩)

/--
The parser reads an expression back from its text, whichever redundant parentheses are written: those
around every compound expression, or none, so that `NOT` binds tighter than `AND` and `AND` tighter than
`OR`, both to the left.
-/
theorem parsePolicyExpr_print (paren : PolicyExpr → Bool) {expr : PolicyExpr} (hprint : expr.Printable)
    (hclear : Clear (Printer.print paren expr))
    : parsePolicyExpr (Printer.print paren expr) = .ok expr ↔ expr.Unsigned := by
  rcases parsePolicyExpr_body paren hprint with ⟨hok, _⟩ | ⟨hsigned, e, he⟩ | ⟨_, hnot⟩
  . rw [hok, Except.ok.injEq]
    exact unsign_eq_iff expr
  . apply iff_of_false _ hsigned
    intro hok
    rw [he] at hok
    cases hok
  . exact absurd hclear hnot

theorem parsePolicyExpr_print_connectives
    : parsePolicyExpr "a OR b AND NOT c = 'it''s' AND d"
        = .ok (.binaryOp .or (.column "a")
            (.binaryOp .and
              (.binaryOp .and (.column "b")
                (.unaryOp .not (.binaryOp .eq (.column "c") (.literal (.string "it's")))))
              (.column "d"))) := by
  let expr : PolicyExpr := .binaryOp .or (.column "a")
    (.binaryOp .and
      (.binaryOp .and (.column "b")
        (.unaryOp .not (.binaryOp .eq (.column "c") (.literal (.string "it's")))))
      (.column "d"))
  have htext : Printer.print (fun _ => false) expr = "a OR b AND NOT c = 'it''s' AND d" := by decide
  have hclear : Clear (Printer.print (fun _ => false) expr) := by
    apply clear_of_ascii
    rw [htext]
    decide
  have hname : ∀ name ∈ ["a", "b", "c", "d"], IsName name := by decide
  have hprint : expr.Printable :=
    ⟨hname "a" (by decide), ⟨hname "b" (by decide), hname "c" (by decide), trivial⟩, hname "d" (by decide)⟩
  rw [← htext]
  exact (parsePolicyExpr_print (fun _ => false) hprint hclear).mpr ⟨trivial, ⟨trivial, trivial, trivial⟩, trivial⟩

example : Printer.print isCompound (.binaryOp .and (.unaryOp .not (.column "a")) (.isNull (.column "b") true))
    = "(NOT a) AND (b IS NOT NULL)" := by
  decide

/--
The minus in front of a number is read as an operator.
-/
theorem not_parsePolicyExpr_print
    : ¬ ∀ expr : PolicyExpr, expr.Printable → parsePolicyExpr (Printer.print isCompound expr) = .ok expr := by
  intro h
  have hparse : parsePolicyExpr (Printer.print isCompound (.literal (.int (-5))))
      = .ok (.unaryOp .minus (.literal (.int 5))) := by
    decide
  have hback := h (.literal (.int (-5))) trivial
  rw [hparse] at hback
  cases hback

end Reactor.Policy
