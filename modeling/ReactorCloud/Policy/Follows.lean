import ReactorCloud.Policy.Reader
import ReactorCloud.Rust.Result

/-!
This module proves that the parser of policy expressions follows the reader, from which it follows when
it panics and which calls it accepts.
-/

namespace Reactor.Policy.Grammar

/-! Keywords -/

theorem length_le_utf8Len (cs : List Char) : cs.length ≤ utf8Len cs := by
  induction cs with
  | nil => rfl
  | cons c cs ih =>
    have hpos := c.utf8Size_pos
    show cs.length + 1 ≤ c.utf8Size + utf8Len cs
    omega

theorem utf8Len_ascii {cs : List Char} (h : ∀ c ∈ cs, c.utf8Size = 1) : utf8Len cs = cs.length := by
  induction cs with
  | nil => rfl
  | cons c cs ih =>
    rw [List.forall_mem_cons] at h
    show c.utf8Size + utf8Len cs = cs.length + 1
    rw [h.1, ih h.2, Nat.add_comm]

theorem splitBytes_succ (n : Nat) (c : Char) (cs : List Char)
    : splitBytes (n + 1) (c :: cs)
        = if c.utf8Size ≤ n + 1 then
            (splitBytes (n + 1 - c.utf8Size) cs).map (fun (before, after) => (c :: before, after))
          else
            none := rfl

theorem splitBytes_spec {n : Nat} {cs before after : List Char} (h : splitBytes n cs = some (before, after))
    : before ++ after = cs ∧ utf8Len before = n := by
  induction cs generalizing n before with
  | nil =>
    cases n with
    | zero =>
      cases h
      exact ⟨rfl, rfl⟩
    | succ n => cases h
  | cons c cs ih =>
    cases n with
    | zero =>
      cases h
      exact ⟨rfl, rfl⟩
    | succ n =>
      rw [splitBytes_succ] at h
      split at h
      . rw [Option.map_eq_some_iff] at h
        have ⟨⟨before', after'⟩, hsplit, heq⟩ := h
        cases heq
        have ⟨hcs, hlen⟩ := ih hsplit
        constructor
        . rw [List.cons_append, hcs]
        . show c.utf8Size + utf8Len before' = n + 1
          omega
      . cases h

theorem utf8Size_of_toLower {c : Char} (h : c.toLower.utf8Size = 1) : c.utf8Size = 1 := by
  unfold Char.toLower at h
  split at h
  . next hrange =>
    have hle : c.val ≤ 127 := UInt32.le_trans hrange.2 (by decide)
    unfold Char.utf8Size
    exact if_pos hle
  . exact h

/--
The letters of a keyword are ASCII, whatever their case.
-/
def IsKeyword (keyword : String) : Prop :=
  ∀ c ∈ keyword.toList.map Char.toLower, c.utf8Size = 1

instance (keyword : String) : Decidable (IsKeyword keyword) :=
  List.decidableBAll _ _

theorem word_of_split {keyword : String} (hkeyword : IsKeyword keyword) {before after : List Char}
    (hbytes : utf8Len before = keyword.toList.length)
    : word keyword (before ++ after)
        = if before.map Char.toLower ≠ keyword.toList.map Char.toLower then
            none
          else if (after.head?.map isIdentChar).getD false then
            none
          else
            some after := by
  by_cases heq : before.map Char.toLower = keyword.toList.map Char.toLower
  . have hlen : before.length = keyword.toList.length := by
      rw [← List.length_map Char.toLower, heq, List.length_map]
    unfold word
    dsimp only
    rw [← hlen, List.take_left, List.drop_left, if_neg (not_not.mpr heq)]
    cases (after.head?.map isIdentChar).getD false with
    | false => exact if_pos ⟨heq, rfl⟩
    | true => exact if_neg (fun h => Bool.noConfusion h.2)
  . rw [if_pos heq, word, if_neg]
    intro ⟨htake, _⟩
    -- The characters in the place of the keyword are its letters, so they are what the bytes give.
    have hle := length_le_utf8Len before
    rw [List.take_append, List.take_of_length_le (by omega)] at htake
    have hascii : ∀ c ∈ before, c.utf8Size = 1 := by
      intro c hc
      apply utf8Size_of_toLower
      apply hkeyword
      rw [← htake]
      exact List.mem_map_of_mem (List.mem_append_left _ hc)
    rw [← hbytes, utf8Len_ascii hascii, Nat.sub_self, List.take_zero, List.append_nil] at htake
    exact heq htake

theorem word_eq_none_of_short {keyword : String} {rest : List Char}
    (h : utf8Len rest < keyword.toList.length) : word keyword rest = none := by
  rw [word, if_neg]
  intro ⟨htake, _⟩
  have hle := length_le_utf8Len rest
  have hlen := congrArg List.length htake
  rw [List.length_map, List.length_map, List.length_take] at hlen
  omega

theorem matchKeyword_eq {keyword : String} (hkeyword : IsKeyword keyword) (rest : List Char)
    : matchKeyword keyword rest
        = if Whole keyword.toList.length rest then .ok (word keyword rest) else .error .sliced := by
  unfold matchKeyword
  dsimp only
  split
  . next hshort => rw [if_pos (.inl hshort), word_eq_none_of_short hshort]
  . next hlong =>
    cases hsplit : splitBytes keyword.toList.length rest with
    | none =>
      have hnot : ¬ Whole keyword.toList.length rest := not_or.mpr ⟨hlong, not_not.mpr hsplit⟩
      rw [if_neg hnot]
    | some parts =>
      have ⟨before, after⟩ := parts
      have ⟨happend, hbytes⟩ := splitBytes_spec hsplit
      have hwhole : Whole keyword.toList.length rest := by
        apply Or.inr
        rw [hsplit]
        exact Option.some_ne_none _
      rw [if_pos hwhole, ← happend, word_of_split hkeyword hbytes]
      dsimp only
      split
      . rfl
      . split
        . rfl
        . rfl

theorem length_of_word {keyword : String} {rest after : List Char} (h : word keyword rest = some after)
    : after.length + keyword.toList.length = rest.length := by
  unfold word at h
  dsimp only at h
  split at h
  . next hword =>
    cases h
    have hlen := congrArg List.length hword.1
    rw [List.length_map, List.length_map, List.length_take] at hlen
    rw [List.length_drop]
    omega
  . cases h

theorem skipWhitespace_idem (rest : List Char)
    : skipWhitespace (skipWhitespace rest) = skipWhitespace rest :=
  List.dropWhile_idempotent _ _

theorem length_skipWhitespace (rest : List Char) : (skipWhitespace rest).length ≤ rest.length :=
  (List.dropWhile_sublist _).length_le

/-! Operators -/

theorem matchChar_eq (c : Char) (rest : List Char) : matchChar c rest = matchStr [c] rest := by
  cases rest with
  | nil => rfl
  | cons d rest =>
    unfold matchChar matchStr
    by_cases h : d = c
    . subst h
      simp
    . simp [h, Ne.symm h]

theorem matchChar_cons (c d : Char) (rest : List Char)
    : matchChar c (d :: rest) = if d = c then some rest else none := rfl

theorem length_of_symbol {rest after : List Char} (h : symbol rest = some after)
    : after.length < rest.length := by
  unfold symbol at h
  have ⟨s, hs, hmatch⟩ := List.exists_of_findSome?_eq_some h
  unfold matchStr at hmatch
  split at hmatch
  . next hfront =>
    cases hmatch
    have hlen := (List.isPrefixOf_iff_prefix.mp hfront).length_le
    have hpos : 0 < s.length := by
      have : ∀ s ∈ [['<', '='], ['>', '='], ['<', '>'], ['!', '='], ['='], ['<'], ['>']], 0 < s.length := by
        decide
      exact this s hs
    rw [List.length_drop]
    omega
  . cases hmatch

/--
The operators of other characters stand before the keywords.
-/
theorem tryParseComparisonOp_eq (rest : List Char)
    : (∃ op after, symbol (skipWhitespace rest) = some after ∧ tryParseComparisonOp rest = .ok (some op, after))
      ∨ symbol (skipWhitespace rest) = none
        ∧ tryParseComparisonOp rest
            = (matchKeyword "LIKE" (skipWhitespace rest) >>= fun
                | some after => .ok (some .like, after)
                | none => matchKeyword "ILIKE" (skipWhitespace rest) >>= fun
                  | some after => .ok (some .iLike, after)
                  | none => .ok (none, skipWhitespace rest)) := by
  unfold tryParseComparisonOp
  simp only [matchChar_eq, symbol, List.findSome?_cons, List.findSome?_nil]
  generalize skipWhitespace rest = rest
  cases matchStr ['<', '='] rest with
  | some after => exact .inl ⟨_, after, rfl, rfl⟩
  | none =>
  cases matchStr ['>', '='] rest with
  | some after => exact .inl ⟨_, after, rfl, rfl⟩
  | none =>
  cases matchStr ['<', '>'] rest with
  | some after => exact .inl ⟨_, after, rfl, rfl⟩
  | none =>
  cases matchStr ['!', '='] rest with
  | some after => exact .inl ⟨_, after, rfl, rfl⟩
  | none =>
  cases matchStr ['='] rest with
  | some after => exact .inl ⟨_, after, rfl, rfl⟩
  | none =>
  cases matchStr ['<'] rest with
  | some after => exact .inl ⟨_, after, rfl, rfl⟩
  | none =>
  cases matchStr ['>'] rest with
  | some after => exact .inl ⟨_, after, rfl, rfl⟩
  | none =>
  refine .inr ⟨rfl, ?_⟩
  cases matchKeyword "LIKE" rest with
  | error e => rfl
  | ok found =>
    cases found with
    | some after => rfl
    | none =>
      cases matchKeyword "ILIKE" rest with
      | error e => rfl
      | ok found => cases found <;> rfl

/-! Outcomes -/

abbrev AlwaysClear (r : Option Reader) : Prop :=
  Always Reader.next Reader.Clear r

abbrev AlwaysKnown (r : Option Reader) : Prop :=
  Always Reader.next Reader.CallKnown r

/--
A part of the parser does what the reader does from `r` to `after`. It returns less than `len` characters,
fails where the reader stops, panics where a keyword ends inside of a character, and the calls that are
closed on the way are those of its result.
-/
def Follows {α : Type} (before : Prop) (r : Option Reader) (len : Nat) (known : α → Prop)
    (after : α → List Char → Option Reader) : Except ParseFailure (α × List Char) → Prop
  | .ok (x, rest) =>
    rest.length < len ∧ (AlwaysClear r ↔ AlwaysClear (after x rest))
      ∧ (before ∧ AlwaysKnown r ↔ known x ∧ AlwaysKnown (after x rest))
  | .error (.error _) => AlwaysClear r
  | .error .sliced => ¬ AlwaysClear r
  | .error .outOfFuel => False

section

variable {α β : Type} {before before' : Prop} {r r' : Option Reader} {len len' : Nat} {known : α → Prop}
  {after : α → List Char → Option Reader} {res : Except ParseFailure (α × List Char)}

theorem Follows.congr (h : Follows before' r' len known after res) (hclear : AlwaysClear r ↔ AlwaysClear r')
    (hknown : before ∧ AlwaysKnown r ↔ before' ∧ AlwaysKnown r') : Follows before r len known after res := by
  match res with
  | .ok (x, rest) => exact ⟨h.1, hclear.trans h.2.1, hknown.trans h.2.2⟩
  | .error (.error _) => exact hclear.mpr h
  | .error .sliced => exact mt hclear.mp h
  | .error .outOfFuel => exact h

theorem Follows.le (h : Follows before r len known after res) (hlen : len ≤ len')
    : Follows before r len' known after res := by
  match res with
  | .ok (x, rest) => exact ⟨Nat.lt_of_lt_of_le h.1 hlen, h.2⟩
  | .error (.error _) => exact h
  | .error .sliced => exact h
  | .error .outOfFuel => exact h

theorem Follows.strengthen (hknown : ∀ x rest, res = .ok (x, rest) → known x)
    (h : Follows before r len (fun _ => True) after res) : Follows before r len known after res := by
  match res with
  | .ok (x, rest) =>
    have hx : known x ↔ True := iff_true_intro (hknown x rest rfl)
    exact ⟨h.1, h.2.1, h.2.2.trans (and_congr_left' hx.symm)⟩
  | .error (.error _) => exact h
  | .error .sliced => exact h
  | .error .outOfFuel => exact h

/--
What has been read before stays as it is.
-/
theorem Follows.frame (h : Follows before r len known after res) (K : Prop)
    : Follows (K ∧ before) r len (fun x => K ∧ known x) after res := by
  match res with
  | .ok (x, rest) =>
    refine ⟨h.1, h.2.1, ?_⟩
    rw [and_assoc, h.2.2, ← and_assoc]
  | .error (.error _) => exact h
  | .error .sliced => exact h
  | .error .outOfFuel => exact h

theorem Follows.bind (h : Follows before r len known after res) {known' : β → Prop}
    {after' : β → List Char → Option Reader} {f : α × List Char → Except ParseFailure (β × List Char)}
    (hf : ∀ x rest, rest.length < len → Follows (known x) (after x rest) len' known' after' (f (x, rest)))
    : Follows before r len' known' after' (res >>= f) := by
  match res with
  | .ok (x, rest) => exact (hf x rest h.1).congr h.2.1 h.2.2
  | .error (.error _) => exact h
  | .error .sliced => exact h
  | .error .outOfFuel => exact h

theorem follows_ok {x : α} {rest : List Char} (hlen : rest.length < len)
    (hknown : before ↔ known x) : Follows before (after x rest) len known after (.ok (x, rest)) :=
  ⟨hlen, .rfl, and_congr_left' hknown⟩

theorem follows_error {e : PolicyParseError} : Follows before none len known after (.error (.error e)) :=
  trivial

/--
A keyword is looked for.
-/
theorem follows_word {keyword : String} (hkeyword : IsKeyword keyword) {rest : List Char}
    {f : Option (List Char) → Except ParseFailure (α × List Char)}
    (hwhole : AlwaysClear r → Whole keyword.toList.length rest)
    (hf : Whole keyword.toList.length rest → Follows before r len known after (f (word keyword rest)))
    : Follows before r len known after (matchKeyword keyword rest >>= f) := by
  rw [matchKeyword_eq hkeyword]
  split
  . next h => exact hf h
  . next h => exact mt hwhole h

end

/-! Tokens -/

/--
A token is read, or there is none.
-/
def Reads {α : Type} (len : Nat) (res : Except ParseFailure (α × List Char)) : Prop :=
  (∃ x rest, res = .ok (x, rest) ∧ rest.length < len) ∨ ∃ e, res = .error (.error e)

theorem Reads.follows {α : Type} {len : Nat} {res : Except ParseFailure (α × List Char)} (h : Reads len res)
    (after : α → List Char → Option Reader)
    : Follows True (do let (x, rest) ← res.toOption; after x rest) len (fun _ => True) after res := by
  rcases h with ⟨x, rest, hres, hlen⟩ | ⟨e, hres⟩
  . rw [hres]
    exact follows_ok hlen .rfl
  . rw [hres]
    exact follows_error

theorem reads_parseIdentifier (rest : List Char) : Reads rest.length (parseIdentifier rest) := by
  unfold parseIdentifier
  have hskip := length_skipWhitespace rest
  split
  . next c tail heq =>
    split
    . refine .inl ⟨_, _, rfl, ?_⟩
      have hdrop := (List.dropWhile_sublist (l := tail) isIdentChar).length_le
      rw [heq, List.length_cons] at hskip
      omega
    . exact .inr ⟨_, rfl⟩
  . exact .inr ⟨_, rfl⟩

theorem Reads.map {α β : Type} {len : Nat} {res : Except ParseFailure (α × List Char)} (h : Reads len res)
    (f : α → β) {len' : Nat} (hlen : len ≤ len') : Reads len' (res.map (fun (x, rest) => (f x, rest))) := by
  rcases h with ⟨x, rest, hres, hrest⟩ | ⟨e, hres⟩
  . rw [hres]
    exact .inl ⟨_, _, rfl, by omega⟩
  . rw [hres]
    exact .inr ⟨e, rfl⟩

theorem reads_stringBody (rest : List Char) : Reads rest.length (stringBody rest) := by
  induction rest using stringBody.induct with
  | case1 => exact .inr ⟨_, rfl⟩
  | case2 => exact .inl ⟨_, _, rfl, by decide⟩
  | case3 rest ih =>
    rw [stringBody, if_pos rfl]
    apply ih.map
    simp only [List.length_cons]
    omega
  | case4 c rest hc =>
    rw [stringBody, if_neg hc]
    exact .inl ⟨_, _, rfl, Nat.lt_succ_self _⟩
  | case5 c rest hc hc' ih =>
    rw [stringBody]
    . apply ih.map
      simp
    . exact hc
    . exact hc'

theorem length_numberBody (hasDot : Bool) (rest : List Char)
    : (numberBody hasDot rest).2.2.length ≤ rest.length := by
  induction rest generalizing hasDot with
  | nil => rfl
  | cons c rest ih =>
    unfold numberBody
    split
    . exact Nat.le_succ_of_le (ih hasDot)
    . split
      . exact Nat.le_succ_of_le (ih true)
      . rfl

theorem reads_parseNumber {c : Char} (hc : c.isDigit = true) (rest : List Char)
    : Reads (c :: rest).length (parseNumber (c :: rest)) := by
  have hlen := length_numberBody false rest
  unfold parseNumber
  rw [numberBody, if_pos hc]
  dsimp only
  split
  . split
    . exact .inl ⟨_, _, rfl, Nat.lt_succ_of_le hlen⟩
    . exact .inr ⟨_, rfl⟩
  . split
    . exact .inl ⟨_, _, rfl, Nat.lt_succ_of_le hlen⟩
    . exact .inr ⟨_, rfl⟩

theorem known_parseNumber {rest rest' : List Char} {expr : PolicyExpr}
    (h : parseNumber rest = .ok (expr, rest')) : expr.Known := by
  unfold parseNumber at h
  dsimp only at h
  split at h
  . split at h
    . cases h
      trivial
    . cases h
  . split at h
    . cases h
      trivial
    . cases h

/-! The parser -/

def CalleeKnown : Callee → Nat → Prop
  | .plain name, count => KnownCall name count
  | _, _ => True

theorem knownCall_of_validate {name : String} {count : Nat} {builtin : AuthBuiltin}
    (h : validateBuiltinCall name count = .ok builtin) : KnownCall name count := by
  unfold validateBuiltinCall at h
  cases hname : AuthBuiltin.fromName name with
  | none =>
    rw [hname] at h
    cases h
  | some found =>
    rw [hname] at h
    dsimp only at h
    split at h
    . cases h
    . next hcount => exact ⟨found, hname, not_not.mp hcount⟩

theorem alwaysClear_some (r : Reader)
    : AlwaysClear (some r) ↔ WholeWords r.keywords (skipWhitespace r.rest) ∧ AlwaysClear r.next :=
  always_some

theorem alwaysKnown_some (r : Reader) : AlwaysKnown (some r) ↔ r.CallKnown ∧ AlwaysKnown r.next :=
  always_some

theorem Follows.next {α : Type} {r : Reader} {len : Nat} {before : Prop} {known : α → Prop}
    {after : α → List Char → Option Reader} {res : Except ParseFailure (α × List Char)}
    (hf : Follows before r.next len known after res) (hcall : r.plainCall = none)
    (hwhole : WholeWords r.keywords (skipWhitespace r.rest)) : Follows before (some r) len known after res := by
  apply hf.congr
  . rw [alwaysClear_some, and_iff_right hwhole]
  . have hknown : r.CallKnown := by
      intro call hsome
      rw [hcall] at hsome
      cases hsome
    rw [alwaysKnown_some, and_iff_right hknown]

theorem Follows.quiet {α : Type} {r : Reader} {len : Nat} {before : Prop} {known : α → Prop}
    {after : α → List Char → Option Reader} {res : Except ParseFailure (α × List Char)}
    (hf : Follows before r.next len known after res) (hcall : r.plainCall = none) (hwords : r.keywords = [])
    : Follows before (some r) len known after res := by
  apply hf.next hcall
  rw [hwords]
  trivial

/--
A step that looks for one keyword and closes no call.
-/
theorem follows_step {α : Type} {keyword : String} (hkeyword : IsKeyword keyword) {r : Reader}
    (hwords : r.keywords = [keyword]) (hcall : r.plainCall = none) {len : Nat} {before : Prop}
    {known : α → Prop} {after : α → List Char → Option Reader}
    {f : Option (List Char) → Except ParseFailure (α × List Char)}
    (hf : Follows before r.next len known after (f (word keyword (skipWhitespace r.rest))))
    : Follows before (some r) len known after (matchKeyword keyword (skipWhitespace r.rest) >>= f) := by
  apply follows_word hkeyword
  . intro h
    have hclear := (alwaysClear_some r).mp h
    rw [hwords] at hclear
    exact hclear.1.1
  . intro hwhole
    apply hf.next hcall
    rw [hwords]
    exact ⟨hwhole, fun _ => trivial⟩

/--
Blanks are skipped by the reader as well.
-/
theorem always_skip (mode : Mode) (stack : List Frame) (rest : List Char)
    : (AlwaysClear (some ⟨mode, stack, skipWhitespace rest⟩) ↔ AlwaysClear (some ⟨mode, stack, rest⟩))
      ∧ (AlwaysKnown (some ⟨mode, stack, skipWhitespace rest⟩) ↔ AlwaysKnown (some ⟨mode, stack, rest⟩)) := by
  have hnext : Reader.next ⟨mode, stack, skipWhitespace rest⟩ = Reader.next ⟨mode, stack, rest⟩ := by
    simp only [Reader.next, skipWhitespace_idem]
  have hwords : Reader.keywords ⟨mode, stack, skipWhitespace rest⟩ = Reader.keywords ⟨mode, stack, rest⟩ := by
    simp only [Reader.keywords, skipWhitespace_idem]
  have hcall : Reader.plainCall ⟨mode, stack, skipWhitespace rest⟩ = Reader.plainCall ⟨mode, stack, rest⟩ := by
    simp only [Reader.plainCall, skipWhitespace_idem]
  rw [alwaysClear_some, alwaysClear_some, alwaysKnown_some, alwaysKnown_some, Reader.CallKnown, Reader.CallKnown,
    hnext, hwords, hcall, skipWhitespace_idem]
  exact ⟨.rfl, .rfl⟩

theorem Follows.unskip {α : Type} {before : Prop} {mode : Mode} {stack : List Frame} {rest : List Char} {len : Nat}
    {known : α → Prop} {after : α → List Char → Option Reader} {res : Except ParseFailure (α × List Char)}
    (h : Follows before (some ⟨mode, stack, skipWhitespace rest⟩) len known after res)
    : Follows before (some ⟨mode, stack, rest⟩) len known after res :=
  have ⟨hclear, hknown⟩ := always_skip mode stack rest
  h.congr hclear.symm (and_congr_right' hknown.symm)

def parseNull (left : PolicyExpr) (negated : Bool) (rest : List Char)
    : Except ParseFailure (PolicyExpr × List Char) :=
  matchKeyword "NULL" rest >>= fun
    | some rest => .ok (.isNull left negated, rest)
    | none => unexpected "expected NULL"

theorem parseIsNull_eq (left : PolicyExpr) (rest : List Char)
    : parseIsNull left rest
        = (matchKeyword "NOT" rest >>= fun
            | some rest => parseNull left true (skipWhitespace rest)
            | none => parseNull left false rest) := by
  unfold parseIsNull
  cases matchKeyword "NOT" rest with
  | error e => rfl
  | ok found => cases found <;> rfl

theorem follows_parseNull {left : PolicyExpr} {negated : Bool} {stack : List Frame} {rest : List Char}
    {len : Nat} (hlen : rest.length ≤ len)
    : Follows left.Known (some ⟨.null, stack, rest⟩) len PolicyExpr.Known
        (fun _ rest => some ⟨.andLoop, stack, rest⟩) (parseNull left negated (skipWhitespace rest)) := by
  apply follows_step (by decide) rfl rfl
  show Follows _ ((word "NULL" (skipWhitespace rest)).map _) _ _ _ _
  cases hnull : word "NULL" (skipWhitespace rest) with
  | none => exact follows_error
  | some after =>
    have hskip := length_skipWhitespace rest
    have hword : after.length + 4 = _ := length_of_word hnull
    refine ⟨?_, .rfl, .rfl⟩
    omega

theorem follows_parseIsNull (left : PolicyExpr) (stack : List Frame) (rest : List Char)
    : Follows left.Known (some ⟨.afterIs, stack, rest⟩) (rest.length + 1) PolicyExpr.Known
        (fun _ rest => some ⟨.andLoop, stack, rest⟩) (parseIsNull left (skipWhitespace rest)) := by
  have hskip := length_skipWhitespace rest
  rw [parseIsNull_eq]
  apply follows_step (by decide) rfl rfl
  show Follows _ (some ⟨.null, stack, (word "NOT" (skipWhitespace rest)).getD (skipWhitespace rest)⟩) _ _ _ _
  cases hnot : word "NOT" (skipWhitespace rest) with
  | none =>
    have h := @follows_parseNull left false stack (skipWhitespace rest) (rest.length + 1) (by omega)
    rwa [skipWhitespace_idem] at h
  | some after =>
    have hlen := length_of_word hnot
    have hafter : after.length ≤ rest.length + 1 := by omega
    exact follows_parseNull hafter

section

variable {fuel : Nat} {before : Prop} (stack : List Frame) (rest : List Char)

theorem close_of_ne {frame : Frame} (hclose : ∀ r, rest ≠ ')' :: r) (hcomma : ∀ r, rest ≠ ',' :: r)
    : Reader.close (frame :: stack) rest = none := by
  unfold Reader.close
  split <;> grind

theorem plainCall_of_ne {callee : Callee} {count : Nat} {place : Place}
    (hclose : ∀ r, skipWhitespace rest ≠ ')' :: r)
    : Reader.plainCall ⟨.close, .args callee count place :: stack, rest⟩ = none := by
  unfold Reader.plainCall
  split <;> grind

theorem follows_group {expr : PolicyExpr} {place : Place} {len : Nat} (hlen : rest.length < len)
    : Follows expr.Known (some ⟨.close, .group place :: stack, rest⟩) len PolicyExpr.Known
        (fun _ rest => some ⟨place.after, stack, rest⟩)
        (match matchChar ')' (skipWhitespace rest) with
        | some rest => .ok (expr, rest)
        | none => .error (.error .unclosedParen)) := by
  have hskip := length_skipWhitespace rest
  apply Follows.next
  . show Follows _ (Reader.close _ (skipWhitespace rest)) _ _ _ _
    match hs : skipWhitespace rest with
    | [] => exact follows_error
    | c :: rest' =>
      rw [hs, List.length_cons] at hskip
      rw [matchChar_cons]
      by_cases hc : c = ')'
      . subst hc
        rw [if_pos rfl]
        refine ⟨?_, .rfl, .rfl⟩
        omega
      . have hnone : Reader.close (.group place :: stack) (c :: rest') = none := by
          unfold Reader.close
          split <;> grind
        rw [if_neg hc, hnone]
        exact follows_error
  . rfl
  . trivial

theorem callKnown_close {callee : Callee} {count : Nat} {place : Place} {rest' : List Char}
    (h : skipWhitespace rest = ')' :: rest')
    : Reader.CallKnown ⟨.close, .args callee count place :: stack, rest⟩ ↔ CalleeKnown callee (count + 1) := by
  cases callee with
  | plain name => simp [Reader.CallKnown, Reader.plainCall, h, CalleeKnown]
  | _ => simp [Reader.CallKnown, Reader.plainCall, CalleeKnown]

theorem callKnown_args {callee : Callee} {place : Place} {rest' : List Char}
    (h : skipWhitespace rest = ')' :: rest')
    : Reader.CallKnown ⟨.args callee place, stack, rest⟩ ↔ CalleeKnown callee 0 := by
  cases callee with
  | plain name => simp [Reader.CallKnown, Reader.plainCall, h, CalleeKnown]
  | _ => simp [Reader.CallKnown, Reader.plainCall, CalleeKnown]

theorem plainCall_args_of_ne {callee : Callee} {place : Place} (hclose : ∀ r, skipWhitespace rest ≠ ')' :: r)
    : Reader.plainCall ⟨.args callee place, stack, rest⟩ = none := by
  unfold Reader.plainCall
  split <;> grind

theorem next_args {callee : Callee} {place : Place} (hclose : ∀ r, skipWhitespace rest ≠ ')' :: r)
    : Reader.next ⟨.args callee place, stack, rest⟩
        = some ⟨.expr, .args callee 0 place :: stack, skipWhitespace rest⟩ := by
  unfold Reader.next
  dsimp only
  split
  . next rest' hs => exact absurd hs (hclose rest')
  . rfl

theorem next_list {rest' : List Char} (h : skipWhitespace rest = '(' :: rest')
    : Reader.next ⟨.list, stack, rest⟩
        = match skipWhitespace rest' with
          | ')' :: rest => some ⟨.andLoop, stack, rest⟩
          | rest => some ⟨.operand .item, .list :: stack, rest⟩ := by
  unfold Reader.next
  dsimp only
  rw [h]
  rfl

theorem next_list_item {rest' : List Char} (h : skipWhitespace rest = '(' :: rest')
    (hclose : ∀ r, skipWhitespace rest' ≠ ')' :: r)
    : Reader.next ⟨.list, stack, rest⟩ = some ⟨.operand .item, .list :: stack, skipWhitespace rest'⟩ := by
  rw [next_list stack rest h]
  split
  . next rest'' hs => exact absurd hs (hclose rest'')
  . rfl

theorem keywords_operand {place : Place} {c : Char} {rest' : List Char} (h : skipWhitespace rest = c :: rest')
    (hc : c = '(' ∨ c = '-' ∨ c = '\'' ∨ c.isDigit = true)
    : Reader.keywords ⟨.operand place, stack, rest⟩ = [] := by
  rcases hc with hc | hc | hc | hc
  . simp [Reader.keywords, h, hc]
  . simp [Reader.keywords, h, hc]
  . simp [Reader.keywords, h, hc]
  . unfold Reader.keywords
    dsimp only
    rw [h]
    split
    . rfl
    . rfl
    . rfl
    . exact if_pos hc

theorem keywords_token {place : Place} (hopen : ∀ r, skipWhitespace rest ≠ '(' :: r)
    (hminus : ∀ r, skipWhitespace rest ≠ '-' :: r) (hquote : ∀ r, skipWhitespace rest ≠ '\'' :: r)
    (hdigit : ¬ ((skipWhitespace rest).head?.map Char.isDigit).getD false = true)
    : Reader.keywords ⟨.operand place, stack, rest⟩ = ["TRUE", "FALSE", "NULL"] := by
  unfold Reader.keywords
  dsimp only
  rw [if_neg hdigit]
  split
  . next rest' hs => exact absurd hs (hopen rest')
  . next rest' hs => exact absurd hs (hminus rest')
  . next rest' hs => exact absurd hs (hquote rest')
  . rfl

theorem follows_auth {name : String} {place : Place} {args : List PolicyExpr} {len : Nat}
    (hlen : rest.length < len)
    : Follows (AllKnown args ∧ CalleeKnown (.auth name) args.length)
        (Reader.called (.auth name) args.length place stack rest) len PolicyExpr.Known
        (fun _ rest => some ⟨place.after, stack, rest⟩)
        (match validateBuiltinCall name args.length with
        | .error e => .error (.error (.invalidBuiltin e.toString))
        | .ok _ => .ok (.authBuiltin name args, rest)) := by
  unfold Reader.called
  cases hcall : validateBuiltinCall name args.length with
  | error e =>
    dsimp only
    rw [hcall]
    exact follows_error
  | ok builtin =>
    dsimp only
    rw [hcall]
    refine ⟨hlen, .rfl, ?_⟩
    show _ ↔ (KnownCall name args.length ∧ AllKnown args) ∧ _
    rw [and_iff_right (knownCall_of_validate hcall)]
    exact and_congr_left' (and_iff_left trivial)

theorem wholeWords_afterLeft {stack : List Frame} {rest : List Char}
    : WholeWords (Reader.keywords ⟨.afterLeft, stack, rest⟩) (skipWhitespace rest)
        ↔ Whole "IS".toList.length (skipWhitespace rest) ∧ (word "IS" (skipWhitespace rest) = none →
          Whole "NOT".toList.length (skipWhitespace rest) ∧ (word "NOT" (skipWhitespace rest) = none →
          Whole "IN".toList.length (skipWhitespace rest) ∧ (word "IN" (skipWhitespace rest) = none →
          symbol (skipWhitespace rest) = none →
          Whole "LIKE".toList.length (skipWhitespace rest) ∧ (word "LIKE" (skipWhitespace rest) = none →
          Whole "ILIKE".toList.length (skipWhitespace rest))))) := by
  unfold Reader.keywords
  dsimp only
  cases symbol (skipWhitespace rest) with
  | none => simp [WholeWords]
  | some after => simp [WholeWords]

theorem follows_inList {left : PolicyExpr} {negated : Bool} {len : Nat}
    (h : Follows True (some ⟨.list, stack, rest⟩) len AllKnown
      (fun _ rest => some ⟨.andLoop, stack, rest⟩) (parseList fuel rest))
    : Follows left.Known (some ⟨.list, stack, rest⟩) len PolicyExpr.Known
        (fun _ rest => some ⟨.andLoop, stack, rest⟩)
        (parseList fuel rest >>= fun (list, rest) => .ok (.inList left list negated, rest)) := by
  have hframe := h.frame left.Known
  rw [and_true] at hframe
  apply hframe.bind
  intro list rest' hlen
  exact ⟨hlen, .rfl, .rfl⟩

theorem follows_right {left : PolicyExpr} {op : PolicyBinaryOp} {len : Nat}
    (h : Follows True (some ⟨.operand .right, stack, rest⟩) len PolicyExpr.Known
      (fun _ rest => some ⟨.andLoop, stack, rest⟩) (parsePrimary fuel rest))
    : Follows left.Known (some ⟨.operand .right, stack, rest⟩) len PolicyExpr.Known
        (fun _ rest => some ⟨.andLoop, stack, rest⟩)
        (parsePrimary fuel rest >>= fun (right, rest) => .ok (.binaryOp op left right, rest)) := by
  have hframe := h.frame left.Known
  rw [and_true] at hframe
  apply hframe.bind
  intro right rest' hlen
  exact ⟨hlen, .rfl, .rfl⟩

end

theorem not_none {o : Option (List Char)} {x : List Char} {p : Prop} (h : o = some x) (hnone : o = none) : p := by
  rw [h] at hnone
  cases hnone

mutual

theorem follows_parseOrExpr (fuel : Nat) (stack : List Frame) (rest : List Char)
    (hfuel : 8 * rest.length + 6 ≤ fuel)
    : Follows True (some ⟨.expr, stack, rest⟩) rest.length PolicyExpr.Known
        (fun _ rest => some ⟨.close, stack, rest⟩) (parseOrExpr fuel rest) := by
  match fuel with
  | fuel + 1 =>
    rw [parseOrExpr]
    apply (follows_parseAndExpr fuel stack rest (by omega)).bind
    intro left rest' hlen
    apply follows_parseOrLoop
    . omega
    . omega

theorem follows_parseOrLoop (fuel : Nat) (stack : List Frame) (left : PolicyExpr) (rest : List Char) {len : Nat}
    (hlen : rest.length < len) (hfuel : 8 * rest.length + 1 ≤ fuel)
    : Follows left.Known (some ⟨.orLoop, stack, rest⟩) len PolicyExpr.Known
        (fun _ rest => some ⟨.close, stack, rest⟩) (parseOrLoop fuel left rest) := by
  have hskip := length_skipWhitespace rest
  match fuel with
  | fuel + 1 =>
    rw [parseOrLoop]
    apply follows_step (by decide) rfl rfl
    rw [Reader.next]
    dsimp only
    cases hword : word "OR" (skipWhitespace rest) with
    | none => exact ⟨by omega, .rfl, .rfl⟩
    | some after =>
      have hafter : after.length + 2 = _ := length_of_word hword
      have hright := (follows_parseAndExpr fuel stack after (by omega)).frame left.Known
      rw [and_true] at hright
      apply hright.bind
      intro right rest' hlen'
      apply follows_parseOrLoop fuel stack (.binaryOp .or left right)
      . omega
      . omega

theorem follows_parseAndExpr (fuel : Nat) (stack : List Frame) (rest : List Char)
    (hfuel : 8 * rest.length + 5 ≤ fuel)
    : Follows True (some ⟨.expr, stack, rest⟩) rest.length PolicyExpr.Known
        (fun _ rest => some ⟨.orLoop, stack, rest⟩) (parseAndExpr fuel rest) := by
  match fuel with
  | fuel + 1 =>
    rw [parseAndExpr]
    apply (follows_parseNotExpr fuel stack rest (by omega)).bind
    intro left rest' hlen
    apply follows_parseAndLoop
    . omega
    . omega

theorem follows_parseAndLoop (fuel : Nat) (stack : List Frame) (left : PolicyExpr) (rest : List Char) {len : Nat}
    (hlen : rest.length < len) (hfuel : 8 * rest.length + 1 ≤ fuel)
    : Follows left.Known (some ⟨.andLoop, stack, rest⟩) len PolicyExpr.Known
        (fun _ rest => some ⟨.orLoop, stack, rest⟩) (parseAndLoop fuel left rest) := by
  have hskip := length_skipWhitespace rest
  match fuel with
  | fuel + 1 =>
    rw [parseAndLoop]
    apply follows_step (by decide) rfl rfl
    rw [Reader.next]
    dsimp only
    cases hword : word "AND" (skipWhitespace rest) with
    | none => exact ⟨by omega, .rfl, .rfl⟩
    | some after =>
      have hafter : after.length + 3 = _ := length_of_word hword
      have hright := (follows_parseNotExpr fuel stack after (by omega)).frame left.Known
      rw [and_true] at hright
      apply hright.bind
      intro right rest' hlen'
      apply follows_parseAndLoop fuel stack (.binaryOp .and left right)
      . omega
      . omega

theorem follows_parseNotExpr (fuel : Nat) (stack : List Frame) (rest : List Char)
    (hfuel : 8 * rest.length + 4 ≤ fuel)
    : Follows True (some ⟨.expr, stack, rest⟩) rest.length PolicyExpr.Known
        (fun _ rest => some ⟨.andLoop, stack, rest⟩) (parseNotExpr fuel rest) := by
  have hskip := length_skipWhitespace rest
  match fuel with
  | fuel + 1 =>
    rw [parseNotExpr]
    apply follows_step (by decide) rfl rfl
    rw [Reader.next]
    dsimp only
    cases hword : word "NOT" (skipWhitespace rest) with
    | none => exact (follows_parseComparison fuel stack (skipWhitespace rest) (by omega)).le hskip
    | some after =>
      have hafter : after.length + 3 = _ := length_of_word hword
      apply (follows_parseNotExpr fuel stack after (by omega)).bind
      intro expr rest' hlen'
      refine ⟨?_, .rfl, .rfl⟩
      dsimp only
      omega

theorem follows_parseComparison (fuel : Nat) (stack : List Frame) (rest : List Char)
    (hfuel : 8 * rest.length + 3 ≤ fuel)
    : Follows True (some ⟨.operand .left, stack, rest⟩) rest.length PolicyExpr.Known
        (fun _ rest => some ⟨.andLoop, stack, rest⟩) (parseComparison fuel rest) := by
  match fuel with
  | fuel + 1 =>
    rw [parseComparison]
    apply (follows_parsePrimary fuel .left stack rest (by omega)).bind
    intro left rest' hlen
    have hskip := length_skipWhitespace rest'
    have hnext : Reader.next ⟨.afterLeft, stack, rest'⟩ = Reader.afterLeft stack (skipWhitespace rest') := rfl
    have hwords (h : AlwaysClear (some ⟨.afterLeft, stack, rest'⟩)) :=
      wholeWords_afterLeft.mp ((alwaysClear_some _).mp h).1
    dsimp only
    apply @follows_word _ _ _ _ _ _ "IS" (by decide) _ _ (fun h => (hwords h).1)
    intro hwholeIs
    cases his : word "IS" (skipWhitespace rest') with
    | some after =>
      have hafter : after.length + 2 = _ := length_of_word his
      apply Follows.next _ rfl (wholeWords_afterLeft.mpr ⟨hwholeIs, not_none his⟩)
      rw [hnext, Reader.afterLeft, his]
      exact (follows_parseIsNull left stack after).le (by omega)
    | none =>
      apply @follows_word _ _ _ _ _ _ "NOT" (by decide) _ _ (fun h => ((hwords h).2 his).1)
      intro hwholeNot
      cases hnot : word "NOT" (skipWhitespace rest') with
      | some after =>
        have hafter : after.length + 3 = _ := length_of_word hnot
        apply Follows.next _ rfl
          (wholeWords_afterLeft.mpr ⟨hwholeIs, fun _ => ⟨hwholeNot, not_none hnot⟩⟩)
        rw [hnext, Reader.afterLeft, his, hnot]
        apply @follows_step _ "IN" (by decide) ⟨.afterNot, stack, after⟩ rfl rfl
        have hskip' := length_skipWhitespace after
        show Follows _ ((word "IN" (skipWhitespace after)).map _) _ _ _ _
        cases hin : word "IN" (skipWhitespace after) with
        | none => exact follows_error
        | some after' =>
          have hafter' : after'.length + 2 = _ := length_of_word hin
          exact follows_inList stack after' ((follows_parseList fuel stack after' (by omega)).le (by omega))
      | none =>
        apply @follows_word _ _ _ _ _ _ "IN" (by decide) _ _ (fun h => (((hwords h).2 his).2 hnot).1)
        intro hwholeIn
        cases hin : word "IN" (skipWhitespace rest') with
        | some after =>
          have hafter : after.length + 2 = _ := length_of_word hin
          apply Follows.next _ rfl (wholeWords_afterLeft.mpr
            ⟨hwholeIs, fun _ => ⟨hwholeNot, fun _ => ⟨hwholeIn, not_none hin⟩⟩⟩)
          rw [hnext, Reader.afterLeft, his, hnot, hin]
          exact follows_inList stack after ((follows_parseList fuel stack after (by omega)).le (by omega))
        | none =>
          have hnextOp : Reader.next ⟨.afterLeft, stack, rest'⟩
              = match (symbol (skipWhitespace rest')).or (firstWord ["LIKE", "ILIKE"] (skipWhitespace rest')) with
                | some rest => some ⟨.operand .right, stack, rest⟩
                | none => some ⟨.andLoop, stack, skipWhitespace rest'⟩ := by
            rw [hnext, Reader.afterLeft, his, hnot, hin]
            all_goals rfl
          have hops := tryParseComparisonOp_eq (skipWhitespace rest')
          rw [skipWhitespace_idem] at hops
          rcases hops with ⟨op, after, hsymbol, hop⟩ | ⟨hsymbol, hop⟩
          . have hafter := length_of_symbol hsymbol
            dsimp only
            rw [hop]
            apply Follows.next _ rfl (wholeWords_afterLeft.mpr
              ⟨hwholeIs, fun _ => ⟨hwholeNot, fun _ => ⟨hwholeIn, fun _ => not_none hsymbol⟩⟩⟩)
            rw [hnextOp, hsymbol]
            exact follows_right stack after ((follows_parsePrimary fuel .right stack after (by omega)).le (by omega))
          . dsimp only
            rw [hop, bind_assoc]
            apply @follows_word _ _ _ _ _ _ "LIKE" (by decide) _ _
              (fun h => ((((hwords h).2 his).2 hnot).2 hin hsymbol).1)
            intro hwholeLike
            cases hlike : word "LIKE" (skipWhitespace rest') with
            | some after =>
              have hafter : after.length + 4 = _ := length_of_word hlike
              apply Follows.next _ rfl (wholeWords_afterLeft.mpr
                ⟨hwholeIs, fun _ => ⟨hwholeNot, fun _ => ⟨hwholeIn, fun _ _ => ⟨hwholeLike, not_none hlike⟩⟩⟩⟩)
              rw [hnextOp, hsymbol, firstWord, hlike]
              exact follows_right stack after ((follows_parsePrimary fuel .right stack after (by omega)).le (by omega))
            | none =>
              dsimp only
              rw [bind_assoc]
              apply @follows_word _ _ _ _ _ _ "ILIKE" (by decide) _ _
                (fun h => ((((hwords h).2 his).2 hnot).2 hin hsymbol).2 hlike)
              intro hwholeILike
              apply Follows.next _ rfl (wholeWords_afterLeft.mpr
                ⟨hwholeIs, fun _ => ⟨hwholeNot, fun _ => ⟨hwholeIn, fun _ _ => ⟨hwholeLike, fun _ => hwholeILike⟩⟩⟩⟩)
              rw [hnextOp, hsymbol, firstWord, hlike, firstWord]
              cases hilike : word "ILIKE" (skipWhitespace rest') with
              | some after =>
                have hafter : after.length + 5 = _ := length_of_word hilike
                exact follows_right stack after
                  ((follows_parsePrimary fuel .right stack after (by omega)).le (by omega))
              | none =>
                refine ⟨?_, .rfl, .rfl⟩
                omega

theorem follows_parsePrimary (fuel : Nat) (place : Place) (stack : List Frame) (rest : List Char)
    (hfuel : 8 * rest.length + 2 ≤ fuel)
    : Follows True (some ⟨.operand place, stack, rest⟩) rest.length PolicyExpr.Known
        (fun _ rest => some ⟨place.after, stack, rest⟩) (parsePrimary fuel rest) := by
  have hskip := length_skipWhitespace rest
  have hnext : Reader.next ⟨.operand place, stack, rest⟩ = Reader.operand place stack (skipWhitespace rest) := rfl
  match fuel with
  | fuel + 1 =>
    rw [parsePrimary]
    split
    . next rest' hs =>
      rw [hs, List.length_cons] at hskip
      apply Follows.quiet _ rfl (keywords_operand stack rest hs (by simp))
      rw [hnext, hs]
      apply (follows_parseOrExpr fuel (.group place :: stack) rest' (by omega)).bind
      intro expr rest'' hlen
      exact follows_group stack rest'' (by omega)
    . next rest' hs =>
      rw [hs, List.length_cons] at hskip
      apply Follows.quiet _ rfl (keywords_operand stack rest hs (by simp))
      rw [hnext, hs]
      apply (follows_parsePrimary fuel place stack rest' (by omega)).bind
      intro expr rest'' hlen
      exact ⟨by omega, .rfl, .rfl⟩
    . next rest' hs =>
      rw [hs, List.length_cons] at hskip
      apply Follows.quiet _ rfl (keywords_operand stack rest hs (by simp))
      rw [hnext, hs]
      apply ((reads_stringBody rest').follows (fun _ rest => some ⟨place.after, stack, rest⟩)).bind
      intro value rest'' hlen
      exact ⟨by omega, .rfl, .rfl⟩
    . next hopen hminus hquote =>
      have hoperand : Reader.operand place stack (skipWhitespace rest)
          = Reader.token place stack (skipWhitespace rest) := by
        unfold Reader.operand
        split <;> grind
      have hnextToken := hnext.trans hoperand
      split
      . next hdigit =>
        cases hs : skipWhitespace rest with
        | nil =>
          rw [hs] at hdigit
          cases hdigit
        | cons c rest' =>
          rw [hs] at hdigit hskip
          apply Follows.quiet _ rfl (keywords_operand stack rest hs (.inr (.inr (.inr hdigit))))
          rw [hnextToken, Reader.token, hs, if_pos hdigit]
          apply Follows.strengthen (fun expr rest h => known_parseNumber h)
          exact ((reads_parseNumber hdigit rest').follows (fun _ rest => some ⟨place.after, stack, rest⟩)).le hskip
      . next hdigit =>
        have hwords := @keywords_token stack rest place hopen hminus hquote hdigit
        have hclear (h : AlwaysClear (some ⟨.operand place, stack, rest⟩)) :=
          ((alwaysClear_some _).mp h).1
        rw [hwords] at hclear
        rw [Reader.token, if_neg hdigit] at hnextToken
        apply @follows_word _ _ _ _ _ _ "TRUE" (by decide) _ _ (fun h => (hclear h).1)
        intro hwholeTrue
        cases htrue : word "TRUE" (skipWhitespace rest) with
        | some after =>
          have hafter : after.length + 4 = _ := length_of_word htrue
          apply Follows.next _ rfl
          . rw [hwords]
            exact ⟨hwholeTrue, not_none htrue⟩
          . rw [hnextToken, firstWord, htrue]
            exact ⟨by omega, .rfl, .rfl⟩
        | none =>
          apply @follows_word _ _ _ _ _ _ "FALSE" (by decide) _ _ (fun h => ((hclear h).2 htrue).1)
          intro hwholeFalse
          cases hfalse : word "FALSE" (skipWhitespace rest) with
          | some after =>
            have hafter : after.length + 5 = _ := length_of_word hfalse
            apply Follows.next _ rfl
            . rw [hwords]
              exact ⟨hwholeTrue, fun _ => ⟨hwholeFalse, not_none hfalse⟩⟩
            . rw [hnextToken, firstWord, htrue, firstWord, hfalse]
              exact ⟨by omega, .rfl, .rfl⟩
          | none =>
            apply @follows_word _ _ _ _ _ _ "NULL" (by decide) _ _ (fun h => (((hclear h).2 htrue).2 hfalse).1)
            intro hwholeNull
            apply Follows.next _ rfl
            . rw [hwords]
              exact ⟨hwholeTrue, fun _ => ⟨hwholeFalse, fun _ => ⟨hwholeNull, fun _ => trivial⟩⟩⟩
            . rw [hnextToken, firstWord, htrue, firstWord, hfalse, firstWord]
              cases hnull : word "NULL" (skipWhitespace rest) with
              | some after =>
                have hafter : after.length + 4 = _ := length_of_word hnull
                exact ⟨by omega, .rfl, .rfl⟩
              | none =>
                exact (follows_parseIdentifierOrCall fuel place stack (skipWhitespace rest) (by omega)).le hskip

theorem follows_parseIdentifierOrCall (fuel : Nat) (place : Place) (stack : List Frame) (rest : List Char)
    (hfuel : 8 * rest.length + 1 ≤ fuel)
    : Follows True (Reader.name place stack rest) rest.length PolicyExpr.Known
        (fun _ rest => some ⟨place.after, stack, rest⟩) (parseIdentifierOrCall fuel rest) := by
  match fuel with
  | fuel + 1 =>
    rw [parseIdentifierOrCall]
    apply ((reads_parseIdentifier rest).follows
      (fun first rest => Reader.afterName place stack first (skipWhitespace rest))).bind
    intro first rest' hlen
    have hskip := length_skipWhitespace rest'
    dsimp only
    split
    . next rest'' hs =>
      rw [hs, List.length_cons] at hskip
      rw [hs, Reader.afterName]
      apply ((reads_parseIdentifier rest'').follows
        (fun second rest => Reader.afterField place stack first second (skipWhitespace rest))).bind
      intro second rest₃ hlen₂
      have hskip₃ := length_skipWhitespace rest₃
      dsimp only
      unfold Reader.afterField
      split
      . cases hs₃ : skipWhitespace rest₃ with
        | nil => exact follows_error
        | cons c rest₄ =>
          rw [hs₃, List.length_cons] at hskip₃
          rw [matchChar_cons]
          by_cases hc : c = '('
          . rw [if_pos hc]
            apply (follows_parseArgs fuel (.auth second) place stack rest₄ (by omega)).bind
            intro args rest₅ hlen₅
            exact follows_auth stack rest₅ (by omega)
          . rw [if_neg hc]
            exact follows_error
      . split
        . cases hs₃ : skipWhitespace rest₃ with
          | nil =>
            refine ⟨?_, .rfl, .rfl⟩
            rw [List.length_nil]
            omega
          | cons c rest₄ =>
            rw [hs₃, List.length_cons] at hskip₃
            rw [matchChar_cons]
            by_cases hc : c = '('
            . rw [if_pos hc]
              apply (follows_parseArgs fuel .domain place stack rest₄ (by omega)).bind
              intro args rest₅ hlen₅
              refine ⟨?_, .rfl, ?_⟩
              . dsimp only
                omega
              . show (AllKnown args ∧ True) ∧ _ ↔ AllKnown args ∧ _
                rw [and_true]
                rfl
            . rw [if_neg hc]
              refine ⟨?_, .rfl, .rfl⟩
              rw [List.length_cons]
              omega
        . split
          . next rest₄ hs₃ =>
            rw [hs₃, List.length_cons] at hskip₃
            try rw [hs₃]
            apply ((reads_parseIdentifier rest₄).follows (fun _ rest => some ⟨place.after, stack, rest⟩)).bind
            intro third rest₅ hlen₅
            refine ⟨?_, .rfl, .rfl⟩
            dsimp only
            omega
          . next hdot =>
            have hcolumn : (skipWhitespace rest₃).length < rest.length := by omega
            first
            | exact ⟨hcolumn, .rfl, .rfl⟩
            | split
              . next rest₄ hs₃ => exact absurd hs₃ (hdot rest₄)
              . exact ⟨hcolumn, .rfl, .rfl⟩
    . next rest'' hs =>
      rw [hs, List.length_cons] at hskip
      rw [hs, Reader.afterName]
      apply (follows_parseArgs fuel (.plain first) place stack rest'' (by omega)).bind
      intro args rest₃ hlen₃
      refine ⟨?_, .rfl, ?_⟩
      . dsimp only
        omega
      . show _ ↔ (KnownCall first args.length ∧ AllKnown args) ∧ _
        rw [and_comm (a := KnownCall first args.length)]
        rfl
    . next hdot hopen =>
      have hname : Reader.afterName place stack first (skipWhitespace rest')
          = some ⟨place.after, stack, skipWhitespace rest'⟩ := by
        unfold Reader.afterName
        split <;> grind
      rw [hname]
      exact ⟨by omega, .rfl, .rfl⟩

theorem follows_parseArgsLoop (fuel : Nat) (callee : Callee) (count : Nat) (place : Place) (stack : List Frame)
    (rest : List Char) (hfuel : 8 * rest.length + 7 ≤ fuel)
    : Follows True (some ⟨.expr, .args callee count place :: stack, rest⟩) rest.length
        (fun args => AllKnown args ∧ CalleeKnown callee (count + args.length))
        (fun args rest => Reader.called callee (count + args.length) place stack rest)
        (parseArgsLoop fuel rest) := by
  match fuel with
  | fuel + 1 =>
    rw [parseArgsLoop]
    apply (follows_parseOrExpr fuel (.args callee count place :: stack) rest (by omega)).bind
    intro arg rest' hlen
    have hskip := length_skipWhitespace rest'
    have hnext : Reader.next ⟨.close, .args callee count place :: stack, rest'⟩
        = Reader.close (.args callee count place :: stack) (skipWhitespace rest') := rfl
    dsimp only
    split
    . next rest'' hs =>
      rw [hs, List.length_cons] at hskip
      refine ⟨by omega, ?_, ?_⟩
      . rw [alwaysClear_some, hnext, hs]
        exact and_iff_right trivial
      . rw [alwaysKnown_some, hnext, hs, callKnown_close stack rest' hs]
        show _ ↔ ((arg.Known ∧ True) ∧ _) ∧ _
        rw [and_true, and_assoc]
        rfl
    . next rest'' hs =>
      rw [hs, List.length_cons] at hskip
      have hargs := (follows_parseArgsLoop fuel callee (count + 1) place stack rest'' (by omega)).frame arg.Known
      rw [and_true] at hargs
      apply Follows.quiet _ (by simp [Reader.plainCall, hs]) rfl
      rw [hnext, hs]
      apply hargs.bind
      intro args rest₃ hlen'
      have hcount : count + (arg :: args).length = count + 1 + args.length := by
        rw [List.length_cons]
        omega
      dsimp only
      rw [← hcount]
      refine ⟨by omega, .rfl, ?_⟩
      rw [← and_assoc]
      rfl
    . next hclose hcomma =>
      apply Follows.quiet _ (plainCall_of_ne stack _ hclose) rfl
      rw [hnext, close_of_ne stack _ hclose hcomma]
      exact follows_error

theorem follows_parseArgs (fuel : Nat) (callee : Callee) (place : Place) (stack : List Frame) (rest : List Char)
    (hfuel : 8 * rest.length + 8 ≤ fuel)
    : Follows True (some ⟨.args callee place, stack, rest⟩) rest.length
        (fun args => AllKnown args ∧ CalleeKnown callee args.length)
        (fun args rest => Reader.called callee args.length place stack rest) (parseArgs fuel rest) := by
  have hskip := length_skipWhitespace rest
  match fuel with
  | fuel + 1 =>
    have hnext : Reader.next ⟨.args callee place, stack, rest⟩
        = match skipWhitespace rest with
          | ')' :: rest => Reader.called callee 0 place stack rest
          | rest => some ⟨.expr, .args callee 0 place :: stack, rest⟩ := rfl
    rw [parseArgs]
    split
    . next rest' hs =>
      rw [hs, List.length_cons] at hskip
      refine ⟨by omega, ?_, ?_⟩
      . rw [alwaysClear_some, hnext, hs]
        exact and_iff_right trivial
      . rw [alwaysKnown_some, hnext, hs, callKnown_args stack rest hs]
        show _ ↔ (True ∧ _) ∧ _
        rw [true_and, true_and]
        rfl
    . next hclose =>
      have hargs := follows_parseArgsLoop fuel callee 0 place stack (skipWhitespace rest) (by omega)
      simp only [Nat.zero_add] at hargs
      apply Follows.quiet _ (plainCall_args_of_ne stack rest hclose) rfl
      rw [next_args stack rest hclose]
      exact hargs.le hskip

theorem follows_parseList (fuel : Nat) (stack : List Frame) (rest : List Char)
    (hfuel : 8 * rest.length + 4 ≤ fuel)
    : Follows True (some ⟨.list, stack, rest⟩) rest.length AllKnown
        (fun _ rest => some ⟨.andLoop, stack, rest⟩) (parseList fuel rest) := by
  have hskip := length_skipWhitespace rest
  match fuel with
  | fuel + 1 =>
    rw [parseList]
    apply Follows.quiet _ rfl rfl
    cases hs : skipWhitespace rest with
    | nil =>
      rw [Reader.next, hs]
      exact follows_error
    | cons c rest' =>
      rw [hs, List.length_cons] at hskip
      have hskip' := length_skipWhitespace rest'
      rw [matchChar_cons]
      by_cases hc : c = '('
      . subst hc
        rw [if_pos rfl]
        dsimp only
        split
        . next rest'' hs' =>
          rw [hs', List.length_cons] at hskip'
          rw [next_list stack rest hs, hs']
          exact ⟨by omega, .rfl, .rfl⟩
        . next hclose =>
          rw [next_list_item stack rest hs hclose]
          exact (follows_parseListLoop fuel stack (skipWhitespace rest') (by omega)).le (by omega)
      . have hnone : Reader.next ⟨.list, stack, rest⟩ = none := by
          unfold Reader.next
          dsimp only
          rw [hs]
          split <;> grind
        rw [if_neg hc, hnone]
        exact follows_error

theorem follows_parseListLoop (fuel : Nat) (stack : List Frame) (rest : List Char)
    (hfuel : 8 * rest.length + 3 ≤ fuel)
    : Follows True (some ⟨.operand .item, .list :: stack, rest⟩) rest.length AllKnown
        (fun _ rest => some ⟨.andLoop, stack, rest⟩) (parseListLoop fuel rest) := by
  match fuel with
  | fuel + 1 =>
    rw [parseListLoop]
    apply (follows_parsePrimary fuel .item (.list :: stack) rest (by omega)).bind
    intro item rest' hlen
    have hskip := length_skipWhitespace rest'
    have hnext : Reader.next ⟨.close, .list :: stack, rest'⟩
        = Reader.close (.list :: stack) (skipWhitespace rest') := rfl
    show Follows item.Known (some ⟨.close, .list :: stack, rest'⟩) _ _ _ _
    dsimp only
    split
    . next rest'' hs =>
      rw [hs, List.length_cons] at hskip
      apply Follows.quiet _ rfl rfl
      rw [hnext, hs]
      refine ⟨by omega, .rfl, ?_⟩
      show _ ↔ (item.Known ∧ True) ∧ _
      rw [and_true]
      rfl
    . next rest'' hs =>
      rw [hs, List.length_cons] at hskip
      have hitems := (follows_parseListLoop fuel stack rest'' (by omega)).frame item.Known
      rw [and_true] at hitems
      apply Follows.quiet _ rfl rfl
      rw [hnext, hs]
      apply hitems.bind
      intro items rest₃ hlen'
      refine ⟨?_, .rfl, .rfl⟩
      dsimp only
      omega
    . next hclose hcomma =>
      apply Follows.quiet _ rfl rfl
      rw [hnext, close_of_ne stack _ hclose hcomma]
      exact follows_error

end

/-! Whole texts -/

theorem follows_parse (input : String)
    : Follows True (some (start input)) input.toList.length PolicyExpr.Known (fun _ rest => some ⟨.close, [], rest⟩)
        (parseOrExpr (8 * input.toList.length + 16) input.toList) :=
  follows_parseOrExpr _ [] input.toList (by omega)

theorem always_end (rest : List Char)
    : AlwaysClear (some ⟨.close, [], rest⟩) ∧ AlwaysKnown (some ⟨.close, [], rest⟩) := by
  have hnext : Reader.next ⟨.close, [], rest⟩ = none := rfl
  rw [alwaysClear_some, alwaysKnown_some, hnext]
  refine ⟨⟨trivial, trivial⟩, ?_, trivial⟩
  intro call hcall
  cases hcall

/--
The parser never runs out of fuel, it panics if and only if a keyword that is looked for ends inside of
a character.
-/
theorem parse_cases (input : String)
    : (∃ x, parseOrExpr (8 * input.toList.length + 16) input.toList = .ok x ∧ Clear input)
        ∨ (∃ e, parseOrExpr (8 * input.toList.length + 16) input.toList = .error (.error e) ∧ Clear input)
        ∨ parseOrExpr (8 * input.toList.length + 16) input.toList = .error .sliced ∧ ¬ Clear input := by
  have hfollows := follows_parse input
  match hparse : parseOrExpr (8 * input.toList.length + 16) input.toList with
  | .ok x =>
    rw [hparse] at hfollows
    exact .inl ⟨x, rfl, hfollows.2.1.mpr (always_end x.2).1⟩
  | .error (.error e) =>
    rw [hparse] at hfollows
    exact .inr (.inl ⟨e, rfl, hfollows⟩)
  | .error .sliced =>
    rw [hparse] at hfollows
    exact .inr (.inr ⟨rfl, hfollows⟩)
  | .error .outOfFuel =>
    rw [hparse] at hfollows
    exact hfollows.elim

end Grammar

/--
The parser returns an expression or an error.
-/
def Parses (input : String) : Prop :=
  (∃ expr, parsePolicyExpr input = .ok expr) ∨ ∃ e, parsePolicyExpr input = .error (.error e)

open Grammar

/--
The parser panics if and only if a keyword that is looked for ends inside of a character.
-/
theorem parses_iff (input : String) : Parses input ↔ Clear input := by
  unfold Parses parsePolicyExpr
  rcases parse_cases input with ⟨⟨expr, rest⟩, hparse, hclear⟩ | ⟨e, hparse, hclear⟩ | ⟨hparse, hclear⟩
  . apply iff_of_true _ hclear
    dsimp only
    rw [hparse]
    dsimp only [bind, Except.bind]
    cases skipWhitespace rest with
    | nil => exact .inl ⟨expr, rfl⟩
    | cons c rest' => exact .inr ⟨_, rfl⟩
  . apply iff_of_true _ hclear
    dsimp only
    rw [hparse]
    exact .inr ⟨_, rfl⟩
  . apply iff_of_false _ hclear
    dsimp only
    rw [hparse]
    rintro (⟨expr, hexpr⟩ | ⟨e, he⟩)
    . cases hexpr
    . cases he

/--
`'日本'` after `=` without a blank: the three bytes in which `NOT` is looked for end in its first character.
-/
theorem not_parses : ¬ ∀ input, Parses input := by
  intro h
  have hsliced : parsePolicyExpr "name='日本'" = .error .sliced := by decide +kernel
  cases h "name='日本'" with
  | inl hok =>
    have ⟨expr, hexpr⟩ := hok
    rw [hsliced] at hexpr
    cases hexpr
  | inr herror =>
    have ⟨e, he⟩ := herror
    rw [hsliced] at he
    cases he

/--
The calls of an accepted expression are known if and only if those without a qualifier are.
-/
theorem parsePolicyExpr_known {input : String} {expr : PolicyExpr} (h : parsePolicyExpr input = .ok expr)
    : expr.Known ↔ CallsKnown input := by
  have hfollows := follows_parse input
  unfold parsePolicyExpr at h
  dsimp only at h
  match hparse : parseOrExpr (8 * input.toList.length + 16) input.toList, hfollows with
  | .ok (expr', rest), hf =>
    rw [hparse] at h
    have hexpr : expr' = expr := by
      dsimp only [bind, Except.bind] at h
      cases hs : skipWhitespace rest with
      | nil =>
        rw [hs] at h
        cases h
        rfl
      | cons c rest' =>
        rw [hs] at h
        cases h
    have hiff := hf.2.2
    rw [and_iff_left (always_end rest).2, true_and, hexpr] at hiff
    exact hiff.symm
  | .error e, _ =>
    rw [hparse] at h
    cases h

theorem parsePolicyExpr_known_role
    : parsePolicyExpr "auth.role() = 'admin'"
          = .ok (.binaryOp .eq (.authBuiltin "role" []) (.literal (.string "admin")))
        ∧ CallsKnown "auth.role() = 'admin'" := by
  have hparse : parsePolicyExpr "auth.role() = 'admin'"
      = .ok (.binaryOp .eq (.authBuiltin "role" []) (.literal (.string "admin"))) := by
    decide +kernel
  refine ⟨hparse, (parsePolicyExpr_known hparse).mp ?_⟩
  exact ⟨⟨⟨.role, rfl, rfl⟩, trivial⟩, trivial⟩

/--
A call without a qualifier is not checked.
-/
theorem not_parsePolicyExpr_known
    : ¬ ∀ input expr, parsePolicyExpr input = .ok expr → expr.Known := by
  intro h
  have hparse : parsePolicyExpr "is_admin()" = .ok (.authBuiltin "is_admin" []) := by decide +kernel
  have ⟨⟨builtin, hname, _⟩, _⟩ := h "is_admin()" _ hparse
  cases hname

end Reactor.Policy
