import ReactorCloud.Policy.Follows

/-!
This module proves that no keyword that is looked for ends inside of a character if the text is ASCII.
-/

namespace Reactor.Policy.Grammar

/--
What is left to read is the end of the text.
-/
def Leaves (rest : List Char) (r : Option Reader) : Prop :=
  ∀ r' ∈ r, r'.rest <:+ rest

theorem leaves_none (rest : List Char) : Leaves rest none := nofun

theorem leaves_some {rest after : List Char} (h : after <:+ rest) (mode : Mode) (stack : List Frame)
    : Leaves rest (some ⟨mode, stack, after⟩) := by
  intro r' hr
  cases hr
  exact h

theorem Leaves.trans {rest after : List Char} {r : Option Reader} (h : Leaves after r) (hafter : after <:+ rest)
    : Leaves rest r :=
  fun r' hr => (h r' hr).trans hafter

theorem suffix_skipWhitespace (rest : List Char) : skipWhitespace rest <:+ rest :=
  List.dropWhile_suffix _

theorem suffix_of_word {keyword : String} {rest after : List Char} (h : word keyword rest = some after)
    : after <:+ rest := by
  unfold word at h
  dsimp only at h
  split at h
  . cases h
    exact List.drop_suffix _ _
  . cases h

theorem suffix_of_firstWord {keywords : List String} {rest after : List Char} (h : firstWord keywords rest = some after)
    : after <:+ rest := by
  induction keywords with
  | nil => cases h
  | cons keyword keywords ih =>
    rw [firstWord, Option.or_eq_some_iff] at h
    cases h with
    | inl hword => exact suffix_of_word hword
    | inr hmore => exact ih hmore.2

theorem suffix_of_symbol {rest after : List Char} (h : symbol rest = some after) : after <:+ rest := by
  have ⟨s, _, hmatch⟩ := List.exists_of_findSome?_eq_some h
  unfold matchStr at hmatch
  split at hmatch
  . cases hmatch
    exact List.drop_suffix _ _
  . cases hmatch

theorem suffix_of_matchChar {c : Char} {rest after : List Char} (h : matchChar c rest = some after) : after <:+ rest := by
  cases rest with
  | nil => cases h
  | cons d rest =>
    rw [matchChar_cons] at h
    split at h
    . cases h
      exact List.suffix_cons _ _
    . cases h

theorem suffix_of_parseIdentifier {rest after : List Char} {name : String}
    (h : (parseIdentifier rest).toOption = some (name, after)) : after <:+ rest := by
  have hskip := suffix_skipWhitespace rest
  unfold parseIdentifier at h
  split at h
  . next c tail heq =>
    rw [heq] at hskip
    split at h
    . cases h
      exact ((List.dropWhile_suffix _).trans (List.suffix_cons _ _)).trans hskip
    . cases h
  . cases h

theorem suffix_of_stringBody {rest value after : List Char} (h : stringBody rest = .ok (value, after))
    : after <:+ rest := by
  fun_induction stringBody rest generalizing value with
  | case1 => cases h
  | case2 =>
    cases h
    exact List.nil_suffix
  | case3 rest ih =>
    cases hbody : stringBody rest with
    | error e =>
      rw [hbody] at h
      cases h
    | ok parts =>
      rw [hbody] at h
      cases h
      exact (ih hbody).trans ((List.suffix_cons _ _).trans (List.suffix_cons _ _))
  | case4 c rest hc =>
    cases h
    exact List.suffix_cons _ _
  | case5 c rest _ _ ih =>
    cases hbody : stringBody rest with
    | error e =>
      rw [hbody] at h
      cases h
    | ok parts =>
      rw [hbody] at h
      cases h
      exact (ih hbody).trans (List.suffix_cons _ _)

theorem suffix_numberBody (hasDot : Bool) (rest : List Char) : (numberBody hasDot rest).2.2 <:+ rest := by
  induction rest generalizing hasDot with
  | nil => exact List.nil_suffix
  | cons c rest ih =>
    rw [numberBody]
    split
    . exact (ih hasDot).trans (List.suffix_cons _ _)
    . split
      . exact (ih true).trans (List.suffix_cons _ _)
      . exact List.suffix_refl _

theorem suffix_of_parseNumber {rest after : List Char} {expr : PolicyExpr}
    (h : (parseNumber rest).toOption = some (expr, after)) : after <:+ rest := by
  have hsuffix := suffix_numberBody false rest
  unfold parseNumber at h
  dsimp only at h
  split at h
  . split at h
    . cases h
      exact hsuffix
    . cases h
  . split at h
    . cases h
      exact hsuffix
    . cases h

namespace Reader

theorem leaves_called (callee : Callee) (count : Nat) (place : Place) (stack : List Frame) (rest : List Char)
    : Leaves rest (called callee count place stack rest) := by
  have hsome := leaves_some (List.suffix_refl rest) place.after stack
  cases callee with
  | auth name =>
    rw [called]
    split
    . exact hsome
    . exact leaves_none rest
  | domain => exact hsome
  | plain name => exact hsome

theorem leaves_afterField (place : Place) (stack : List Frame) (first second : String) (rest : List Char)
    : Leaves rest (afterField place stack first second rest) := by
  unfold afterField
  split
  . split
    . next after heq => exact leaves_some (suffix_of_matchChar heq) _ stack
    . exact leaves_none rest
  . split
    . split
      . next after heq => exact leaves_some (suffix_of_matchChar heq) _ stack
      . exact leaves_some (List.suffix_refl rest) _ stack
    . split
      . next after =>
        intro r' hr
        obtain ⟨parts, hparts, hr⟩ := Option.bind_eq_some_iff.mp hr
        cases hr
        exact (suffix_of_parseIdentifier hparts).trans (List.suffix_cons _ _)
      . exact leaves_some (List.suffix_refl _) _ stack

theorem leaves_name (place : Place) (stack : List Frame) (rest : List Char)
    : Leaves rest (name place stack rest) := by
  intro r' hr
  obtain ⟨⟨first, after⟩, hfirst, hr⟩ := Option.bind_eq_some_iff.mp hr
  have hafter := (suffix_skipWhitespace after).trans (suffix_of_parseIdentifier hfirst)
  dsimp only at hr
  unfold afterName at hr
  split at hr
  . next after' heq =>
    rw [heq] at hafter
    obtain ⟨⟨second, tail⟩, hsecond, hr⟩ := Option.bind_eq_some_iff.mp hr
    have htail := (suffix_of_parseIdentifier hsecond).trans ((List.suffix_cons _ _).trans hafter)
    exact (leaves_afterField place stack first second _ r' hr).trans ((suffix_skipWhitespace tail).trans htail)
  . next after' heq =>
    rw [heq] at hafter
    cases hr
    exact (List.suffix_cons _ _).trans hafter
  . cases hr
    exact hafter

theorem leaves_token (place : Place) (stack : List Frame) (rest : List Char)
    : Leaves rest (token place stack rest) := by
  unfold token
  split
  . intro r' hr
    have ⟨parts, hparts, hr⟩ := Option.bind_eq_some_iff.mp hr
    cases hr
    exact suffix_of_parseNumber hparts
  . split
    . next after heq => exact leaves_some (suffix_of_firstWord heq) _ stack
    . exact leaves_name place stack rest

theorem leaves_operand (place : Place) (stack : List Frame) (rest : List Char)
    : Leaves rest (operand place stack rest) := by
  unfold operand
  split
  . exact leaves_some (List.suffix_cons _ _) _ _
  . exact leaves_some (List.suffix_cons _ _) _ _
  . next after =>
    intro r' hr
    obtain ⟨parts, hparts, hr⟩ := Option.bind_eq_some_iff.mp hr
    cases hr
    cases hbody : stringBody after with
    | error e =>
      rw [hbody] at hparts
      cases hparts
    | ok parts' =>
      rw [hbody] at hparts
      cases hparts
      exact (suffix_of_stringBody hbody).trans (List.suffix_cons _ _)
  . exact leaves_token place stack rest

theorem leaves_afterLeft (stack : List Frame) (rest : List Char) : Leaves rest (afterLeft stack rest) := by
  unfold afterLeft
  split
  . next after heq => exact leaves_some (suffix_of_word heq) _ stack
  . split
    . next after heq => exact leaves_some (suffix_of_word heq) _ stack
    . split
      . next after heq => exact leaves_some (suffix_of_word heq) _ stack
      . split
        . next after heq =>
          rw [Option.or_eq_some_iff] at heq
          cases heq with
          | inl hsymbol => exact leaves_some (suffix_of_symbol hsymbol) _ stack
          | inr hword => exact leaves_some (suffix_of_firstWord hword.2) _ stack
        . exact leaves_some (List.suffix_refl rest) _ stack

theorem leaves_close (stack : List Frame) (rest : List Char) : Leaves rest (close stack rest) := by
  unfold close
  split
  . exact leaves_some (List.suffix_cons _ _) _ _
  . exact (leaves_called _ _ _ _ _).trans (List.suffix_cons _ _)
  . exact leaves_some (List.suffix_cons _ _) _ _
  . exact leaves_some (List.suffix_cons _ _) _ _
  . exact leaves_some (List.suffix_cons _ _) _ _
  . exact leaves_none rest

theorem leaves_list (stack : List Frame) (rest : List Char)
    : Leaves rest
        (match rest with
          | '(' :: rest =>
            match skipWhitespace rest with
            | ')' :: rest => some ⟨.andLoop, stack, rest⟩
            | rest => some ⟨.operand .item, .list :: stack, rest⟩
          | _ => none) := by
  split
  . next after =>
    have hskip := (suffix_skipWhitespace after).trans (List.suffix_cons '(' after)
    split
    . next tail heq =>
      rw [heq] at hskip
      exact leaves_some ((List.suffix_cons _ _).trans hskip) _ _
    . exact leaves_some hskip _ _
  . exact leaves_none rest

/--
A step only reads on.
-/
theorem leaves_word (keyword : String) (mode mode' : Mode) (stack : List Frame) (rest : List Char)
    : Leaves rest (match word keyword rest with
      | some rest => some ⟨mode, stack, rest⟩
      | none => some ⟨mode', stack, rest⟩) := by
  split
  . next after heq => exact leaves_some (suffix_of_word heq) _ stack
  . exact leaves_some (List.suffix_refl rest) _ stack

theorem leaves_next (r : Reader) : Leaves r.rest r.next := by
  apply Leaves.trans _ (suffix_skipWhitespace r.rest)
  obtain ⟨mode, stack, rest⟩ := r
  generalize hskip : skipWhitespace rest = rest'
  have hmap : ∀ keyword mode, Leaves rest' ((word keyword rest').map (fun rest => ⟨mode, stack, rest⟩)) := by
    intro keyword mode r' hr
    obtain ⟨after, hword, hr⟩ := Option.map_eq_some_iff.mp hr
    cases hr
    exact suffix_of_word hword
  unfold next
  dsimp only
  rw [hskip]
  cases mode with
  | expr => exact leaves_word _ _ _ _ _
  | operand place => exact leaves_operand place stack rest'
  | args callee place =>
    dsimp only
    split
    . exact (leaves_called _ _ _ _ _).trans (List.suffix_cons _ _)
    . exact leaves_some (List.suffix_refl _) _ _
  | afterLeft => exact leaves_afterLeft stack rest'
  | afterIs =>
    cases hnot : word "NOT" rest' with
    | none => exact leaves_some (List.suffix_refl rest') _ stack
    | some after => exact leaves_some (suffix_of_word hnot) _ stack
  | null => exact hmap _ _
  | afterNot => exact hmap _ _
  | list => exact leaves_list stack rest'
  | andLoop => exact leaves_word _ _ _ _ _
  | orLoop => exact leaves_word _ _ _ _ _
  | close => exact leaves_close stack rest'

end Reader

/-! ASCII -/

def IsAscii (rest : List Char) : Prop :=
  ∀ c ∈ rest, c.utf8Size = 1

instance (rest : List Char) : Decidable (IsAscii rest) :=
  List.decidableBAll _ _

theorem whole_of_ascii (bytes : Nat) {rest : List Char} (h : IsAscii rest) : Whole bytes rest := by
  by_cases hlen : utf8Len rest < bytes
  . exact .inl hlen
  . right
    induction rest generalizing bytes with
    | nil =>
      cases bytes with
      | zero => exact Option.some_ne_none _
      | succ bytes => exact absurd (Nat.succ_pos bytes) hlen
    | cons c rest ih =>
      have ⟨hc, hrest⟩ := List.forall_mem_cons.mp h
      cases bytes with
      | zero => exact Option.some_ne_none _
      | succ bytes =>
        have hlen' : ¬ utf8Len rest < bytes := by
          have hcons : utf8Len (c :: rest) = c.utf8Size + utf8Len rest := rfl
          omega
        rw [splitBytes_succ, hc, if_pos (by omega), Nat.add_sub_cancel]
        intro hnone
        exact ih bytes hrest hlen' (Option.map_eq_none_iff.mp hnone)

theorem wholeWords_of_ascii (keywords : List String) {rest : List Char} (h : IsAscii rest)
    : WholeWords keywords rest := by
  induction keywords with
  | nil => trivial
  | cons keyword keywords ih => exact ⟨whole_of_ascii _ h, fun _ => ih⟩

theorem clear_of_ascii {input : String} (h : IsAscii input.toList) : Clear input := by
  intro r hreach
  have hsuffix : r.rest <:+ input.toList := by
    induction hreach with
    | refl => exact List.suffix_refl _
    | tail _ hnext ih => exact (Reader.leaves_next _ _ hnext).trans ih
  apply wholeWords_of_ascii
  intro c hc
  exact h c (((suffix_skipWhitespace r.rest).trans hsuffix).subset hc)

end Reactor.Policy.Grammar
