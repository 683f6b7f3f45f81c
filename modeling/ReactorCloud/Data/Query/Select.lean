import ReactorCloud.Data.Execute.Format

/-!
This module contains the parser of the `select` parameter, as in `id,who:author!fk(name),*`.
-/

namespace Reactor.Data.Query

open Dialect (trimChars)
open Execute (EmbedSpec SelectColumn)

def isBlank (s : List Char) : Bool :=
  (trimChars s).isEmpty

def flush (current : List Char) : List (List Char) :=
  if isBlank current then [] else [current]

/--
The texts between the commas that are outside of parentheses.
-/
def splitItems : Int → List Char → List Char → List (List Char)
  | _, current, [] => flush current
  | parenDepth, current, c :: rest =>
    if c = '(' then
      splitItems (parenDepth + 1) (current ++ [c]) rest
    else if c = ')' then
      splitItems (parenDepth - 1) (current ++ [c]) rest
    else if c = ',' ∧ parenDepth = 0 then
      flush current ++ splitItems parenDepth [] rest
    else
      splitItems parenDepth (current ++ [c]) rest

theorem length_of_mem_splitItems {parenDepth : Int} {current s item : List Char}
    (h : item ∈ splitItems parenDepth current s) : item.length ≤ current.length + s.length := by
  have hflush {current : List Char} (h : item ∈ flush current) : item = current := by
    rw [flush] at h
    split at h
    . cases h
    . exact List.mem_singleton.mp h
  induction s generalizing parenDepth current with
  | nil => rw [hflush h]; exact Nat.le_refl _
  | cons c rest ih =>
    have hpush {d : Int} (h : item ∈ splitItems d (current ++ [c]) rest)
        : item.length ≤ current.length + (c :: rest).length := by
      have := ih h
      rw [List.length_append, List.length_singleton] at this
      rw [List.length_cons]
      omega
    rw [splitItems] at h
    split at h
    . exact hpush h
    . split at h
      . exact hpush h
      . split at h
        . cases List.mem_append.mp h with
          | inl h =>
            rw [hflush h]
            exact Nat.le_add_right _ _
          | inr h =>
            have := ih h
            rw [List.length_nil] at this
            rw [List.length_cons]
            omega
        . exact hpush h

/--
The text before the first `sep` and the text after it.
-/
def splitFirst (sep : Char) (s : List Char) : Option (List Char × List Char) :=
  match s.dropWhile (· ≠ sep) with
  | [] => none
  | _ :: rest => some (s.takeWhile (· ≠ sep), rest)

theorem length_of_splitFirst {sep : Char} {s before after : List Char}
    (h : splitFirst sep s = some (before, after)) : after.length < s.length := by
  rw [splitFirst] at h
  split at h
  . cases h
  . next heq =>
    cases h
    have := (List.dropWhile_suffix (l := s) (fun c => decide (c ≠ sep))).length_le
    rw [heq, List.length_cons] at this
    omega

structure EmbedName where
  name : String
  fkHint : Option String
  aliasName : Option String

/--
`name`, `alias:name`, `name!hint` or `alias:name!hint`
-/
def parseEmbedName (namePart : List Char) : EmbedName :=
  let (aliasName, nameWithHint) := match splitFirst ':' namePart with
    | some (before, after) => (some (String.ofList (trimChars before)), trimChars after)
    | none => (none, trimChars namePart)
  match splitFirst '!' nameWithHint with
  | some (name, hint) => ⟨String.ofList name, some (String.ofList hint), aliasName⟩
  | none => ⟨String.ofList nameWithHint, none, aliasName⟩

/--
A column or an aliased column.
-/
def parseColumn (item : List Char) : Except DataError SelectColumn :=
  match splitFirst ':' item with
  | some (before, after) =>
    let aliasName := trimChars before
    let column := trimChars after
    if aliasName.isEmpty || column.isEmpty then
      .error (.invalidFilter ("invalid aliased column: " ++ String.ofList item))
    else
      .ok (.aliased (String.ofList aliasName) (String.ofList column))
  | none => .ok (.column (String.ofList item))

theorem length_trimChars_le (s : List Char) : (trimChars s).length ≤ s.length := by
  have h1 := (List.dropWhile_suffix (l := s) Rust.Str.isWhitespace).length_le
  have h2 := (List.dropWhile_suffix (l := (Rust.Str.trimStart s).reverse) Rust.Str.isWhitespace).length_le
  rw [List.length_reverse] at h2
  rw [trimChars, Rust.Str.trimEnd, List.length_reverse]
  exact Nat.le_trans h2 h1

mutual

def parseSelectItems (input : List Char) : Except DataError (List SelectColumn) := do
  if isBlank input then
    .ok [.all]
  else
    let columns ← (splitItems 0 [] input).attach.mapM (fun ⟨item, h⟩ =>
      have := length_of_mem_splitItems h
      parseSingleSelectItem item)
    .ok (if columns.isEmpty then [.all] else columns)
termination_by (input.length, 1)
decreasing_by
  rw [List.length_nil, Nat.zero_add] at this
  grind

def parseSingleSelectItem (text : List Char) : Except DataError SelectColumn :=
  let item := trimChars text
  if item = ['*'] then
    .ok .all
  else
    match _hsplit : splitFirst '(' item with
    | some (namePart, rest) =>
      if item.getLast? ≠ some ')' then
        .error (.invalidFilter ("malformed embed: missing closing parenthesis in '"
          ++ String.ofList item ++ "'"))
      else
        let name := parseEmbedName namePart
        if name.name.isEmpty then
          .error (.invalidFilter ("empty embed name in '" ++ String.ofList item ++ "'"))
        else do
          let columns ← parseSelectItems rest.dropLast
          .ok (.embed ⟨name.name, name.fkHint, columns, name.aliasName⟩)
    | none => parseColumn item
termination_by (text.length, 0)
decreasing_by
  have h1 := length_of_splitFirst _hsplit
  have h2 : item.length ≤ text.length := length_trimChars_le text
  have h3 : rest.dropLast.length ≤ rest.length := by
    rw [List.length_dropLast]
    omega
  left
  omega

end

/--
The `select` parameter of a query.
-/
def parseSelect (input : List Char) : Except DataError (List SelectColumn) :=
  parseSelectItems input

end Reactor.Data.Query
