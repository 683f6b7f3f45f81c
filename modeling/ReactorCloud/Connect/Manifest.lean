import ReactorCloud.Rust.HashMap
import ReactorCloud.Rust.Json
import ReactorCloud.Rust.Replace
import ReactorCloud.Rust.Result
import ReactorCloud.Rust.Str

/-!
This module contains the interpreter of connector manifests. The requests of `check` are built by methods of the
runtime, those of `read` by static copies of these.
-/

namespace Reactor.Connect.Manifest

open Rust (HashMap Json)
open Rust.Replace
open Rust.Str (isWhitespace Blank dropWhile_append takeWhile_append)

/-! Templates -/

inductive Scope where
  | config
  | streamPartition
  | streamSlice
  deriving DecidableEq

namespace Scope

def name : Scope → String
  | config => "config"
  | streamPartition => "stream_partition"
  | streamSlice => "stream_slice"

def all : List Scope := [config, streamPartition, streamSlice]

theorem mem_all (scope : Scope) : scope ∈ all := by
  cases scope <;> decide

end Scope

-- `\w` of the regular expressions
variable (isWord : Char → Bool)

/--
`['"]?`
-/
def quote : List Char → List Char
  | '\'' :: s => s
  | '"' :: s => s
  | s => s

/--
`\{\{\s*NAME\[['"]?(\w+)['"]?\]\s*\}\}` at the beginning of a text, with what the group captures.
-/
def placeholder (scope : Scope) : Recognizer Char (List Char) := fun s => do
  let s ← s.dropPrefix? ['{', '{']
  let s ← (s.dropWhile isWhitespace).dropPrefix? (scope.name.toList ++ ['['])
  let s := quote s
  let key := s.takeWhile isWord
  guard (key ≠ [])
  let s ← (quote (s.dropWhile isWord)).dropPrefix? [']']
  let s ← (s.dropWhile isWhitespace).dropPrefix? ['}', '}']
  return (key, s)

def configValue (config : Json) (key : List Char) : List Char :=
  (((config.get (String.ofList key)).bind Json.asStr).getD "").toList

def paramValue (pathParams : HashMap String) (key : List Char) : List Char :=
  ((pathParams.lookup (String.ofList key)).getD "").toList

def interpolateTemplate (template : String) (config : Json) (pathParams : HashMap String) : String :=
  let result := template.toList
  let result := replaceAll (placeholder isWord .config) (configValue config) result
  let result := replaceAll (placeholder isWord .streamPartition) (paramValue pathParams) result
  let result := replaceAll (placeholder isWord .streamSlice) (paramValue pathParams) result
  String.ofList result

def interpolateTemplateStatic (template : String) (config : Json) (pathParams : HashMap String) : String :=
  let result := template.toList
  let result := replaceAll (placeholder isWord .config) (configValue config) result
  let result := replaceAll (placeholder isWord .streamPartition) (paramValue pathParams) result
  String.ofList result

/--
The template with its own placeholders filled in, all of them in one pass.
-/
def substituted (template : String) (config : Json) (pathParams : HashMap String) : String :=
  let value : Scope × List Char → List Char := fun (scope, key) =>
    if scope = .config then configValue config key else paramValue pathParams key
  String.ofList (replaceAll (any Scope.all (placeholder isWord)) value template.toList)

/--
None of the other characters of a placeholder is a word character.
-/
def WordClass : Prop :=
  ∀ c ∈ ['\'', '"', '[', ']', '{', '}'], isWord c = false

/--
What stands between the braces of a placeholder.
-/
def Inner (scope : Scope) (mid key : List Char) : Prop :=
  ∃ before opening closing after,
    mid = before ++ (scope.name.toList ++ '[' :: (opening ++ (key ++ (closing ++ ']' :: after))))
    ∧ Blank before ∧ Blank after
    ∧ (opening = [] ∨ opening = ['\''] ∨ opening = ['"'])
    ∧ (closing = [] ∨ closing = ['\''] ∨ closing = ['"'])
    ∧ key ≠ [] ∧ ∀ c ∈ key, isWord c = true

section

variable {isWord}

theorem dropPrefix_eq_some {s start rest : List Char}
    : s.dropPrefix? start = some rest ↔ s = start ++ rest := by
  rw [List.dropPrefix?_eq_some_iff]
  simp

theorem quote_eq (s : List Char)
    : ∃ q, (q = [] ∨ q = ['\''] ∨ q = ['"']) ∧ s = q ++ quote s := by
  unfold quote
  split
  . exact ⟨['\''], by simp, rfl⟩
  . exact ⟨['"'], by simp, rfl⟩
  . exact ⟨[], by simp, rfl⟩

theorem quote_append {q s : List Char} (hq : q = [] ∨ q = ['\''] ∨ q = ['"'])
    (hs : ∀ c ∈ s.head?, c ≠ '\'' ∧ c ≠ '"') : quote (q ++ s) = s := by
  rcases hq with rfl | rfl | rfl
  . cases s with
    | nil => rfl
    | cons c s =>
      have := hs c rfl
      simp only [List.nil_append]
      unfold quote
      split
      next heq => simp_all
      next heq => simp_all
      next => rfl
  . rfl
  . rfl

theorem name_eq (scope : Scope) : ∃ c t, scope.name.toList = c :: t ∧ isWhitespace c = false := by
  cases scope with
  | config => exact ⟨'c', "onfig".toList, by decide⟩
  | streamPartition => exact ⟨'s', "tream_partition".toList, by decide⟩
  | streamSlice => exact ⟨'s', "tream_slice".toList, by decide⟩

theorem head_ne_quote {key : List Char} (hkey : key ≠ []) (hword : WordClass isWord)
    (hall : ∀ c ∈ key, isWord c = true) (s : List Char) : ∀ c ∈ (key ++ s).head?, c ≠ '\'' ∧ c ≠ '"' := by
  intro c hc
  cases key with
  | nil => contradiction
  | cons d key =>
    rw [List.cons_append, List.head?_cons, Option.mem_some_iff] at hc
    have hd := hall d List.mem_cons_self
    subst hc
    constructor
    . intro heq
      rw [heq, hword _ (by decide)] at hd
      cases hd
    . intro heq
      rw [heq, hword _ (by decide)] at hd
      cases hd

theorem placeholder_of_inner (hword : WordClass isWord)
    {scope : Scope} {mid key : List Char} (h : Inner isWord scope mid key) (rest : List Char)
    : placeholder isWord scope ('{' :: '{' :: (mid ++ '}' :: '}' :: rest)) = some (key, rest) := by
  obtain ⟨before, opening, closing, after, rfl, hbefore, hafter, hopening, hclosing, hne, hall⟩ := h
  obtain ⟨c, t, hname, hc⟩ := name_eq scope
  have hname' : ∀ d ∈ (scope.name.toList ++ '[' :: (opening ++ (key ++ (closing ++ ']' :: (after ++ '}' :: '}'
      :: rest))))).head?, isWhitespace d = false := by
    rw [hname]
    rintro d ⟨rfl⟩
    exact hc
  have hstop : ∀ d ∈ (closing ++ ']' :: (after ++ '}' :: '}' :: rest)).head?, isWord d = false := by
    intro d hd
    apply hword
    rcases hclosing with rfl | rfl | rfl <;> cases hd <;> decide
  have hkey := head_ne_quote hne hword hall (closing ++ ']' :: (after ++ '}' :: '}' :: rest))
  have hbracket : ∀ d ∈ (']' :: (after ++ '}' :: '}' :: rest)).head?, d ≠ '\'' ∧ d ≠ '"' := by
    rintro d ⟨rfl⟩
    decide
  have hbrace : ∀ d ∈ ('}' :: '}' :: rest).head?, isWhitespace d = false := by
    rintro d ⟨rfl⟩
    decide
  unfold placeholder
  simp only [Option.bind_eq_bind, Option.bind_eq_some_iff, dropPrefix_eq_some, Option.guard_eq_some']
  refine ⟨_, rfl, opening ++ (key ++ (closing ++ ']' :: (after ++ '}' :: '}' :: rest))), ?_, (), ?_,
    after ++ '}' :: '}' :: rest, ?_, rest, ?_, ?_⟩
  . simp only [List.append_eq, List.append_assoc, List.cons_append, List.nil_append]
    apply dropWhile_append hbefore hname'
  . rw [quote_append hopening hkey, takeWhile_append hall hstop]
    exact hne
  . rw [quote_append hopening hkey, dropWhile_append hall hstop, quote_append hclosing hbracket]
    rfl
  . apply dropWhile_append hafter hbrace
  . rw [quote_append hopening hkey, takeWhile_append hall hstop]
    rfl

theorem placeholder_eq_some (hword : WordClass isWord)
    {scope : Scope} {s key rest : List Char}
    : placeholder isWord scope s = some (key, rest)
      ↔ ∃ mid, s = '{' :: '{' :: (mid ++ '}' :: '}' :: rest) ∧ Inner isWord scope mid key := by
  constructor
  . intro h
    unfold placeholder at h
    simp only [Option.bind_eq_bind, Option.bind_eq_some_iff, dropPrefix_eq_some, Option.guard_eq_some'] at h
    obtain ⟨s₁, rfl, s₂, h₂, -, hkey, s₃, h₃, s₄, h₄, hout⟩ := h
    obtain ⟨q, hq, hopening⟩ := quote_eq s₂
    obtain ⟨q', hq', hclosing⟩ := quote_eq ((quote s₂).dropWhile isWord)
    cases hout
    have hs₁ : s₁ = s₁.takeWhile isWhitespace ++ (scope.name.toList ++ '[' :: s₂) := by
      conv_lhs => rw [← List.takeWhile_append_dropWhile (p := isWhitespace) (l := s₁), h₂]
      simp
    have hs₃ : s₃ = s₃.takeWhile isWhitespace ++ '}' :: '}' :: rest := by
      conv_lhs => rw [← List.takeWhile_append_dropWhile (p := isWhitespace) (l := s₃), h₄]
      simp
    have hs₂ := calc
      s₂ = q ++ quote s₂ := hopening
      _ = q ++ ((quote s₂).takeWhile isWord ++ (quote s₂).dropWhile isWord) := by
        rw [List.takeWhile_append_dropWhile]
      _ = q ++ ((quote s₂).takeWhile isWord ++ (q' ++ ([']'] ++ s₃))) := by rw [← h₃, ← hclosing]
    refine ⟨s₁.takeWhile isWhitespace ++ (scope.name.toList ++ '[' :: (q ++ ((quote s₂).takeWhile isWord
      ++ (q' ++ ']' :: s₃.takeWhile isWhitespace)))), ?_, _, q, q', _, rfl, ?_, ?_, hq, hq', hkey, ?_⟩
    . have hbody : s₁ = s₁.takeWhile isWhitespace ++ (scope.name.toList ++ '[' :: (q ++ ((quote s₂).takeWhile isWord
          ++ (q' ++ ']' :: (s₃.takeWhile isWhitespace ++ '}' :: '}' :: rest))))) := by
        rw [← hs₃]
        conv_lhs => rw [hs₁, hs₂]
        rfl
      conv_lhs => rw [hbody]
      simp
    all_goals
      intro c
      apply List.mem_takeWhile_imp
  . rintro ⟨mid, rfl, hinner⟩
    exact placeholder_of_inner hword hinner rest

theorem Inner.braceless (hword : WordClass isWord) {scope : Scope} {mid key : List Char}
    (h : Inner isWord scope mid key) : mid ≠ [] ∧ '{' ∉ mid ∧ '}' ∉ mid := by
  obtain ⟨before, opening, closing, after, rfl, hbefore, hafter, hopening, hclosing, -, hall⟩ := h
  have hnone : ∀ c, c = '{' ∨ c = '}'
      → c ∉ before ++ (scope.name.toList ++ '[' :: (opening ++ (key ++ (closing ++ ']' :: after)))) := by
    intro c hc hmem
    simp only [List.mem_append, List.mem_cons] at hmem
    rcases hmem with hmem | hmem | hmem | hmem | hmem | hmem | hmem | hmem
    . have := hbefore c hmem
      rcases hc with rfl | rfl <;> cases this
    . revert hmem
      rcases hc with rfl | rfl <;> cases scope <;> decide
    . rcases hc with rfl | rfl <;> cases hmem
    . rcases hopening with rfl | rfl | rfl <;> rcases hc with rfl | rfl <;> simp at hmem
    . have := hall c hmem
      rw [hword c (by rcases hc with rfl | rfl <;> decide)] at this
      cases this
    . rcases hclosing with rfl | rfl | rfl <;> rcases hc with rfl | rfl <;> simp at hmem
    . rcases hc with rfl | rfl <;> cases hmem
    . have := hafter c hmem
      rcases hc with rfl | rfl <;> cases this
  refine ⟨?_, hnone _ (.inl rfl), hnone _ (.inr rfl)⟩
  simp

theorem name_of_placeholder {scope : Scope} {s : List Char} {x : List Char × List Char}
    (h : placeholder isWord scope s = some x)
    : ∃ body, (s.drop 2).dropWhile isWhitespace = scope.name.toList ++ '[' :: body := by
  unfold placeholder at h
  simp only [Option.bind_eq_bind, Option.bind_eq_some_iff, dropPrefix_eq_some, Option.guard_eq_some'] at h
  obtain ⟨s₁, rfl, s₂, h₂, -⟩ := h
  refine ⟨s₂, ?_⟩
  rw [List.append_assoc] at h₂
  exact h₂

theorem separated (hword : WordClass isWord) : Separated (placeholder isWord) := by
  constructor
  case nil =>
    intro scope
    rfl
  case raw =>
    intro scope s key rest h
    obtain ⟨mid, rfl, hinner⟩ := (placeholder_eq_some hword).mp h
    refine ⟨'{' :: '{' :: (mid ++ ['}', '}']), by simp, ?_⟩
    intro t
    have := placeholder_of_inner hword hinner t
    simpa using this
  case inside =>
    intro k l u v key h hu hv t
    obtain ⟨mid, hraw, hinner⟩ := (placeholder_eq_some hword).mp h
    obtain ⟨hne, hopen, -⟩ := hinner.braceless hword
    rw [Option.eq_none_iff_forall_ne_some]
    intro x hx
    have hx : placeholder isWord l (v ++ t) = some (x.1, x.2) := hx
    obtain ⟨mid', hbegins, -⟩ := (placeholder_eq_some hword).mp hx
    -- `v` begins with a brace, which neither the second brace of the placeholder nor anything after it can be.
    cases v with
    | nil => contradiction
    | cons c v =>
      rw [List.cons_append, List.cons.injEq] at hbegins
      obtain ⟨rfl, hsecond⟩ := hbegins
      cases u with
      | nil => contradiction
      | cons d u =>
        rw [List.cons_append, List.cons.injEq] at hraw
        cases u with
        | nil =>
          have hv : v = mid ++ ['}', '}'] := by simpa using hraw.2
          cases mid with
          | nil => contradiction
          | cons e mid =>
            rw [hv, List.cons_append, List.cons_append, List.cons.injEq] at hsecond
            apply hopen
            rw [hsecond.1]
            exact List.mem_cons_self
        | cons e u =>
          have hv : u ++ '{' :: v = mid ++ ['}', '}'] := (List.cons.inj hraw.2).2
          have hmem : '{' ∈ mid ++ ['}', '}'] := by
            rw [← hv]
            simp
          simp [hopen] at hmem
  case unique =>
    intro k l s x y hk hl
    obtain ⟨body, hbody⟩ := name_of_placeholder hk
    obtain ⟨body', hbody'⟩ := name_of_placeholder hl
    rw [hbody] at hbody'
    revert hbody'
    cases k <;> cases l <;> simp [Scope.name]

end

/-! Templates that one pass fills in as well as several -/

abbrev TemplatePiece := Piece Char (Scope × List Char)

def TemplatePiece.isOf (scope : Scope) : TemplatePiece → Bool
  | .found (other, _) _ => other = scope
  | .text _ => false

def templatePieces (template : String) : List TemplatePiece :=
  pieces (any Scope.all (placeholder isWord)) template.toList

/--
A piece with what it stands for when there are no path parameters.
-/
def TemplatePiece.shown (config : Json) : TemplatePiece → List Char :=
  Piece.replaced (fun (scope, key) => if scope = .config then configValue config key else [])

/--
The texts, configuration values among them, between the `stream_partition` placeholders of a template.
-/
def runs (template : String) (config : Json) : List (List Char) :=
  runsFrom (TemplatePiece.isOf .streamPartition) (TemplatePiece.shown config) [] (templatePieces isWord template)

/--
The template has no `stream_slice` placeholder, and filling in configuration values makes no placeholder that is not
in the template.
-/
structure Plain (template : String) (config : Json) : Prop where
  sliceless : ∀ p ∈ templatePieces isWord template, TemplatePiece.isOf .streamSlice p = false
  runs : ∀ run ∈ runs isWord template config, Free (placeholder isWord .streamPartition) run
  whole : Free (placeholder isWord .streamSlice) (Manifest.runs isWord template config).flatten

/--
Each of the two copies substitutes the template in one pass.
-/
def OnePass (template : String) (config : Json) : Prop :=
  interpolateTemplateStatic isWord template config ∅ = substituted isWord template config ∅
    ∧ interpolateTemplate isWord template config ∅ = substituted isWord template config ∅

section

variable {isWord}

theorem paramValue_empty : paramValue ∅ = fun _ => [] := by
  funext key
  unfold paramValue
  rw [AList.lookup_empty]
  rfl

theorem occurs_of_mem_templatePieces (hword : WordClass isWord)
    {template : String} {scope : Scope} {key raw : List Char}
    (hmem : .found (scope, key) raw ∈ templatePieces isWord template)
    : placeholder isWord scope raw = some (key, []) := by
  have hsep := separated hword
  apply hsep.of_any Scope.mem_all (x := (scope, key))
  exact (hsep.any Scope.mem_all).occurs_of_mem_pieces (k := ()) hmem

/--
The text after the first pass.
-/
def filled (isWord : Char → Bool) (template : String) (config : Json) : List Char :=
  replaceAll (placeholder isWord .config) (configValue config) template.toList

theorem filled_eq (hword : WordClass isWord) (template : String) (config : Json)
    : filled isWord template config
      = (templatePieces isWord template).flatMap (Piece.only .config (configValue config)) :=
  (separated hword).replaceAll_eq_only Scope.mem_all .config (configValue config) template.toList

theorem interpolateTemplateStatic_eq (template : String) (config : Json)
    : interpolateTemplateStatic isWord template config ∅
      = String.ofList (deleteAll (placeholder isWord .streamPartition) (filled isWord template config)) := by
  unfold interpolateTemplateStatic
  rw [paramValue_empty]
  rfl

theorem interpolateTemplate_eq (template : String) (config : Json)
    : interpolateTemplate isWord template config ∅
      = String.ofList (deleteAll (placeholder isWord .streamSlice)
          (deleteAll (placeholder isWord .streamPartition) (filled isWord template config))) := by
  unfold interpolateTemplate
  rw [paramValue_empty]
  rfl

theorem substituted_eq (template : String) (config : Json)
    : substituted isWord template config ∅ = String.ofList (runs isWord template config).flatten := by
  unfold substituted runs
  rw [paramValue_empty, flatten_runsFrom, List.nil_append]
  unfold replaceAll templatePieces
  dsimp only
  congr 2
  funext p
  cases p with
  | text c => rfl
  | found x raw =>
    obtain ⟨scope, key⟩ := x
    cases scope <;> rfl

theorem filled_of_sliceless (hword : WordClass isWord) {template : String}
    {config : Json} (h : ∀ p ∈ templatePieces isWord template, TemplatePiece.isOf .streamSlice p = false)
    : filled isWord template config
      = (templatePieces isWord template).flatMap
          (fun p => if TemplatePiece.isOf .streamPartition p then p.raw else TemplatePiece.shown config p) := by
  rw [filled_eq hword]
  apply List.flatMap_congr
  intro p hp
  have := h p hp
  cases p with
  | text c => rfl
  | found x raw =>
    obtain ⟨scope, key⟩ := x
    cases scope with
    | config => rfl
    | streamPartition => rfl
    | streamSlice => cases this

theorem deleteAll_filled (hword : WordClass isWord) {template : String}
    {config : Json} (h : ∀ p ∈ templatePieces isWord template, TemplatePiece.isOf .streamSlice p = false)
    : deleteAll (placeholder isWord .streamPartition) (filled isWord template config)
      = (runs isWord template config).flatMap (deleteAll (placeholder isWord .streamPartition)) := by
  rw [filled_of_sliceless hword h]
  apply (separated hword).deleteAll_runsFrom _ []
  intro p hp hcut
  cases p with
  | text c => cases hcut
  | found x raw =>
    obtain ⟨scope, key⟩ := x
    have : scope = .streamPartition := of_decide_eq_true hcut
    subst this
    exact ⟨key, occurs_of_mem_templatePieces hword hp⟩

/--
A `stream_slice` placeholder of the template is still there after two passes, and the third one takes it away.
-/
theorem length_lt_of_slice (hword : WordClass isWord) {template : String}
    {config : Json} {p : TemplatePiece} (hp : p ∈ templatePieces isWord template)
    (hslice : TemplatePiece.isOf .streamSlice p = true)
    : (deleteAll (placeholder isWord .streamSlice)
          (deleteAll (placeholder isWord .streamPartition) (filled isWord template config))).length
        < (deleteAll (placeholder isWord .streamPartition) (filled isWord template config)).length := by
  have hsep := separated hword
  cases p with
  | text c => cases hslice
  | found x raw =>
    obtain ⟨scope, key⟩ := x
    have : scope = .streamSlice := of_decide_eq_true hslice
    subst this
    have hraw := occurs_of_mem_templatePieces hword hp
    have hpos := List.length_pos_iff.mpr (hsep.ne_nil hraw)
    obtain ⟨ps, qs, hpieces⟩ := List.append_of_mem hp
    rw [filled_eq hword, hpieces, List.flatMap_append, List.flatMap_cons]
    change (deleteAll _ (deleteAll _ (_ ++ (raw ++ _)))).length < (deleteAll _ (_ ++ (raw ++ _))).length
    generalize ps.flatMap (Piece.only .config (configValue config)) = u
    generalize qs.flatMap (Piece.only .config (configValue config)) = v
    unfold deleteAll
    rw [hsep.replaceAll_cut hraw .streamPartition, hsep.replaceAll_other hraw (by decide),
      hsep.replaceAll_cut hraw .streamSlice, hsep.replaceAll_found hraw]
    have hu := hsep.length_deleteAll_le .streamSlice (replaceAll (placeholder isWord .streamPartition) (fun _ => []) u)
    have hv := hsep.length_deleteAll_le .streamSlice (replaceAll (placeholder isWord .streamPartition) (fun _ => []) v)
    unfold deleteAll at hu hv
    simp only [List.length_append, List.length_nil]
    omega

theorem onePass_iff (hword : WordClass isWord) (template : String)
    (config : Json) : OnePass isWord template config ↔ Plain isWord template config := by
  have hsep := separated hword
  unfold OnePass
  rw [interpolateTemplateStatic_eq, interpolateTemplate_eq, substituted_eq, String.ofList_inj, String.ofList_inj]
  constructor
  . rintro ⟨hstatic, hfull⟩
    have hslice : ∀ p ∈ templatePieces isWord template, TemplatePiece.isOf .streamSlice p = false := by
      intro p hp
      rw [Bool.eq_false_iff]
      intro htrue
      have := @length_lt_of_slice _ hword template config p hp htrue
      rw [hfull, hstatic] at this
      omega
    refine ⟨hslice, ?_, ?_⟩
    . rw [← hsep.flatMap_deleteAll_eq_iff, ← deleteAll_filled hword hslice]
      exact hstatic
    . rw [← hsep.deleteAll_eq_iff]
      rw [hstatic] at hfull
      exact hfull
  . rintro ⟨hslice, hruns, hwhole⟩
    have hstatic : deleteAll (placeholder isWord .streamPartition) (filled isWord template config)
        = (runs isWord template config).flatten := by
      rw [deleteAll_filled hword hslice]
      exact hsep.flatMap_deleteAll_eq_iff.mpr hruns
    refine ⟨hstatic, ?_⟩
    rw [hstatic]
    exact deleteAll_of_free hwhole

end

/-! Requests -/

inductive ConnectError where
  | internal (text : String)
  | invalidInput (text : String)
  | actionFailed (code cause : String)
  deriving DecidableEq

def okOr {α : Type} (a : Option α) (e : ConnectError) : Except ConnectError α :=
  a.elim (.error e) .ok

structure AuthenticatorSpec where
  specType : Option String := none
  apiKey : Option String := none
  header : Option String := none
  token : Option String := none
  username : Option String := none
  password : Option String := none

structure RequesterSpec where
  urlBase : Option String := none
  path : Option String := none
  httpMethod : Option String := none
  authenticator : Option AuthenticatorSpec := none
  requestHeaders : Option (HashMap String) := none
  requestParameters : Option (HashMap String) := none

inductive Method where
  | get
  | post
  | put
  | patch
  | delete
  deriving DecidableEq

inductive Header where
  | header (name value : String)
  | bearerAuth (token : String)
  | basicAuth (username : String) (password : Option String)
  deriving DecidableEq

/--
What a request is built with.
-/
structure RequestBuilder where
  method : Method
  url : String
  headers : List Header := []
  query : List (String × String) := []
  deriving DecidableEq

namespace RequestBuilder

def withHeader (request : RequestBuilder) (header : Header) : RequestBuilder :=
  { request with headers := request.headers ++ [header] }

def withQuery (request : RequestBuilder) (key value : String) : RequestBuilder :=
  { request with query := request.query ++ [(key, value)] }

theorem foldl_withHeader {α : Type} (f : α → Header) (as : List α) (request : RequestBuilder)
    : as.foldl (fun request a => request.withHeader (f a)) request
      = { request with headers := request.headers ++ as.map f } := by
  induction as generalizing request with
  | nil => simp
  | cons a as ih =>
    rw [List.foldl_cons, ih]
    simp [withHeader]

theorem foldl_withQuery {α : Type} (f : α → String × String) (as : List α) (request : RequestBuilder)
    : as.foldl (fun request a => request.withQuery (f a).1 (f a).2) request
      = { request with query := request.query ++ as.map f } := by
  induction as generalizing request with
  | nil => simp
  | cons a as ih =>
    rw [List.foldl_cons, ih]
    simp [withQuery]

end RequestBuilder

/--
The common body of `apply_auth` and its static copy.
-/
def authorize (interpolate : String → String) (request : RequestBuilder) (auth : AuthenticatorSpec) (config : Json)
    : Except ConnectError RequestBuilder :=
  let field := fun name => (config.get name).bind Json.asStr
  match auth.specType with
  | some "BearerAuthenticator" => do
    let token ← okOr (((auth.token.map interpolate).or (field "token")).or (field "access_token"))
      (.invalidInput "token required")
    return request.withHeader (.bearerAuth token)
  | some "ApiKeyAuthenticator" => do
    let apiKey ← okOr ((auth.apiKey.map interpolate).or (field "api_key")) (.invalidInput "api_key required")
    return request.withHeader (.header (auth.header.getD "Authorization") apiKey)
  | some "BasicHttpAuthenticator" => do
    let username ← okOr ((auth.username.map interpolate).or (field "username")) (.invalidInput "username required")
    let password := ((auth.password.map interpolate).or (field "password")).getD ""
    return request.withHeader (.basicAuth username (some password))
  | some "OAuthAuthenticator" => do
    -- The token is refreshed elsewhere.
    let token ← okOr (field "access_token") (.invalidInput "access_token required")
    return request.withHeader (.bearerAuth token)
  | _ => return request

def applyAuth (request : RequestBuilder) (auth : AuthenticatorSpec) (config : Json)
    : Except ConnectError RequestBuilder :=
  authorize (fun t => interpolateTemplate isWord t config ∅) request auth config

def applyAuthStatic (request : RequestBuilder) (auth : AuthenticatorSpec) (config : Json)
    : Except ConnectError RequestBuilder :=
  authorize (fun t => interpolateTemplateStatic isWord t config ∅) request auth config

def RequesterSpec.method (requester : RequesterSpec) : Method :=
  match requester.httpMethod.getD "GET" with
  | "POST" => .post
  | "PUT" => .put
  | "PATCH" => .patch
  | "DELETE" => .delete
  | _ => .get

def entriesOf (entries : Option (HashMap String)) : List (Σ _ : String, String) :=
  entries.elim [] AList.entries

/--
The request that `execute_request` sends.
-/
def buildRequest (requester : RequesterSpec) (config : Json) (pathParams : HashMap String)
    : Except ConnectError RequestBuilder := do
  let interpolate := fun t => interpolateTemplate isWord t config pathParams
  let baseUrl ← okOr requester.urlBase (.internal "missing url_base")
  let path := (requester.path.map interpolate).getD ""
  let request : RequestBuilder := { method := requester.method, url := baseUrl ++ path }
  let request ← requester.authenticator.elim (.ok request) (applyAuth isWord request · config)
  let headers := entriesOf requester.requestHeaders
  let request := headers.foldl (fun request e => request.withHeader (.header e.1 (interpolate e.2))) request
  let params := entriesOf requester.requestParameters
  return params.foldl (fun request e => request.withQuery e.1 (interpolate e.2)) request

structure HttpReply where
  status : Nat
  text : String
  json : Except String Json

def receive (reply : Except String HttpReply) : Except ConnectError Json :=
  match reply with
  | .error e => .error (.internal ("request failed: " ++ e))
  | .ok reply =>
    if 200 ≤ reply.status ∧ reply.status < 300 then
      reply.json.mapError (fun e => .internal ("failed to parse response: " ++ e))
    else
      .error (.actionFailed ("http_" ++ toString reply.status) reply.text)

def executeRequest (http : RequestBuilder → Except String HttpReply) (requester : RequesterSpec) (config : Json)
    (pathParams : HashMap String) : Except ConnectError Json := do
  let request ← buildRequest isWord requester config pathParams
  receive (http request)

/--
The request that `read` sends.
-/
def readRequest (requester : RequesterSpec) (config : Json) : Except ConnectError RequestBuilder := do
  let baseUrl ← okOr requester.urlBase (.internal "missing url_base")
  let path := (requester.path.map (fun p => interpolateTemplateStatic isWord p config ∅)).getD ""
  let request : RequestBuilder := { method := .get, url := baseUrl ++ path }
  requester.authenticator.elim (.ok request) (applyAuthStatic isWord request · config)

def AuthenticatorSpec.templates (auth : AuthenticatorSpec) : List String :=
  match auth.specType with
  | some "BearerAuthenticator" => auth.token.toList
  | some "ApiKeyAuthenticator" => auth.apiKey.toList
  | some "BasicHttpAuthenticator" => auth.username.toList ++ auth.password.toList
  | _ => []

/--
The templates that go into the URL and the authentication.
-/
def RequesterSpec.templates (requester : RequesterSpec) : List String :=
  requester.path.toList ++ requester.authenticator.elim [] AuthenticatorSpec.templates

section

variable {isWord}

theorem authorize_congr {f g : String → String} {auth : AuthenticatorSpec} (h : ∀ t ∈ auth.templates, f t = g t)
    (request : RequestBuilder) (config : Json) : authorize f request auth config = authorize g request auth config := by
  have hmap : ∀ o : Option String, (∀ t ∈ o.toList, f t = g t) → o.map f = o.map g := by
    intro o ho
    cases o with
    | none => rfl
    | some t =>
      rw [Option.map_some, Option.map_some, ho t (by simp)]
  unfold AuthenticatorSpec.templates at h
  unfold authorize
  split at h
  next heq =>
    simp only [heq]
    rw [hmap _ h]
  next heq =>
    simp only [heq]
    rw [hmap _ h]
  next heq =>
    simp only [heq]
    rw [hmap auth.username (fun t ht => h t (List.mem_append_left _ ht)),
      hmap auth.password (fun t ht => h t (List.mem_append_right _ ht))]
  next hbearer hkey hbasic =>
    dsimp only
    split
    next heq => exact absurd heq hbearer
    next heq => exact absurd heq hkey
    next heq => exact absurd heq hbasic
    next => rfl
    next => rfl

/--
Only headers are added, and the same ones to every request.
-/
theorem authorize_ok {f : String → String} {auth : AuthenticatorSpec} {config : Json} {request out : RequestBuilder}
    (h : authorize f request auth config = .ok out)
    : ∃ hs, ∀ other, authorize f other auth config = .ok { other with headers := other.headers ++ hs } := by
  unfold authorize at h ⊢
  dsimp only at h ⊢
  split at h
  next =>
    obtain ⟨token, htoken, -⟩ := Rust.bind_eq_ok.mp h
    rw [htoken]
    exact ⟨[_], fun _ => rfl⟩
  next =>
    obtain ⟨apiKey, hkey, -⟩ := Rust.bind_eq_ok.mp h
    rw [hkey]
    exact ⟨[_], fun _ => rfl⟩
  next =>
    obtain ⟨username, hname, -⟩ := Rust.bind_eq_ok.mp h
    rw [hname]
    exact ⟨[_], fun _ => rfl⟩
  next =>
    obtain ⟨token, htoken, -⟩ := Rust.bind_eq_ok.mp h
    rw [htoken]
    exact ⟨[_], fun _ => rfl⟩
  next =>
    refine ⟨[], ?_⟩
    intro other
    rw [List.append_nil]
    rfl

theorem authorized_ok {f : String → String} {authenticator : Option AuthenticatorSpec} {config : Json}
    {request out : RequestBuilder}
    (h : authenticator.elim (.ok request) (authorize f request · config) = .ok out)
    : ∃ hs, ∀ other : RequestBuilder, authenticator.elim (.ok other) (authorize f other · config)
        = .ok { other with headers := other.headers ++ hs } := by
  cases authenticator with
  | none =>
    refine ⟨[], ?_⟩
    intro other
    rw [List.append_nil]
    rfl
  | some auth => exact authorize_ok h

/--
Where templates take one pass, the two requests differ by what `read` leaves out.
-/
theorem buildRequest_eq_iff {requester : RequesterSpec} {config : Json} {request : RequestBuilder}
    (hread : readRequest isWord requester config = .ok request)
    (hone : ∀ t ∈ requester.templates, OnePass isWord t config)
    : buildRequest isWord requester config ∅ = .ok request
      ↔ requester.method = .get ∧ entriesOf requester.requestHeaders = []
        ∧ entriesOf requester.requestParameters = [] := by
  have hsame : ∀ t ∈ requester.templates,
      interpolateTemplate isWord t config ∅ = interpolateTemplateStatic isWord t config ∅ := by
    intro t ht
    rw [(hone t ht).1, (hone t ht).2]
  have hpath : requester.path.map (fun p => interpolateTemplate isWord p config ∅)
      = requester.path.map (fun p => interpolateTemplateStatic isWord p config ∅) := by
    cases hp : requester.path with
    | none => rw [Option.map_none, Option.map_none]
    | some p =>
      rw [Option.map_some, Option.map_some, hsame]
      unfold RequesterSpec.templates
      rw [hp]
      exact List.mem_cons_self
  have hauth : ∀ other, requester.authenticator.elim (.ok other) (applyAuth isWord other · config)
      = requester.authenticator.elim (.ok other) (applyAuthStatic isWord other · config) := by
    intro other
    cases ha : requester.authenticator with
    | none => rw [Option.elim_none, Option.elim_none]
    | some auth =>
      rw [Option.elim_some, Option.elim_some]
      unfold applyAuth applyAuthStatic
      apply authorize_congr
      intro t ht
      apply hsame
      unfold RequesterSpec.templates
      rw [ha]
      exact List.mem_append_right _ ht
  unfold readRequest at hread
  rw [Rust.bind_eq_ok] at hread
  obtain ⟨baseUrl, hbase, hstatic⟩ := hread
  dsimp only at hstatic
  obtain ⟨hs, hall⟩ := authorized_ok hstatic
  have hall' : ∀ other : RequestBuilder, requester.authenticator.elim (.ok other) (applyAuth isWord other · config)
      = .ok { other with headers := other.headers ++ hs } := by
    intro other
    rw [hauth]
    exact hall other
  have hrequest := (hall _).symm.trans hstatic
  rw [Except.ok.injEq] at hrequest
  subst hrequest
  unfold buildRequest
  simp only [hbase, hpath, hall', bind, Except.bind, pure, Except.pure]
  rw [RequestBuilder.foldl_withHeader, RequestBuilder.foldl_withQuery (fun e : Σ _ : String, String =>
    (e.1, interpolateTemplate isWord e.2 config ∅))]
  simp only [Except.ok.injEq, RequestBuilder.mk.injEq, List.nil_append, List.append_right_eq_self, List.map_eq_nil_iff,
    true_and]

end

/-! Records -/

structure ExtractorSpec where
  fieldPath : Option (List String) := none

structure SelectorSpec where
  extractor : Option ExtractorSpec := none
  fieldPath : Option (List String) := none

/--
The path of the extractor comes before that of the selector.
-/
def SelectorSpec.path (selector : SelectorSpec) : Option (List String) :=
  (selector.extractor.bind ExtractorSpec.fieldPath).or selector.fieldPath

def walk (path : List String) (response : Json) : Option Json :=
  path.foldlM (fun current segment => current.get segment) response

/--
A response that is an object counts as one record.
-/
def singleRecord (response : Json) : List Json :=
  match response with
  | .object members => [.object members]
  | _ => []

def extractRecordsStatic (response : Json) (selector : SelectorSpec) : List Json :=
  match selector.path with
  | some path =>
    match walk path response with
    | some current =>
      match current.asArray with
      | some items => items
      | none => singleRecord response
    | none => []
  | none => singleRecord response

/--
The elements, or the single object, at the field path of a selector. A selector without one selects the response.
-/
def recordsAt (selector : SelectorSpec) (response : Json) : List Json :=
  match walk (selector.path.getD []) response with
  | some (.array items) => items
  | some (.object members) => [.object members]
  | _ => []

/--
The field path leads to an array, if anywhere. Without one the response is no array with elements.
-/
def Selects (selector : SelectorSpec) (response : Json) : Prop :=
  match selector.path with
  | some path => path ≠ [] → ∀ v ∈ walk path response, v.asArray.isSome
  | none => ∀ items, response = .array items → items = []

theorem sizeOf_lt_of_get {segment : String} {response v : Json} (h : response.get segment = some v)
    : sizeOf v < sizeOf response := by
  cases response with
  | object members =>
    obtain ⟨front, back, heq, -⟩ := List.lookup_eq_some_iff.mp h
    have hmem : (segment, v) ∈ members := by
      rw [heq]
      exact List.mem_append_right _ List.mem_cons_self
    have := List.sizeOf_lt_of_mem hmem
    simp only [Prod.mk.sizeOf_spec, Json.object.sizeOf_spec] at this ⊢
    omega
  | _ => cases h

theorem sizeOf_walk_le {path : List String} {response v : Json} (h : walk path response = some v)
    : sizeOf v ≤ sizeOf response := by
  unfold walk at h
  induction path generalizing response with
  | nil =>
    cases h
    exact Nat.le_refl _
  | cons segment path ih =>
    rw [List.foldlM_cons, Option.bind_eq_bind, Option.bind_eq_some_iff] at h
    obtain ⟨next, hnext, hrest⟩ := h
    have := sizeOf_lt_of_get hnext
    have := ih hrest
    omega

/--
What lies at a path with segments is not the response, and the response is an object.
-/
theorem walk_cons {segment : String} {path : List String} {response v : Json}
    (h : walk (segment :: path) response = some v) : v ≠ response ∧ ∃ members, response = .object members := by
  unfold walk at h
  rw [List.foldlM_cons, Option.bind_eq_bind, Option.bind_eq_some_iff] at h
  obtain ⟨next, hnext, hrest⟩ := h
  have hlt := sizeOf_lt_of_get hnext
  have hle := sizeOf_walk_le hrest
  constructor
  . rintro rfl
    omega
  . cases response with
    | object members => exact ⟨members, rfl⟩
    | _ => cases hnext

theorem extractRecordsStatic_eq {selector : SelectorSpec} {response : Json} (h : Selects selector response)
    : extractRecordsStatic response selector = recordsAt selector response := by
  unfold Selects at h
  unfold extractRecordsStatic recordsAt
  cases hpath : selector.path with
  | none =>
    rw [hpath] at h
    cases response with
    | array items => exact (h items rfl).symm
    | _ => rfl
  | some path =>
    rw [hpath] at h
    rw [Option.getD_some]
    dsimp only at h ⊢
    cases hwalk : walk path response with
    | none => rfl
    | some v =>
      cases path with
      | nil =>
        cases hwalk
        cases response <;> rfl
      | cons segment path =>
        have harr := h (List.cons_ne_nil _ _) v hwalk
        cases v with
        | array items => rfl
        | _ => cases harr

/--
Otherwise already the first records differ.
-/
theorem head_extractRecordsStatic_ne {selector : SelectorSpec} {response : Json} (h : ¬ Selects selector response)
    : (extractRecordsStatic response selector).head? ≠ (recordsAt selector response).head? := by
  unfold Selects at h
  unfold extractRecordsStatic recordsAt
  cases hpath : selector.path with
  | none =>
    rw [hpath] at h
    cases response with
    | array items =>
      cases items with
      | nil => simp at h
      | cons item items => exact nofun
    | _ => simp at h
  | some path =>
    rw [hpath] at h
    rw [Option.getD_some]
    dsimp only at h ⊢
    push Not at h
    obtain ⟨hne, v, hwalk, hnot⟩ := h
    cases path with
    | nil => contradiction
    | cons segment path =>
      rw [Option.mem_def] at hwalk
      obtain ⟨hdiff, members, rfl⟩ := walk_cons hwalk
      rw [hwalk]
      cases v with
      | array items => simp [Json.asArray] at hnot
      | object others =>
        intro heq
        apply hdiff
        exact (Option.some.inj heq).symm
      | _ => exact nofun

/-! The read loop -/

/--
Records are emitted until there are `max_rows` of them. Without a count the read is over.
-/
def emit (maxRows : Option Nat) (total : Nat) : List Json → List Json × Option Nat
  | [] => ([], some total)
  | record :: records =>
    if maxRows.any (· ≤ total) then
      ([], none)
    else
      let (emitted, total) := emit maxRows (total + 1) records
      (record :: emitted, total)

theorem emit_of_full {maxRows : Option Nat} {total : Nat} (h : maxRows.any (· ≤ total) = true) (records : List Json)
    : (emit maxRows total records).1 = [] := by
  cases records with
  | nil => rfl
  | cons record records =>
    rw [emit, if_pos h]

theorem head_emit {maxRows : Option Nat} {total : Nat} (h : ¬ maxRows.any (· ≤ total) = true) (records : List Json)
    : (emit maxRows total records).1.head? = records.head? := by
  cases records with
  | nil => rfl
  | cons record records =>
    rw [emit, if_neg h]
    rfl

theorem emit_eq_iff {maxRows : Option Nat} {total : Nat} {selector : SelectorSpec} {response : Json}
    : (emit maxRows total (extractRecordsStatic response selector)).1
        = (emit maxRows total (recordsAt selector response)).1
      ↔ maxRows.any (· ≤ total) = true ∨ Selects selector response := by
  by_cases hfull : maxRows.any (· ≤ total) = true
  . simp only [hfull, true_or, iff_true]
    rw [emit_of_full hfull, emit_of_full hfull]
  . simp only [hfull, Bool.false_eq_true, false_or]
    constructor
    . intro heq
      by_contra hnot
      apply head_extractRecordsStatic_ne hnot
      rw [← head_emit hfull, heq, head_emit hfull]
    . intro h
      rw [extractRecordsStatic_eq h]

structure RetrieverSpec where
  recordSelector : Option SelectorSpec := none
  requester : Option RequesterSpec := none

structure StreamSpec where
  name : String
  retriever : Option RetrieverSpec := none

structure ManifestSpec where
  baseRequester : Option RequesterSpec := none
  streams : List StreamSpec := []

def ManifestSpec.retrieval (manifest : ManifestSpec) (stream : String)
    : Except ConnectError (RequesterSpec × SelectorSpec) := do
  let streamSpec ← okOr (manifest.streams.find? (fun s => s.name = stream))
    (.internal ("stream " ++ stream ++ " not found in manifest"))
  let retriever ← okOr streamSpec.retriever (.internal "stream has no retriever")
  let requester ← okOr (retriever.requester.or manifest.baseRequester) (.internal "no requester found")
  let selector ← okOr retriever.recordSelector (.internal "no record selector")
  return (requester, selector)

/--
What `read` does for a stream, after `total` records of other streams.
-/
structure StreamRead where
  stream : String
  total : Nat
  sent : Option RequestBuilder := none
  emitted : List Json := []
  outcome : Except ConnectError (Option Nat)

variable (http : RequestBuilder → Except String HttpReply)

def readStream (manifest : ManifestSpec) (config : Json) (maxRows : Option Nat) (total : Nat) (stream : String)
    : StreamRead :=
  match manifest.retrieval stream with
  | .error e => { stream, total, outcome := .error e }
  | .ok (requester, selector) =>
    match readRequest isWord requester config with
    | .error e => { stream, total, outcome := .error e }
    | .ok request =>
      match receive (http request) with
      | .error e => { stream, total, sent := some request, outcome := .error e }
      | .ok body =>
        let (emitted, rows) := emit maxRows total (extractRecordsStatic body selector)
        { stream, total, sent := some request, emitted, outcome := .ok rows }

def readFrom (manifest : ManifestSpec) (config : Json) (maxRows : Option Nat) (total : Nat)
    : List String → List StreamRead
  | [] => []
  | stream :: catalog =>
    let r := readStream isWord http manifest config maxRows total stream
    match r.outcome with
    | .ok (some total) => r :: readFrom manifest config maxRows total catalog
    | _ => [r]

def read (manifest : ManifestSpec) (config : Json) (catalog : List String) (maxRows : Option Nat) : List StreamRead :=
  readFrom isWord http manifest config maxRows 0 catalog

/--
The request of a stream is that of `execute_request`, its templates take one pass, and the records are those at the
field path, up to the limit of rows.
-/
structure AsChecked (requester : RequesterSpec) (selector : SelectorSpec) (config : Json) (maxRows : Option Nat)
    (r : StreamRead) (sent : RequestBuilder) : Prop where
  request : buildRequest isWord requester config ∅ = .ok sent
  templates : ∀ t ∈ requester.templates, OnePass isWord t config
  records : ∀ body, receive (http sent) = .ok body → r.emitted = (emit maxRows r.total (recordsAt selector body)).1

/--
The part of a manifest that `read` covers.
-/
structure Covered (requester : RequesterSpec) (selector : SelectorSpec) (config : Json) (maxRows : Option Nat)
    (r : StreamRead) (sent : RequestBuilder) : Prop where
  method : requester.method = .get
  headers : entriesOf requester.requestHeaders = []
  parameters : entriesOf requester.requestParameters = []
  templates : ∀ t ∈ requester.templates, Plain isWord t config
  records : ∀ body, receive (http sent) = .ok body → maxRows.any (· ≤ r.total) = true ∨ Selects selector body

section

variable {isWord} {http} {manifest : ManifestSpec} {config : Json} {maxRows : Option Nat}

theorem readStream_stream (total : Nat) (stream : String)
    : (readStream isWord http manifest config maxRows total stream).stream = stream := by
  unfold readStream
  split
  . rfl
  . split
    . rfl
    . split <;> rfl

theorem readStream_total (total : Nat) (stream : String)
    : (readStream isWord http manifest config maxRows total stream).total = total := by
  unfold readStream
  split
  . rfl
  . split
    . rfl
    . split <;> rfl

theorem readStream_sent {requester : RequesterSpec} {selector : SelectorSpec} {request : RequestBuilder} {total : Nat}
    {stream : String} (hplan : manifest.retrieval stream = .ok (requester, selector))
    (hsent : (readStream isWord http manifest config maxRows total stream).sent = some request)
    : readRequest isWord requester config = .ok request
      ∧ ∀ body, receive (http request) = .ok body
        → (readStream isWord http manifest config maxRows total stream).emitted
          = (emit maxRows total (extractRecordsStatic body selector)).1 := by
  unfold readStream at hsent ⊢
  rw [hplan] at hsent ⊢
  dsimp only at hsent ⊢
  cases hread : readRequest isWord requester config with
  | error e =>
    rw [hread] at hsent
    cases hsent
  | ok built =>
    rw [hread] at hsent
    dsimp only at hsent ⊢
    cases hbody : receive (http built) with
    | error e =>
      rw [hbody] at hsent
      cases hsent
      refine ⟨rfl, ?_⟩
      intro body hb
      rw [hbody] at hb
      cases hb
    | ok body =>
      rw [hbody] at hsent
      cases hsent
      refine ⟨rfl, ?_⟩
      intro body' hb
      rw [hbody] at hb
      cases hb
      rfl

/--
Every stream of a read is read like the first one, after some number of records.
-/
theorem mem_readFrom {total : Nat} {catalog : List String} {r : StreamRead}
    (h : r ∈ readFrom isWord http manifest config maxRows total catalog)
    : r = readStream isWord http manifest config maxRows r.total r.stream := by
  have hself : ∀ n stream, r = readStream isWord http manifest config maxRows n stream
      → r = readStream isWord http manifest config maxRows r.total r.stream := by
    intro n stream heq
    have htotal : r.total = n := by rw [heq, readStream_total]
    have hstream : r.stream = stream := by rw [heq, readStream_stream]
    rw [htotal, hstream]
    exact heq
  induction catalog generalizing total with
  | nil => cases h
  | cons stream catalog ih =>
    rw [readFrom] at h
    split at h
    . rw [List.mem_cons] at h
      cases h with
      | inl heq => exact hself _ _ heq
      | inr hmem => exact ih hmem
    . rw [List.mem_singleton] at h
      exact hself _ _ h

/--
A stream is read as it is checked exactly where its requester asks for a plain `GET` and its selector leads to an
array.
-/
theorem asChecked_iff (hword : WordClass isWord) {catalog : List String}
    {r : StreamRead} (hr : r ∈ read isWord http manifest config catalog maxRows) {requester : RequesterSpec}
    {selector : SelectorSpec} (hplan : manifest.retrieval r.stream = .ok (requester, selector))
    {request : RequestBuilder} (hsent : r.sent = some request)
    : AsChecked isWord http requester selector config maxRows r request
      ↔ Covered isWord http requester selector config maxRows r request := by
  have hr := mem_readFrom hr
  rw [hr] at hsent
  obtain ⟨hread, hemitted⟩ := readStream_sent hplan hsent
  rw [← hr] at hemitted
  have hrecords : (∀ body, receive (http request) = .ok body
        → r.emitted = (emit maxRows r.total (recordsAt selector body)).1)
      ↔ ∀ body, receive (http request) = .ok body → maxRows.any (· ≤ r.total) = true ∨ Selects selector body := by
    apply forall_congr'
    intro body
    apply imp_congr_right
    intro hbody
    rw [hemitted body hbody]
    apply emit_eq_iff
  constructor
  . rintro ⟨hbuild, hone, hrec⟩
    obtain ⟨hmethod, hheaders, hparams⟩ := (buildRequest_eq_iff hread hone).mp hbuild
    refine ⟨hmethod, hheaders, hparams, ?_, hrecords.mp hrec⟩
    intro t ht
    exact (onePass_iff hword t config).mp (hone t ht)
  . rintro ⟨hmethod, hheaders, hparams, hplain, hsel⟩
    have hone : ∀ t ∈ requester.templates, OnePass isWord t config := by
      intro t ht
      exact (onePass_iff hword t config).mpr (hplain t ht)
    exact ⟨(buildRequest_eq_iff hread hone).mpr ⟨hmethod, hheaders, hparams⟩, hone, hrecords.mpr hsel⟩

end

def isAsciiWord (c : Char) : Bool :=
  c.isAlphanum || c = '_'

def usersRequester (httpMethod : Option String) : RequesterSpec :=
  {
    urlBase := some "https://api.example.com"
    path := some "/accounts/\x7b\x7b config['account'] \x7d\x7d/users"
    httpMethod
    authenticator := some { specType := some "BearerAuthenticator", token := some "\x7b\x7b config['token'] \x7d\x7d" }
  }

def usersSelector : SelectorSpec :=
  { fieldPath := some ["data"] }

def usersManifest (httpMethod : Option String) : ManifestSpec :=
  {
    streams := [{
      name := "users"
      retriever := some { recordSelector := some usersSelector, requester := some (usersRequester httpMethod) }
    }]
  }

def usersConfig (account : String) : Json :=
  .object [("account", .string account), ("token", .string "t1")]

def usersHttp (body : Json) (_ : RequestBuilder) : Except String HttpReply :=
  .ok { status := 200, text := "", json := .ok body }

def userRecord : Json :=
  .object [("id", .string "u1")]

theorem users_asChecked
    : ∃ r ∈ read isAsciiWord (usersHttp (.object [("data", .array [userRecord])])) (usersManifest none)
        (usersConfig "acme") ["users"] none, ∃ sent, r.sent = some sent
          ∧ AsChecked isAsciiWord (usersHttp (.object [("data", .array [userRecord])])) (usersRequester none)
              usersSelector (usersConfig "acme") none r sent := by
  have hword : WordClass isAsciiWord := by
    intro c hc
    have hall : ['\'', '"', '[', ']', '{', '}'].all (fun c => !isAsciiWord c) = true := by decide
    simpa using List.all_eq_true.mp hall c hc
  have hsep := separated hword
  have hmem : readStream isAsciiWord (usersHttp (.object [("data", .array [userRecord])])) (usersManifest none)
        (usersConfig "acme") none 0 "users"
      ∈ read isAsciiWord (usersHttp (.object [("data", .array [userRecord])])) (usersManifest none)
        (usersConfig "acme") ["users"] none := List.mem_cons_self
  have hplan : (usersManifest none).retrieval "users" = .ok (usersRequester none, usersSelector) := rfl
  refine ⟨_, hmem, _, rfl, ?_⟩
  apply (asChecked_iff hword hmem hplan rfl).mpr
  constructor
  case method => rfl
  case headers => rfl
  case parameters => rfl
  case templates =>
    intro t ht
    have ht : t ∈ ["/accounts/\x7b\x7b config['account'] \x7d\x7d/users", "\x7b\x7b config['token'] \x7d\x7d"] := ht
    rw [List.mem_cons, List.mem_singleton] at ht
    have hslice : (templatePieces isAsciiWord t).all (fun p => !TemplatePiece.isOf .streamSlice p) = true := by
      rcases ht with rfl | rfl <;> decide
    have hruns : ∀ run ∈ runs isAsciiWord t (usersConfig "acme"),
        deleteAll (placeholder isAsciiWord .streamPartition) run = run := by
      rcases ht with rfl | rfl <;> decide
    have hwhole : deleteAll (placeholder isAsciiWord .streamSlice) (runs isAsciiWord t (usersConfig "acme")).flatten
        = (runs isAsciiWord t (usersConfig "acme")).flatten := by
      rcases ht with rfl | rfl <;> decide
    refine ⟨?_, ?_, hsep.deleteAll_eq_iff.mp hwhole⟩
    . intro p hp
      simpa using List.all_eq_true.mp hslice p hp
    . intro run hrun
      exact hsep.deleteAll_eq_iff.mp (hruns run hrun)
  case records =>
    intro body hbody
    cases hbody
    right
    intro _ v hv
    cases hv
    rfl

/--
A request of another method, a configuration value that looks like a placeholder and a single object at the field
path.
-/
theorem users_misread
    : ∃ r ∈ read isAsciiWord (usersHttp (.object [("data", userRecord)])) (usersManifest (some "POST"))
        (usersConfig "\x7b\x7b stream_partition[x] \x7d\x7d") ["users"] none, ∃ sent, r.sent = some sent
          ∧ sent.method = .get ∧ sent.url = "https://api.example.com/accounts//users"
          ∧ r.emitted = [.object [("data", userRecord)]]
          ∧ ¬ AsChecked isAsciiWord (usersHttp (.object [("data", userRecord)])) (usersRequester (some "POST"))
              usersSelector (usersConfig "\x7b\x7b stream_partition[x] \x7d\x7d") none r sent := by
  refine ⟨_, List.mem_cons_self, _, rfl, rfl, by decide, by decide, ?_⟩
  intro h
  have := h.request
  cases this

end Reactor.Connect.Manifest
