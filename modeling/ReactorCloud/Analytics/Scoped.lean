import ReactorCloud.Analytics.FilterText

/-!
This module contains what it means that a compiled query only reads the events of one project, and the
texts for which it holds: a condition on the project in front of parts without an `OR`.
-/

namespace Reactor.Analytics

open Rust (Uuid)
open Sql

/--
The reading of a condition and of the rest of a query, a query is refused if its text has no tokens.
-/
structure Database (Event Result : Type) where
  projectOf : Event → Uuid
  atom : List QueryParam → List Token → Event → Truth
  answer : List Token → List QueryParam → List (Multiset Event) → Result
  refused : Result
  atom_project : ∀ params n id e, params[n]? = some (.uuid id)
    → (atom params [.word "project_id", .op "=", .param (Nat.repr (n + 1))] e).Holds → projectOf e = id

namespace Database

variable {Event Result : Type} (db : Database Event Result)

/--
The events a query reads in one place.
-/
def scan (params : List QueryParam) (store : Multiset Event) : Option (List Token) → Multiset Event
  | none => store
  | some cond => store.filter (fun e => (conditionTruth (fun toks => db.atom params toks e) cond).Holds)

def run (q : CompiledQuery) (store : Multiset Event) : Result :=
  match lex q.text with
  | none => db.refused
  | some toks => db.answer toks q.params ((scansOf eventsSchema "events" toks).map (db.scan q.params store))

/--
The stores have the same events of the project.
-/
def Agree (project : Uuid) (store store' : Multiset Event) : Prop :=
  store.filter (fun e => db.projectOf e = project) = store'.filter (fun e => db.projectOf e = project)

end Database

/--
A place where the events are read is conjoined with a condition on the project.
-/
def ScanScoped (params : List QueryParam) (project : Uuid) (scan : Option (List Token)) : Prop :=
  ∃ cond n, scan = some cond ∧ params[n]? = some (.uuid project)
    ∧ Conjoined [.word "project_id", .op "=", .param (Nat.repr (n + 1))] cond

/--
All places where the tokens read the events are conjoined with a condition on the project.
-/
def TokensScoped (params : List QueryParam) (project : Uuid) (toks : List Token) : Prop :=
  ∀ scan ∈ scansOf eventsSchema "events" toks, ScanScoped params project scan

def Scoped (q : CompiledQuery) (project : Uuid) : Prop :=
  ∀ toks, lex q.text = some toks → TokensScoped q.params project toks

def Isolated (q : CompiledQuery) (project : Uuid) : Prop :=
  ∀ (Event Result : Type) (db : Database Event Result) (store store' : Multiset Event),
    db.Agree project store store' → db.run q store = db.run q store'

theorem Database.scan_congr {Event Result : Type} (db : Database Event Result) {params : List QueryParam}
    {project : Uuid} {store store' : Multiset Event} {scan : Option (List Token)}
    (h : ScanScoped params project scan) (hagree : db.Agree project store store')
    : db.scan params store scan = db.scan params store' scan := by
  have ⟨cond, n, hscan, hparam, hconj⟩ := h
  subst hscan
  have honly : ∀ s : Multiset Event, db.scan params s (some cond)
      = (s.filter (fun e => db.projectOf e = project)).filter
          (fun e => (conditionTruth (fun toks => db.atom params toks e) cond).Holds) := by
    intro s
    rw [Multiset.filter_filter]
    apply Multiset.filter_congr
    intro e _
    constructor
    . intro hholds
      exact ⟨hholds, db.atom_project params n project e hparam (hconj.holds hholds)⟩
    . intro hboth
      exact hboth.1
  rw [honly, honly, hagree]

theorem Scoped.isolated {q : CompiledQuery} {project : Uuid} (h : Scoped q project) : Isolated q project := by
  intro Event Result db store store' hagree
  unfold Database.run
  cases hlex : lex q.text with
  | none => rfl
  | some toks =>
    have hscans : (scansOf eventsSchema "events" toks).map (db.scan q.params store)
        = (scansOf eventsSchema "events" toks).map (db.scan q.params store') := by
      rw [List.map_inj_left]
      intro scan hscan
      apply db.scan_congr (h toks hlex scan hscan) hagree
    simp only [hscans]

/-! Scoped tokens -/

section

variable {params : List QueryParam} {project : Uuid}

def Unnamed (toks : List Token) : Prop :=
  ∀ tok ∈ toks, tok.names eventsSchema = false

instance (toks : List Token) : Decidable (Unnamed toks) :=
  inferInstanceAs (Decidable (∀ tok ∈ toks, _))

theorem Unnamed.append {s t : List Token} (hs : Unnamed s) (ht : Unnamed t) : Unnamed (s ++ t) := by
  unfold Unnamed at *
  rw [List.forall_mem_append]
  exact ⟨hs, ht⟩

theorem tokensScoped_of_unnamed {toks : List Token} (h : Unnamed toks) : TokensScoped params project toks := by
  intro scan hscan
  rw [scansOf_eq_nil h] at hscan
  cases hscan

theorem TokensScoped.unnamed_append {s t : List Token} (hs : Unnamed s) (ht : TokensScoped params project t)
    : TokensScoped params project (s ++ t) := by
  unfold TokensScoped at *
  rw [scansOf_append hs]
  exact ht

/--
The tokens of `FROM` with the condition on the project.
-/
def fromWhere (n : Nat) : List Token :=
  [.word eventsSchema, .punct '.', .word "events", .word "where", .word "project_id", .op "=",
    .param (Nat.repr (n + 1)), .word "and"]

theorem tokensScoped_fromWhere {n : Nat} {toks : List Token} (hparam : params[n]? = some (.uuid project))
    (hor : noTop "or" 0 toks = true) (hrest : TokensScoped params project toks)
    : TokensScoped params project (fromWhere n ++ toks) := by
  have hscans : scansOf eventsSchema "events" (fromWhere n ++ toks)
      = some (clause 0 ([.word "project_id", .op "=", .param (Nat.repr (n + 1))] ++ .word "and" :: toks))
        :: scansOf eventsSchema "events" toks := by
    rw [fromWhere, List.cons_append, List.cons_append, List.cons_append, List.cons_append, scansOf_where]
    rfl
  intro scan hscan
  rw [hscans, List.mem_cons] at hscan
  rcases hscan with rfl | hscan
  . refine ⟨_, n, rfl, hparam, conjoined_clause ?_ ?_⟩
    . simp only [List.forall_mem_cons]
      exact ⟨⟨by decide, by decide⟩, ⟨by decide, by decide⟩, ⟨⟨by simp [nesting], by simp [Token.endsClause]⟩,
        by simp⟩, List.forall_mem_nil _⟩
    . have hwalk : walk "or" 0 [.word "project_id", .op "=", .param (Nat.repr (n + 1)), .word "and"] = some 0 := by
        simp [walk, nesting]
      rw [← hor, ← noTop_append hwalk toks]
      rfl
  . apply hrest scan hscan

end

/-! Texts that end in something directly behind the filter -/

/--
The words that may follow a filter without a space.
-/
def tailWords : List String :=
  ["ORDER", "GROUP", "LIMIT"]

/--
Tokens behind a filter.
-/
structure Harmless (toks : List Token) : Prop where
  noOr : Token.word "or" ∉ toks
  unnamed : Unnamed toks

/--
The tail of a text: nothing or one of the words that may follow a filter, with harmless tokens behind it.
-/
def Tail (text : String) : Prop :=
  text = "" ∨ ∃ u rest toks, text = u ++ rest ∧ u ∈ tailWords ∧ (rest = "" ∨ Closing rest) ∧ Lexes rest toks
    ∧ Harmless toks

theorem merged_ne {u : String} (hu : u ∈ tailWords) (v : String)
    : v ++ lowered u ≠ "or" ∧ v ++ lowered u ≠ eventsSchema := by
  have hlast : (lowered u).toList.length = 5 ∧ (lowered u).toList.getLast? ≠ some 's'
      ∧ (lowered u).toList ≠ [] := by
    revert u
    decide
  constructor
  . intro h
    have := congrArg (fun s => s.toList.length) h
    simp only [String.toList_append, List.length_append, hlast.1] at this
    have htwo : "or".toList.length = 2 := rfl
    omega
  . intro h
    have := congrArg (fun s => s.toList.getLast?) h
    simp only [String.toList_append, List.getLast?_append_of_ne_nil _ hlast.2.2] at this
    apply hlast.2.1 this

theorem lowered_ne {u : String} (hu : u ∈ tailWords) : lowered u ≠ "or" ∧ lowered u ≠ eventsSchema := by
  have := merged_ne hu ""
  simpa using this

/--
The tokens of a text with a tail: scoped if those before the tail are.
-/
theorem lex_tail {s tail : String} {params : List QueryParam} {project : Uuid} {pre mid : List Token} {n : Nat}
    (hs : Lexes s (pre ++ (fromWhere n ++ mid))) (hparam : params[n]? = some (.uuid project))
    (hpre : Unnamed pre) (hne : mid ≠ []) (hmid : Inside mid)
    (htail : Tail tail)
    : ∀ toks, lex (s ++ tail) = some toks → TokensScoped params project toks := by
  -- whatever follows the filter, its tokens behind a prefix of `mid` are scoped
  have key : ∀ init rest, walk "or" 0 init = some 0 → Unnamed init → Harmless rest
      → TokensScoped params project (pre ++ (fromWhere n ++ (init ++ rest))) := by
    intro init rest hwalk hinit hrest
    apply TokensScoped.unnamed_append hpre
    apply tokensScoped_fromWhere hparam
    . rw [noTop_append hwalk]
      apply noTop_of_not_mem hrest.noOr
    . apply tokensScoped_of_unnamed (hinit.append hrest.unnamed)
  intro toks hlex
  rcases htail with rfl | ⟨u, rest, tt, rfl, hu, hclose, hrest, hharmless⟩
  . rw [String.append_empty, hs.lex] at hlex
    cases hlex
    have := key mid [] hmid.level hmid.unnamed ⟨List.not_mem_nil, List.forall_mem_nil _⟩
    simpa using this
  . have hwords : ∀ u ∈ tailWords, Wordlike u := by decide
    have hword := hwords u hu
    have hlower := lowered_ne hu
    rcases hs.glue hword hclose hrest with hnone | hown | ⟨init, v, hinit, hmerged⟩
    . rw [hnone] at hlex
      cases hlex
    . rw [hown] at hlex
      cases hlex
      have := key mid (.word (lowered u) :: tt) hmid.level hmid.unnamed ⟨?_, ?_⟩
      . simpa using this
      . rw [List.mem_cons, not_or]
        exact ⟨by simpa using Ne.symm hlower.1, hharmless.noOr⟩
      . unfold Unnamed
        rw [List.forall_mem_cons]
        exact ⟨by simp [Token.names, hlower.2], hharmless.unnamed⟩
    . rw [hmerged] at hlex
      cases hlex
      -- the last word of the filter is longer now
      have hsplit := List.dropLast_append_getLast hne
      rw [← hsplit, ← List.append_assoc, ← List.append_assoc] at hinit
      obtain ⟨hfront, hback⟩ := List.append_inj' hinit rfl
      have hlast : mid.getLast hne = .word v := by simpa using hback
      have hlevel := hmid.level
      have hunnamed := hmid.unnamed
      rw [← hsplit, hlast] at hlevel hunnamed
      rw [walk_append, Option.bind_eq_some_iff] at hlevel
      obtain ⟨depth, hwalk, hstop⟩ := hlevel
      have hzero : depth = 0 := by
        rw [walk] at hstop
        split at hstop
        . cases hstop
        . simpa [walk, nesting] using hstop
      subst hzero
      rw [List.forall_mem_append] at hunnamed
      have hmore := merged_ne hu v
      have := key mid.dropLast (.word (v ++ lowered u) :: tt) hwalk hunnamed.1 ⟨?_, ?_⟩
      . rw [← hfront]
        simpa using this
      . rw [List.mem_cons, not_or]
        exact ⟨by simpa using Ne.symm hmore.1, hharmless.noOr⟩
      . unfold Unnamed
        rw [List.forall_mem_cons]
        exact ⟨by simp [Token.names, hmore.2], hharmless.unnamed⟩

end Reactor.Analytics
