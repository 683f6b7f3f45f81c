import ReactorCloud.Rust.Json

/-!
This module contains the policies that settle conflicts of a two-way sync, and what their patterns mean as
globs.
-/

/-! ## Globs -/

/--
The pattern matches the text up to case, a star stands for any text.
-/
inductive Glob : List Char → List Char → Prop where
  | nil : Glob [] []
  | char {c d : Char} {p s : List Char} (hc : c ≠ '*') (h : c.toLower = d.toLower) (hrest : Glob p s) : Glob (c :: p) (d :: s)
  | star {p s : List Char} (front : List Char) (hrest : Glob p s) : Glob ('*' :: p) (front ++ s)

namespace Glob

theorem plain_iff {p s : List Char} (hp : '*' ∉ p) : Glob p s ↔ p.map Char.toLower = s.map Char.toLower := by
  constructor
  . intro h
    induction h with
    | nil => rfl
    | char _ heq _ ih =>
      rw [List.map_cons, List.map_cons, heq, ih (fun hmem => hp (List.mem_cons_of_mem _ hmem))]
    | star => exact absurd List.mem_cons_self hp
  . intro h
    induction p generalizing s with
    | nil =>
      rw [List.map_nil] at h
      rw [List.map_eq_nil_iff.mp h.symm]
      exact .nil
    | cons c p ih =>
      cases s with
      | nil => simp at h
      | cons d s =>
        rw [List.map_cons, List.map_cons, List.cons.injEq] at h
        rw [List.mem_cons, not_or] at hp
        exact .char (Ne.symm hp.1) h.1 (ih hp.2 h.2)

theorem star_iff {p s : List Char} : Glob ('*' :: p) s ↔ ∃ back, back <:+ s ∧ Glob p back := by
  constructor
  . intro h
    cases h with
    | char hc => contradiction
    | star front hrest => exact ⟨_, List.suffix_append front _, hrest⟩
  . rintro ⟨back, ⟨front, rfl⟩, h⟩
    exact .star front h

theorem append_star_iff {p s : List Char} (hp : '*' ∉ p) : Glob (p ++ ['*']) s ↔ ∃ front, front <+: s ∧ Glob p front := by
  constructor
  . intro h
    induction p generalizing s with
    | nil => exact ⟨[], List.nil_prefix, .nil⟩
    | cons c p ih =>
      rw [List.mem_cons, not_or] at hp
      cases h with
      | char hc heq hrest =>
        obtain ⟨front, ⟨back, rfl⟩, hfront⟩ := ih hp.2 hrest
        exact ⟨_ :: front, ⟨back, rfl⟩, .char hc heq hfront⟩
      | star => exact absurd rfl hp.1
  . rintro ⟨front, ⟨back, rfl⟩, h⟩
    induction h with
    | nil =>
      have := Glob.star back .nil
      rw [List.append_nil] at this
      exact this
    | char hc heq _ ih => exact .char hc heq (ih (fun hmem => hp (List.mem_cons_of_mem _ hmem)))
    | star => exact absurd List.mem_cons_self hp

/--
A star at the end, the text in front of it compared up to case.
-/
theorem prefix_iff {p s : List Char} (hp : '*' ∉ p)
    : Glob (p ++ ['*']) s ↔ p.map Char.toLower <+: s.map Char.toLower := by
  rw [append_star_iff hp]
  constructor
  . rintro ⟨front, hfront, h⟩
    rw [(plain_iff hp).mp h]
    exact hfront.map Char.toLower
  . rintro ⟨back, hback⟩
    obtain ⟨front, rest, rfl, hfront, -⟩ := List.map_eq_append_iff.mp hback.symm
    exact ⟨front, List.prefix_append front rest, (plain_iff hp).mpr hfront.symm⟩

theorem suffix_iff {p s : List Char} (hp : '*' ∉ p)
    : Glob ('*' :: p) s ↔ p.map Char.toLower <:+ s.map Char.toLower := by
  rw [star_iff]
  constructor
  . rintro ⟨back, hback, h⟩
    rw [(plain_iff hp).mp h]
    exact hback.map Char.toLower
  . rintro ⟨front, hfront⟩
    obtain ⟨rest, back, rfl, -, hback⟩ := List.map_eq_append_iff.mp hfront.symm
    exact ⟨back, List.suffix_append rest back, (plain_iff hp).mpr hback.symm⟩

end Glob

namespace Reactor.Connect

open Rust (Json)

/-! ## Conflict policies -/

inductive ConflictPolicyType where
  | sourceWins
  | destWins
  | latestWins
  | custom
  deriving DecidableEq, Repr

inductive ConflictCondition where
  | sourceAEquals (field : String) (value : Json)
  | sourceBEquals (field : String) (value : Json)
  | fieldIn (values : List String)
  | always

inductive ConflictResolution where
  | preferSourceA
  | preferSourceB
  | preferLatest
  | merge
  | skip
  deriving DecidableEq, Repr

structure ConflictRule where
  stream : String
  field : Option String := none
  when : Option ConflictCondition := none
  resolution : ConflictResolution

/--
The times are in nanoseconds, the key of the record is read by nothing.
-/
structure ConflictFacts where
  stream : String
  field : Option String := none
  sourceA : Json
  sourceB : Json
  sourceAModified : Option Int := none
  sourceBModified : Option Int := none

inductive ConflictEvalResult where
  | preferSourceA
  | preferSourceB
  | merge
  | skip
  deriving DecidableEq, Repr

def evaluateLatestWins (facts : ConflictFacts) : ConflictEvalResult :=
  match facts.sourceAModified, facts.sourceBModified with
  | some a, some b => if a ≥ b then .preferSourceA else .preferSourceB
  | some _, none => .preferSourceA
  | none, some _ => .preferSourceB
  | none, none => .preferSourceA

def eqIgnoreAsciiCase (s t : String) : Bool :=
  s.toList.map Char.toLower == t.toList.map Char.toLower

def matchesPattern (pattern value : String) : Bool :=
  if pattern = "*" then
    true
  else if pattern.toList.getLast? = some '*' then
    pattern.toList.dropLast.isPrefixOf value.toList
  else if pattern.toList.head? = some '*' then
    pattern.toList.tail.isSuffixOf value.toList
  else
    eqIgnoreAsciiCase pattern value

def evaluateCondition (condition : ConflictCondition) (facts : ConflictFacts) : Bool :=
  match condition with
  | .always => true
  | .sourceAEquals field value => facts.sourceA.get field == some value
  | .sourceBEquals field value => facts.sourceB.get field == some value
  | .fieldIn values =>
    match facts.field with
    | some field => values.any (eqIgnoreAsciiCase · field)
    | none => false

def matchesField (rule : ConflictRule) (facts : ConflictFacts) : Bool :=
  match rule.field, facts.field with
  | none, _ => true
  | some fieldPattern, some factField => matchesPattern fieldPattern factField
  | some _, none => false

def matchesRule (rule : ConflictRule) (facts : ConflictFacts) : Bool :=
  matchesPattern rule.stream facts.stream && matchesField rule facts
    && rule.when.all (evaluateCondition · facts)

def resolve (resolution : ConflictResolution) (facts : ConflictFacts) : ConflictEvalResult :=
  match resolution with
  | .preferSourceA => .preferSourceA
  | .preferSourceB => .preferSourceB
  | .preferLatest => evaluateLatestWins facts
  | .merge => .merge
  | .skip => .skip

def evaluateCustomRules (facts : ConflictFacts) : List ConflictRule → ConflictEvalResult
  | [] => .preferSourceA
  | rule :: rules => if matchesRule rule facts then resolve rule.resolution facts else evaluateCustomRules facts rules

def evaluateConflictPolicy (policyType : ConflictPolicyType) (rules : List ConflictRule) (facts : ConflictFacts)
    : ConflictEvalResult :=
  match policyType with
  | .sourceWins => .preferSourceA
  | .destWins => .preferSourceB
  | .latestWins => evaluateLatestWins facts
  | .custom => evaluateCustomRules facts rules

/-! ## Rules as globs -/

/--
Every part of the rule matches.
-/
structure ConflictRule.Fires (rule : ConflictRule) (facts : ConflictFacts) : Prop where
  stream : Glob rule.stream.toList facts.stream.toList
  field : ∀ pattern, rule.field = some pattern → ∃ field, facts.field = some field ∧ Glob pattern.toList field.toList
  condition : ∀ condition, rule.when = some condition → evaluateCondition condition facts = true

/--
The first rule that fires decides, and source A if none does.
-/
def FirstFiring (rules : List ConflictRule) (facts : ConflictFacts) (result : ConflictEvalResult) : Prop :=
  (∃ before rule after, rules = before ++ rule :: after ∧ (∀ r ∈ before, ¬ r.Fires facts) ∧ rule.Fires facts
      ∧ result = resolve rule.resolution facts)
    ∨ (∀ r ∈ rules, ¬ r.Fires facts) ∧ result = .preferSourceA

/--
The pattern has no star, or one at its start or its end with the case of the rest as in the value.
-/
def Readable (pattern value : String) : Prop :=
  ∃ p, '*' ∉ p
    ∧ (pattern.toList = p
      ∨ pattern.toList = p ++ ['*'] ∧ (p.map Char.toLower <+: value.toList.map Char.toLower → p <+: value.toList)
      ∨ pattern.toList = '*' :: p ∧ (p.map Char.toLower <:+ value.toList.map Char.toLower → p <:+ value.toList))

structure ConflictRule.Readable (rule : ConflictRule) (facts : ConflictFacts) : Prop where
  stream : Connect.Readable rule.stream facts.stream
  field : ∀ pattern field, rule.field = some pattern → facts.field = some field → Connect.Readable pattern field

theorem matchesPattern_star (value : String) : matchesPattern "*" value = true := rfl

theorem matchesPattern_front {pattern value : String} {p : List Char} (h : pattern.toList = p ++ ['*'])
    : matchesPattern pattern value = true ↔ p <+: value.toList := by
  unfold matchesPattern
  split
  . next heq =>
    rw [heq] at h
    have hp : p = [] := by
      have hlength := congrArg List.length h
      rw [List.length_append, List.length_singleton] at hlength
      have hone : "*".toList.length = 1 := by decide
      apply List.eq_nil_of_length_eq_zero
      omega
    rw [hp]
    exact ⟨fun _ => List.nil_prefix, fun _ => rfl⟩
  . rw [if_pos (by rw [h, List.getLast?_append, List.getLast?_singleton, Option.some_or]), h, List.dropLast_concat,
      List.isPrefixOf_iff_prefix]

theorem matchesPattern_plain {pattern value : String} (h : '*' ∉ pattern.toList)
    : matchesPattern pattern value = true ↔ pattern.toList.map Char.toLower = value.toList.map Char.toLower := by
  have hne : pattern ≠ "*" := by
    rintro rfl
    exact h (by decide)
  unfold matchesPattern eqIgnoreAsciiCase
  rw [if_neg hne, if_neg (fun hlast => h (List.mem_of_getLast? hlast)), if_neg (fun hhead => h (List.mem_of_head? hhead)),
    beq_iff_eq]

theorem matchesPattern_back {pattern value : String} {p : List Char} (hp : '*' ∉ p) (h : pattern.toList = '*' :: p)
    : matchesPattern pattern value = true ↔ p <:+ value.toList := by
  by_cases hnil : p = []
  . rw [hnil] at h ⊢
    have hstar : pattern = "*" := String.toList_inj.mp h
    rw [hstar, matchesPattern_star]
    exact ⟨fun _ => List.nil_suffix, fun _ => rfl⟩
  . have hne : pattern ≠ "*" := by
      rintro rfl
      exact hnil (List.cons.inj h).2.symm
    have hlast : pattern.toList.getLast? ≠ some '*' := by
      rw [h, List.getLast?_cons_of_ne_nil hnil]
      exact fun hlast => hp (List.mem_of_getLast? hlast)
    unfold matchesPattern
    rw [if_neg hne, if_neg hlast, if_pos (by rw [h, List.head?_cons]), h, List.tail_cons, List.isSuffixOf_iff_suffix]

theorem matchesPattern_iff {pattern value : String} (h : Readable pattern value)
    : matchesPattern pattern value = true ↔ Glob pattern.toList value.toList := by
  obtain ⟨p, hp, hplain | ⟨hfront, hcase⟩ | ⟨hback, hcase⟩⟩ := h
  . rw [← hplain] at hp
    rw [matchesPattern_plain hp, Glob.plain_iff hp]
  . rw [matchesPattern_front hfront, hfront, Glob.prefix_iff hp]
    exact ⟨fun h => h.map Char.toLower, hcase⟩
  . rw [matchesPattern_back hp hback, hback, Glob.suffix_iff hp]
    exact ⟨fun h => h.map Char.toLower, hcase⟩

theorem matchesField_iff {rule : ConflictRule} {facts : ConflictFacts} (h : rule.Readable facts)
    : matchesField rule facts = true
        ↔
      ∀ pattern, rule.field = some pattern → ∃ field, facts.field = some field ∧ Glob pattern.toList field.toList := by
  unfold matchesField
  cases hrule : rule.field with
  | none => simp
  | some pattern =>
    cases hfact : facts.field with
    | none => simp
    | some field =>
      dsimp only
      rw [matchesPattern_iff (h.field pattern field hrule hfact)]
      simp

theorem matchesRule_iff {rule : ConflictRule} {facts : ConflictFacts} (h : rule.Readable facts)
    : matchesRule rule facts = true ↔ rule.Fires facts := by
  unfold matchesRule
  rw [Bool.and_eq_true, Bool.and_eq_true, matchesPattern_iff h.stream, matchesField_iff h, Option.all_eq_true]
  exact ⟨fun ⟨⟨hstream, hfield⟩, hwhen⟩ => ⟨hstream, hfield, hwhen⟩, fun h => ⟨⟨h.stream, h.field⟩, h.condition⟩⟩

theorem FirstFiring.cons {rule : ConflictRule} {rules : List ConflictRule} {facts : ConflictFacts}
    {result : ConflictEvalResult} (hrule : ¬ rule.Fires facts) (h : FirstFiring rules facts result)
    : FirstFiring (rule :: rules) facts result := by
  rcases h with ⟨before, first, after, hrules, hbefore, hfires, hresult⟩ | ⟨hnone, hresult⟩
  . left
    refine ⟨rule :: before, first, after, by rw [hrules, List.cons_append], ?_, hfires, hresult⟩
    exact List.forall_mem_cons.mpr ⟨hrule, hbefore⟩
  . right
    exact ⟨List.forall_mem_cons.mpr ⟨hrule, hnone⟩, hresult⟩

theorem evaluateCustomRules_firstFiring {rules : List ConflictRule} {facts : ConflictFacts}
    (h : ∀ rule ∈ rules, rule.Readable facts) : FirstFiring rules facts (evaluateCustomRules facts rules) := by
  induction rules with
  | nil => exact .inr ⟨nofun, rfl⟩
  | cons rule rules ih =>
    rw [List.forall_mem_cons] at h
    unfold evaluateCustomRules
    split
    . next hmatch => exact .inl ⟨[], rule, rules, rfl, nofun, (matchesRule_iff h.1).mp hmatch, rfl⟩
    . next hmatch => exact (ih h.2).cons (fun hfires => hmatch ((matchesRule_iff h.1).mpr hfires))

/-! ## Exchanging the sources -/

def ConflictFacts.exchange (facts : ConflictFacts) : ConflictFacts :=
  { facts with
    sourceA := facts.sourceB
    sourceB := facts.sourceA
    sourceAModified := facts.sourceBModified
    sourceBModified := facts.sourceAModified }

def ConflictEvalResult.exchange : ConflictEvalResult → ConflictEvalResult
  | .preferSourceA => .preferSourceB
  | .preferSourceB => .preferSourceA
  | .merge => .merge
  | .skip => .skip

/--
The later source wins in both directions. With equal times, or without any, source A wins in both.
-/
def LatestWins (evaluate : ConflictFacts → ConflictEvalResult) (facts : ConflictFacts) : Prop :=
  (facts.sourceAModified ≠ facts.sourceBModified → evaluate facts.exchange = (evaluate facts).exchange)
    ∧ (facts.sourceAModified = facts.sourceBModified
      → evaluate facts = .preferSourceA ∧ evaluate facts.exchange = .preferSourceA)

theorem evaluateLatestWins_latest (facts : ConflictFacts) : LatestWins evaluateLatestWins facts := by
  unfold LatestWins evaluateLatestWins ConflictFacts.exchange
  dsimp only
  cases facts.sourceAModified with
  | none =>
    cases facts.sourceBModified with
    | none => simp
    | some b => simp [ConflictEvalResult.exchange]
  | some a =>
    cases facts.sourceBModified with
    | none => simp [ConflictEvalResult.exchange]
    | some b =>
      dsimp only
      constructor
      . intro hne
        have hne : a ≠ b := fun heq => hne (congrArg some heq)
        by_cases hab : a ≥ b
        . have hba : ¬ b ≥ a := by omega
          rw [if_pos hab, if_neg hba]
          rfl
        . have hba : b ≥ a := by omega
          rw [if_neg hab, if_pos hba]
          rfl
      . intro heq
        cases heq
        simp

theorem conflictPolicy_decides (rules : List ConflictRule) (facts : ConflictFacts)
    : ((∀ rule ∈ rules, rule.Readable facts) → FirstFiring rules facts (evaluateConflictPolicy .custom rules facts))
      ∧ LatestWins (evaluateConflictPolicy .latestWins rules) facts ∧ LatestWins (resolve .preferLatest) facts :=
  ⟨evaluateCustomRules_firstFiring, evaluateLatestWins_latest facts, evaluateLatestWins_latest facts⟩

def leadRule : ConflictRule where
  stream := "Lead*"
  resolution := .preferSourceB

def leadFacts (stream : String) : ConflictFacts where
  stream
  sourceA := .null
  sourceB := .null

theorem leadScore_decided : FirstFiring [leadRule] (leadFacts "LeadScore") .preferSourceB := by
  apply (conflictPolicy_decides [leadRule] (leadFacts "LeadScore")).1
  intro rule hrule
  rw [List.mem_singleton] at hrule
  rw [hrule]
  refine ⟨⟨"Lead".toList, by decide, .inr (.inl ⟨by decide, fun _ => by decide⟩)⟩, ?_⟩
  intro pattern field hpattern
  cases hpattern

/--
Neither source is known to be later, so that each direction keeps its own source A; and a rule for another case.
-/
theorem not_exchanged
    : evaluateConflictPolicy .latestWins [] (leadFacts "Lead").exchange
        ≠ (evaluateConflictPolicy .latestWins [] (leadFacts "Lead")).exchange
      ∧ ¬ FirstFiring [leadRule] (leadFacts "leadscore") (evaluateConflictPolicy .custom [leadRule] (leadFacts "leadscore")) := by
  refine ⟨by decide, ?_⟩
  have hresult : evaluateConflictPolicy .custom [leadRule] (leadFacts "leadscore") = .preferSourceA := by decide
  have hfires : leadRule.Fires (leadFacts "leadscore") := by
    refine ⟨?_, nofun, nofun⟩
    have hglob := @Glob.prefix_iff "Lead".toList "leadscore".toList (by decide)
    exact hglob.mpr (by decide)
  rw [hresult]
  rintro (⟨before, rule, after, hrules, -, -, hprefers⟩ | ⟨hnone, -⟩)
  . have hrule : rule = leadRule := by
      cases before with
      | nil => exact (List.cons.inj hrules).1.symm
      | cons r before =>
        have := (List.cons.inj hrules).2
        simp at this
    rw [hrule] at hprefers
    cases hprefers
  . exact hnone leadRule List.mem_cons_self hfires

end Reactor.Connect
