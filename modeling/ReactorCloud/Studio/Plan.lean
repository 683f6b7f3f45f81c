import ReactorCloud.Posix.TextFile
import ReactorCloud.Rust.F64
import ReactorCloud.Rust.Str

/-!
This module contains plans, their markdown text and its parser. The progress line is read as a part of the summary,
and whatever depth a step is written at, it is read at the top.
-/

namespace Reactor.Studio.Plans

open Posix (Text lines lines_feed)
open Rust.Str (isWhitespace trimStart trimEnd Blank Starts Ends)

inductive PlanStatus where
  | pending
  | inProgress
  | completed
  | skipped
  | failed
  deriving DecidableEq, Repr

structure PlanStep where
  id : Text
  title : Text
  description : Text := []
  status : PlanStatus := .pending
  substeps : List PlanStep := []

structure Plan where
  title : Text
  summary : Text := []
  steps : List PlanStep := []

/-! ## Progress -/

mutual

def PlanStep.count : PlanStep → Nat
  | ⟨_, _, _, _, substeps⟩ => 1 + countSteps substeps

def countSteps : List PlanStep → Nat
  | [] => 0
  | step :: steps => step.count + countSteps steps

end

mutual

def PlanStep.completed : PlanStep → Nat
  | ⟨_, _, _, status, substeps⟩ => (if status = .completed then 1 else 0) + countCompleted substeps

def countCompleted : List PlanStep → Nat
  | [] => 0
  | step :: steps => step.completed + countCompleted steps

end

/--
A number as the nearest `f32`, for those that are neither negative nor too large.
-/
def single (q : Rat) : Rat :=
  let ulp := max (Int.log 2 q - 23) (-149)
  Rust.F64.roundEven (q / 2 ^ ulp) * 2 ^ ulp

namespace Plan

def totalSteps (plan : Plan) : Nat :=
  countSteps plan.steps

def completedSteps (plan : Plan) : Nat :=
  countCompleted plan.steps

def progress (plan : Plan) : Rat :=
  if plan.totalSteps = 0 then
    0
  else
    single (single (single plan.completedSteps / single plan.totalSteps) * 100)

end Plan

/-! ## The writer -/

def statusToCheckbox : PlanStatus → Char
  | .completed => 'x'
  | .pending => ' '
  | .inProgress => '~'
  | .skipped => '-'
  | .failed => '!'

def indentText (indent : Nat) : Text :=
  (List.replicate indent "  ".toList).flatten

mutual

def renderStep (indent : Nat) : PlanStep → Text
  | ⟨_, title, description, status, substeps⟩ =>
    indentText indent ++ "- [".toList ++ [statusToCheckbox status] ++ "] ".toList ++ title ++ "\n".toList
      ++ (if description ≠ [] then indentText indent ++ "  _".toList ++ description ++ "_\n".toList else [])
      ++ renderSteps (indent + 1) substeps

def renderSteps (indent : Nat) : List PlanStep → Text
  | [] => []
  | step :: steps => renderStep indent step ++ renderSteps indent steps

end

/--
The percentage is written with no digit behind the point.
-/
def progressLine (plan : Plan) : Text :=
  "**Progress:** ".toList ++ (toString (Rust.F64.roundEven plan.progress)).toList ++ "% (".toList
    ++ (Nat.repr plan.completedSteps).toList ++ "/".toList ++ (Nat.repr plan.totalSteps).toList ++ ")".toList

def render (plan : Plan) : Text :=
  "# ".toList ++ plan.title ++ "\n\n".toList
    ++ (if plan.summary ≠ [] then "## Summary\n\n".toList ++ plan.summary ++ "\n\n".toList else [])
    ++ (progressLine plan ++ "\n\n".toList) ++ "## Steps\n\n".toList ++ renderSteps 0 plan.steps

/-! ## The parser -/

section

-- `str::to_lowercase` and `char::is_alphanumeric` go by the tables of Unicode
variable (toLowercase : Text → Text) (isAlphanumeric : Char → Bool)

def joinDashes : List Text → Text
  | [] => []
  | [part] => part
  | part :: parts => part ++ '-' :: joinDashes parts

def generateStepId (title : Text) : Text :=
  let parts := ((toLowercase title).map (fun c => if isAlphanumeric c then c else '-')).splitOn '-'
  joinDashes ((parts.filter (fun part => part ≠ [])).take 5)

def trimText (s : Text) : Text :=
  trimEnd (trimStart s)

/--
`rest.get(3..)` behind two characters of one byte each. Within a character there is nothing to get.
-/
def getFrom3 : Text → Option Text
  | _ :: _ :: c :: rest => if c.utf8Size = 1 then some rest else none
  | _ => none

def checkbox (rest : Text) : Option (PlanStatus × Text) :=
  if "x]".toList.isPrefixOf rest || "X]".toList.isPrefixOf rest then
    (getFrom3 rest).map (fun title => (.completed, trimText title))
  else if " ]".toList.isPrefixOf rest then
    (getFrom3 rest).map (fun title => (.pending, trimText title))
  else if "-]".toList.isPrefixOf rest then
    (getFrom3 rest).map (fun title => (.skipped, trimText title))
  else
    none

/--
What stands before the first `. ` and what stands behind it.
-/
def splitNumber : Text → Option (Text × Text)
  | [] => none
  | c :: rest =>
    if ". ".toList.isPrefixOf (c :: rest) then
      some ([], rest.drop 1)
    else
      (splitNumber rest).map (fun (num, title) => (c :: num, title))

def parseStepLine (line : Text) : Option PlanStep :=
  let trimmed := trimText line
  if "- [".toList.isPrefixOf trimmed then
    (checkbox (trimmed.drop 3)).map (fun (status, title) =>
      { id := generateStepId toLowercase isAlphanumeric title, title, status })
  else
    match splitNumber trimmed with
    | some (num, title) =>
      if num.all Char.isDigit then
        some { id := generateStepId toLowercase isAlphanumeric title, title }
      else
        none
    | none => none

def parseSubstepLine (line : Text) : Option PlanStep :=
  if "  ".toList.isPrefixOf line || "\t".toList.isPrefixOf line then
    parseStepLine toLowercase isAlphanumeric (trimText line)
  else
    none

structure ParseState where
  title : Text := []
  summary : Text := []
  steps : List PlanStep := []
  inSummary : Bool := false
  currentStep : Option PlanStep := none

def addSummary (summary trimmed : Text) : Text :=
  if summary ≠ [] then summary ++ ' ' :: trimmed else trimmed

def addSubstep (substep : PlanStep) (step : PlanStep) : PlanStep :=
  { step with substeps := step.substeps ++ [substep] }

def parseList (s : ParseState) (line : Text) : ParseState :=
  match parseStepLine toLowercase isAlphanumeric (trimText line) with
  | some step => { s with steps := s.steps ++ s.currentStep.toList, currentStep := some step }
  | none =>
    match parseSubstepLine toLowercase isAlphanumeric line with
    | some substep => { s with currentStep := s.currentStep.map (addSubstep substep) }
    | none => s

/--
A new heading of the second level ends the summary.
-/
def endSummary (s : ParseState) (trimmed : Text) : ParseState :=
  if "## ".toList.isPrefixOf trimmed && s.inSummary then { s with inSummary := false } else s

def parseText (s : ParseState) (line : Text) : ParseState :=
  let trimmed := trimText line
  if s.inSummary && trimmed ≠ [] && trimmed.head? ≠ some '#' then
    { s with summary := addSummary s.summary trimmed }
  else
    parseList toLowercase isAlphanumeric s line

def parseLine (s : ParseState) (line : Text) : ParseState :=
  let trimmed := trimText line
  if "# ".toList.isPrefixOf trimmed && s.title = [] then
    { s with title := trimmed.drop 2 }
  else if trimmed = "## Summary".toList || trimmed = "## Overview".toList then
    { s with inSummary := true }
  else
    parseText toLowercase isAlphanumeric (endSummary s trimmed) line

def parse (content : Text) : Except String Plan :=
  if lines content = [] then
    .error "Empty plan content"
  else
    let s := (lines content).foldl (parseLine toLowercase isAlphanumeric) {}
    if s.title = [] then
      .error "Plan must have a title"
    else
      .ok ⟨s.title, s.summary, s.steps ++ s.currentStep.toList⟩

end

/-! ## What a plan should survive -/

/--
The text starts like a heading, a list, a quotation or a number.
-/
def Marked (text : Text) : Prop :=
  (∃ c ∈ text.head?, c ∈ "#-*+>`_~|[!".toList)
    ∨ (∃ num title, splitNumber text = some (num, title) ∧ num.all Char.isDigit = true)

structure Line (text : Text) : Prop where
  nonempty : text ≠ []
  noFeed : '\n' ∉ text
  noReturn : '\r' ∉ text
  starts : Starts text
  ends : Ends text
  unmarked : ¬ Marked text

mutual

def PlanStep.titles : PlanStep → List Text
  | ⟨_, title, _, _, substeps⟩ => title :: titlesOf substeps

def titlesOf : List PlanStep → List Text
  | [] => []
  | step :: steps => step.titles ++ titlesOf steps

end

structure Plan.Plain (plan : Plan) : Prop where
  title : Line plan.title
  summary : Line plan.summary
  steps : ∀ title ∈ titlesOf plan.steps, Line title

inductive Outline where
  | node (title : Text) (status : PlanStatus) (children : List Outline)

mutual

def PlanStep.outline : PlanStep → Outline
  | ⟨_, title, _, status, substeps⟩ => .node title status (outlines substeps)

def outlines : List PlanStep → List Outline
  | [] => []
  | step :: steps => step.outline :: outlines steps

end

section

variable (toLowercase : Text → Text) (isAlphanumeric : Char → Bool)

structure ReadBack (plan read : Plan) : Prop where
  title : read.title = plan.title
  summary : read.summary = plan.summary
  steps : outlines read.steps = outlines plan.steps

/--
The plan that is read is the plan that was written.
-/
def Survives (plan : Plan) : Prop :=
  ∃ read, parse toLowercase isAlphanumeric (render plan) = .ok read ∧ ReadBack plan read

end

/-! ## The lines of a plan -/

theorem trimText_eq {g s : Text} (hg : Blank g) (hstarts : Starts s) (hends : Ends s) : trimText (g ++ s) = s := by
  unfold trimText
  rw [Rust.Str.trimStart_append hg hstarts]
  have := Rust.Str.trimEnd_append (fun _ h => absurd h List.not_mem_nil) hends
  rwa [List.append_nil] at this

theorem trimText_self {s : Text} (hstarts : Starts s) (hends : Ends s) : trimText s = s :=
  trimText_eq (fun _ h => absurd h List.not_mem_nil) hstarts hends

theorem stripReturn_of_ends {s : Text} (h : Ends s) : Posix.stripReturn s = s := by
  unfold Posix.stripReturn
  split
  . next hreturn => exact absurd (h '\r' hreturn) (by decide)
  . rfl

theorem lines_ended {line : Text} (hfeed : '\n' ∉ line) (hends : Ends line) (s : Text)
    : lines (line ++ '\n' :: s) = line :: lines s := by
  rw [lines_feed hfeed, stripReturn_of_ends hends]

theorem lines_blank (s : Text) : lines ('\n' :: s) = [] :: lines s := by
  have hnil : Ends [] := nofun
  exact lines_ended List.not_mem_nil hnil s

theorem noFeed_repr (n : Nat) : '\n' ∉ (Nat.repr n).toList := by
  intro h
  have hdigits : (Nat.repr n).toList = Nat.toDigits 10 n := String.toList_ofList
  rw [hdigits] at h
  have := Nat.isDigit_of_mem_toDigits (by decide) (by decide) h
  cases this

theorem noFeed_toString (n : Int) : '\n' ∉ (toString n).toList := by
  cases n with
  | ofNat n => exact noFeed_repr n
  | negSucc n =>
    have hneg : (toString (Int.negSucc n)).toList = '-' :: (Nat.repr (n + 1)).toList := by
      have : toString (Int.negSucc n) = "-" ++ Nat.repr (n + 1) := rfl
      rw [this, String.toList_append]
      rfl
    rw [hneg, List.mem_cons, not_or]
    exact ⟨by decide, noFeed_repr _⟩

theorem noFeed_progressLine (plan : Plan) : '\n' ∉ progressLine plan := by
  unfold progressLine
  simp only [List.mem_append, not_or]
  refine ⟨⟨⟨⟨⟨⟨?_, noFeed_toString _⟩, ?_⟩, noFeed_repr _⟩, ?_⟩, noFeed_repr _⟩, ?_⟩
  all_goals decide

theorem head_progressLine (plan : Plan) : (progressLine plan).head? = some '*' := by
  unfold progressLine
  simp only [List.append_assoc]
  rfl

theorem progressLine_ne_nil (plan : Plan) : progressLine plan ≠ [] := by
  intro h
  have hhead := head_progressLine plan
  rw [h] at hhead
  cases hhead

theorem starts_progressLine (plan : Plan) : Starts (progressLine plan) := by
  intro c hc
  rw [head_progressLine] at hc
  cases hc
  decide

theorem ends_progressLine (plan : Plan) : Ends (progressLine plan) := by
  unfold progressLine
  apply Ends.append_of_ne_nil
  . intro c hc
    cases hc
    decide
  . decide

/--
The text behind the summary.
-/
def renderRest (plan : Plan) : Text :=
  progressLine plan ++ '\n' :: '\n' :: ("## Steps".toList ++ '\n' :: '\n' :: renderSteps 0 plan.steps)

theorem render_eq (plan : Plan)
    : render plan = ("# ".toList ++ plan.title) ++ '\n' :: '\n' :: ((if plan.summary ≠ [] then
        "## Summary".toList ++ '\n' :: '\n' :: (plan.summary ++ '\n' :: ['\n']) else []) ++ renderRest plan) := by
  unfold render renderRest
  have hfeeds : "\n\n".toList = ['\n', '\n'] := by decide
  have hsummary : "## Summary\n\n".toList = "## Summary".toList ++ ['\n', '\n'] := by decide
  have hsteps : "## Steps\n\n".toList = "## Steps".toList ++ ['\n', '\n'] := by decide
  rw [hfeeds, hsummary, hsteps]
  simp only [List.append_assoc, List.cons_append, List.nil_append]

theorem lines_renderRest (plan : Plan)
    : lines (renderRest plan)
        =
      [progressLine plan, [], "## Steps".toList, []] ++ lines (renderSteps 0 plan.steps) := by
  unfold renderRest
  rw [lines_ended (noFeed_progressLine plan) (ends_progressLine plan), lines_blank, lines_ended, lines_blank]
  . rfl
  . decide
  . intro c hc
    cases hc
    decide

/--
The lines in front of the progress line.
-/
def summaryLines (plan : Plan) : List Text :=
  if plan.summary ≠ [] then ["## Summary".toList, [], plan.summary, []] else []

theorem lines_render {plan : Plan} (htitle : Line plan.title) (hsummary : plan.summary ≠ [] → Line plan.summary)
    : lines (render plan) = ["# ".toList ++ plan.title, []] ++ summaryLines plan
        ++ [progressLine plan, [], "## Steps".toList, []] ++ lines (renderSteps 0 plan.steps) := by
  rw [render_eq, lines_ended, lines_blank]
  . unfold summaryLines
    split
    . next hne =>
      have h := hsummary hne
      simp only [List.append_assoc, List.cons_append, List.nil_append]
      rw [lines_ended, lines_blank, lines_ended h.noFeed h.ends, lines_blank, lines_renderRest]
      . rfl
      . decide
      . intro c hc
        cases hc
        decide
    . rw [List.nil_append, lines_renderRest]
      rfl
  . rw [List.mem_append, not_or]
    exact ⟨by decide, htitle.noFeed⟩
  . exact htitle.ends.append_of_ne_nil _ htitle.nonempty

/-! ## How the lines are read -/

section

variable {toLowercase : Text → Text} {isAlphanumeric : Char → Bool}

theorem parseList_summary (s : ParseState) (line : Text)
    : (parseList toLowercase isAlphanumeric s line).summary = s.summary := by
  unfold parseList
  split
  . rfl
  . split
    . rfl
    . rfl

theorem length_addSummary (summary trimmed : Text) : summary.length ≤ (addSummary summary trimmed).length := by
  unfold addSummary
  split
  . rw [List.length_append]
    omega
  . next hempty =>
    rw [not_not.mp hempty]
    exact Nat.zero_le _

theorem endSummary_summary (s : ParseState) (trimmed : Text) : (endSummary s trimmed).summary = s.summary := by
  unfold endSummary
  split
  . rfl
  . rfl

theorem length_parseText (s : ParseState) (line : Text)
    : s.summary.length ≤ (parseText toLowercase isAlphanumeric s line).summary.length := by
  unfold parseText
  dsimp only
  split
  . exact length_addSummary _ _
  . rw [parseList_summary]

/--
Nothing is taken back from the summary.
-/
theorem length_parseLine (s : ParseState) (line : Text)
    : s.summary.length ≤ (parseLine toLowercase isAlphanumeric s line).summary.length := by
  unfold parseLine
  dsimp only
  split
  . exact Nat.le_refl _
  . split
    . exact Nat.le_refl _
    . have h := @length_parseText toLowercase isAlphanumeric (endSummary s (trimText line)) line
      rwa [endSummary_summary] at h

theorem length_foldl (s : ParseState) (ls : List Text)
    : s.summary.length ≤ (ls.foldl (parseLine toLowercase isAlphanumeric) s).summary.length := by
  induction ls generalizing s with
  | nil => exact Nat.le_refl _
  | cons line ls ih => exact (length_parseLine s line).trans (ih _)

theorem parseLine_title {s : ParseState} {title : Text} (h : Line title) (hs : s.title = [])
    : parseLine toLowercase isAlphanumeric s ("# ".toList ++ title) = { s with title := title } := by
  have htrim : trimText ("# ".toList ++ title) = "# ".toList ++ title := by
    apply trimText_self
    . intro c hc
      cases hc
      decide
    . exact h.ends.append_of_ne_nil _ h.nonempty
  unfold parseLine
  rw [htrim]
  dsimp only
  rw [if_pos]
  . rfl
  . rw [hs]
    rfl

/--
A line that is no heading, behind the title.
-/
theorem parseLine_text {s : ParseState} {line : Text} (hs : s.title ≠ [])
    (hhead : (trimText line).head? ≠ some '#')
    : parseLine toLowercase isAlphanumeric s line = parseText toLowercase isAlphanumeric s line := by
  have hheading (rest : Text) : trimText line ≠ '#' :: rest := by
    intro heq
    rw [heq] at hhead
    exact hhead rfl
  unfold parseLine endSummary
  dsimp only
  rw [if_neg, if_neg, if_neg]
  . rw [Bool.and_eq_true, not_and]
    intro hfront
    obtain ⟨rest, hrest⟩ := List.isPrefixOf_iff_prefix.mp hfront
    exact absurd hrest.symm (hheading _)
  . rw [Bool.or_eq_true, decide_eq_true_eq, decide_eq_true_eq, not_or]
    exact ⟨hheading _, hheading _⟩
  . rw [Bool.and_eq_true, decide_eq_true_eq, not_and]
    exact fun _ => hs

theorem parseLine_summary {s : ParseState} {line : Text} (hs : s.title ≠ []) (hin : s.inSummary = true)
    (hstarts : Starts line) (hends : Ends line) (hne : line ≠ []) (hhead : line.head? ≠ some '#')
    : parseLine toLowercase isAlphanumeric s line = { s with summary := addSummary s.summary line } := by
  have htrim := trimText_self hstarts hends
  rw [parseLine_text hs (by rwa [htrim])]
  unfold parseText
  rw [htrim]
  dsimp only
  rw [if_pos]
  rw [hin, Bool.true_and, Bool.and_eq_true, decide_eq_true_eq, decide_eq_true_eq]
  exact ⟨hne, hhead⟩

theorem parseLine_nil {s : ParseState} (hs : s.title ≠ []) : parseLine toLowercase isAlphanumeric s [] = s := by
  rw [parseLine_text hs (by decide)]
  unfold parseText
  rw [if_neg]
  . rfl
  . have : trimText [] = [] := rfl
    rw [this]
    simp

theorem parseLine_summaryHeading (s : ParseState)
    : parseLine toLowercase isAlphanumeric s "## Summary".toList = { s with inSummary := true } := by
  have htrim : trimText "## Summary".toList = "## Summary".toList := by decide
  unfold parseLine
  rw [htrim]
  dsimp only
  rw [if_neg, if_pos]
  . rfl
  . rw [Bool.and_eq_true, not_and]
    intro hfront
    exact absurd hfront (by decide)

theorem parseLine_stepsHeading {s : ParseState} (hs : s.title ≠ []) (hin : s.inSummary = true)
    : parseLine toLowercase isAlphanumeric s "## Steps".toList = { s with inSummary := false } := by
  have htrim : trimText "## Steps".toList = "## Steps".toList := by decide
  have hstep : parseStepLine toLowercase isAlphanumeric "## Steps".toList = none := by
    unfold parseStepLine
    rw [htrim]
    rfl
  have hend : endSummary s "## Steps".toList = { s with inSummary := false } := by
    unfold endSummary
    rw [if_pos]
    rw [hin]
    decide
  unfold parseLine
  rw [htrim]
  dsimp only
  rw [if_neg, if_neg, hend]
  . unfold parseText parseList parseSubstepLine
    rw [htrim, hstep]
    rfl
  . decide
  . rw [Bool.and_eq_true, decide_eq_true_eq, not_and]
    exact fun _ => hs

theorem head_of_unmarked {text : Text} (h : ¬ Marked text) : text.head? ≠ some '#' := by
  intro hhead
  exact h (.inl ⟨'#', hhead, by decide⟩)

/--
The lines in front of the steps leave the summary with the progress line behind it.
-/
theorem foldl_header {plan : Plan} (htitle : Line plan.title) (hsummary : Line plan.summary)
    : (["# ".toList ++ plan.title, []] ++ summaryLines plan ++ [progressLine plan, [], "## Steps".toList, []]).foldl
          (parseLine toLowercase isAlphanumeric) {}
        =
      { title := plan.title, summary := plan.summary ++ ' ' :: progressLine plan } := by
  have hne := htitle.nonempty
  unfold summaryLines
  rw [if_pos hsummary.nonempty]
  simp only [List.cons_append, List.nil_append, List.foldl_cons, List.foldl_nil]
  let read := parseLine toLowercase isAlphanumeric
  let titled : ParseState := { title := plan.title }
  let summed : ParseState := { titled with summary := plan.summary, inSummary := true }
  let progressed : ParseState := { summed with summary := plan.summary ++ ' ' :: progressLine plan }
  have h₁ : read {} ("# ".toList ++ plan.title) = titled := parseLine_title htitle rfl
  have h₂ : read titled [] = titled := parseLine_nil hne
  have h₃ : read titled "## Summary".toList = { titled with inSummary := true } := parseLine_summaryHeading _
  have h₄ : read { titled with inSummary := true } [] = { titled with inSummary := true } := parseLine_nil hne
  have h₅ : read { titled with inSummary := true } plan.summary = summed :=
    parseLine_summary hne rfl hsummary.starts hsummary.ends hsummary.nonempty (head_of_unmarked hsummary.unmarked)
  have h₆ : read summed [] = summed := parseLine_nil hne
  have h₇ : read summed (progressLine plan) = progressed := by
    have h := @parseLine_summary toLowercase isAlphanumeric summed _ hne rfl (starts_progressLine plan)
      (ends_progressLine plan) (progressLine_ne_nil plan) (by
        rw [head_progressLine]
        decide)
    have hadd : addSummary plan.summary (progressLine plan) = plan.summary ++ ' ' :: progressLine plan :=
      if_pos hsummary.nonempty
    exact h.trans (congrArg (fun text => { summed with summary := text }) hadd)
  have h₈ : read progressed [] = progressed := parseLine_nil hne
  have h₉ : read progressed "## Steps".toList = { progressed with inSummary := false } :=
    parseLine_stepsHeading hne rfl
  have h₁₀ : read { progressed with inSummary := false } [] = { progressed with inSummary := false } :=
    parseLine_nil hne
  change read (read (read (read (read (read (read (read (read (read {} _) _) _) _) _) _) _) _) _) _ = _
  rw [h₁, h₂, h₃, h₄, h₅, h₆, h₇, h₈, h₉, h₁₀]

theorem summary_ne {plan read : Plan} (h : plan.Plain)
    (hparse : parse toLowercase isAlphanumeric (render plan) = .ok read) : read.summary ≠ plan.summary := by
  unfold parse at hparse
  rw [lines_render h.title (fun _ => h.summary), List.foldl_append, foldl_header h.title h.summary] at hparse
  split at hparse
  . cases hparse
  . dsimp only at hparse
    split at hparse
    . cases hparse
    . cases hparse
      have hlength := @length_foldl toLowercase isAlphanumeric
        { title := plan.title, summary := plan.summary ++ ' ' :: progressLine plan }
        (lines (renderSteps 0 plan.steps))
      rw [List.length_append, List.length_cons] at hlength
      intro heq
      dsimp only at heq
      rw [heq] at hlength
      omega

section Examples

/--
One step that waits.
-/
def plan : Plan :=
  ⟨"Plan".toList, "Plan".toList, [{ id := "1".toList, title := "Plan".toList }]⟩

theorem line_plan : Line "Plan".toList where
  nonempty := by decide
  noFeed := by decide
  noReturn := by decide
  starts c hc := by
    cases hc
    decide
  ends c hc := by
    cases hc
    decide
  unmarked := by
    rintro (⟨c, hc, hmem⟩ | ⟨num, title, hnumber, -⟩)
    . cases hc
      exact absurd hmem (by decide)
    . cases hnumber

theorem plain_plan : plan.Plain :=
  ⟨line_plan, line_plan, List.forall_mem_singleton.mpr line_plan⟩

/--
It is not read with its summary.
-/
theorem not_survives_all
    : ¬ ∀ (toLowercase : Text → Text) (isAlphanumeric : Char → Bool) (plan : Plan), plan.Plain
        → Survives toLowercase isAlphanumeric plan := by
  intro h
  obtain ⟨read, hparse, hread⟩ := h (List.map Char.toLower) Char.isAlphanum plan plain_plan
  exact summary_ne plain_plan hparse hread.summary

end Examples

theorem not_survives {plan : Plan} (h : plan.Plain) : ¬ Survives toLowercase isAlphanumeric plan := by
  rintro ⟨read, hparse, hread⟩
  exact summary_ne h hparse hread.summary

theorem not_survives_plan : ¬ Survives (List.map Char.toLower) Char.isAlphanum plan :=
  not_survives plain_plan

end

/-! ## How steps without descriptions are read -/

mutual

def PlanStep.Terse : PlanStep → Prop
  | ⟨_, title, description, _, substeps⟩ => Line title ∧ description = [] ∧ TerseSteps substeps

def TerseSteps : List PlanStep → Prop
  | [] => True
  | step :: steps => step.Terse ∧ TerseSteps steps

end

section

variable (toLowercase : Text → Text) (isAlphanumeric : Char → Bool)

/--
The parser knows three of the five marks.
-/
def readMark (title : Text) : PlanStatus → List PlanStep
  | .inProgress | .failed => []
  | status => [{ id := generateStepId toLowercase isAlphanumeric title, title, status }]

mutual

def PlanStep.shown : PlanStep → List PlanStep
  | ⟨_, title, _, status, substeps⟩ => readMark toLowercase isAlphanumeric title status ++ shownSteps substeps

def shownSteps : List PlanStep → List PlanStep
  | [] => []
  | step :: steps => step.shown ++ shownSteps steps

end

end

def stepLine (indent : Nat) (title : Text) (status : PlanStatus) : Text :=
  indentText indent ++ ("- [".toList ++ (statusToCheckbox status :: "] ".toList ++ title))

def ParseState.read (s : ParseState) : List PlanStep :=
  s.steps ++ s.currentStep.toList

/--
The state behind some lines, and the steps they have added.
-/
structure Reads (s s' : ParseState) (steps : List PlanStep) : Prop where
  title : s'.title = s.title
  summary : s'.summary = s.summary
  inSummary : s'.inSummary = false
  read : s'.read = s.read ++ steps

theorem Reads.trans {s₁ s₂ s₃ : ParseState} {steps₁ steps₂ : List PlanStep}
    (h₁ : Reads s₁ s₂ steps₁) (h₂ : Reads s₂ s₃ steps₂) : Reads s₁ s₃ (steps₁ ++ steps₂) where
  title := h₂.title.trans h₁.title
  summary := h₂.summary.trans h₁.summary
  inSummary := h₂.inSummary
  read := by rw [h₂.read, h₁.read, List.append_assoc]

section

variable {toLowercase : Text → Text} {isAlphanumeric : Char → Bool}

theorem blank_indentText (indent : Nat) : Blank (indentText indent) := by
  intro c hc
  unfold indentText at hc
  obtain ⟨part, hpart, hmem⟩ := List.mem_flatten.mp hc
  rw [List.eq_of_mem_replicate hpart] at hmem
  have hspaces : "  ".toList.all isWhitespace = true := by decide
  exact List.all_eq_true.mp hspaces c hmem

theorem noFeed_stepLine {title : Text} (h : Line title) (indent : Nat) (status : PlanStatus)
    : '\n' ∉ stepLine indent title status := by
  unfold stepLine
  simp only [List.mem_append, List.mem_cons, not_or]
  refine ⟨?_, by decide, ⟨?_, by decide⟩, h.noFeed⟩
  . intro hmem
    unfold indentText at hmem
    obtain ⟨part, hpart, hmem⟩ := List.mem_flatten.mp hmem
    rw [List.eq_of_mem_replicate hpart] at hmem
    exact absurd hmem (by decide)
  . cases status with
    | _ => decide

theorem trimText_stepLine {title : Text} (h : Line title) (indent : Nat) (status : PlanStatus)
    : trimText (stepLine indent title status)
        =
      "- [".toList ++ (statusToCheckbox status :: "] ".toList ++ title) := by
  unfold stepLine
  apply trimText_eq (blank_indentText indent)
  . intro c hc
    cases hc
    decide
  . apply Ends.append_of_ne_nil
    . apply h.ends.append_of_ne_nil (statusToCheckbox status :: "] ".toList) h.nonempty
    . exact nofun

theorem checkbox_mark (title : Text) (status : PlanStatus)
    : checkbox (statusToCheckbox status :: "] ".toList ++ title)
        =
      if status = .inProgress ∨ status = .failed then none else some (status, trimText title) := by
  cases status with
  | _ => rfl

theorem parseStepLine_mark {title : Text} (h : Line title) (indent : Nat) (status : PlanStatus)
    : parseStepLine toLowercase isAlphanumeric (stepLine indent title status)
        =
      (readMark toLowercase isAlphanumeric title status).head? := by
  have hfront : "- [".toList.isPrefixOf ("- [".toList ++ (statusToCheckbox status :: "] ".toList ++ title)) = true :=
    List.isPrefixOf_iff_prefix.mpr (List.prefix_append _ _)
  have hdrop : ("- [".toList ++ (statusToCheckbox status :: "] ".toList ++ title)).drop 3
      = statusToCheckbox status :: "] ".toList ++ title := rfl
  unfold parseStepLine
  rw [trimText_stepLine h]
  dsimp only
  rw [if_pos hfront, hdrop, checkbox_mark, trimText_self h.starts h.ends]
  cases status with
  | _ => rfl

/--
A step is read as a step of the plan, whatever its depth is, or not at all.
-/
theorem parseLine_step {s : ParseState} {title : Text} (h : Line title) (hs : s.title ≠ [])
    (hin : s.inSummary = false) (indent : Nat) (status : PlanStatus)
    : Reads s (parseLine toLowercase isAlphanumeric s (stepLine indent title status))
        (readMark toLowercase isAlphanumeric title status) := by
  have hstep := @parseStepLine_mark toLowercase isAlphanumeric _ h indent status
  have htrim := trimText_stepLine h indent status
  have hidem : parseStepLine toLowercase isAlphanumeric (trimText (stepLine indent title status))
      = (readMark toLowercase isAlphanumeric title status).head? := by
    have htwice : trimText (trimText (stepLine indent title status)) = trimText (stepLine indent title status) := by
      have := trimText_stepLine h 0 status
      unfold stepLine at this
      rw [htrim]
      exact this
    rw [← hstep]
    unfold parseStepLine
    rw [htwice]
  have hhead : (trimText (stepLine indent title status)).head? ≠ some '#' := by
    rw [htrim]
    exact nofun
  rw [parseLine_text hs hhead]
  unfold parseText
  rw [hin]
  dsimp only
  rw [if_neg (by exact nofun)]
  unfold parseList
  rw [hidem]
  cases hmark : readMark toLowercase isAlphanumeric title status with
  | nil =>
    have hsub : parseSubstepLine toLowercase isAlphanumeric (stepLine indent title status) = none := by
      unfold parseSubstepLine
      rw [hidem, hmark]
      split
      . rfl
      . rfl
    rw [List.head?_nil, hsub]
    exact ⟨rfl, rfl, hin, (List.append_nil _).symm⟩
  | cons step rest =>
    have hrest : rest = [] := by
      cases status with
      | inProgress => cases hmark
      | failed => cases hmark
      | _ => exact (List.cons.inj hmark).2.symm
    rw [List.head?_cons, hrest]
    exact ⟨rfl, rfl, hin, rfl⟩

theorem lines_renderStep {title : Text} (h : Line title) (id : Text) (indent : Nat) (status : PlanStatus)
    (substeps : List PlanStep) (rest : Text)
    : lines (renderStep indent ⟨id, title, [], status, substeps⟩ ++ rest)
        =
      stepLine indent title status :: lines (renderSteps (indent + 1) substeps ++ rest) := by
  have hends : Ends (stepLine indent title status) := by
    have := h.ends.append_of_ne_nil (indentText indent ++ ("- [".toList ++ (statusToCheckbox status :: "] ".toList)))
      h.nonempty
    unfold stepLine
    simpa only [List.append_assoc, List.cons_append] using this
  have hfeed : "\n".toList = ['\n'] := by decide
  have hrender : renderStep indent ⟨id, title, [], status, substeps⟩ ++ rest
      = stepLine indent title status ++ '\n' :: (renderSteps (indent + 1) substeps ++ rest) := by
    unfold renderStep stepLine
    rw [if_neg (not_not.mpr rfl), hfeed]
    simp only [List.append_assoc, List.cons_append, List.nil_append]
  rw [hrender, lines_ended (noFeed_stepLine h indent status) hends]

mutual

theorem foldl_step {step : PlanStep} (h : step.Terse) (indent : Nat) (rest : Text) {s : ParseState}
    (hs : s.title ≠ []) (hin : s.inSummary = false)
    : ∃ s', (lines (renderStep indent step ++ rest)).foldl (parseLine toLowercase isAlphanumeric) s
        = (lines rest).foldl (parseLine toLowercase isAlphanumeric) s'
      ∧ Reads s s' (step.shown toLowercase isAlphanumeric) := by
  obtain ⟨id, title, description, status, substeps⟩ := step
  obtain ⟨hline, rfl, hsubsteps⟩ := h
  have hreads := @parseLine_step toLowercase isAlphanumeric _ _ hline hs hin indent status
  have htitle := hreads.title ▸ hs
  obtain ⟨s', hfold, hrest⟩ := foldl_steps hsubsteps (indent + 1) rest htitle hreads.inSummary
  rw [lines_renderStep hline, List.foldl_cons, hfold]
  exact ⟨s', rfl, hreads.trans hrest⟩

theorem foldl_steps {steps : List PlanStep} (h : TerseSteps steps) (indent : Nat) (rest : Text) {s : ParseState}
    (hs : s.title ≠ []) (hin : s.inSummary = false)
    : ∃ s', (lines (renderSteps indent steps ++ rest)).foldl (parseLine toLowercase isAlphanumeric) s
        = (lines rest).foldl (parseLine toLowercase isAlphanumeric) s'
      ∧ Reads s s' (shownSteps toLowercase isAlphanumeric steps) := by
  cases steps with
  | nil => exact ⟨s, rfl, rfl, rfl, hin, (List.append_nil _).symm⟩
  | cons step steps =>
    obtain ⟨s₁, hfold₁, hreads₁⟩ := foldl_step h.1 indent (renderSteps indent steps ++ rest) hs hin
    have htitle := hreads₁.title ▸ hs
    obtain ⟨s₂, hfold₂, hreads₂⟩ := foldl_steps h.2 indent rest htitle hreads₁.inSummary
    refine ⟨s₂, ?_, hreads₁.trans hreads₂⟩
    rw [renderSteps, List.append_assoc, hfold₁, hfold₂]

end

/--
Every plan without descriptions is read with the progress in its summary, with its steps in one list and without
those that are in progress or have failed.
-/
theorem parse_render {plan : Plan} (h : plan.Plain) (hterse : TerseSteps plan.steps)
    : parse toLowercase isAlphanumeric (render plan)
        =
      .ok ⟨plan.title, plan.summary ++ ' ' :: progressLine plan,
        shownSteps toLowercase isAlphanumeric plan.steps⟩ := by
  obtain ⟨s, hfold, hreads⟩ := @foldl_steps toLowercase isAlphanumeric _ hterse 0 []
    { title := plan.title, summary := plan.summary ++ ' ' :: progressLine plan } h.title.nonempty rfl
  rw [List.append_nil, Posix.lines_nil, List.foldl_nil] at hfold
  have hread : s.steps ++ s.currentStep.toList = shownSteps toLowercase isAlphanumeric plan.steps := hreads.read
  unfold parse
  rw [lines_render h.title (fun _ => h.summary), List.foldl_append, foldl_header h.title h.summary, hfold]
  dsimp only
  rw [if_neg, if_neg, hread, hreads.title, hreads.summary]
  . rw [hreads.title]
    exact h.title.nonempty
  . exact nofun

end

theorem parse_render_plan
    : parse (List.map Char.toLower) Char.isAlphanum (render plan)
        =
      .ok ⟨plan.title, plan.summary ++ ' ' :: progressLine plan,
        shownSteps (List.map Char.toLower) Char.isAlphanum plan.steps⟩ :=
  parse_render plain_plan ⟨⟨line_plan, rfl, trivial⟩, trivial⟩

end Reactor.Studio.Plans
