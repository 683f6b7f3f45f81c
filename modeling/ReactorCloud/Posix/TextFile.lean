import Mathlib.Data.List.Basic
import Mathlib.Data.List.Induction

/-!
This module contains text files, the lines of a text and what a call does to a file.
-/

namespace Posix

abbrev Text := List Char

/-! ## Lines -/

/--
A line ends with a line feed or with a carriage return and a line feed.
-/
def stripReturn (line : Text) : Text :=
  if line.getLast? = some '\r' then line.dropLast else line

/--
What stands behind the last line feed is a line of its own if there is something.
-/
def linesOf : List Text → List Text
  | [] => []
  | [rest] => if rest = [] then [] else [rest]
  | line :: next :: more => stripReturn line :: linesOf (next :: more)

/--
`str::lines` and `BufRead::lines`
-/
def lines (s : Text) : List Text :=
  linesOf (s.splitOn '\n')

/--
`lines.join("\n")`
-/
def joinLines : List Text → Text
  | [] => []
  | [line] => line
  | line :: next :: more => line ++ '\n' :: joinLines (next :: more)

/--
A line that is read as it was written.
-/
structure IsLine (line : Text) : Prop where
  noFeed : '\n' ∉ line
  noReturn : line.getLast? ≠ some '\r'
  nonempty : line ≠ []

/--
The last line of the text is ended.
-/
def Ended (s : Text) : Prop :=
  s = [] ∨ s.getLast? = some '\n'

instance (s : Text) : Decidable (Ended s) :=
  inferInstanceAs (Decidable (_ ∨ _))

theorem Ended.append_feed (s : Text) : Ended (s ++ ['\n']) := by
  right
  simp

@[simp]
theorem lines_nil : lines [] = [] := rfl

theorem lines_feed {line : Text} (h : '\n' ∉ line) (s : Text)
    : lines (line ++ '\n' :: s) = stripReturn line :: lines s := by
  have hsplit : (line ++ '\n' :: s).splitOn '\n' = line :: s.splitOn '\n' := by
    apply List.splitOnP_append_cons_of_forall_mem
    . intro c hc
      rw [beq_eq_false_iff_ne]
      rintro rfl
      exact h hc
    . rfl
  rw [lines, hsplit, lines]
  cases hrest : s.splitOn '\n' with
  | nil => exact absurd hrest (List.splitOnP_ne_nil _ _)
  | cons next more => rfl

theorem lines_single {line : Text} (h : '\n' ∉ line) (hne : line ≠ []) : lines line = [line] := by
  have hsplit : line.splitOn '\n' = [line] := by
    apply List.splitOnP_eq_singleton
    intro c hc
    rw [beq_eq_false_iff_ne]
    rintro rfl
    exact h hc
  rw [lines, hsplit, linesOf, if_neg hne]

theorem IsLine.stripReturn_eq {line : Text} (h : IsLine line) : stripReturn line = line :=
  if_neg h.noReturn

theorem IsLine.lines_feed {line : Text} (h : IsLine line) (s : Text)
    : lines (line ++ '\n' :: s) = line :: lines s := by
  rw [Posix.lines_feed h.noFeed, h.stripReturn_eq]

theorem IsLine.lines_single {line : Text} (h : IsLine line) : lines line = [line] :=
  Posix.lines_single h.noFeed h.nonempty

/--
What is written behind the end of a line does not change the lines before it.
-/
theorem lines_append {s : Text} (h : Ended s) (t : Text) : lines (s ++ t) = lines s ++ lines t := by
  induction hlen : s.length using Nat.strongRecOn generalizing s with
  | _ n ih =>
    cases h with
    | inl hnil => simp [hnil]
    | inr hlast =>
      obtain ⟨line, rest, rfl, hline⟩ := List.eq_append_cons_of_mem (List.mem_of_getLast? hlast)
      have hended : Ended rest := by
        cases rest with
        | nil => exact .inl rfl
        | cons c cs =>
          right
          rw [List.getLast?_append_cons] at hlast
          simpa using hlast
      have hlt : rest.length < n := by
        rw [← hlen]
        simp
        omega
      rw [List.append_assoc, List.cons_append, lines_feed hline, lines_feed hline, ih _ hlt hended rfl]
      rfl

/--
What stands behind the last line feed.
-/
theorem exists_unended (s : Text) : ∃ t line, s = t ++ line ∧ Ended t ∧ '\n' ∉ line := by
  induction s using List.reverseRecOn with
  | nil => exact ⟨[], [], rfl, .inl rfl, List.not_mem_nil⟩
  | append_singleton s c ih =>
    by_cases hc : c = '\n'
    . subst hc
      exact ⟨s ++ ['\n'], [], by rw [List.append_nil], .append_feed s, List.not_mem_nil⟩
    . obtain ⟨t, line, rfl, ht, hline⟩ := ih
      refine ⟨t, line ++ [c], by rw [List.append_assoc], ht, ?_⟩
      simp [hline, Ne.symm hc]

/--
A line feed ends the last line or is a line without text.
-/
theorem filter_lines_feed {s : Text} {p : Text → Bool} (hlast : s.getLast? ≠ some '\r') (hp : p [] = false)
    : (lines (s ++ ['\n'])).filter p = (lines s).filter p := by
  obtain ⟨t, line, rfl, ht, hline⟩ := exists_unended s
  rw [List.append_assoc, lines_append ht, lines_append ht, lines_feed hline, lines_nil, List.filter_append,
    List.filter_append]
  congr 1
  by_cases hne : line = []
  . simp [hne, stripReturn, hp]
  . rw [List.getLast?_append_of_ne_nil t hne] at hlast
    rw [lines_single hline hne, stripReturn, if_neg hlast]

theorem lines_joinLines {ls : List Text} (h : ∀ line ∈ ls, IsLine line) : lines (joinLines ls) = ls := by
  induction ls with
  | nil => rfl
  | cons line more ih =>
    have hline := h line List.mem_cons_self
    cases more with
    | nil => exact hline.lines_single
    | cons next more =>
      rw [joinLines, hline.lines_feed, ih]
      intro l hl
      exact h l (List.mem_cons_of_mem line hl)

/-! ## Calls -/

/--
What becomes of a call. A write can break off behind some of its text.
-/
inductive Outcome where
  | done
  | refused
  | torn (n : Nat)
  deriving DecidableEq, Repr

inductive IoError where
  | refused
  | torn
  deriving DecidableEq, Repr

def readFile (s : Text) : Outcome → Except IoError Text × Text
  | .done => (.ok s, s)
  | .refused => (.error .refused, s)
  | .torn _ => (.error .torn, s)

/--
A write to a file that is open for appending.
-/
def append (s text : Text) : Outcome → Except IoError Unit × Text
  | .done => (.ok (), s ++ text)
  | .refused => (.error .refused, s)
  | .torn n => (.error .torn, s ++ text.take n)

/--
A line feed is written or not.
-/
theorem append_feed_cases (s : Text) (outcome : Outcome)
    : (append s ['\n'] outcome).2 = s ∨ (append s ['\n'] outcome).2 = s ++ ['\n'] := by
  cases outcome with
  | done => exact .inr rfl
  | refused => exact .inl rfl
  | torn n =>
    cases n with
    | zero => simp [append]
    | succ n => simp [append]

/--
Opening a file in order to write it anew.
-/
def truncate (s : Text) : Outcome → Except IoError Unit × Text
  | .done => (.ok (), [])
  | .refused => (.error .refused, s)
  | .torn _ => (.error .torn, s)

/--
A write at the start of a file.
-/
def overwrite (s text : Text) : Outcome → Except IoError Unit × Text
  | .done => (.ok (), text ++ s.drop text.length)
  | .refused => (.error .refused, s)
  | .torn n => (.error .torn, text.take n ++ s.drop (text.take n).length)

@[simp]
theorem overwrite_nil_done (text : Text) : overwrite [] text .done = (.ok (), text) := by
  simp [overwrite]

end Posix
