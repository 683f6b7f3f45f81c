/-!
This module contains machines: many actors share one state, every atomic operation is one move, and the
environment decides which move comes next. An invariant of all moves holds in every state of every run.
-/

namespace Interleave

/--
A machine with the states `σ`, the moves `μ` and the events `ε`.
-/
structure Machine (σ μ ε : Type) where
  start : σ
  /-- A move that is not possible has no result. -/
  step : μ → σ → Option (ε × σ)

namespace Machine

/--
The state and the events up to now, the latest first.
-/
structure World (σ ε : Type) where
  state : σ
  trace : List ε

variable {σ μ ε : Type} {M : Machine σ μ ε}

def first (M : Machine σ μ ε) : World σ ε :=
  ⟨M.start, []⟩

def next (M : Machine σ μ ε) (m : μ) (w : World σ ε) : Option (World σ ε) :=
  (M.step m w.state).map (fun (e, s) => ⟨s, e :: w.trace⟩)

theorem next_eq_some_iff {m : μ} {w w' : World σ ε}
    : M.next m w = some w'
        ↔
      ∃ e s, M.step m w.state = some (e, s) ∧ w' = ⟨s, e :: w.trace⟩ := by
  simp only [next, Option.map_eq_some_iff, Prod.exists]
  constructor
  . rintro ⟨e, s, hstep, rfl⟩
    exact ⟨e, s, hstep, rfl⟩
  . rintro ⟨e, s, hstep, rfl⟩
    exact ⟨e, s, hstep, rfl⟩

/--
The worlds of the runs all of whose moves meet a condition on the world before them.
-/
inductive Reached (M : Machine σ μ ε) (ok : World σ ε → μ → Prop) : World σ ε → Prop where
  | first : Reached M ok M.first
  | next {m : μ} {w w' : World σ ε} (h : Reached M ok w) (hok : ok w m)
      (hnext : M.next m w = some w') : Reached M ok w'

variable {ok : World σ ε → μ → Prop} {w w' : World σ ε}

theorem Reached.invariant {P : World σ ε → Prop} (h : M.Reached ok w) (hfirst : P M.first)
    (hstep : ∀ m w e s, P w → ok w m → M.step m w.state = some (e, s) → P ⟨s, e :: w.trace⟩)
    : P w := by
  induction h with
  | first => exact hfirst
  | next _ hok hnext ih =>
    rw [next_eq_some_iff] at hnext
    rcases hnext with ⟨e, s, hstep', rfl⟩
    exact hstep _ _ e s ih hok hstep'

def run (M : Machine σ μ ε) : List μ → World σ ε → Option (World σ ε)
  | [], w => some w
  | m :: ms, w => (M.next m w).bind (M.run ms)

theorem trace_suffix_of_run {ms : List μ} (hrun : M.run ms w = some w') : w.trace <:+ w'.trace := by
  induction ms generalizing w with
  | nil =>
    cases hrun
    exact List.suffix_refl _
  | cons m ms ih =>
    simp only [run, Option.bind_eq_some_iff, next_eq_some_iff] at hrun
    obtain ⟨_, ⟨e, s, _, rfl⟩, hrun⟩ := hrun
    exact (List.suffix_cons e _).trans (ih hrun)

/--
Every move of the run meets the condition.
-/
def Along (M : Machine σ μ ε) (ok : World σ ε → μ → Prop) : List μ → World σ ε → Prop
  | [], _ => True
  | m :: ms, w => ok w m ∧ ∀ w', M.next m w = some w' → M.Along ok ms w'

theorem Reached.run {ms : List μ} (h : M.Reached ok w) (halong : M.Along ok ms w)
    (hrun : M.run ms w = some w') : M.Reached ok w' := by
  induction ms generalizing w with
  | nil =>
    cases hrun
    exact h
  | cons m ms ih =>
    simp only [Machine.run, Option.bind_eq_some_iff] at hrun
    obtain ⟨w₁, hnext, hrun⟩ := hrun
    exact ih (.next h halong.1 hnext) (halong.2 w₁ hnext) hrun

theorem along_true (ms : List μ) (w : World σ ε) : M.Along (fun _ _ => True) ms w := by
  induction ms generalizing w with
  | nil => trivial
  | cons m ms ih => exact ⟨trivial, fun w' _ => ih w'⟩

/--
A run that was computed, and what was checked of the world it ends in.
-/
theorem reached_of_any {ms : List μ} {p : World σ ε → Bool} (h : (M.run ms M.first).any p = true)
    : ∃ w, M.Reached (fun _ _ => True) w ∧ p w = true := by
  cases hrun : M.run ms M.first with
  | none =>
    rw [hrun] at h
    cases h
  | some w =>
    rw [hrun] at h
    exact ⟨w, Reached.run .first (along_true ms _) hrun, h⟩

end Machine
end Interleave
