import ReactorCloud.Interleave.Rely

/-!
This module contains what can be done only once in a run: answers that leave a mark under which there is no
second one.
-/

namespace Interleave

variable {I : Interface} {S : System I} {α β : Type}

namespace Program

theorem uses_all (x : Program I α) : x.Uses (fun _ => True) := by
  induction x with
  | done r => trivial
  | call c next ih => exact ⟨trivial, ih⟩

end Program

namespace Config

variable {D : S.State → Prop} {p q : Event S → Bool}

/--
Events that leave a mark which was not there are at most one in a run.
-/
theorem countP_le_one
    (hmark : ∀ c next, Steps (S := S) c next → p next.1 = true → ¬ D c.world.state ∧ D next.2.world.state)
    (hstays : ∀ c next, Steps (S := S) c next → D c.world.state → D next.2.world.state)
    {ms : List (Move S)} {c c' : Config S} (hzero : c.world.trace.countP p = 0) (hrun : Config.run ms c = some c')
    : c'.world.trace.countP p ≤ 1 := by
  have hmarked : ∀ (ms : List (Move S)) (c c' : Config S), D c.world.state → Config.run ms c = some c'
      → c'.world.trace.countP p = c.world.trace.countP p := by
    intro ms
    induction ms with
    | nil =>
      intro c c' _ hrun
      cases hrun
      rfl
    | cons m ms ih =>
      intro c c' hD hrun
      simp only [Config.run] at hrun
      split at hrun
      . next e c₁ hstep =>
        have hsteps := step_steps hstep
        rw [ih c₁ c' (hstays c _ hsteps hD) hrun, hsteps.trace,
          List.countP_cons_of_neg (fun hp => (hmark c _ hsteps hp).1 hD)]
      . cases hrun
  induction ms generalizing c with
  | nil =>
    cases hrun
    omega
  | cons m ms ih =>
    simp only [Config.run] at hrun
    split at hrun
    . next e c₁ hstep =>
      have hsteps := step_steps hstep
      have htrace : c₁.world.trace = e :: c.world.trace := hsteps.trace
      by_cases hp : p e = true
      . have hone : c'.world.trace.countP p = 1 := by
          rw [hmarked ms c₁ c' (hmark c _ hsteps hp).2 hrun, htrace, List.countP_cons_of_pos hp, hzero]
        exact Nat.le_of_eq hone
      . apply ih _ hrun
        rw [htrace, List.countP_cons_of_neg hp, hzero]
    . cases hrun

/--
Processes that all have done what only one can do are one process, which finishes once.
-/
theorem Tidy.countP_finish_le_one {c : Config S} (h : c.Tidy) (hp : c.world.trace.countP p ≤ 1)
    (hq : ∀ e ∈ c.world.trace, q e = true →
      ∃ pid, e.finished? = some pid ∧ ∃ e' ∈ c.world.trace, e'.pid? = some pid ∧ p e' = true)
    : c.world.trace.countP q ≤ 1 := by
  by_cases hany : ∃ e ∈ c.world.trace, q e = true
  . obtain ⟨e, he, hqe⟩ := hany
    obtain ⟨pid, _, e₁, he₁, hpid₁, hpe₁⟩ := hq e he hqe
    apply h.countP_le_one pid
    intro e' he' hqe'
    obtain ⟨pid', hfinished, e₂, he₂, hpid₂, hpe₂⟩ := hq e' he' hqe'
    have heq : e₁ = e₂ := by
      rw [List.countP_eq_length_filter] at hp
      have hmem₁ := List.mem_filter.mpr ⟨he₁, hpe₁⟩
      have hmem₂ := List.mem_filter.mpr ⟨he₂, hpe₂⟩
      match hes : c.world.trace.filter p with
      | [] =>
        rw [hes] at hmem₁
        cases hmem₁
      | [x] =>
        rw [hes, List.mem_singleton] at hmem₁ hmem₂
        rw [hmem₁, hmem₂]
      | _ :: _ :: _ =>
        rw [hes] at hp
        simp only [List.length_cons] at hp
        omega
    rw [hfinished, ← hpid₁, ← hpid₂, heq]
  . have hzero : c.world.trace.countP q = 0 := by
      rw [List.countP_eq_zero]
      intro e he hqe
      exact hany ⟨e, he, hqe⟩
    omega

end Config
end Interleave
