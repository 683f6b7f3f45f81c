import Mathlib.Data.Finset.Card
import Mathlib.Data.Finset.Dedup
import ReactorCloud.Interleave.History

/-!
This module contains what the processes of a run hold. A process takes things by some of its events and
gives them back by others, and what it has not given back is gone with it.
-/

namespace Interleave

variable {I : Interface} {S : System I} {α : Type} {take give : Event S → Option α}

/--
The process `pid` has taken `a`, has not given it back and is still there.
-/
def Holding (take give : Event S → Option α) (pid : Nat) (a : α) (w : World S) : Prop :=
  Did (fun e => take e = some a) pid w ∧ ¬ Did (fun e => give e = some a) pid w ∧ ¬ Gone pid w

instance [DecidableEq α] (take give : Event S → Option α) (pid : Nat) (a : α) (w : World S)
    : Decidable (Holding take give pid a w) :=
  inferInstanceAs (Decidable (_ ∧ _))

/--
The process `pid` has given back all that it has taken.
-/
def AllGiven (take give : Event S → Option α) (pid : Nat) (w : World S) : Prop :=
  ∀ e ∈ w.trace, e.pid? = some pid → ∀ a ∈ take e, Did (fun e => give e = some a) pid w

instance [DecidableEq α] (take give : Event S → Option α) (pid : Nat) (w : World S)
    : Decidable (AllGiven take give pid w) :=
  have (e : Event S) : Decidable (∀ a ∈ take e, Did (fun e => give e = some a) pid w) :=
    Option.decidableForallMem _
  List.decidableBAll _ _

variable {pid q : Nat} {a b : α} {w w' : World S} {s : S.State} {e : Event S}

theorem AllGiven.not_holding (h : AllGiven take give pid w) : ¬ Holding take give pid a w := by
  rintro ⟨⟨e, he, hpid, htake⟩, hgive, _⟩
  exact hgive (h e he hpid a htake)

theorem allGiven_iff
    : AllGiven take give pid w
        ↔
      ∀ a, Did (fun e => take e = some a) pid w → Did (fun e => give e = some a) pid w := by
  constructor
  . rintro h a ⟨e, he, hpid, ha⟩
    exact h e he hpid a ha
  . intro h e he hpid a ha
    exact h a ⟨e, he, hpid, ha⟩

theorem AllGiven.extends_iff (h : Extends pid w w')
    : AllGiven take give pid w' ↔ AllGiven take give pid w := by
  simp only [allGiven_iff, Did.extends_iff h]

theorem AllGiven.after (h : AllGiven take give pid w) (htake : take e = none)
    : AllGiven take give pid (w.after s e) := by
  rw [allGiven_iff] at h ⊢
  intro a ha
  cases Did.after_iff.mp ha with
  | inl hnew =>
    rw [htake] at hnew
    cases hnew.2
  | inr hold => exact (h a hold).after s e

namespace Holding

theorem mem_pids (h : Holding take give pid a w) : pid ∈ w.pids :=
  h.1.mem_pids

theorem extends_iff (h : Extends pid w w')
    : Holding take give pid a w' ↔ Holding take give pid a w := by
  unfold Holding Gone
  simp only [Did.extends_iff h]

theorem after_iff
    : Holding take give q b (w.after s e)
        ↔
      ((e.pid? = some q ∧ take e = some b) ∨ Did (fun e => take e = some b) q w)
        ∧ ¬ ((e.pid? = some q ∧ give e = some b) ∨ Did (fun e => give e = some b) q w)
        ∧ ¬ ((e.pid? = some q ∧ e.ends = true) ∨ Gone q w) := by
  unfold Holding Gone
  simp only [Did.after_iff]

theorem of_after (htake : take e = none) (h : Holding take give q b (w.after s e))
    : Holding take give q b w := by
  obtain ⟨htaken, hungiven, halive⟩ := after_iff.mp h
  refine ⟨htaken.resolve_left ?_, fun h => hungiven (.inr h), fun h => halive (.inr h)⟩
  rw [htake]
  exact fun h => nomatch h.2

theorem after_other (hpid : e.pid? ≠ some q)
    : Holding take give q b (w.after s e) ↔ Holding take give q b w := by
  rw [after_iff]
  simp only [hpid, false_and, false_or]
  rfl

theorem after_quiet (htake : take e = none) (hgive : give e = none) (hends : e.ends = false)
    : Holding take give q b (w.after s e) ↔ Holding take give q b w := by
  rw [after_iff]
  simp only [htake, hgive, hends, reduceCtorEq, Bool.false_eq_true, and_false, false_or]
  rfl

theorem after_take (hpid : e.pid? = some pid) (htake : take e = some a) (hgive : give e = none)
    (hends : e.ends = false) (hungiven : ¬ Did (fun e => give e = some a) pid w)
    (halive : ¬ Gone pid w)
    : Holding take give q b (w.after s e) ↔ Holding take give q b w ∨ (q = pid ∧ b = a) := by
  rw [after_iff]
  simp only [hpid, htake, hgive, hends, Option.some.injEq, reduceCtorEq, Bool.false_eq_true,
    and_false, false_or]
  constructor
  . rintro ⟨hnew | hold, hrest⟩
    . exact .inr ⟨hnew.1.symm, hnew.2.symm⟩
    . exact .inl ⟨hold, hrest⟩
  . rintro (hold | ⟨rfl, rfl⟩)
    . exact ⟨.inr hold.1, hold.2⟩
    . exact ⟨.inl ⟨rfl, rfl⟩, hungiven, halive⟩

theorem after_give (hpid : e.pid? = some pid) (htake : take e = none) (hgive : give e = some a)
    (hends : e.ends = false)
    : Holding take give q b (w.after s e) ↔ Holding take give q b w ∧ ¬ (q = pid ∧ b = a) := by
  rw [after_iff]
  simp only [hpid, htake, hgive, hends, Option.some.injEq, reduceCtorEq, Bool.false_eq_true,
    and_false, false_or]
  constructor
  . rintro ⟨htaken, hungiven, halive⟩
    refine ⟨⟨htaken, fun h => hungiven (.inr h), halive⟩, ?_⟩
    rintro ⟨rfl, rfl⟩
    exact hungiven (.inl ⟨rfl, rfl⟩)
  . rintro ⟨⟨htaken, hungiven, halive⟩, hne⟩
    refine ⟨htaken, ?_, halive⟩
    rintro (hnew | hold)
    . exact hne ⟨hnew.1.symm, hnew.2.symm⟩
    . exact hungiven hold

/--
A process that ends holds nothing any more.
-/
theorem after_end (hpid : e.pid? = some pid) (htake : take e = none) (hgive : give e = none)
    (hends : e.ends = true)
    : Holding take give q b (w.after s e) ↔ Holding take give q b w ∧ q ≠ pid := by
  rw [after_iff]
  simp only [hpid, htake, hgive, hends, Option.some.injEq, reduceCtorEq, and_false, false_or, and_true]
  constructor
  . rintro ⟨htaken, hungiven, halive⟩
    exact ⟨⟨htaken, hungiven, fun h => halive (.inr h)⟩, fun h => halive (.inl h.symm)⟩
  . rintro ⟨⟨htaken, hungiven, halive⟩, hne⟩
    refine ⟨htaken, hungiven, ?_⟩
    rintro (hnew | hold)
    . exact hne hnew.symm
    . exact halive hold

/--
The end of a process that has given back everything changes nothing for what is held.
-/
theorem after_allGiven (hpid : e.pid? = some pid) (htake : take e = none) (hgive : give e = none)
    (hends : e.ends = true) (h : AllGiven take give pid w)
    : Holding take give q b (w.after s e) ↔ Holding take give q b w := by
  rw [after_end hpid htake hgive hends, and_iff_left_iff_imp]
  rintro hholding rfl
  exact h.not_holding hholding

end Holding

variable [DecidableEq α]

/--
The processes that hold `a`.
-/
def holders (take give : Event S → Option α) (a : α) (w : World S) : Finset Nat :=
  w.pids.toFinset.filter (Holding take give · a w)

theorem mem_holders : pid ∈ holders take give a w ↔ Holding take give pid a w := by
  simp only [holders, Finset.mem_filter, List.mem_toFinset, and_iff_right_iff_imp]
  exact Holding.mem_pids

theorem card_holders_le (h : take e ≠ some a)
    : (holders take give a (w.after s e)).card ≤ (holders take give a w).card := by
  apply Finset.card_le_card
  intro q hq
  rw [mem_holders] at hq ⊢
  obtain ⟨htaken, hungiven, halive⟩ := Holding.after_iff.mp hq
  refine ⟨htaken.resolve_left ?_, fun hgive => hungiven (.inr hgive), fun hgone => halive (.inr hgone)⟩
  exact fun hnew => h hnew.2

/--
A step is one of a single process.
-/
theorem card_holders_succ
    : (holders take give a (w.after s e)).card ≤ (holders take give a w).card + 1 := by
  cases hpid : e.pid? with
  | none =>
    apply Nat.le_succ_of_le
    apply Finset.card_le_card
    intro q hq
    rw [mem_holders] at hq ⊢
    exact (Holding.after_other (by rw [hpid]; exact nofun)).mp hq
  | some pid =>
    apply (Finset.card_le_card _).trans (Finset.card_insert_le pid _)
    intro q hq
    rw [mem_holders] at hq
    rw [Finset.mem_insert, mem_holders]
    by_cases heq : q = pid
    . exact .inl heq
    . right
      apply (Holding.after_other _).mp hq
      rw [hpid]
      exact fun h => heq (Option.some.inj h).symm

end Interleave
