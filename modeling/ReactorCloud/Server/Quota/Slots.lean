import Mathlib.Data.List.Perm.Basic
import ReactorCloud.Server.Quota.Service

/-!
This module contains what the slots of a tenant owe to its limit, and when the quota service keeps it:
as long as no two calls create the quota state of one project, no state in use is cleared and the
limit fits into an `i32`.
-/

namespace Reactor.Server.Quota

open Interleave Interleave.Machine

abbrev World : Type :=
  Machine.World State Event

def Env.limit (env : Env) (p : ProjectId) : Nat :=
  (env.limits p).concurrentFunctions.toNat

/--
The limit is not `u32::MAX`, which stands for no limit.
-/
def Env.Finite (env : Env) (p : ProjectId) : Prop :=
  (env.limits p).concurrentFunctions ≠ QuotaLimits.u32Max

instance (env : Env) (p : ProjectId) : Decidable (env.Finite p) :=
  inferInstanceAs (Decidable (_ ≠ _))

namespace Slots

def live (slots : Slots) (p : ProjectId) : Nat :=
  slots.guards.countP (·.projectId = p)

/--
The slots of the project that count as taken for the next acquire.
-/
def taken (slots : Slots) (p : ProjectId) : Int :=
  match slots.tenants p with
  | some s => (slots.concurrentFunctions s).toInt
  | none => 0

end Slots

def Task.acquires (task : Task) (p : ProjectId) : Prop :=
  match task with
  | .get call q => call = .tryAcquireFunction ∧ q = p
  | .insert call q => call = .tryAcquireFunction ∧ q = p
  | .load q _ => q = p
  | .swap q _ _ => q = p
  | .consume _ _ => False

/--
The next move of the task `t` with an exchange that does not fail without a reason.
-/
abbrev solo (t : Nat) : Move :=
  .run t false true

/--
The task `t` gets a guard within `n` moves of its own when nobody else moves.
-/
def Grants (env : Env) (t : Nat) (p : ProjectId) (n : Nat) (w : World) : Prop :=
  ∃ k ≤ n, ∃ w', (machine env).run (List.replicate k (solo t)) w = some w'
    ∧ w'.trace.head? = some (.acquired p)

structure SlotsHold (env : Env) (ok : World → Move → Prop) : Prop where
  /-- There are at most as many live guards as the limit says. -/
  bounded : ∀ w, (machine env).Reached ok w → ∀ p, env.Finite p → w.state.slots.live p ≤ env.limit p
  /-- A dropped guard frees one slot of its project and none of another. -/
  freed : ∀ w, (machine env).Reached ok w → ∀ i p w', ok w (.drop i) →
    (machine env).next (.drop i) w = some w' → w'.trace.head? = some (.dropped p) → env.Finite p →
    w'.state.slots.taken p = w.state.slots.taken p - 1 ∧ ∀ q, q ≠ p → w'.state.slots.taken q = w.state.slots.taken q
  /-- No acquire is refused while there is a free slot. -/
  notRefused : ∀ w, (machine env).Reached ok w → ∀ m p w', ok w m →
    (machine env).next m w = some w' → w'.trace.head? = some (.refused p) →
    env.limit p ≤ w.state.slots.live p
  /-- An acquire under way gets a free slot. -/
  granted : ∀ w, (machine env).Reached ok w → ∀ t p task, w.state.tasks t = some task →
    task.acquires p → env.Finite p → w.state.slots.live p < env.limit p →
    (machine env).Along ok (List.replicate 4 (solo t)) w → Grants env t p 4 w

/--
Two acquires of a project with one slot, each finds no state in the map and puts its own there.
-/
theorem not_slotsHold : ¬ ∀ env, SlotsHold env (fun _ _ => True) := by
  intro h
  let env : Env := ⟨⟨{ QuotaLimits.freeTier with concurrentFunctions := 1 }, none⟩, fun _ => false⟩
  let ms : List Move := [.tryAcquireFunction 7, .tryAcquireFunction 7, solo 0, solo 1, solo 0, solo 0,
    solo 0, solo 1, solo 1, solo 1]
  have hrun : ((machine env).run ms (machine env).first).any
      (fun w => decide (w.state.slots.live 7 = 2)) = true := by
    decide
  obtain ⟨w, hw, hlive⟩ := reached_of_any hrun
  have := (h env).bounded w hw 7 (by decide)
  rw [decide_eq_true_eq] at hlive
  have hlimit : env.limit 7 = 1 := by decide
  omega

/-! Numbers -/

theorem toInt_toInt32 {n : UInt32} (h : n.toNat < 2147483648) : n.toInt32.toInt = n.toNat := by
  rw [← Int32.toInt_toBitVec, UInt32.toBitVec_toInt32, BitVec.toInt_eq_toNat_of_lt, UInt32.toNat_toBitVec]
  rw [UInt32.toNat_toBitVec]
  omega

theorem toInt_succ {n : Int32} (hnonneg : 0 ≤ n.toInt) (hlt : n.toInt < 2147483647)
    : (n + 1).toInt = n.toInt + 1 := by
  rw [Int32.toInt_add, Int32.toInt_one]
  apply Int.bmod_eq_of_le <;> omega

theorem toInt_pred {n : Int32} (hpos : 0 < n.toInt) : (n - 1).toInt = n.toInt - 1 := by
  have := n.toInt_lt
  rw [Int32.toInt_sub, Int32.toInt_one]
  apply Int.bmod_eq_of_le <;> omega

/-! The invariant -/

/--
Every guard is counted by the state the map has for its project, and by no other.
-/
structure Sound (env : Env) (slots : Slots) : Prop where
  guard : ∀ g ∈ slots.guards,
    if env.Finite g.projectId then ∃ s, g.state = some s ∧ slots.tenants g.projectId = some s
    else g.state = none
  known : ∀ p s, slots.tenants p = some s → s < slots.nextState
  apart : ∀ p q s, slots.tenants p = some s → slots.tenants q = some s → p = q
  counts : ∀ p s, env.Finite p → slots.tenants p = some s →
    (slots.concurrentFunctions s).toInt = slots.live p
  bounded : ∀ p, env.Finite p → slots.live p ≤ env.limit p

/--
A task that has found a state still finds it in the map, and the limit it compares with is the one
of its project.
-/
def TaskOk (env : Env) (slots : Slots) : Task → Prop
  | .get call p | .insert call p => call = .tryAcquireFunction → env.Finite p
  | .load p s => env.Finite p ∧ slots.tenants p = some s
  | .swap p s current =>
    env.Finite p ∧ slots.tenants p = some s ∧ current.toInt < env.limit p
      ∧ env.limit p < 2147483648
  | .consume _ _ => True

variable {env : Env} {slots slots' : Slots} {p q : ProjectId} {s : Nat}

theorem Sound.init (env : Env) : Sound env .init := by
  constructor
  . intro g hg
    cases hg
  . intro p s h
    cases h
  . intro p q s h
    cases h
  . intro p s _ h
    cases h
  . intro p _
    exact Nat.zero_le _

theorem Slots.live_pos_of_mem {g : FunctionGuard} (hg : g ∈ slots.guards)
    : 0 < slots.live g.projectId := by
  apply List.countP_pos_iff.mpr
  exact ⟨g, hg, by simp⟩

theorem Slots.live_addGuard (slots : Slots) (g : FunctionGuard) (p : ProjectId)
    : (slots.addGuard g).live p = slots.live p + if g.projectId = p then 1 else 0 := by
  simp only [live, addGuard, List.countP_cons, decide_eq_true_eq]

theorem Slots.live_dropGuard {i : Nat} {g : FunctionGuard} (hg : slots.guards[i]? = some g)
    (p : ProjectId)
    : (slots.dropGuard i g).live p + (if g.projectId = p then 1 else 0) = slots.live p := by
  have hguards : (slots.dropGuard i g).guards = slots.guards.eraseIdx i := by
    simp only [dropGuard]
    split <;> rfl
  obtain ⟨hi, rfl⟩ := List.getElem?_eq_some_iff.mp hg
  have hperm := (List.getElem_cons_eraseIdx_perm hi).countP_eq (fun g => decide (g.projectId = p))
  rw [List.countP_cons] at hperm
  simpa only [live, hguards, decide_eq_true_eq] using hperm

namespace Sound

/--
A project without a state in the map has no guard that counts.
-/
theorem live_eq_zero (h : Sound env slots) (hfinite : env.Finite p) (hnone : slots.tenants p = none)
    : slots.live p = 0 := by
  simp only [Slots.live, List.countP_eq_zero, decide_eq_true_eq]
  rintro g hg rfl
  have := h.guard g hg
  rw [if_pos hfinite, hnone] at this
  obtain ⟨s, _, hs⟩ := this
  cases hs

theorem insertState (h : Sound env slots) (hnone : slots.tenants p = none)
    : Sound env (slots.insertState p) := by
  have htenants : ∀ q s, (slots.insertState p).tenants q = some s →
      (q = p ∧ s = slots.nextState) ∨ (q ≠ p ∧ slots.tenants q = some s ∧ s < slots.nextState) := by
    intro q s hs
    simp only [Slots.insertState, Function.update_apply] at hs
    split at hs
    . next heq =>
      cases hs
      exact .inl ⟨heq, rfl⟩
    . next hne => exact .inr ⟨hne, hs, h.known q s hs⟩
  constructor
  . intro g hg
    have := h.guard g hg
    split
    . next hfinite =>
      rw [if_pos hfinite] at this
      obtain ⟨s, hstate, hs⟩ := this
      refine ⟨s, hstate, ?_⟩
      -- the project of the guard is in the map, so it is not `p`
      have hne : g.projectId ≠ p := by
        intro heq
        rw [heq, hnone] at hs
        cases hs
      simp only [Slots.insertState, Function.update_of_ne hne, hs]
    . next hfinite =>
      rw [if_neg hfinite] at this
      exact this
  . intro q s hs
    simp only [Slots.insertState]
    rcases htenants q s hs with ⟨_, rfl⟩ | ⟨_, _, hlt⟩ <;> omega
  . intro q q' s hs hs'
    rcases htenants q s hs with ⟨rfl, heq⟩ | ⟨_, hq, hlt⟩
      <;> rcases htenants q' s hs' with ⟨rfl, heq'⟩ | ⟨_, hq', hlt'⟩
    . rfl
    . omega
    . omega
    . exact h.apart q q' s hq hq'
  . intro q s hfinite hs
    rcases htenants q s hs with ⟨rfl, rfl⟩ | ⟨_, hq, hlt⟩
    . have hlive := h.live_eq_zero hfinite hnone
      simp only [Slots.live] at hlive
      simp [Slots.insertState, Slots.live, hlive]
    . have hne : s ≠ slots.nextState := by omega
      have := h.counts q s hfinite hq
      simpa only [Slots.insertState, Slots.live, Function.update_of_ne hne] using this
  . exact h.bounded

theorem acquire (h : Sound env slots) (hfinite : env.Finite p) (hs : slots.tenants p = some s)
    (hlt : (slots.concurrentFunctions s).toInt < env.limit p) (hlimit : env.limit p < 2147483648)
    : Sound env ((slots.setCounter s (slots.concurrentFunctions s + 1)).addGuard ⟨p, some s⟩) := by
  have hcounts := h.counts p s hfinite hs
  have hlive : ∀ q, ((slots.setCounter s (slots.concurrentFunctions s + 1)).addGuard
      ⟨p, some s⟩).live q = slots.live q + if p = q then 1 else 0 := by
    intro q
    rw [Slots.live_addGuard]
    rfl
  constructor
  . intro g hg
    cases hg with
    | head =>
      rw [if_pos hfinite]
      exact ⟨s, rfl, hs⟩
    | tail _ hg => exact h.guard g hg
  . exact h.known
  . exact h.apart
  . intro q s' hfin hs'
    rw [hlive]
    by_cases heq : p = q
    . subst heq
      have : s' = s := by
        simp only [Slots.addGuard, Slots.setCounter] at hs'
        rw [hs] at hs'
        cases hs'
        rfl
      subst this
      simp only [Slots.addGuard, Slots.setCounter, Function.update_self]
      rw [toInt_succ (by omega) (by omega), hcounts]
      simp
    . have hne : s' ≠ s := by
        rintro rfl
        exact heq (h.apart p q _ hs hs')
      rw [if_neg heq]
      simp only [Slots.addGuard, Slots.setCounter, Function.update_of_ne hne]
      exact h.counts q s' hfin hs'
  . intro q hfin
    rw [hlive]
    have := h.bounded q hfin
    split
    . next heq =>
      subst heq
      omega
    . omega

theorem addUnlimited (h : Sound env slots) (hfinite : ¬ env.Finite p)
    : Sound env (slots.addGuard ⟨p, none⟩) := by
  have hlive : ∀ q, env.Finite q → (slots.addGuard ⟨p, none⟩).live q = slots.live q := by
    intro q hfin
    have hne : p ≠ q := by
      rintro rfl
      exact hfinite hfin
    rw [Slots.live_addGuard, if_neg hne]
    rfl
  constructor
  . intro g hg
    cases hg with
    | head => rw [if_neg hfinite]
    | tail _ hg => exact h.guard g hg
  . exact h.known
  . exact h.apart
  . intro q s hfin hs
    rw [hlive q hfin]
    exact h.counts q s hfin hs
  . intro q hfin
    rw [hlive q hfin]
    exact h.bounded q hfin

/--
The guard that is dropped frees a slot of the state the map has for its project.
-/
theorem taken_dropGuard (h : Sound env slots) {i : Nat} {g : FunctionGuard}
    (hg : slots.guards[i]? = some g) (hfinite : env.Finite g.projectId)
    : (slots.dropGuard i g).taken g.projectId = slots.taken g.projectId - 1
      ∧ ∀ q, q ≠ g.projectId → (slots.dropGuard i g).taken q = slots.taken q := by
  have hmem := List.mem_of_getElem? hg
  have hguard := h.guard g hmem
  rw [if_pos hfinite] at hguard
  obtain ⟨s, hstate, hs⟩ := hguard
  have hcounts := h.counts _ s hfinite hs
  have hpos := Slots.live_pos_of_mem hmem
  constructor
  . simp only [Slots.taken, Slots.dropGuard, hstate, Slots.setCounter, hs, Function.update_self]
    apply toInt_pred
    omega
  . intro q hne
    simp only [Slots.taken, Slots.dropGuard, hstate, Slots.setCounter]
    cases hq : slots.tenants q with
    | none => rfl
    | some s' =>
      have hne' : s' ≠ s := by
        rintro rfl
        exact hne (h.apart _ _ _ hq hs)
      simp only [Function.update_of_ne hne']

theorem dropGuard (h : Sound env slots) {i : Nat} {g : FunctionGuard}
    (hg : slots.guards[i]? = some g) : Sound env (slots.dropGuard i g) := by
  have hlive := Slots.live_dropGuard hg
  have htenants : (slots.dropGuard i g).tenants = slots.tenants := by
    simp only [Slots.dropGuard]
    split <;> rfl
  constructor
  . intro g' hg'
    have hmem : g' ∈ slots.guards := by
      have : (slots.dropGuard i g).guards = slots.guards.eraseIdx i := by
        simp only [Slots.dropGuard]
        split <;> rfl
      rw [this] at hg'
      exact List.mem_of_mem_eraseIdx hg'
    rw [htenants]
    exact h.guard g' hmem
  . intro q s hs
    rw [htenants] at hs
    have : (slots.dropGuard i g).nextState = slots.nextState := by
      simp only [Slots.dropGuard]
      split <;> rfl
    rw [this]
    exact h.known q s hs
  . rw [htenants]
    exact h.apart
  . intro q s hfinite hs
    rw [htenants] at hs
    have hcounts := h.counts q s hfinite hs
    have hlive := hlive q
    by_cases hfin : env.Finite g.projectId
    . have htaken := h.taken_dropGuard hg hfin
      have heq : ∀ slots : Slots, slots.tenants q = some s →
          slots.taken q = (slots.concurrentFunctions s).toInt := by
        intro slots hs
        simp only [Slots.taken, hs]
      rw [← heq _ (by rw [htenants]; exact hs)]
      rw [← heq _ hs] at hcounts
      by_cases hq : g.projectId = q
      . subst hq
        rw [htaken.1]
        rw [if_pos rfl] at hlive
        omega
      . rw [htaken.2 q (Ne.symm hq)]
        rw [if_neg hq] at hlive
        omega
    . have hguard := h.guard g (List.mem_of_getElem? hg)
      rw [if_neg hfin] at hguard
      have hne : g.projectId ≠ q := by
        rintro rfl
        exact hfin hfinite
      rw [if_neg hne] at hlive
      simp only [Slots.dropGuard, hguard] at hlive ⊢
      omega
  . intro q hfinite
    have := h.bounded q hfinite
    have := hlive q
    omega

theorem clearTenant (h : Sound env slots)
    (hguards : ∀ g ∈ slots.guards, g.projectId = p → g.state = none)
    : Sound env (slots.clearTenant p) := by
  have htenants : ∀ q s, (slots.clearTenant p).tenants q = some s → slots.tenants q = some s := by
    intro q s hs
    simp only [Slots.clearTenant, Function.update_apply] at hs
    split at hs
    . cases hs
    . exact hs
  constructor
  . intro g hg
    have := h.guard g hg
    split
    . next hfinite =>
      rw [if_pos hfinite] at this
      obtain ⟨s, hstate, hs⟩ := this
      refine ⟨s, hstate, ?_⟩
      have hne : g.projectId ≠ p := by
        intro heq
        rw [hguards g hg heq] at hstate
        cases hstate
      simp only [Slots.clearTenant, Function.update_of_ne hne, hs]
    . next hfinite =>
      rw [if_neg hfinite] at this
      exact this
  . intro q s hs
    exact h.known q s (htenants q s hs)
  . intro q q' s hs hs'
    exact h.apart q q' s (htenants q s hs) (htenants q' s hs')
  . intro q s hfinite hs
    exact h.counts q s hfinite (htenants q s hs)
  . exact h.bounded

end Sound

/-! Runs -/

def Task.countsOn (task : Task) (p : ProjectId) : Prop :=
  match task with
  | .load q _ | .swap q _ _ => q = p
  | _ => False

/--
A guard or an acquire under way counts on the quota state of the project.
-/
def InUse (st : State) (p : ProjectId) : Prop :=
  (∃ g ∈ st.slots.guards, g.projectId = p ∧ g.state ≠ none)
    ∨ ∃ t task, st.tasks t = some task ∧ task.countsOn p

/--
A quota state is put into the map where there is none, a state in use is not cleared, and the limit
an acquire compares with is not negative as an `i32`.
-/
def Orderly (env : Env) (w : World) (m : Move) : Prop :=
  match m with
  | .run t _ _ =>
    match w.state.tasks t with
    | some (.insert _ p) => w.state.slots.tenants p = none
    | some (.load p _) => env.limit p < 2147483648
    | _ => True
  | .clearTenant p => ¬ InUse w.state p
  | _ => True

structure Inv (env : Env) (st : State) : Prop where
  sound : Sound env st.slots
  tasks : ∀ t task, st.tasks t = some task → TaskOk env st.slots task

theorem TaskOk.mono {task : Task} (h : TaskOk env slots task)
    (hmono : ∀ q s, task.countsOn q → slots.tenants q = some s → slots'.tenants q = some s)
    : TaskOk env slots' task := by
  cases task with
  | get | insert | consume => exact h
  | load p s => exact ⟨h.1, hmono p s rfl h.2⟩
  | swap p s current => exact ⟨h.1, hmono p s rfl h.2.1, h.2.2⟩

theorem TaskOk.found {call : Call} (hfinite : call = .tryAcquireFunction → env.Finite p)
    (hs : slots.tenants p = some s) : TaskOk env slots (call.found p s) := by
  cases call with
  | tryAcquireFunction => exact ⟨hfinite rfl, hs⟩
  | checkRequest => trivial

/--
What the operation of a task leaves behind: sound slots, the task in order and the other tasks as
they were.
-/
theorem operate_sound {task : Task} (spurious allowed : Bool) (h : Sound env slots)
    (htask : TaskOk env slots task)
    (hinsert : ∀ call p, task = .insert call p → slots.tenants p = none)
    (hload : ∀ p s, task = .load p s → env.limit p < 2147483648)
    : let (_, next, slots') := operate env task spurious allowed slots
      Sound env slots' ∧ (∀ task' ∈ next, TaskOk env slots' task')
        ∧ ∀ q s, slots.tenants q = some s → slots'.tenants q = some s := by
  cases task with
  | get call p =>
    simp only [operate]
    split
    . next s hs =>
      refine ⟨h, ?_, fun _ _ hq => hq⟩
      intro task' heq
      cases heq
      exact .found htask hs
    . next hnone =>
      refine ⟨h, ?_, fun _ _ hq => hq⟩
      intro task' heq
      cases heq
      exact htask
  | insert call p =>
    have hnone := hinsert call p rfl
    refine ⟨h.insertState hnone, ?_, ?_⟩
    . intro task' heq
      cases heq
      apply TaskOk.found htask
      simp only [Slots.insertState, Function.update_self]
    . intro q s hq
      have hne : q ≠ p := by
        rintro rfl
        rw [hnone] at hq
        cases hq
      simp only [Slots.insertState, Function.update_of_ne hne, hq]
  | load p s =>
    have hlimit := hload p s rfl
    simp only [operate]
    split
    . exact ⟨h, nofun, fun _ _ hq => hq⟩
    . next hlt =>
      refine ⟨h, ?_, fun _ _ hq => hq⟩
      intro task' heq
      cases heq
      rw [ge_iff_le, Int32.le_iff_toInt_le, toInt_toInt32 hlimit] at hlt
      exact ⟨htask.1, htask.2, by simpa [Env.limit] using hlt, hlimit⟩
  | swap p s current =>
    rcases htask with ⟨hfinite, hs, hlt, hlimit⟩
    simp only [operate]
    split
    . next heq =>
      rw [Bool.and_eq_true, beq_iff_eq] at heq
      have hcurrent := heq.2
      subst hcurrent
      exact ⟨h.acquire hfinite hs hlt hlimit, nofun, fun _ _ hq => hq⟩
    . refine ⟨h, ?_, fun _ _ hq => hq⟩
      intro task' heq
      cases heq
      exact ⟨hfinite, hs⟩
  | consume p s => exact ⟨h, nofun, fun _ _ hq => hq⟩

theorem Inv.init (env : Env) : Inv env .init :=
  ⟨.init env, nofun⟩

theorem Inv.spawn {st : State} {task : Task} (h : Inv env st) (htask : TaskOk env st.slots task)
    : Inv env (st.spawn task) := by
  refine ⟨h.sound, ?_⟩
  intro t task' ht
  simp only [State.spawn, Function.update_apply] at ht
  split at ht
  . cases ht
    exact htask
  . exact h.tasks t task' ht

theorem Inv.goTo {st : State} {t : Nat} {next : Option Task} (h : Inv env st)
    (hsound : Sound env slots') (hnext : ∀ task ∈ next, TaskOk env slots' task)
    (hmono : ∀ q s, st.slots.tenants q = some s → slots'.tenants q = some s)
    : Inv env (st.goTo t next slots') := by
  refine ⟨hsound, ?_⟩
  intro t' task ht
  simp only [State.goTo, Function.update_apply] at ht
  split at ht
  . exact hnext task ht
  . exact (h.tasks t' task ht).mono (fun q s _ hq => hmono q s hq)

theorem Inv.withSlots {st : State} (h : Inv env st) (hsound : Sound env slots')
    (hmono : ∀ t task, st.tasks t = some task → ∀ q s, task.countsOn q →
      st.slots.tenants q = some s → slots'.tenants q = some s)
    : Inv env (st.withSlots slots') :=
  ⟨hsound, fun t task ht => (h.tasks t task ht).mono (hmono t task ht)⟩

theorem Inv.step {m : Move} {w : World} {e : Event} {st : State} (h : Inv env w.state)
    (hok : Orderly env w m) (hstep : step env m w.state = some (e, st)) : Inv env st := by
  cases m with
  | tryAcquireFunction p =>
    simp only [Quota.step, startAcquire, Option.some.injEq] at hstep
    split at hstep
    . next hmax =>
      cases hstep
      have hfinite : ¬ env.Finite p := by simpa [Env.Finite] using hmax
      exact h.withSlots (h.sound.addUnlimited hfinite) (fun _ _ _ _ _ _ hq => hq)
    . next hmax =>
      cases hstep
      exact h.spawn (fun _ => by simpa [Env.Finite] using hmax)
  | checkRequest p =>
    simp only [Quota.step, startCheck, Option.some.injEq] at hstep
    split at hstep
    . cases hstep
      exact h
    . cases hstep
      exact h.spawn nofun
  | run t spurious allowed =>
    simp only [Quota.step, Option.map_eq_some_iff] at hstep
    obtain ⟨task, htask, hrun⟩ := hstep
    simp only [Orderly, htask] at hok
    have := operate_sound spurious allowed h.sound (h.tasks t task htask)
      (by rintro call p rfl; exact hok) (by rintro p s rfl; exact hok)
    simp only [runTask] at hrun
    cases hrun
    exact h.goTo this.1 this.2.1 this.2.2
  | drop i =>
    simp only [Quota.step, Option.map_eq_some_iff] at hstep
    obtain ⟨g, hg, heq⟩ := hstep
    cases heq
    apply h.withSlots (h.sound.dropGuard hg)
    intro _ _ _ q s _ hq
    simp only [Slots.dropGuard]
    split <;> exact hq
  | clearTenant p =>
    simp only [Quota.step, Option.some.injEq] at hstep
    cases hstep
    simp only [Orderly, InUse, not_or] at hok
    apply h.withSlots
    . apply h.sound.clearTenant
      intro g hg heq
      by_contra hstate
      exact hok.1 ⟨g, hg, heq, hstate⟩
    . intro t task ht q s hcounts hq
      have hne : q ≠ p := by
        rintro rfl
        exact hok.2 ⟨t, task, ht, hcounts⟩
      simp only [Slots.clearTenant, Function.update_of_ne hne, hq]

theorem Inv.of_reached {w : World} (h : (machine env).Reached (Orderly env) w)
    : Inv env w.state := by
  apply h.invariant (P := fun w => Inv env w.state)
  . exact .init env
  . intro m w e st hinv hok hstep
    exact hinv.step hok hstep

/--
An acquire is refused where the counter it reads has reached the limit.
-/
theorem operate_refused {task : Task} {spurious allowed : Bool}
    (h : (operate env task spurious allowed slots).1 = .refused p)
    : ∃ s, task = .load p s
      ∧ (env.limits p).concurrentFunctions.toInt32 ≤ slots.concurrentFunctions s := by
  cases task with
  | get call q =>
    simp only [operate] at h
    split at h <;> cases h
  | insert call q => cases h
  | load q s =>
    simp only [operate] at h
    split at h
    . next hle =>
      cases h
      exact ⟨s, rfl, hle⟩
    . cases h
  | swap q s current =>
    simp only [operate] at h
    split at h <;> cases h
  | consume q s => cases h

theorem step_refused {m : Move} {st st' : State} (h : step env m st = some (.refused p, st'))
    : ∃ t spurious allowed s, m = .run t spurious allowed ∧ st.tasks t = some (.load p s)
      ∧ (env.limits p).concurrentFunctions.toInt32 ≤ st.slots.concurrentFunctions s := by
  cases m with
  | tryAcquireFunction q =>
    simp only [step, startAcquire] at h
    split at h <;> cases h
  | checkRequest q =>
    simp only [step, startCheck] at h
    split at h <;> cases h
  | run t spurious allowed =>
    simp only [step, Option.map_eq_some_iff] at h
    obtain ⟨task, htask, hrun⟩ := h
    simp only [runTask, Prod.mk.injEq] at hrun
    obtain ⟨s, rfl, hle⟩ := operate_refused hrun.1
    exact ⟨t, spurious, allowed, s, rfl, htask, hle⟩
  | drop i =>
    simp only [step, Option.map_eq_some_iff] at h
    obtain ⟨g, _, heq⟩ := h
    cases heq
  | clearTenant q => cases h

/-! An acquire that runs alone -/

theorem Grants.mono {t m n : Nat} {w : World} (h : Grants env t p m w) (hle : m ≤ n)
    : Grants env t p n w := by
  rcases h with ⟨k, hk, w', hrun⟩
  exact ⟨k, by omega, w', hrun⟩

theorem Grants.one {t : Nat} {w w' : World} (h : (machine env).next (solo t) w = some w')
    (hacquired : w'.trace.head? = some (.acquired p)) : Grants env t p 1 w := by
  refine ⟨1, Nat.le_refl _, w', ?_, hacquired⟩
  simp only [List.replicate, Machine.run, h, Option.bind_some]

theorem Grants.succ {t n : Nat} {w w' : World} (h : (machine env).next (solo t) w = some w')
    (hgrants : Grants env t p n w') : Grants env t p (n + 1) w := by
  rcases hgrants with ⟨k, hk, w'', hrun, hacquired⟩
  refine ⟨k + 1, by omega, w'', ?_, hacquired⟩
  simp only [List.replicate_succ, Machine.run, h, Option.bind_some, hrun]

/--
The world after a move of the task `t` on its own.
-/
def alone (env : Env) (t : Nat) (task : Task) (w : World) : World :=
  let (e, next, slots) := operate env task false true w.state.slots
  ⟨w.state.goTo t next slots, e :: w.trace⟩

theorem next_solo (env : Env) {t : Nat} {task : Task} {w : World} (h : w.state.tasks t = some task)
    : (machine env).next (solo t) w = some (alone env t task w) := by
  simp only [Machine.next, machine, step, h, Option.map_some, runTask, alone]

/--
The task `t` has come to the operation `task` with fewer guards than the limit allows.
-/
structure Ready (env : Env) (t : Nat) (p : ProjectId) (task : Task) (w : World) : Prop where
  reached : (machine env).Reached (Orderly env) w
  tasks : w.state.tasks t = some task
  free : w.state.slots.live p < env.limit p

theorem Ready.next {t : Nat} {task task' : Task} {w : World} (h : Ready env t p task w)
    (hok : Orderly env w (solo t)) (hlive : (alone env t task w).state.slots.live p = w.state.slots.live p)
    (htask : (operate env task false true w.state.slots).2.1 = some task')
    : Ready env t p task' (alone env t task w) := by
  refine ⟨.next h.reached hok (next_solo env h.tasks), ?_, ?_⟩
  . simp only [alone, State.goTo, Function.update_self, htask]
  . rw [hlive]
    exact h.free

theorem Ready.swap {t s : Nat} {w : World}
    (h : Ready env t p (.swap p s (w.state.slots.concurrentFunctions s)) w)
    : Grants env t p 1 w := by
  apply Grants.one (next_solo env h.tasks)
  simp only [alone, operate, Bool.not_false, Bool.true_and, beq_self_eq_true, if_true,
    List.head?_cons]

theorem Ready.load {t s n : Nat} {w : World} (h : Ready env t p (.load p s) w)
    (halong : (machine env).Along (Orderly env) (List.replicate (n + 1) (solo t)) w)
    : Grants env t p 2 w := by
  have hok := halong.1
  have hinv := Inv.of_reached h.reached
  obtain ⟨hfinite, hs⟩ := hinv.tasks t _ h.tasks
  have hcounts := hinv.sound.counts p s hfinite hs
  have hlimit : env.limit p < 2147483648 := by
    simp only [Orderly, h.tasks] at hok
    exact hok
  have hlt : ¬ w.state.slots.concurrentFunctions s
      ≥ (env.limits p).concurrentFunctions.toInt32 := by
    have hfree := h.free
    rw [ge_iff_le, Int32.le_iff_toInt_le, toInt_toInt32 hlimit]
    simp only [Env.limit] at hfree
    omega
  have hslots : (alone env t (.load p s) w).state.slots = w.state.slots := by
    simp only [alone, operate, if_neg hlt, State.goTo]
  have hready : Ready env t p (.swap p s (w.state.slots.concurrentFunctions s))
      (alone env t (.load p s) w) := by
    apply h.next hok
    . rw [hslots]
    . simp only [operate, if_neg hlt]
  apply Grants.succ (next_solo env h.tasks)
  rw [← hslots] at hready
  exact hready.swap

/--
An exchange that comes too late goes back to the load.
-/
theorem Ready.stale {t s n : Nat} {current : Int32} {w : World}
    (h : Ready env t p (.swap p s current) w)
    (halong : (machine env).Along (Orderly env) (List.replicate (n + 2) (solo t)) w)
    : Grants env t p 3 w := by
  by_cases heq : w.state.slots.concurrentFunctions s = current
  . subst heq
    exact h.swap.mono (by omega)
  . have hstale : operate env (.swap p s current) false true w.state.slots
        = (.quiet, some (.load p s), w.state.slots) := by
      simp only [operate, Bool.not_false, Bool.true_and, beq_iff_eq, if_neg heq]
    have hready : Ready env t p (.load p s) (alone env t (.swap p s current) w) := by
      apply h.next halong.1
      . simp only [alone, hstale, State.goTo]
      . simp only [hstale]
    have hnext := next_solo env h.tasks
    exact Grants.succ hnext (hready.load (halong.2 _ hnext))

theorem Ready.insert {t n : Nat} {w : World} (h : Ready env t p (.insert .tryAcquireFunction p) w)
    (halong : (machine env).Along (Orderly env) (List.replicate (n + 2) (solo t)) w)
    : Grants env t p 3 w := by
  have hready : Ready env t p (.load p w.state.slots.nextState)
      (alone env t (.insert .tryAcquireFunction p) w) := by
    apply h.next halong.1
    . rfl
    . rfl
  have hnext := next_solo env h.tasks
  exact Grants.succ hnext (hready.load (halong.2 _ hnext))

theorem Ready.get {t n : Nat} {w : World} (h : Ready env t p (.get .tryAcquireFunction p) w)
    (halong : (machine env).Along (Orderly env) (List.replicate (n + 3) (solo t)) w)
    : Grants env t p 4 w := by
  have hnext := next_solo env h.tasks
  have halong' := halong.2 _ hnext
  apply Grants.succ hnext
  cases htenant : w.state.slots.tenants p with
  | some s =>
    have hfound : operate env (.get .tryAcquireFunction p) false true w.state.slots
        = (.quiet, some (.load p s), w.state.slots) := by
      simp only [operate, htenant, Call.found]
    have hready : Ready env t p (.load p s) (alone env t (.get .tryAcquireFunction p) w) := by
      apply h.next halong.1
      . simp only [alone, hfound, State.goTo]
      . simp only [hfound]
    exact (hready.load halong').mono (by omega)
  | none =>
    have habsent : operate env (.get .tryAcquireFunction p) false true w.state.slots
        = (.quiet, some (.insert .tryAcquireFunction p), w.state.slots) := by
      simp only [operate, htenant]
    have hready : Ready env t p (.insert .tryAcquireFunction p)
        (alone env t (.get .tryAcquireFunction p) w) := by
      apply h.next halong.1
      . simp only [alone, habsent, State.goTo]
      . simp only [habsent]
    exact hready.insert halong'

theorem Ready.grants {t n : Nat} {task : Task} {w : World} (h : Ready env t p task w)
    (hacquires : task.acquires p)
    (halong : (machine env).Along (Orderly env) (List.replicate (n + 3) (solo t)) w)
    : Grants env t p 4 w := by
  cases task with
  | get call q =>
    obtain ⟨rfl, rfl⟩ := hacquires
    exact h.get halong
  | insert call q =>
    obtain ⟨rfl, rfl⟩ := hacquires
    exact (h.insert halong).mono (by omega)
  | load q s =>
    cases hacquires
    exact (h.load halong).mono (by omega)
  | swap q s current =>
    cases hacquires
    exact (h.stale halong).mono (by omega)
  | consume q s => cases hacquires

/--
The limit holds in every run in which quota states are created, cleared and compared in order.
-/
theorem slotsHold (env : Env) : SlotsHold env (Orderly env) := by
  constructor
  . intro w hw p hfinite
    exact (Inv.of_reached hw).sound.bounded p hfinite
  . intro w hw i p w' hok hnext hdropped hfinite
    rw [next_eq_some_iff] at hnext
    obtain ⟨e, st, hstep, rfl⟩ := hnext
    simp only [machine, step, Option.map_eq_some_iff] at hstep
    obtain ⟨g, hg, heq⟩ := hstep
    cases heq
    simp only [List.head?_cons, Option.some.injEq, Event.dropped.injEq] at hdropped
    subst hdropped
    exact (Inv.of_reached hw).sound.taken_dropGuard hg hfinite
  . intro w hw m p w' hok hnext hrefused
    rw [next_eq_some_iff] at hnext
    obtain ⟨e, st, hstep, rfl⟩ := hnext
    simp only [List.head?_cons, Option.some.injEq] at hrefused
    subst hrefused
    obtain ⟨t, _, _, s, rfl, htask, hle⟩ := step_refused hstep
    have hinv := Inv.of_reached hw
    obtain ⟨hfinite, hs⟩ := hinv.tasks t _ htask
    have hcounts := hinv.sound.counts p s hfinite hs
    simp only [Orderly, htask] at hok
    rw [Int32.le_iff_toInt_le, toInt_toInt32 hok, hcounts] at hle
    exact Int.ofNat_le.mp hle
  . intro w hw t p task htask hacquires hfinite hfree halong
    exact Ready.grants ⟨hw, htask, hfree⟩ hacquires halong

end Reactor.Server.Quota
