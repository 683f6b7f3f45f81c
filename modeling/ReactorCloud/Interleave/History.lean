import ReactorCloud.Interleave.System

/-!
This module contains what the events of a run say about its processes, and how often something happens in a run.
-/

namespace Interleave

variable {I : Interface} {S : System I}

/--
No event is one of the process `pid`.
-/
def Fresh (pid : Nat) (w : World S) : Prop :=
  ∀ e ∈ w.trace, e.pid? ≠ some pid

/--
The process `pid` was spawned for `req` and is still there.
-/
structure Running (pid : Nat) (req : S.Request) (w : World S) : Prop where
  spawned : .spawn pid req ∈ w.trace
  unfinished : ∀ req r, .finish pid req r ∉ w.trace
  alive : .crash pid ∉ w.trace

/--
The world `w'` comes after `w` and `pid` has done nothing in between.
-/
def Extends (pid : Nat) (w w' : World S) : Prop :=
  ∃ es, w'.trace = es ++ w.trace ∧ ∀ e ∈ es, e.pid? ≠ some pid

namespace Extends

variable {pid : Nat} {w w' w'' : World S}

theorem refl (pid : Nat) (w : World S) : Extends pid w w := by
  exists []
  simp

theorem trans (h : Extends pid w w') (h' : Extends pid w' w'') : Extends pid w w'' := by
  obtain ⟨es, htrace, hes⟩ := h
  obtain ⟨es', htrace', hes'⟩ := h'
  exists es' ++ es
  constructor
  . rw [htrace', htrace, List.append_assoc]
  . intro e he
    cases List.mem_append.mp he with
    | inl h => exact hes' e h
    | inr h => exact hes e h

theorem after (w : World S) (s : S.State) (e : Event S) (h : e.pid? ≠ some pid)
    : Extends pid w (w.after s e) := by
  exists [e]
  constructor
  . rfl
  . simpa using h

theorem mem (h : Extends pid w w') {e : Event S} (he : e ∈ w.trace) : e ∈ w'.trace := by
  obtain ⟨es, htrace, _⟩ := h
  rw [htrace]
  exact List.mem_append_right es he

theorem subset (h : Extends pid w w') : w.trace ⊆ w'.trace := by
  intro e he
  exact h.mem he

theorem mem_iff (h : Extends pid w w') {e : Event S} (hpid : e.pid? = some pid)
    : e ∈ w'.trace ↔ e ∈ w.trace := by
  constructor
  . intro he
    obtain ⟨es, htrace, hes⟩ := h
    rw [htrace] at he
    cases List.mem_append.mp he with
    | inl h => exact absurd hpid (hes e h)
    | inr h => exact h
  . exact h.mem

theorem running (h : Extends pid w w') {req : S.Request} (hrun : Running pid req w)
    : Running pid req w' where
  spawned := h.mem hrun.spawned
  unfinished := fun req r hmem => hrun.unfinished req r ((h.mem_iff rfl).mp hmem)
  alive := fun hmem => hrun.alive ((h.mem_iff rfl).mp hmem)

end Extends

theorem Running.after_call {pid : Nat} {req : S.Request} {w : World S} (h : Running pid req w)
    (s : S.State) (c : I.Call) (r : Except I.Err (I.Ret c))
    : Running pid req (w.after s (.call pid c r)) where
  spawned := List.mem_cons_of_mem _ h.spawned
  unfinished := by
    intro req r hmem
    cases hmem with
    | tail _ hmem => exact h.unfinished req r hmem
  alive := by
    intro hmem
    cases hmem with
    | tail _ hmem => exact h.alive hmem

/--
The process `pid` has done something of the kind `P`.
-/
def Did (P : Event S → Prop) (pid : Nat) (w : World S) : Prop :=
  ∃ e ∈ w.trace, e.pid? = some pid ∧ P e

namespace Did

variable {P : Event S → Prop} {pid : Nat} {w w' : World S}

instance [DecidablePred P] : Decidable (Did P pid w) :=
  inferInstanceAs (Decidable (∃ e ∈ w.trace, e.pid? = some pid ∧ P e))

theorem after_iff {s : S.State} {e : Event S}
    : Did P pid (w.after s e) ↔ (e.pid? = some pid ∧ P e) ∨ Did P pid w := by
  simp only [Did, World.after, List.mem_cons, exists_eq_or_imp]

theorem after (h : Did P pid w) (s : S.State) (e : Event S) : Did P pid (w.after s e) :=
  after_iff.mpr (.inr h)

theorem extends_iff (h : Extends pid w w') : Did P pid w' ↔ Did P pid w := by
  constructor
  . rintro ⟨e, he, hpid, hP⟩
    exact ⟨e, (h.mem_iff hpid).mp he, hpid, hP⟩
  . rintro ⟨e, he, hpid, hP⟩
    exact ⟨e, h.mem he, hpid, hP⟩

theorem not_of_fresh (h : Fresh pid w) : ¬ Did P pid w := by
  rintro ⟨e, he, hpid, _⟩
  exact h e he hpid

end Did

/--
The processes with an event.
-/
def World.pids (w : World S) : List Nat :=
  w.trace.filterMap Event.pid?

theorem Did.mem_pids {P : Event S → Prop} {pid : Nat} {w : World S} (h : Did P pid w)
    : pid ∈ w.pids := by
  obtain ⟨e, he, hpid, _⟩ := h
  exact List.mem_filterMap.mpr ⟨e, he, hpid⟩

def Event.ends : Event S → Bool
  | .finish _ _ _ => true
  | .crash _ => true
  | _ => false

/--
The process `pid` is not there any more.
-/
def Gone (pid : Nat) (w : World S) : Prop :=
  Did (fun e => e.ends = true) pid w

instance {pid : Nat} {w : World S} : Decidable (Gone pid w) :=
  inferInstanceAs (Decidable (Did _ pid w))

theorem Gone.after_iff {pid : Nat} {w : World S} {s : S.State} {e : Event S} (hends : e.ends = false)
    : Gone pid (w.after s e) ↔ Gone pid w := by
  unfold Gone
  rw [Did.after_iff]
  simp [hends]

theorem trace_subset_after (w : World S) (s : S.State) (e : Event S)
    : w.trace ⊆ (w.after s e).trace :=
  List.subset_cons_self _ _

def Event.finished? : Event S → Option Nat
  | .finish pid _ _ => some pid
  | _ => none

/--
The processes of a configuration are those its events leave running.
-/
structure Config.Tidy (c : Config S) : Prop where
  lt_next : ∀ e ∈ c.world.trace, ∀ pid, e.pid? = some pid → pid < c.next
  running : ∀ pid p, c.procs pid = some p → Running pid p.req c.world
  unique : ∀ pid req req', .spawn pid req ∈ c.world.trace → .spawn pid req' ∈ c.world.trace
    → req = req'
  finished : (c.world.trace.filterMap Event.finished?).Nodup

namespace Config

theorem Tidy.start (s : S.State) : (Config.start s : Config S).Tidy := by
  constructor <;> simp [Config.start]

variable {c c' : Config S}

theorem Tidy.fresh (h : c.Tidy) : Fresh c.next c.world := by
  intro e he hpid
  have := h.lt_next e he c.next hpid
  omega

theorem Tidy.proc_lt (h : c.Tidy) {pid : Nat} {p : Process S} (hp : c.procs pid = some p)
    : pid < c.next :=
  h.lt_next _ (h.running pid p hp).spawned pid rfl

/--
A process finishes only once.
-/
theorem Tidy.answer (h : c.Tidy) {pid : Nat} {p : Process S} (hp : c.procs pid = some p)
    (call : I.Call) (next : Except I.Err (I.Ret call) → Program I (S.Reply p.req))
    (r : Except I.Err (I.Ret call)) (s : S.State)
    : (c.answer pid p.req call next r s).2.Tidy where
  lt_next := by
    intro e he pid' hpid
    cases he with
    | head =>
      cases hpid
      exact h.proc_lt hp
    | tail _ he => exact h.lt_next e he pid' hpid
  running := by
    intro pid' p' hp'
    simp only [Config.answer, Function.update_apply] at hp'
    split at hp'
    . next heq =>
      cases hp'
      subst heq
      exact (h.running pid' p hp).after_call _ _ _
    . next hne =>
      apply Extends.running _ (h.running pid' p' hp')
      apply Extends.after
      intro heq
      cases heq
      exact hne rfl
  unique := by
    intro pid' req req' hmem hmem'
    cases hmem with
    | tail _ hmem =>
      cases hmem' with
      | tail _ hmem' => exact h.unique pid' req req' hmem hmem'
  finished := h.finished

theorem Tidy.stop (h : c.Tidy) {pid : Nat} {p : Process S} (hp : c.procs pid = some p) (e : Event S)
    (he : e.pid? = some pid) (hspawn : ∀ pid req, e ≠ .spawn pid req)
    (hfinish : ∀ pid', e.finished? = some pid' → pid' = pid) : (c.stop pid e).2.Tidy where
  lt_next := by
    intro e' he' pid' hpid
    cases he' with
    | head =>
      rw [he] at hpid
      cases hpid
      exact h.proc_lt hp
    | tail _ he' => exact h.lt_next e' he' pid' hpid
  running := by
    intro pid' p' hp'
    simp only [Config.stop, Function.update_apply] at hp'
    split at hp'
    . cases hp'
    . next hne =>
      apply Extends.running _ (h.running pid' p' hp')
      apply Extends.after
      intro heq
      rw [he] at heq
      cases heq
      exact hne rfl
  unique := by
    intro pid' req req' hmem hmem'
    cases hmem with
    | head => exact absurd rfl (hspawn pid' req)
    | tail _ hmem =>
      cases hmem' with
      | head => exact absurd rfl (hspawn pid' req')
      | tail _ hmem' => exact h.unique pid' req req' hmem hmem'
  finished := by
    have hold := h.finished
    simp only [Config.stop, World.after, List.filterMap_cons]
    cases hf : e.finished? with
    | none => exact hold
    | some pid' =>
      rw [List.nodup_cons]
      constructor
      . intro hmem
        rw [List.mem_filterMap] at hmem
        obtain ⟨e', he', hf'⟩ := hmem
        have hpid := hfinish pid' hf
        subst hpid
        cases e' with
        | finish pid'' req r =>
          cases hf'
          exact (h.running _ p hp).unfinished req r he'
        | _ => cases hf'
      . exact hold

theorem Tidy.spawn (h : c.Tidy) (req : S.Request) : Config.Tidy {
      world := c.world.after c.world.state (.spawn c.next req),
      procs := Function.update c.procs c.next (some ⟨req, S.program req⟩),
      next := c.next + 1 } where
  lt_next := by
    intro e he pid hpid
    cases he with
    | head =>
      cases hpid
      exact Nat.lt_succ_self c.next
    | tail _ he => exact Nat.lt_succ_of_lt (h.lt_next e he pid hpid)
  running := by
    intro pid p hp
    simp only [Function.update_apply] at hp
    split at hp
    . next heq =>
      cases hp
      subst heq
      constructor
      . exact List.mem_cons_self
      . intro req r hmem
        cases hmem with
        | tail _ hmem => exact h.fresh _ hmem rfl
      . intro hmem
        cases hmem with
        | tail _ hmem => exact h.fresh _ hmem rfl
    . next hne =>
      apply Extends.running _ (h.running pid p hp)
      apply Extends.after
      intro heq
      cases heq
      exact hne rfl
  unique := by
    intro pid req req' hmem hmem'
    cases hmem with
    | head =>
      cases hmem' with
      | head => rfl
      | tail _ hmem' => exact absurd rfl (h.fresh _ hmem')
    | tail _ hmem =>
      cases hmem' with
      | head => exact absurd rfl (h.fresh _ hmem)
      | tail _ hmem' => exact h.unique pid req req' hmem hmem'
  finished := h.finished

theorem Tidy.tick (h : c.Tidy) (t : S.Tick)
    : Config.Tidy { c with world := c.world.after (S.tick t c.world.state) .tick } where
  lt_next := by
    intro e he pid hpid
    cases he with
    | head => cases hpid
    | tail _ he => exact h.lt_next e he pid hpid
  running := by
    intro pid p hp
    apply Extends.running _ (h.running pid p hp)
    apply Extends.after
    intro heq
    cases heq
  unique := by
    intro pid req req' hmem hmem'
    cases hmem with
    | tail _ hmem =>
      cases hmem' with
      | tail _ hmem' => exact h.unique pid req req' hmem hmem'
  finished := h.finished

theorem Tidy.steps (h : c.Tidy) {next : Event S × Config S} (hsteps : Steps c next)
    : next.2.Tidy := by
  cases hsteps with
  | spawn req => exact h.spawn req
  | answer hp _ => exact h.answer hp _ _ _ _
  | finish hp =>
    apply h.stop hp
    . rfl
    . intro pid req heq
      cases heq
    . intro pid' heq
      cases heq
      rfl
  | crash hp =>
    apply h.stop hp
    . rfl
    . intro pid req heq
      cases heq
    . intro pid' heq
      cases heq
  | tick t => exact h.tick t

theorem Tidy.run {ms : List (Move S)} (h : c.Tidy) (hrun : Config.run ms c = some c') : c'.Tidy := by
  induction ms generalizing c with
  | nil =>
    cases hrun
    exact h
  | cons m ms ih =>
    simp only [Config.run] at hrun
    split at hrun
    . next e next hstep => exact ih (h.steps (step_steps hstep)) hrun
    . cases hrun

/--
At most one event ends a process in a way in which only one process can end.
-/
theorem Tidy.countP_le_one (h : c.Tidy) (pid : Nat) {p : Event S → Bool}
    (hp : ∀ e ∈ c.world.trace, p e = true → e.finished? = some pid)
    : c.world.trace.countP p ≤ 1 := by
  have hnodup := h.finished
  generalize c.world.trace = es at hp hnodup
  induction es with
  | nil => exact Nat.zero_le _
  | cons e es ih =>
    have hes : ∀ e ∈ es, p e = true → e.finished? = some pid :=
      fun e he => hp e (List.mem_cons_of_mem _ he)
    by_cases hpe : p e = true
    . have hfinished := hp e List.mem_cons_self hpe
      rw [List.filterMap_cons_some hfinished, List.nodup_cons] at hnodup
      have hzero : es.countP p = 0 := by
        rw [List.countP_eq_zero]
        intro e' he' hpe'
        exact hnodup.1 (List.mem_filterMap.mpr ⟨e', he', hes e' he' hpe'⟩)
      rw [List.countP_cons_of_pos hpe]
      omega
    . rw [List.countP_cons_of_neg hpe]
      apply ih hes
      exact hnodup.sublist ((List.sublist_cons_self e es).filterMap _)

end Config

namespace Config

variable {I : Interface} {S : System I}

/--
The number of steps of the run that satisfy `p`.
-/
def tally (p : World S → Event S → World S → Prop) [∀ w e w', Decidable (p w e w')]
    : List (Move S) → Config S → Nat
  | [], _ => 0
  | m :: ms, c =>
    match step m c with
    | some (e, c') => (if p c.world e c'.world then 1 else 0) + tally p ms c'
    | none => 0

variable {p : World S → Event S → World S → Prop} [∀ w e w', Decidable (p w e w')] {D : World S → Prop}

theorem tally_eq_zero (hstays : ∀ c next, Steps c next → D c.world → D next.2.world)
    {ms : List (Move S)} {c : Config S} (hsafe : Along (fun w e => D w → ∀ w', ¬ p w e w') ms c)
    (hD : D c.world) : tally p ms c = 0 := by
  induction ms generalizing c with
  | nil => rfl
  | cons m ms ih =>
    simp only [tally, Along] at hsafe ⊢
    cases hstep : step m c with
    | none => rfl
    | some next =>
      simp only [hstep] at hsafe
      simp only [if_neg (hsafe.1 hD next.2.world), Nat.zero_add]
      exact ih hsafe.2 (hstays c next (step_steps hstep) hD)

/--
What leaves a mark, and does not happen where the mark is, happens at most once.
-/
theorem tally_le_one (hmark : ∀ c next, Steps c next → p c.world next.1 next.2.world → D next.2.world)
    (hstays : ∀ c next, Steps c next → D c.world → D next.2.world) {ms : List (Move S)}
    {c : Config S} (hsafe : Along (fun w e => D w → ∀ w', ¬ p w e w') ms c)
    : tally p ms c ≤ 1 := by
  induction ms generalizing c with
  | nil => exact Nat.zero_le 1
  | cons m ms ih =>
    simp only [tally, Along] at hsafe ⊢
    cases hstep : step m c with
    | none => exact Nat.zero_le 1
    | some next =>
      simp only [hstep] at hsafe
      have hsteps := step_steps hstep
      by_cases hp : p c.world next.1 next.2.world
      . have hrest := tally_eq_zero hstays hsafe.2 (hmark c next hsteps hp)
        simp only [if_pos hp, hrest]
        exact Nat.le_refl 1
      . simp only [if_neg hp, Nat.zero_add]
        exact ih hsafe.2

/--
Whatever happens takes something that was there or came in.
-/
theorem tally_le_tally {q : World S → Event S → World S → Prop} [∀ w e w', Decidable (q w e w')]
    {ok : World S → Event S → Prop} (stock : World S → Nat)
    (hstep : ∀ c next, Steps c next → ok c.world next.1 →
      (if p c.world next.1 next.2.world then 1 else 0) + stock next.2.world
        ≤ (if q c.world next.1 next.2.world then 1 else 0) + stock c.world)
    {ms : List (Move S)} {c : Config S} (hok : Along ok ms c)
    : tally p ms c ≤ tally q ms c + stock c.world := by
  induction ms generalizing c with
  | nil => exact Nat.zero_le _
  | cons m ms ih =>
    simp only [tally, Along] at hok ⊢
    cases hmove : step m c with
    | none => exact Nat.zero_le _
    | some next =>
      simp only [hmove] at hok ⊢
      have hle := hstep c next (step_steps hmove) hok.1
      have hrest := ih hok.2
      omega

/--
Every step of the run satisfies `p`.
-/
def Throughout (p : World S → Event S → World S → Prop) : List (Move S) → Config S → Prop
  | [], _ => True
  | m :: ms, c =>
    match step m c with
    | some (e, c') => p c.world e c'.world ∧ Throughout p ms c'
    | none => True

theorem throughout_of_along {ok : World S → Event S → Prop} {p : World S → Event S → World S → Prop}
    (hstep : ∀ c next, Steps c next → ok c.world next.1 → p c.world next.1 next.2.world)
    {ms : List (Move S)} {c : Config S} (hok : Along ok ms c) : Throughout p ms c := by
  induction ms generalizing c with
  | nil => trivial
  | cons m ms ih =>
    simp only [Throughout, Along] at hok ⊢
    split
    . next hmove =>
      simp only [hmove] at hok
      exact ⟨hstep c _ (step_steps hmove) hok.1, ih hok.2⟩
    . trivial

/--
What every step keeps holds in every world of the run from where it holds once.
-/
theorem along_of_kept {ok P : World S → Event S → Prop} {R : World S → Prop}
    (hstep : ∀ c next, Steps c next → ok c.world next.1 → R c.world → R next.2.world)
    (hP : ∀ c next, Steps c next → ok c.world next.1 → R c.world → P c.world next.1)
    {ms : List (Move S)} {c : Config S} (hR : R c.world) (hok : Along ok ms c) : Along P ms c := by
  induction ms generalizing c with
  | nil => trivial
  | cons m ms ih =>
    simp only [Along] at hok ⊢
    split
    . next hmove =>
      simp only [hmove] at hok
      have hsteps := step_steps hmove
      exact ⟨hP c _ hsteps hok.1 hR, ih (hstep c _ hsteps hok.1 hR) hok.2⟩
    . trivial

end Config
end Interleave
