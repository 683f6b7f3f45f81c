import ReactorCloud.Interleave.History

/-!
This module contains operations that run one after another. While one of them runs, time passes but no
other process moves.
-/

namespace Interleave

variable {I : Interface} {S : System I} {α β : Type}

/--
The move is one of the process `pid`, or time passes.
-/
def Move.IsOf (pid : Nat) : Move S → Prop
  | .spawn _ => False
  | .call q _ => q = pid
  | .fail q => q = pid
  | .lose q _ => q = pid
  | .finish q => q = pid
  | .crash q => q = pid
  | .tick _ => True

/--
The process `pid` runs to its end.
-/
def Move.alone (pid : Nat) (choices : List S.Choice) : List (Move S) :=
  choices.map (.call pid) ++ [.finish pid]

theorem Move.isOf_alone {pid : Nat} {choices : List S.Choice} {m : Move S}
    (h : m ∈ Move.alone pid choices) : m.IsOf pid := by
  simp only [Move.alone, List.mem_append, List.mem_map, List.mem_singleton] at h
  cases h with
  | inl h =>
    obtain ⟨choice, _, rfl⟩ := h
    rfl
  | inr h =>
    subst h
    rfl

namespace Config

/--
An operation of one process, up to its end or up to where it got.
-/
def Operates (c : Config S) (req : S.Request) (c' : Config S) : Prop :=
  ∃ ms, (∀ m ∈ ms, m.IsOf c.next) ∧ run (.spawn req :: ms) c = some c'

/--
Operations one after another, each of which satisfies `P` in the state it starts in.
-/
inductive Sequence (P : S.State → S.Request → Prop) (c : Config S) : Config S → Prop where
  | nil : Sequence P c c
  | snoc {c' c'' : Config S} {req : S.Request} (h : Sequence P c c') (hreq : P c'.world.state req)
      (hop : Operates c' req c'') : Sequence P c c''

/--
The configuration occurs in a run from the state `s`.
-/
def Reachable (s : S.State) (c : Config S) : Prop :=
  ∃ ms, run ms (start s) = some c

variable {c c' : Config S} {s : S.State} {req : S.Request}

theorem Reachable.run {ms : List (Move S)} (h : Reachable s c) (hrun : Config.run ms c = some c')
    : Reachable s c' := by
  obtain ⟨ms', hstart⟩ := h
  exists ms' ++ ms
  rw [run_append, hstart]
  exact hrun

theorem Reachable.operates (h : Reachable s c) (hop : Operates c req c') : Reachable s c' := by
  obtain ⟨ms, _, hrun⟩ := hop
  exact h.run hrun

theorem Reachable.sequence {P : S.State → S.Request → Prop} (h : Reachable s c)
    (hseq : Sequence P c c') : Reachable s c' := by
  induction hseq with
  | nil => exact h
  | snoc _ _ hop ih => exact ih.operates hop

end Config

variable (S) in
/--
Some time passes.
-/
inductive Elapses (s : S.State) : S.State → Prop where
  | refl : Elapses s s
  | tick {s' : S.State} (t : S.Tick) (h : Elapses s s') : Elapses s (S.tick t s')

theorem Elapses.trans {s s' s'' : S.State} (h : Elapses S s s') (h' : Elapses S s' s'')
    : Elapses S s s'' := by
  induction h' with
  | refl => exact h
  | tick t _ ih => exact .tick t ih

theorem Elapses.of_tick {R : S.State → Prop} {s s' : S.State} (h : Elapses S s s') (hs : R s)
    (htick : ∀ t s, R s → R (S.tick t s)) : R s' := by
  induction h with
  | refl => exact hs
  | tick t _ ih => exact htick t _ ih

/--
Alone from the state `s`, the program of `pid` stays within `C`.
-/
def Wlp (pid : Nat) (C : S.State → Prop) : Program I α → S.State → Prop
  | .done _, s => ∀ s', Elapses S s s' → C s'
  | .call c next, s => ∀ s', Elapses S s s' → C s'
      ∧ ∀ r s'', Answers S pid c s' r s'' → Wlp pid C (next r) s''

section Rules

variable {pid : Nat} {C : S.State → Prop} {x : Program I α} {s s' : S.State}

theorem wlp_within (h : Wlp pid C x s) : C s := by
  cases x with
  | done r => exact h s .refl
  | call c next => exact (h s .refl).1

theorem wlp_elapses (h : Wlp pid C x s) (helapses : Elapses S s s') : Wlp pid C x s' := by
  cases x with
  | done r =>
    intro s'' helapses'
    exact h s'' (helapses.trans helapses')
  | call c next =>
    intro s'' helapses'
    exact h s'' (helapses.trans helapses')

theorem wlp_mono {C' : S.State → Prop} (h : Wlp pid C x s) (hmono : ∀ s, C s → C' s)
    : Wlp pid C' x s := by
  induction x generalizing s with
  | done r =>
    intro s' helapses
    exact hmono s' (h s' helapses)
  | call c next ih =>
    intro s' helapses
    constructor
    . exact hmono s' (h s' helapses).1
    . intro r s'' hanswer
      exact ih r ((h s' helapses).2 r s'' hanswer)

/--
The rule for a call in the middle of a program.
-/
theorem wlp_call {c : I.Call} {f : I.Ret c → Program I α}
    (h : ∀ s', Elapses S s s' → C s' ∧ ∀ r s'', Answers S pid c s' r s'' →
      match r with
      | .ok a => Wlp pid C (f a) s''
      | .error _ => ∀ s''', Elapses S s'' s''' → C s''')
    : Wlp pid C (Program.request c >>= f) s := by
  intro s' helapses
  constructor
  . exact (h s' helapses).1
  . intro r s'' hanswer
    have := (h s' helapses).2 r s'' hanswer
    cases r with
    | ok a => exact this
    | error e => exact this

theorem wlp_okOr {o : Option β} {e : I.Err} {f : β → Program I α}
    (hsome : ∀ b, o = some b → Wlp pid C (f b) s)
    (hnone : o = none → ∀ s', Elapses S s s' → C s')
    : Wlp pid C (Program.okOr o e >>= f) s := by
  cases o with
  | some b => exact hsome b rfl
  | none => exact hnone rfl

theorem wlp_require {b : Bool} {e : I.Err} {f : Unit → Program I α}
    (htrue : b = true → Wlp pid C (f ()) s)
    (hfalse : b = false → ∀ s', Elapses S s s' → C s')
    : Wlp pid C (Program.require b e >>= f) s := by
  cases b with
  | true => exact htrue rfl
  | false => exact hfalse rfl

/--
A program whose calls all keep a condition keeps it.
-/
theorem wlp_of_uses {P : I.Call → Prop} (hx : x.Uses P) (hs : C s)
    (hcall : ∀ c, P c → ∀ s r s', C s → Answers S pid c s r s' → C s')
    (htick : ∀ t s, C s → C (S.tick t s)) : Wlp pid C x s := by
  induction x generalizing s with
  | done r =>
    intro s' helapses
    exact helapses.of_tick hs htick
  | call c next ih =>
    intro s' helapses
    constructor
    . exact helapses.of_tick hs htick
    . intro r s'' hanswer
      exact ih r (hx.2 r) (hcall c hx.1 s' r s'' (helapses.of_tick hs htick) hanswer)

end Rules

namespace Config

variable {c c' : Config S} {req : S.Request} {C : S.State → Prop}

/--
The process is where it has been verified up to, or gone.
-/
def Within (pid : Nat) (C : S.State → Prop) (req : S.Request) (c : Config S) : Prop :=
  (∃ x, c.procs pid = some ⟨req, x⟩ ∧ Wlp pid C x c.world.state)
    ∨ (c.procs pid = none ∧ C c.world.state)

theorem Within.state {pid : Nat} (h : Within pid C req c) : C c.world.state := by
  cases h with
  | inl h =>
    obtain ⟨x, _, hx⟩ := h
    exact wlp_within hx
  | inr h => exact h.2

/--
A move of a process is seen as one of its events.
-/
theorem pid_of_step {pid : Nat} {m : Move S} {next : Event S × Config S} (hm : m.IsOf pid)
    (hstep : step m c = some next) :
    ∀ q, next.1.pid? = some q → q = pid ∧ ∀ req, next.1 ≠ .spawn q req := by
  intro q hq
  cases m with
  | spawn req => exact hm.elim
  | call pid' choice =>
    simp only [step] at hstep
    split at hstep
    . rw [Option.map_eq_some_iff] at hstep
      obtain ⟨_, _, rfl⟩ := hstep
      cases hq
      exact ⟨hm, fun req heq => by cases heq⟩
    . cases hstep
  | fail pid' =>
    simp only [step] at hstep
    split at hstep
    . cases hstep
      cases hq
      exact ⟨hm, fun req heq => by cases heq⟩
    . cases hstep
  | lose pid' choice =>
    simp only [step] at hstep
    split at hstep
    . rw [Option.map_eq_some_iff] at hstep
      obtain ⟨_, _, rfl⟩ := hstep
      cases hq
      exact ⟨hm, fun req heq => by cases heq⟩
    . cases hstep
  | finish pid' =>
    simp only [step] at hstep
    split at hstep
    . cases hstep
      cases hq
      exact ⟨hm, fun req heq => by cases heq⟩
    . cases hstep
  | crash pid' =>
    simp only [step] at hstep
    split at hstep
    . cases hstep
      cases hq
      exact ⟨hm, fun req heq => by cases heq⟩
    . cases hstep
  | tick t =>
    cases hstep
    cases hq

theorem Within.step {pid : Nat} {m : Move S} {next : Event S × Config S} (h : Within pid C req c)
    (hm : m.IsOf pid) (hstep : Config.step m c = some next)
    (hrelease : ∀ s, C s → C (S.release pid s)) (htick : ∀ t s, C s → C (S.tick t s))
    : Within pid C req next.2 := by
  have hpid := pid_of_step hm hstep
  cases step_steps hstep with
  | spawn req' => exact absurd rfl ((hpid c.next rfl).2 req')
  | @answer pid' req' call cont r s hp hanswer =>
    cases (hpid pid' rfl).1
    cases h with
    | inl h =>
      obtain ⟨x, hx, hwlp⟩ := h
      rw [hx] at hp
      cases hp
      apply Or.inl
      exists cont r
      constructor
      . simp [answer]
      . exact (hwlp _ .refl).2 r s hanswer
    | inr h =>
      rw [h.1] at hp
      cases hp
  | @finish pid' req' r hp =>
    cases (hpid pid' rfl).1
    apply Or.inr
    constructor
    . simp [stop]
    . exact hrelease _ h.state
  | @crash pid' p hp =>
    cases (hpid pid' rfl).1
    apply Or.inr
    constructor
    . simp [stop]
    . exact hrelease _ h.state
  | tick t =>
    cases h with
    | inl h =>
      obtain ⟨x, hx, hwlp⟩ := h
      apply Or.inl
      exists x
      constructor
      . exact hx
      . exact wlp_elapses hwlp (.tick t .refl)
    | inr h => exact .inr ⟨h.1, htick t _ h.2⟩

/--
What an operation that runs alone keeps within holds wherever it got.
-/
theorem Operates.within (hop : Operates c req c')
    (hprogram : Wlp c.next C (S.program req) c.world.state)
    (hrelease : ∀ s, C s → C (S.release c.next s)) (htick : ∀ t s, C s → C (S.tick t s))
    : C c'.world.state := by
  obtain ⟨ms, hms, hrun⟩ := hop
  have hstep : ∀ ms (c₁ : Config S), (∀ m ∈ ms, m.IsOf c.next) → Within c.next C req c₁
      → run ms c₁ = some c' → C c'.world.state := by
    intro ms
    induction ms with
    | nil =>
      intro c₁ _ hwithin hrun
      cases hrun
      exact hwithin.state
    | cons m ms ih =>
      intro c₁ hms hwithin hrun
      simp only [run] at hrun
      split at hrun
      . next e c₂ hstep =>
        apply ih c₂
        . intro m' hm'
          exact hms m' (List.mem_cons_of_mem _ hm')
        . exact hwithin.step (hms m List.mem_cons_self) hstep hrelease htick
        . exact hrun
      . cases hrun
  simp only [run, Config.step] at hrun
  apply hstep ms _ hms _ hrun
  apply Or.inl
  exists S.program req
  constructor
  . simp
  . exact hprogram

end Config
end Interleave
