import Mathlib.Logic.Function.Basic
import ReactorCloud.Interleave.Program

/-!
This module contains the interleaved execution of programs against one shared state. Every call of a
program is one step, the environment decides whose call comes next and which calls fail.
-/

namespace Interleave

structure System (I : Interface) where
  State : Type
  Request : Type
  Reply : Request → Type
  program : (req : Request) → Program I (Reply req)
  /-- What the environment decides in a call. -/
  Choice : Type
  /-- A call of a process that has to wait has no result. -/
  exec : Nat → (c : I.Call) → Choice → State → Option (Except I.Err (I.Ret c) × State)
  /-- The answer of a call that does not get through. -/
  failure : I.Err
  /-- What happens to the state when a process is gone. -/
  release : Nat → State → State
  Tick : Type
  tick : Tick → State → State

variable {I : Interface}

inductive Event (S : System I) where
  | spawn (pid : Nat) (req : S.Request)
  | call (pid : Nat) (c : I.Call) (r : Except I.Err (I.Ret c))
  | finish (pid : Nat) (req : S.Request) (r : Except I.Err (S.Reply req))
  | crash (pid : Nat)
  | tick

def Event.pid? {S : System I} : Event S → Option Nat
  | .spawn pid _ => some pid
  | .call pid _ _ => some pid
  | .finish pid _ _ => some pid
  | .crash pid => some pid
  | .tick => none

/--
The state and the events up to now, the latest first.
-/
structure World (S : System I) where
  state : S.State
  trace : List (Event S)

def World.after {S : System I} (w : World S) (s : S.State) (e : Event S) : World S :=
  ⟨s, e :: w.trace⟩

structure Process (S : System I) where
  req : S.Request
  rest : Program I (S.Reply req)

/--
The numbers from `next` on are not in use.
-/
structure Config (S : System I) where
  world : World S
  procs : Nat → Option (Process S)
  next : Nat

/--
A call can fail without effect, and its answer can be lost after the effect.
-/
inductive Move (S : System I) where
  | spawn (req : S.Request)
  | call (pid : Nat) (choice : S.Choice)
  | fail (pid : Nat)
  | lose (pid : Nat) (choice : S.Choice)
  | finish (pid : Nat)
  | crash (pid : Nat)
  | tick (t : S.Tick)

variable {S : System I}

/--
The answers the call `c` of the process `pid` can get in the state `s`, with the state after it.
-/
inductive Answers (S : System I) (pid : Nat) (c : I.Call) (s : S.State)
    : Except I.Err (I.Ret c) → S.State → Prop where
  | reply {choice : S.Choice} {r : Except I.Err (I.Ret c)} {s' : S.State}
      (h : S.exec pid c choice s = some (r, s')) : Answers S pid c s r s'
  | fail : Answers S pid c s (.error S.failure) s
  | lose {choice : S.Choice} {r : Except I.Err (I.Ret c)} {s' : S.State}
      (h : S.exec pid c choice s = some (r, s')) : Answers S pid c s (.error S.failure) s'

namespace Answers

variable {pid : Nat} {c : I.Call} {s s' : S.State}

/--
A call leaves the state as it was or has its effect, whatever is answered.
-/
theorem effect {r : Except I.Err (I.Ret c)} (h : Answers S pid c s r s')
    : s' = s ∨ ∃ choice r', S.exec pid c choice s = some (r', s') := by
  cases h with
  | reply h => exact .inr ⟨_, _, h⟩
  | fail => exact .inl rfl
  | lose h => exact .inr ⟨_, _, h⟩

theorem ok {a : I.Ret c} (h : Answers S pid c s (.ok a) s')
    : ∃ choice, S.exec pid c choice s = some (.ok a, s') := by
  cases h with
  | reply h => exact ⟨_, h⟩

theorem error {e : I.Err} (h : Answers S pid c s (.error e) s')
    : e = S.failure ∨ ∃ choice, S.exec pid c choice s = some (.error e, s') := by
  cases h with
  | reply h => exact .inr ⟨_, h⟩
  | fail => exact .inl rfl
  | lose h => exact .inl rfl

end Answers

namespace Config

def start (s : S.State) : Config S :=
  ⟨⟨s, []⟩, fun _ => none, 0⟩

/--
The process `pid` gets the answer `r` to its call `c` and the state becomes `s`.
-/
def answer (c : Config S) (pid : Nat) (req : S.Request) (call : I.Call)
    (next : Except I.Err (I.Ret call) → Program I (S.Reply req)) (r : Except I.Err (I.Ret call))
    (s : S.State) : Event S × Config S :=
  let e := Event.call pid call r
  (e, { c with
    world := c.world.after s e,
    procs := Function.update c.procs pid (some ⟨req, next r⟩) })

def stop (c : Config S) (pid : Nat) (e : Event S) : Event S × Config S :=
  (e, { c with
    world := c.world.after (S.release pid c.world.state) e,
    procs := Function.update c.procs pid none })

def step (m : Move S) (c : Config S) : Option (Event S × Config S) :=
  match m with
  | .spawn req =>
    let e := Event.spawn c.next req
    some (e, {
      world := c.world.after c.world.state e,
      procs := Function.update c.procs c.next (some ⟨req, S.program req⟩),
      next := c.next + 1 })
  | .call pid choice =>
    match c.procs pid with
    | some ⟨req, .call call next⟩ =>
      (S.exec pid call choice c.world.state).map (fun (r, s) => c.answer pid req call next r s)
    | _ => none
  | .fail pid =>
    match c.procs pid with
    | some ⟨req, .call call next⟩ =>
      some (c.answer pid req call next (.error S.failure) c.world.state)
    | _ => none
  | .lose pid choice =>
    match c.procs pid with
    | some ⟨req, .call call next⟩ =>
      (S.exec pid call choice c.world.state).map
        (fun (_, s) => c.answer pid req call next (.error S.failure) s)
    | _ => none
  | .finish pid =>
    match c.procs pid with
    | some ⟨req, .done r⟩ => some (c.stop pid (.finish pid req r))
    | _ => none
  | .crash pid =>
    match c.procs pid with
    | some _ => some (c.stop pid (.crash pid))
    | none => none
  | .tick t => some (.tick, { c with world := c.world.after (S.tick t c.world.state) .tick })

/--
What one step can do.
-/
inductive Steps (c : Config S) : Event S × Config S → Prop where
  | spawn (req : S.Request) : Steps c (.spawn c.next req, {
      world := c.world.after c.world.state (.spawn c.next req),
      procs := Function.update c.procs c.next (some ⟨req, S.program req⟩),
      next := c.next + 1 })
  | answer {pid : Nat} {req : S.Request} {call : I.Call}
      {next : Except I.Err (I.Ret call) → Program I (S.Reply req)} {r : Except I.Err (I.Ret call)}
      {s : S.State} (hp : c.procs pid = some ⟨req, .call call next⟩)
      (h : Answers S pid call c.world.state r s) : Steps c (c.answer pid req call next r s)
  | finish {pid : Nat} {req : S.Request} {r : Except I.Err (S.Reply req)}
      (hp : c.procs pid = some ⟨req, .done r⟩) : Steps c (c.stop pid (.finish pid req r))
  | crash {pid : Nat} {p : Process S} (hp : c.procs pid = some p)
      : Steps c (c.stop pid (.crash pid))
  | tick (t : S.Tick)
      : Steps c (.tick, { c with world := c.world.after (S.tick t c.world.state) .tick })

theorem step_steps {m : Move S} {c : Config S} {next : Event S × Config S}
    (hstep : step m c = some next) : Steps c next := by
  cases m with
  | spawn req =>
    cases hstep
    exact .spawn req
  | call pid choice =>
    simp only [step] at hstep
    split at hstep
    . next req call next hp =>
      rw [Option.map_eq_some_iff] at hstep
      obtain ⟨⟨r, s⟩, hexec, heq⟩ := hstep
      cases heq
      exact .answer hp (.reply hexec)
    . cases hstep
  | fail pid =>
    simp only [step] at hstep
    split at hstep
    . next req call next hp =>
      cases hstep
      exact .answer hp .fail
    . cases hstep
  | lose pid choice =>
    simp only [step] at hstep
    split at hstep
    . next req call next hp =>
      rw [Option.map_eq_some_iff] at hstep
      obtain ⟨⟨r, s⟩, hexec, heq⟩ := hstep
      cases heq
      exact .answer hp (.lose hexec)
    . cases hstep
  | finish pid =>
    simp only [step] at hstep
    split at hstep
    . next req r hp =>
      cases hstep
      exact .finish hp
    . cases hstep
  | crash pid =>
    simp only [step] at hstep
    split at hstep
    . next p hp =>
      cases hstep
      exact .crash hp
    . cases hstep
  | tick t =>
    cases hstep
    exact .tick t

def run : List (Move S) → Config S → Option (Config S)
  | [], c => some c
  | m :: ms, c =>
    match step m c with
    | some (_, c') => run ms c'
    | none => none

/--
Every step of the run meets a condition on the world before it and on its event.
-/
def Along (ok : World S → Event S → Prop) : List (Move S) → Config S → Prop
  | [], _ => True
  | m :: ms, c =>
    match step m c with
    | some (e, c') => ok c.world e ∧ Along ok ms c'
    | none => True

instance decidableAlong (ok : World S → Event S → Prop) [∀ w e, Decidable (ok w e)]
    : (ms : List (Move S)) → (c : Config S) → Decidable (Along ok ms c)
  | [], _ => isTrue trivial
  | m :: ms, c =>
    match h : step m c with
    | some (e, c') =>
      have := decidableAlong ok ms c'
      decidable_of_iff (ok c.world e ∧ Along ok ms c') (by simp only [Along, h])
    | none => isTrue (by simp only [Along, h])

theorem run_append (ms ms' : List (Move S)) (c : Config S)
    : run (ms ++ ms') c = (run ms c).bind (run ms') := by
  induction ms generalizing c with
  | nil => rfl
  | cons m ms ih =>
    simp only [List.cons_append, run]
    cases step m c with
    | none => rfl
    | some next => exact ih next.2

/--
A run that was computed, and what was checked of where it ends.
-/
theorem exists_of_any {ms : List (Move S)} {c : Config S} {p : Config S → Bool}
    (h : (run ms c).any p = true) : ∃ c', run ms c = some c' ∧ p c' = true := by
  cases hrun : run ms c with
  | none =>
    rw [hrun] at h
    cases h
  | some c' =>
    rw [hrun] at h
    exact ⟨c', rfl, h⟩

theorem along_append {ok : World S → Event S → Prop} {ms ms' : List (Move S)} {c c' : Config S}
    (h : Along ok (ms ++ ms') c) (hrun : run ms c = some c') : Along ok ms c ∧ Along ok ms' c' := by
  induction ms generalizing c with
  | nil =>
    cases hrun
    exact ⟨trivial, h⟩
  | cons m ms ih =>
    simp only [List.cons_append, Along, run] at h hrun ⊢
    cases hstep : step m c with
    | none => simp [hstep] at hrun
    | some next =>
      simp only [hstep] at h hrun ⊢
      have := ih h.2 hrun
      exact ⟨⟨h.1, this.1⟩, this.2⟩

theorem along_join {ok : World S → Event S → Prop} {ms ms' : List (Move S)} {c c' : Config S}
    (h : Along ok ms c) (hrun : run ms c = some c') (h' : Along ok ms' c')
    : Along ok (ms ++ ms') c := by
  induction ms generalizing c with
  | nil =>
    cases hrun
    exact h'
  | cons m ms ih =>
    simp only [List.cons_append, Along, run] at h hrun ⊢
    cases hstep : step m c with
    | none => simp [hstep] at hrun
    | some next =>
      simp only [hstep] at h hrun ⊢
      exact ⟨h.1, ih h.2 hrun⟩

theorem along_mono {ok ok' : World S → Event S → Prop} {ms : List (Move S)} {c : Config S}
    (h : Along ok ms c) (hmono : ∀ w e, ok w e → ok' w e) : Along ok' ms c := by
  induction ms generalizing c with
  | nil => trivial
  | cons m ms ih =>
    simp only [Along] at h ⊢
    split
    . next hstep =>
      simp only [hstep] at h
      exact ⟨hmono _ _ h.1, ih h.2⟩
    . trivial

theorem along_and {ok ok' : World S → Event S → Prop} {ms : List (Move S)} {c : Config S}
    (h : Along ok ms c) (h' : Along ok' ms c) : Along (fun w e => ok w e ∧ ok' w e) ms c := by
  induction ms generalizing c with
  | nil => trivial
  | cons m ms ih =>
    simp only [Along] at h h' ⊢
    split
    . next hstep =>
      simp only [hstep] at h h'
      exact ⟨⟨h.1, h'.1⟩, ih h.2 h'.2⟩
    . trivial

/--
The processes of a step that spawns one are numbered in their order.
-/
theorem Steps.next {c : Config S} {next : Event S × Config S} (h : Steps c next)
    : c.next ≤ next.2.next
      ∧ ∀ pid req, next.1 = .spawn pid req → c.next ≤ pid ∧ pid < next.2.next := by
  cases h with
  | spawn req =>
    constructor
    . exact Nat.le_succ _
    . intro pid req heq
      cases heq
      exact ⟨Nat.le_refl _, Nat.lt_succ_self _⟩
  | answer _ _ => exact ⟨Nat.le_refl _, by intro _ _ heq; cases heq⟩
  | finish _ => exact ⟨Nat.le_refl _, by intro _ _ heq; cases heq⟩
  | crash _ => exact ⟨Nat.le_refl _, by intro _ _ heq; cases heq⟩
  | tick t => exact ⟨Nat.le_refl _, by intro _ _ heq; cases heq⟩

theorem run_next {ms : List (Move S)} {c c' : Config S} (hrun : run ms c = some c')
    : c.next ≤ c'.next := by
  induction ms generalizing c with
  | nil =>
    cases hrun
    exact Nat.le_refl _
  | cons m ms ih =>
    simp only [run] at hrun
    split at hrun
    . next hstep => exact Nat.le_trans (step_steps hstep).next.1 (ih hrun)
    . cases hrun

theorem along_spawns {ms : List (Move S)} {c c' : Config S} (hrun : run ms c = some c')
    : Along (fun _ e => ∀ pid req, e = .spawn pid req → c.next ≤ pid ∧ pid < c'.next) ms c := by
  induction ms generalizing c with
  | nil => trivial
  | cons m ms ih =>
    simp only [run, Along] at hrun ⊢
    cases hstep : step m c with
    | none => simp [hstep] at hrun
    | some next =>
      simp only [hstep] at hrun ⊢
      have hnext := (step_steps hstep).next
      constructor
      . intro pid req heq
        obtain ⟨hle, hlt⟩ := hnext.2 pid req heq
        exact ⟨hle, Nat.lt_of_lt_of_le hlt (run_next hrun)⟩
      . refine along_mono (ih hrun) ?_
        intro w e h pid req heq
        obtain ⟨hle, hlt⟩ := h pid req heq
        exact ⟨Nat.le_trans hnext.1 hle, hlt⟩

theorem Steps.trace {c : Config S} {next : Event S × Config S} (h : Steps c next)
    : next.2.world.trace = next.1 :: c.world.trace := by
  cases h <;> rfl

theorem Steps.world_eq {c : Config S} {next : Event S × Config S} (h : Steps c next)
    : next.2.world = c.world.after next.2.world.state next.1 := by
  cases h <;> rfl

theorem run_trace {ms : List (Move S)} {c c' : Config S} (hrun : run ms c = some c') {e : Event S}
    (he : e ∈ c.world.trace) : e ∈ c'.world.trace := by
  induction ms generalizing c with
  | nil =>
    cases hrun
    exact he
  | cons m ms ih =>
    simp only [run] at hrun
    split at hrun
    . next hstep =>
      apply ih hrun
      have htrace := (step_steps hstep).trace
      simp only at htrace
      rw [htrace]
      exact List.mem_cons_of_mem _ he
    . cases hrun

theorem along_true (ms : List (Move S)) (c : Config S) : Along (fun _ _ => True) ms c := by
  induction ms generalizing c with
  | nil => trivial
  | cons m ms ih =>
    unfold Along
    split
    . exact ⟨trivial, ih _⟩
    . trivial

end Config
end Interleave
