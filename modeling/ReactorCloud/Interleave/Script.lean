import ReactorCloud.Interleave.Program

/-!
This module contains programs that run alone and can be stopped between two of their calls. A script has one
choice for each call, and a program stops where its script ends.
-/

namespace Interleave
namespace Program

variable {I : Interface} {α β : Type} {σ χ : Type}

/--
What a program ends with, unless it is stopped.
-/
abbrev Outcome (I : Interface) (α : Type) := Option (Except I.Err α)

/--
The run of a script. The handler answers a call as the choice says.
-/
def play (handler : χ → (c : I.Call) → σ → Except I.Err (I.Ret c) × σ)
    : Program I α → List χ → σ → Outcome I α × σ
  | .done r, _, s => (some r, s)
  | .call _ _, [], s => (none, s)
  | .call c next, choice :: script, s =>
    (next (handler choice c s).1).play handler script (handler choice c s).2

/--
Every call of the run gets a choice that it `may` get, and `none` where the run is stopped before it.
-/
def Plays (handler : χ → (c : I.Call) → σ → Except I.Err (I.Ret c) × σ) (may : I.Call → Option χ → Prop)
    : Program I α → List χ → σ → Prop
  | .done _, _, _ => True
  | .call c _, [], _ => may c none
  | .call c next, choice :: script, s =>
    may c (some choice) ∧ (next (handler choice c s).1).Plays handler may script (handler choice c s).2

/--
Every run in which the calls get what they `may` get ends with `Q`.
-/
def Ends (handler : χ → (c : I.Call) → σ → Except I.Err (I.Ret c) × σ) (may : I.Call → Option χ → Prop)
    (Q : Outcome I α → σ → Prop) : Program I α → σ → Prop
  | .done r, s => Q (some r) s
  | .call c next, s => (may c none → Q none s)
      ∧ ∀ choice, may c (some choice)
        → (next (handler choice c s).1).Ends handler may Q (handler choice c s).2

/--
What is to hold after the first of two programs for both to end with `Q`.
-/
def Then (handler : χ → (c : I.Call) → σ → Except I.Err (I.Ret c) × σ) (may : I.Call → Option χ → Prop)
    (Q : Outcome I α → σ → Prop) (f : β → Program I α) : Outcome I β → σ → Prop
  | some (.ok b), s => (f b).Ends handler may Q s
  | some (.error e), s => Q (some (.error e)) s
  | none, s => Q none s

section Rules

variable {handler : χ → (c : I.Call) → σ → Except I.Err (I.Ret c) × σ}
variable {may may' : I.Call → Option χ → Prop} {Q Q' : Outcome I α → σ → Prop} {x : Program I α} {s : σ}

theorem play_of_ends (h : x.Ends handler may Q s) {script : List χ} (hplays : x.Plays handler may script s)
    : Q (x.play handler script s).1 (x.play handler script s).2 := by
  induction x generalizing script s with
  | done r => exact h
  | call c next ih =>
    cases script with
    | nil => exact h.1 hplays
    | cons choice script => exact ih _ (h.2 choice hplays.1) hplays.2

theorem plays_true (x : Program I α) (script : List χ) (s : σ)
    : x.Plays handler (fun _ _ => True) script s := by
  induction x generalizing script s with
  | done r => trivial
  | call c next ih =>
    cases script with
    | nil => trivial
    | cons choice script => exact ⟨trivial, ih _ script _⟩

/--
A program that is never stopped and always gets the same choice.
-/
theorem eval_of_ends {choice : χ} (h : x.Ends handler (fun _ got => got = some choice) Q s)
    : Q (some (x.eval (handler choice) s).1) (x.eval (handler choice) s).2 := by
  induction x generalizing s with
  | done r => exact h
  | call c next ih => exact ih _ (h.2 choice rfl)

theorem ends_mono (h : x.Ends handler may Q s) (hmono : ∀ out s, Q out s → Q' out s)
    : x.Ends handler may Q' s := by
  induction x generalizing s with
  | done r => exact hmono _ _ h
  | call c next ih =>
    constructor
    . intro hmay
      exact hmono _ _ (h.1 hmay)
    . intro choice hmay
      exact ih _ (h.2 choice hmay)

theorem ends_bind {x : Program I β} {f : β → Program I α}
    (h : x.Ends handler may (Then handler may Q f) s) : (x >>= f).Ends handler may Q s := by
  induction x generalizing s with
  | done r =>
    cases r with
    | ok b => exact h
    | error e => exact h
  | call c next ih =>
    constructor
    . exact h.1
    . intro choice hmay
      exact ih _ (h.2 choice hmay)

theorem ends_call {c : I.Call} {f : I.Ret c → Program I α} (hstop : may c none → Q none s)
    (hcall : ∀ choice, may c (some choice) → match handler choice c s with
      | (.ok a, s') => (f a).Ends handler may Q s'
      | (.error e, s') => Q (some (.error e)) s')
    : (request c >>= f).Ends handler may Q s := by
  constructor
  . exact hstop
  . intro choice hmay
    have := hcall choice hmay
    revert this
    generalize handler choice c s = answer
    intro this
    obtain ⟨r, s'⟩ := answer
    cases r with
    | ok a => exact this
    | error e => exact this

/--
The rule for a call whose error does not end the program.
-/
theorem ends_attempt {c : I.Call} {f : Except I.Err (I.Ret c) → Program I α} (hstop : may c none → Q none s)
    (hcall : ∀ choice, may c (some choice)
      → (f (handler choice c s).1).Ends handler may Q (handler choice c s).2)
    : ((request c).attempt >>= f).Ends handler may Q s :=
  ⟨hstop, hcall⟩

theorem ends_attempt_bind {x : Program I β} {f : Except I.Err β → Program I α}
    (h : x.Ends handler may (fun out s => match out with
      | some r => (f r).Ends handler may Q s
      | none => Q none s) s)
    : (x.attempt >>= f).Ends handler may Q s := by
  induction x generalizing s with
  | done r => exact h
  | call c next ih =>
    constructor
    . exact h.1
    . intro choice hmay
      exact ih _ (h.2 choice hmay)

/--
What every call of a program keeps holds where it ends or is stopped.
-/
theorem ends_of_uses {P : I.Call → Prop} {R : σ → Prop} (hx : x.Uses P)
    (hcall : ∀ c, P c → ∀ choice s, R s → R (handler choice c s).2) (hs : R s)
    : x.Ends handler may (fun _ s => R s) s := by
  induction x generalizing s with
  | done r => exact hs
  | call c next ih =>
    constructor
    . intro _
      exact hs
    . intro choice _
      exact ih _ (hx.2 _) (hcall c hx.1 choice s hs)

theorem ends_okOr {o : Option β} {e : I.Err} {f : β → Program I α}
    (hsome : ∀ b, o = some b → (f b).Ends handler may Q s) (hnone : o = none → Q (some (.error e)) s)
    : (okOr o e >>= f).Ends handler may Q s := by
  cases o with
  | some b => exact hsome b rfl
  | none => exact hnone rfl

theorem ends_require {b : Bool} {e : I.Err} {f : Unit → Program I α}
    (htrue : b = true → (f ()).Ends handler may Q s) (hfalse : b = false → Q (some (.error e)) s)
    : (require b e >>= f).Ends handler may Q s := by
  cases b with
  | true => exact htrue rfl
  | false => exact hfalse rfl

theorem ends_ite {x y : Program I α} {p : Prop} [Decidable p] (hx : p → x.Ends handler may Q s)
    (hy : ¬ p → y.Ends handler may Q s) : (if p then x else y).Ends handler may Q s := by
  split
  . next h => exact hx h
  . next h => exact hy h

end Rules

end Program
end Interleave
