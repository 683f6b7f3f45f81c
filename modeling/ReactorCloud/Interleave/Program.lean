/-!
This module contains programs that talk to a shared service by calls. A program is the tree of its
calls with a continuation for every answer.
-/

namespace Interleave

/--
The calls a service answers, the type of each answer and the errors a call can end with instead.
-/
structure Interface where
  Call : Type
  Ret : Call → Type
  Err : Type

inductive Program (I : Interface) (α : Type) where
  | done (r : Except I.Err α)
  | call (c : I.Call) (next : Except I.Err (I.Ret c) → Program I α)

namespace Program

variable {I : Interface} {α β : Type} {σ : Type}

/--
An error ends the program, as `?` does.
-/
def bind (x : Program I α) (f : α → Program I β) : Program I β :=
  match x with
  | .done (.ok a) => f a
  | .done (.error e) => .done (.error e)
  | .call c next => .call c (fun r => (next r).bind f)

instance : Monad (Program I) where
  pure a := .done (.ok a)
  bind := bind

theorem pure_bind (a : α) (f : α → Program I β) : (pure a : Program I α) >>= f = f a := rfl

theorem bind_assoc {γ : Type} (x : Program I α) (f : α → Program I β) (g : β → Program I γ)
    : (x >>= f) >>= g = x >>= fun a => f a >>= g := by
  induction x with
  | done r => cases r <;> rfl
  | call c next ih =>
    show call c _ = call c _
    congr 1
    funext r
    exact ih r

abbrev request (c : I.Call) : Program I (I.Ret c) :=
  .call c .done

def fail (e : I.Err) : Program I α :=
  .done (.error e)

/--
`ok_or` of an optional value.
-/
def okOr (x : Option α) (e : I.Err) : Program I α :=
  match x with
  | some a => pure a
  | none => fail e

def ofExcept (r : Except I.Err α) : Program I α :=
  .done r

/--
The guard of an early return.
-/
def require (b : Bool) (e : I.Err) : Program I Unit :=
  if b then pure () else fail e

/--
Run a program to its result without leaving on an error.
-/
def attempt : Program I α → Program I (Except I.Err α)
  | .done r => .done (.ok r)
  | .call c next => .call c (fun r => (next r).attempt)

/--
The program as one of a service with further calls.
-/
def lift {J : Interface} (embed : I.Call → J.Call) (err : I.Err → J.Err)
    (answer : (c : I.Call) → Except J.Err (J.Ret (embed c)) → Except I.Err (I.Ret c))
    : Program I α → Program J α
  | .done r => .done (r.mapError err)
  | .call c next => .call (embed c) (fun r => (next (answer c r)).lift embed err answer)

theorem lift_bind {J : Interface} {embed : I.Call → J.Call} {err : I.Err → J.Err}
    {answer : (c : I.Call) → Except J.Err (J.Ret (embed c)) → Except I.Err (I.Ret c)}
    (x : Program I α) (f : α → Program I β)
    : (x >>= f).lift embed err answer
        =
      x.lift embed err answer >>= fun a => (f a).lift embed err answer := by
  induction x with
  | done r => cases r <;> rfl
  | call c next ih =>
    show call _ _ = call _ _
    congr 1
    funext r
    exact ih _

/--
Every call that can occur satisfies `P`.
-/
def Uses (P : I.Call → Prop) : Program I α → Prop
  | .done _ => True
  | .call c next => P c ∧ ∀ r, (next r).Uses P

section Uses

variable {P : I.Call → Prop}

theorem uses_pure (a : α) : (pure a : Program I α).Uses P := by
  trivial

theorem uses_fail (e : I.Err) : (fail e : Program I α).Uses P := by
  trivial

theorem uses_request (c : I.Call) (h : P c) : (request c).Uses P := by
  constructor
  . exact h
  . intro r
    trivial

theorem uses_bind {x : Program I α} {f : α → Program I β} (hx : x.Uses P) (hf : ∀ a, (f a).Uses P)
    : (x >>= f).Uses P := by
  induction x with
  | done r =>
    cases r with
    | ok a => exact hf a
    | error e => trivial
  | call c next ih =>
    constructor
    . exact hx.1
    . intro r
      exact ih r (hx.2 r)

theorem uses_okOr (x : Option α) (e : I.Err) : (okOr x e).Uses P := by
  cases x <;> trivial

theorem uses_ofExcept (r : Except I.Err α) : (ofExcept r).Uses P := by
  trivial

theorem uses_require (b : Bool) (e : I.Err) : (require b e).Uses P := by
  cases b <;> trivial

theorem uses_attempt {x : Program I α} (hx : x.Uses P) : x.attempt.Uses P := by
  induction x with
  | done r => trivial
  | call c next ih =>
    constructor
    . exact hx.1
    . intro r
      exact ih r (hx.2 r)

theorem uses_ite {x y : Program I α} (p : Prop) [Decidable p] (hx : x.Uses P) (hy : y.Uses P)
    : (if p then x else y).Uses P := by
  split
  . exact hx
  . exact hy

theorem Uses.mono {Q : I.Call → Prop} {x : Program I α} (hx : x.Uses P) (h : ∀ c, P c → Q c)
    : x.Uses Q := by
  induction x with
  | done r => trivial
  | call c next ih =>
    constructor
    . exact h c hx.1
    . intro r
      exact ih r (hx.2 r)

theorem uses_lift {J : Interface} {P : J.Call → Prop} {embed : I.Call → J.Call} {err : I.Err → J.Err}
    {answer : (c : I.Call) → Except J.Err (J.Ret (embed c)) → Except I.Err (I.Ret c)}
    {x : Program I α} (hx : x.Uses (fun c => P (embed c))) : (x.lift embed err answer).Uses P := by
  induction x with
  | done r => trivial
  | call c next ih =>
    constructor
    . exact hx.1
    . intro r
      exact ih _ (hx.2 _)

end Uses

/--
The run of a program that no other one interferes with. The handler answers the calls.
-/
def eval (handler : (c : I.Call) → σ → Except I.Err (I.Ret c) × σ) : Program I α → σ
    → Except I.Err α × σ
  | .done r, s => (r, s)
  | .call c next, s => (next (handler c s).1).eval handler (handler c s).2

section Eval

variable {handler : (c : I.Call) → σ → Except I.Err (I.Ret c) × σ}

@[simp]
theorem eval_pure (a : α) (s : σ) : (pure a : Program I α).eval handler s = (.ok a, s) := rfl

@[simp]
theorem eval_fail (e : I.Err) (s : σ) : (fail e : Program I α).eval handler s = (.error e, s) := rfl

@[simp]
theorem eval_done (r : Except I.Err α) (s : σ) : (done r).eval handler s = (r, s) := rfl

@[simp]
theorem eval_call (c : I.Call) (next : Except I.Err (I.Ret c) → Program I α) (s : σ)
    : (call c next).eval handler s = (next (handler c s).1).eval handler (handler c s).2 := rfl

theorem eval_bind (x : Program I α) (f : α → Program I β) (s : σ)
    : (x >>= f).eval handler s
        =
      match x.eval handler s with
      | (.ok a, s) => (f a).eval handler s
      | (.error e, s) => (.error e, s) := by
  induction x generalizing s with
  | done r => cases r <;> rfl
  | call c next ih => exact ih _ _

@[simp]
theorem eval_attempt (x : Program I α) (s : σ)
    : x.attempt.eval handler s = (.ok (x.eval handler s).1, (x.eval handler s).2) := by
  induction x generalizing s with
  | done r => rfl
  | call c next ih => exact ih _ _

@[simp]
theorem eval_okOr_some (a : α) (e : I.Err) (s : σ)
    : (okOr (some a) e : Program I α).eval handler s = (.ok a, s) := rfl

@[simp]
theorem eval_okOr_none (e : I.Err) (s : σ)
    : (okOr none e : Program I α).eval handler s = (.error e, s) := rfl

@[simp]
theorem eval_require (b : Bool) (e : I.Err) (s : σ)
    : (require b e : Program I Unit).eval handler s
        =
      (if b then .ok () else .error e, s) := by
  cases b <;> rfl

variable (handler) in
/--
The program does not end with an error.
-/
def Succeeds (x : Program I α) (s : σ) : Prop :=
  ∃ a s', x.eval handler s = (.ok a, s')

theorem succeeds_pure (a : α) (s : σ) : (pure a : Program I α).Succeeds handler s :=
  ⟨a, s, rfl⟩

theorem not_succeeds_fail (e : I.Err) (s : σ) : ¬ (fail e : Program I α).Succeeds handler s := by
  rintro ⟨a, s', h⟩
  cases h

theorem succeeds_bind {x : Program I α} {f : α → Program I β} {s : σ}
    : (x >>= f).Succeeds handler s
      ↔ ∃ a s', x.eval handler s = (.ok a, s') ∧ (f a).Succeeds handler s' := by
  unfold Succeeds
  rw [eval_bind]
  cases x.eval handler s with
  | mk r s' =>
    cases r with
    | ok a =>
      constructor
      . intro h
        exact ⟨a, s', rfl, h⟩
      . rintro ⟨_, _, heq, h⟩
        cases heq
        exact h
    | error e => simp

theorem succeeds_okOr_bind {x : Option α} {e : I.Err} {f : α → Program I β} {s : σ}
    : (okOr x e >>= f).Succeeds handler s ↔ ∃ a, x = some a ∧ (f a).Succeeds handler s := by
  cases x with
  | none =>
    constructor
    . intro h
      exact absurd h (not_succeeds_fail e s)
    . rintro ⟨a, heq, _⟩
      cases heq
  | some a =>
    constructor
    . intro h
      exact ⟨a, rfl, h⟩
    . rintro ⟨a, heq, h⟩
      cases heq
      exact h

theorem succeeds_require_bind {b : Bool} {e : I.Err} {f : Unit → Program I β} {s : σ}
    : (require b e >>= f).Succeeds handler s ↔ b = true ∧ (f ()).Succeeds handler s := by
  cases b with
  | false =>
    constructor
    . intro h
      exact absurd h (not_succeeds_fail e s)
    . rintro ⟨heq, _⟩
      cases heq
  | true =>
    constructor
    . intro h
      exact ⟨rfl, h⟩
    . intro h
      exact h.2

variable (handler) in
/--
What the run ends with satisfies `Q`.
-/
def Ensures (x : Program I α) (Q : Except I.Err α → σ → Prop) (s : σ) : Prop :=
  Q (x.eval handler s).1 (x.eval handler s).2

theorem ensures_done {r : Except I.Err α} {Q : Except I.Err α → σ → Prop} {s : σ} (h : Q r s)
    : (done r).Ensures handler Q s := h

theorem ensures_call {c : I.Call} {next : Except I.Err (I.Ret c) → Program I α}
    {Q : Except I.Err α → σ → Prop} {s : σ}
    (h : (next (handler c s).1).Ensures handler Q (handler c s).2)
    : (call c next).Ensures handler Q s := h

theorem ensures_bind {x : Program I α} {f : α → Program I β} {Q : Except I.Err β → σ → Prop} {s : σ}
    (h : x.Ensures handler (fun r s' =>
      match r with
      | .ok a => (f a).Ensures handler Q s'
      | .error e => Q (.error e) s') s)
    : (x >>= f).Ensures handler Q s := by
  unfold Ensures at h ⊢
  rw [eval_bind]
  cases hx : x.eval handler s with
  | mk r s' =>
    rw [hx] at h
    cases r with
    | ok a => exact h
    | error e => exact h

theorem ensures_okOr_bind {x : Option α} {e : I.Err} {f : α → Program I β}
    {Q : Except I.Err β → σ → Prop} {s : σ} (hsome : ∀ a, x = some a → (f a).Ensures handler Q s)
    (hnone : x = none → Q (.error e) s) : (okOr x e >>= f).Ensures handler Q s := by
  cases x with
  | some a => exact hsome a rfl
  | none => exact hnone rfl

theorem ensures_require_bind {b : Bool} {e : I.Err} {f : Unit → Program I β}
    {Q : Except I.Err β → σ → Prop} {s : σ} (htrue : b = true → (f ()).Ensures handler Q s)
    (hfalse : b = false → Q (.error e) s) : (require b e >>= f).Ensures handler Q s := by
  cases b with
  | true => exact htrue rfl
  | false => exact hfalse rfl

theorem Ensures.mono {x : Program I α} {Q Q' : Except I.Err α → σ → Prop} {s : σ}
    (h : x.Ensures handler Q s) (hmono : ∀ r s', Q r s' → Q' r s') : x.Ensures handler Q' s :=
  hmono _ _ h

variable (handler) in
/--
The calls the run makes.
-/
def trace : Program I α → σ → List I.Call
  | .done _, _ => []
  | .call c next, s => c :: (next (handler c s).1).trace (handler c s).2

theorem Uses.of_mem_trace {P : I.Call → Prop} {x : Program I α} (hx : x.Uses P) {s : σ}
    {c : I.Call} (h : c ∈ x.trace handler s) : P c := by
  induction x generalizing s with
  | done r => cases h
  | call d next ih =>
    cases h with
    | head => exact hx.1
    | tail _ h => exact ih _ (hx.2 _) h

end Eval

end Program
end Interleave
