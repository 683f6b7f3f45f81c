import ReactorCloud.Interleave.History

/-!
This module contains a rely-guarantee calculus for interleaved programs. A proof outline says what a
process may rely on between two of its calls, what every step keeps, and which steps the runs in
question are made of. A program is verified alone, against all that its outline lets the others do.
-/

namespace Interleave

variable {I : Interface} {S : System I} {α β : Type}

structure Outline (S : System I) where
  /-- Holds in every world. -/
  inv : World S → Prop
  /-- The condition on the steps of the runs in question. -/
  ok : World S → Event S → Prop
  /-- Holds of every step. -/
  safe : World S → Event S → Prop
  /-- What the steps of the others can do from the view of one process. -/
  rely : Nat → World S → World S → Prop
  /-- What holds when a process is about to return. -/
  post : Nat → (req : S.Request) → Except I.Err (S.Reply req) → World S → Prop
  rely_refl : ∀ pid w, rely pid w w
  rely_trans : ∀ pid w w' w'', rely pid w w' → rely pid w' w'' → rely pid w w''

namespace Outline

/--
What the process `pid` can find after the others have taken some steps.
-/
def Rely (O : Outline S) (pid : Nat) (w w' : World S) : Prop :=
  Extends pid w w' ∧ O.rely pid w w'

/--
The step with the event `e` from `w` to the state `s` is one that the outline allows.
-/
structure Keeps (O : Outline S) (w : World S) (s : S.State) (e : Event S) : Prop where
  safe : O.safe w e
  inv : O.inv (w.after s e)
  rely : ∀ pid, e.pid? ≠ some pid → O.rely pid w (w.after s e)

/--
From the world `w` on every call of the program keeps to the outline, and `Q` holds when it is done.
-/
def Wp (O : Outline S) (pid : Nat) (Q : Except I.Err α → World S → Prop) : Program I α → World S → Prop
  | .done r, w => ∀ w', O.Rely pid w w' → O.inv w' → Q r w'
  | .call c next, w => ∀ w', O.Rely pid w w' → O.inv w' → ∀ r s,
      Answers S pid c w'.state r s → O.ok w' (.call pid c r)
        → O.Keeps w' s (.call pid c r) ∧ O.Wp pid Q (next r) (w'.after s (.call pid c r))

variable {O : Outline S} {pid : Nat} {w w' w'' : World S}

theorem Rely.refl : O.Rely pid w w :=
  ⟨.refl pid w, O.rely_refl pid w⟩

theorem Rely.trans (h : O.Rely pid w w') (h' : O.Rely pid w' w'') : O.Rely pid w w'' :=
  ⟨h.1.trans h'.1, O.rely_trans pid w w' w'' h.2 h'.2⟩

theorem Keeps.relies {s : S.State} {e : Event S} (h : O.Keeps w s e) (hpid : e.pid? ≠ some pid)
    : O.Rely pid w (w.after s e) :=
  ⟨.after w s e hpid, h.rely pid hpid⟩

variable {Q Q' : Except I.Err α → World S → Prop} {x : Program I α}

theorem wp_rely (h : O.Wp pid Q x w) (hrely : O.Rely pid w w') : O.Wp pid Q x w' := by
  cases x with
  | done r =>
    intro w'' hrely'
    exact h w'' (hrely.trans hrely')
  | call c next =>
    intro w'' hrely'
    exact h w'' (hrely.trans hrely')

/--
The first call of a program, or its end, already leaves time for the others.
-/
theorem wp_of_rely (h : ∀ w', O.Rely pid w w' → O.inv w' → O.Wp pid Q x w') : O.Wp pid Q x w := by
  cases x with
  | done r =>
    intro w' hrely hinv
    exact h w' hrely hinv w' .refl hinv
  | call c next =>
    intro w' hrely hinv
    exact h w' hrely hinv w' .refl hinv

theorem wp_mono (h : O.Wp pid Q x w) (hmono : ∀ r w, O.inv w → Q r w → Q' r w)
    : O.Wp pid Q' x w := by
  induction x generalizing w with
  | done r =>
    intro w' hrely hinv
    exact hmono r w' hinv (h w' hrely hinv)
  | call c next ih =>
    intro w' hrely hinv r s hanswer hok
    have := h w' hrely hinv r s hanswer hok
    exact ⟨this.1, ih r this.2⟩

theorem wp_pure {a : α} (h : ∀ w', O.Rely pid w w' → O.inv w' → Q (.ok a) w')
    : O.Wp pid Q (pure a) w := h

theorem wp_fail {e : I.Err} (h : ∀ w', O.Rely pid w w' → O.inv w' → Q (.error e) w')
    : O.Wp pid Q (Program.fail e) w := h

theorem wp_bind {x : Program I β} {f : β → Program I α}
    (h : O.Wp pid (fun r w => match r with
      | .ok b => O.Wp pid Q (f b) w
      | .error e => O.Wp pid Q (Program.fail e) w) x w)
    : O.Wp pid Q (x >>= f) w := by
  induction x generalizing w with
  | done r =>
    cases r with
    | ok b => exact wp_of_rely h
    | error e => exact wp_of_rely h
  | call c next ih =>
    intro w' hrely hinv r s hanswer hok
    have := h w' hrely hinv r s hanswer hok
    exact ⟨this.1, ih r this.2⟩

theorem wp_request {c : I.Call} {Q : Except I.Err (I.Ret c) → World S → Prop}
    (h : ∀ w', O.Rely pid w w' → O.inv w' → ∀ r s, Answers S pid c w'.state r s
      → O.ok w' (.call pid c r) → O.Keeps w' s (.call pid c r)
        ∧ ∀ w'', O.Rely pid (w'.after s (.call pid c r)) w'' → O.inv w'' → Q r w'')
    : O.Wp pid Q (Program.request c) w := h

/--
The rule for a call in the middle of a program.
-/
theorem wp_call {c : I.Call} {f : I.Ret c → Program I α}
    (h : ∀ w', O.Rely pid w w' → O.inv w' → ∀ r s, Answers S pid c w'.state r s
      → O.ok w' (.call pid c r) → O.Keeps w' s (.call pid c r)
        ∧ match r with
          | .ok a => O.Wp pid Q (f a) (w'.after s (.call pid c r))
          | .error e => O.Wp pid Q (Program.fail e) (w'.after s (.call pid c r)))
    : O.Wp pid Q (Program.request c >>= f) w := by
  apply wp_bind
  apply wp_request
  intro w' hrely hinv r s hanswer hok
  obtain ⟨hkeeps, hnext⟩ := h w' hrely hinv r s hanswer hok
  constructor
  . exact hkeeps
  . intro w'' hrely' _
    cases r with
    | ok a => exact wp_rely hnext hrely'
    | error e => exact wp_rely hnext hrely'

theorem wp_okOr {o : Option β} {e : I.Err} {f : β → Program I α}
    (hsome : ∀ b, o = some b → O.Wp pid Q (f b) w)
    (hnone : o = none → O.Wp pid Q (Program.fail e) w)
    : O.Wp pid Q (Program.okOr o e >>= f) w := by
  cases o with
  | some b => exact hsome b rfl
  | none => exact hnone rfl

theorem wp_require {b : Bool} {e : I.Err} {f : Unit → Program I α}
    (htrue : b = true → O.Wp pid Q (f ()) w) (hfalse : b = false → O.Wp pid Q (Program.fail e) w)
    : O.Wp pid Q (Program.require b e >>= f) w := by
  cases b with
  | true => exact htrue rfl
  | false => exact hfalse rfl

theorem wp_ite {p : Prop} [Decidable p] {y : Program I α} (hpos : p → O.Wp pid Q x w)
    (hneg : ¬ p → O.Wp pid Q y w) : O.Wp pid Q (if p then x else y) w := by
  split
  . next h => exact hpos h
  . next h => exact hneg h

theorem wp_attempt {Q : Except I.Err (Except I.Err α) → World S → Prop}
    (h : O.Wp pid (fun r w => Q (.ok r) w) x w) : O.Wp pid Q x.attempt w := by
  induction x generalizing w with
  | done r => exact h
  | call c next ih =>
    intro w' hrely hinv r s hanswer hok
    have := h w' hrely hinv r s hanswer hok
    exact ⟨this.1, ih r this.2⟩

/--
The rule for a call whose error the program looks at itself.
-/
theorem wp_try {c : I.Call} {f : Except I.Err (I.Ret c) → Program I α}
    (h : ∀ w', O.Rely pid w w' → O.inv w' → ∀ r s, Answers S pid c w'.state r s
      → O.ok w' (.call pid c r) → O.Keeps w' s (.call pid c r)
        ∧ O.Wp pid Q (f r) (w'.after s (.call pid c r)))
    : O.Wp pid Q ((Program.request c).attempt >>= f) w := by
  apply wp_bind
  apply wp_attempt
  apply wp_request
  intro w' hrely hinv r s hanswer hok
  obtain ⟨hkeeps, hnext⟩ := h w' hrely hinv r s hanswer hok
  constructor
  . exact hkeeps
  . intro w'' hrely' _
    exact wp_rely hnext hrely'

/--
A program that only uses calls that keep an assertion, which is stable, keeps it.
-/
theorem wp_of_uses {P : I.Call → Prop} {J : World S → Prop} (hx : x.Uses P) (hJ : J w)
    (hstable : ∀ w w', O.Rely pid w w' → O.inv w' → J w → J w')
    (hcall : ∀ c, P c → ∀ w r s, J w → O.inv w → Answers S pid c w.state r s
      → O.ok w (.call pid c r) → O.Keeps w s (.call pid c r) ∧ J (w.after s (.call pid c r)))
    : O.Wp pid (fun _ w => J w) x w := by
  induction x generalizing w with
  | done r =>
    intro w' hrely hinv
    exact hstable w w' hrely hinv hJ
  | call c next ih =>
    intro w' hrely hinv r s hanswer hok
    have := hcall c hx.1 w' r s (hstable w w' hrely hinv hJ) hinv hanswer hok
    exact ⟨this.1, ih r (hx.2 r) this.2⟩

/--
What is to be shown of an outline.
-/
structure Sound (O : Outline S) : Prop where
  spawn : ∀ w pid req, O.inv w → Fresh pid w → O.ok w (.spawn pid req)
    → O.Keeps w w.state (.spawn pid req)
  program : ∀ w pid req, O.inv w → Fresh pid w → O.ok w (.spawn pid req)
    → O.Wp pid (O.post pid req) (S.program req) (w.after w.state (.spawn pid req))
  finish : ∀ w pid req r, O.inv w → Running pid req w → O.post pid req r w
    → O.ok w (.finish pid req r) → O.Keeps w (S.release pid w.state) (.finish pid req r)
  crash : ∀ w pid req, O.inv w → Running pid req w → O.ok w (.crash pid)
    → O.Keeps w (S.release pid w.state) (.crash pid)
  tick : ∀ w t, O.inv w → O.ok w .tick → O.Keeps w (S.tick t w.state) .tick

/--
Every process of the configuration is one that has been verified up to where it is.
-/
structure Valid (O : Outline S) (c : Config S) : Prop where
  tidy : c.Tidy
  inv : O.inv c.world
  procs : ∀ pid p, c.procs pid = some p → O.Wp pid (O.post pid p.req) p.rest c.world

theorem Valid.start {s : S.State} (h : O.inv ⟨s, []⟩) : O.Valid (Config.start s) where
  tidy := .start s
  inv := h
  procs := by
    intro pid p hp
    cases hp

/--
The other processes stay valid in a step that the outline allows.
-/
theorem Valid.others {c : Config S} (h : O.Valid c) {s : S.State} {e : Event S}
    (hkeeps : O.Keeps c.world s e) {pid : Nat} {p : Process S} (hp : c.procs pid = some p)
    (hpid : e.pid? ≠ some pid) : O.Wp pid (O.post pid p.req) p.rest (c.world.after s e) :=
  wp_rely (h.procs pid p hp) (hkeeps.relies hpid)

theorem Sound.steps (h : O.Sound) {c : Config S} (hc : O.Valid c) {next : Event S × Config S}
    (hsteps : Config.Steps c next) (hok : O.ok c.world next.1)
    : O.safe c.world next.1 ∧ O.Valid next.2 := by
  have htidy := hc.tidy.steps hsteps
  cases hsteps with
  | spawn req =>
    have hkeeps := h.spawn c.world c.next req hc.inv hc.tidy.fresh hok
    refine ⟨hkeeps.safe, htidy, hkeeps.inv, ?_⟩
    intro pid p hp
    simp only [Function.update_apply] at hp
    split at hp
    . next heq =>
      cases hp
      subst heq
      exact h.program c.world c.next req hc.inv hc.tidy.fresh hok
    . next hne =>
      apply hc.others hkeeps hp
      intro heq
      cases heq
      exact hne rfl
  | @answer pid req call next r s hp hanswer =>
    obtain ⟨hkeeps, hnext⟩ := hc.procs pid _ hp c.world .refl hc.inv r s hanswer hok
    refine ⟨hkeeps.safe, htidy, hkeeps.inv, ?_⟩
    intro pid' p' hp'
    simp only [Config.answer, Function.update_apply] at hp'
    split at hp'
    . next heq =>
      cases hp'
      subst heq
      exact hnext
    . next hne =>
      apply hc.others hkeeps hp'
      intro heq
      cases heq
      exact hne rfl
  | @finish pid req r hp =>
    have hpost := hc.procs pid _ hp c.world .refl hc.inv
    have hkeeps := h.finish c.world pid req r hc.inv (hc.tidy.running pid _ hp) hpost hok
    refine ⟨hkeeps.safe, htidy, hkeeps.inv, ?_⟩
    intro pid' p' hp'
    simp only [Config.stop, Function.update_apply] at hp'
    split at hp'
    . cases hp'
    . next hne =>
      apply hc.others hkeeps hp'
      intro heq
      cases heq
      exact hne rfl
  | @crash pid p hp =>
    have hkeeps := h.crash c.world pid p.req hc.inv (hc.tidy.running pid _ hp) hok
    refine ⟨hkeeps.safe, htidy, hkeeps.inv, ?_⟩
    intro pid' p' hp'
    simp only [Config.stop, Function.update_apply] at hp'
    split at hp'
    . cases hp'
    . next hne =>
      apply hc.others hkeeps hp'
      intro heq
      cases heq
      exact hne rfl
  | tick t =>
    have hkeeps := h.tick c.world t hc.inv hok
    refine ⟨hkeeps.safe, htidy, hkeeps.inv, ?_⟩
    intro pid p hp
    apply hc.others hkeeps hp
    intro heq
    cases heq

theorem Sound.relates_step (h : O.Sound) {R : World S → World S → Prop}
    (hkeeps : ∀ w s e, O.Keeps w s e → R w (w.after s e)) {c : Config S} (hc : O.Valid c)
    {next : Event S × Config S} (hsteps : Config.Steps c next) (hok : O.ok c.world next.1)
    : R c.world next.2.world := by
  cases hsteps with
  | spawn req => exact hkeeps _ _ _ (h.spawn c.world c.next req hc.inv hc.tidy.fresh hok)
  | @answer pid req call next r s hp hanswer =>
    exact hkeeps _ _ _ (hc.procs pid _ hp c.world .refl hc.inv r s hanswer hok).1
  | @finish pid req r hp =>
    exact hkeeps _ _ _ (h.finish c.world pid req r hc.inv (hc.tidy.running pid _ hp)
      (hc.procs pid _ hp c.world .refl hc.inv) hok)
  | @crash pid p hp =>
    exact hkeeps _ _ _ (h.crash c.world pid p.req hc.inv (hc.tidy.running pid _ hp) hok)
  | tick t => exact hkeeps _ _ _ (h.tick c.world t hc.inv hok)

theorem Sound.run (h : O.Sound) {ms : List (Move S)} {c c' : Config S} (hc : O.Valid c)
    (hok : Config.Along O.ok ms c) (hrun : Config.run ms c = some c')
    : O.Valid c' ∧ Config.Along O.safe ms c := by
  induction ms generalizing c with
  | nil =>
    cases hrun
    exact ⟨hc, trivial⟩
  | cons m ms ih =>
    simp only [Config.run, Config.Along] at hrun hok ⊢
    cases hstep : Config.step m c with
    | none => simp [hstep] at hrun
    | some next =>
      simp only [hstep] at hrun hok ⊢
      obtain ⟨hsafe, hnext⟩ := h.steps hc (Config.step_steps hstep) hok.1
      have := ih hnext hok.2 hrun
      exact ⟨this.1, hsafe, this.2⟩

/--
The same of a run up to a move that is not possible.
-/
theorem Sound.along (h : O.Sound) {ms : List (Move S)} {c : Config S} (hc : O.Valid c)
    (hok : Config.Along O.ok ms c) : Config.Along O.safe ms c := by
  induction ms generalizing c with
  | nil => trivial
  | cons m ms ih =>
    simp only [Config.Along] at hok ⊢
    split
    . next hstep =>
      simp only [hstep] at hok
      obtain ⟨hsafe, hnext⟩ := h.steps hc (Config.step_steps hstep) hok.1
      exact ⟨hsafe, ih hnext hok.2⟩
    . trivial

/--
What every step keeps that the outline allows holds between the ends of a run.
-/
theorem Sound.run_relates (h : O.Sound) {R : World S → World S → Prop} (hrefl : ∀ w, R w w)
    (htrans : ∀ w w' w'', R w w' → R w' w'' → R w w'')
    (hkeeps : ∀ w s e, O.Keeps w s e → R w (w.after s e)) {ms : List (Move S)} {c c' : Config S}
    (hc : O.Valid c) (hok : Config.Along O.ok ms c) (hrun : Config.run ms c = some c')
    : R c.world c'.world := by
  induction ms generalizing c with
  | nil =>
    cases hrun
    exact hrefl _
  | cons m ms ih =>
    simp only [Config.run, Config.Along] at hrun hok
    cases hstep : Config.step m c with
    | none => simp [hstep] at hrun
    | some next =>
      simp only [hstep] at hrun hok
      have hsteps := Config.step_steps hstep
      exact htrans _ _ _ (h.relates_step hkeeps hc hsteps hok.1)
        (ih (h.steps hc hsteps hok.1).2 hok.2 hrun)

section Invariants

variable {P : I.Call → Prop} {J : S.State → Prop}

/--
The outline of an invariant that every call keeps on its own.
-/
def ofInvariant (J : S.State → Prop) : Outline S where
  inv w := J w.state
  ok _ _ := True
  safe _ _ := True
  rely _ _ _ := True
  post _ _ _ _ := True
  rely_refl _ _ := trivial
  rely_trans _ _ _ _ _ _ := trivial

theorem ofInvariant_sound (hprogram : ∀ req, (S.program req).Uses P)
    (hcall : ∀ c, P c → ∀ pid s r s', J s → Answers S pid c s r s' → J s')
    (hrelease : ∀ pid s, J s → J (S.release pid s)) (htick : ∀ t s, J s → J (S.tick t s))
    : (ofInvariant J).Sound where
  spawn w pid req hinv _ _ := ⟨trivial, hinv, fun _ _ => trivial⟩
  program w pid req _ _ _ := by
    apply wp_of_uses (hprogram req) trivial (J := fun _ => True)
    . intro _ _ _ _ _
      trivial
    . intro c hc w r s _ hinv hanswer _
      exact ⟨⟨trivial, hcall c hc pid w.state r s hinv hanswer, fun _ _ => trivial⟩, trivial⟩
  finish w pid req r hinv _ _ _ := ⟨trivial, hrelease pid w.state hinv, fun _ _ => trivial⟩
  crash w pid req hinv _ _ := ⟨trivial, hrelease pid w.state hinv, fun _ _ => trivial⟩
  tick w t hinv _ := ⟨trivial, htick t w.state hinv, fun _ _ => trivial⟩

/--
What every call of the programs keeps holds in every state a run reaches.
-/
theorem run_invariant (hprogram : ∀ req, (S.program req).Uses P)
    (hcall : ∀ c, P c → ∀ pid s r s', J s → Answers S pid c s r s' → J s')
    (hrelease : ∀ pid s, J s → J (S.release pid s)) (htick : ∀ t s, J s → J (S.tick t s))
    {s : S.State} (hs : J s) {ms : List (Move S)} {c : Config S}
    (hrun : Config.run ms (Config.start s) = some c) : J c.world.state := by
  have hsound := ofInvariant_sound hprogram hcall hrelease htick
  have hvalid : (ofInvariant J).Valid (Config.start s) := .start hs
  exact (hsound.run hvalid (Config.along_true ms _) hrun).1.inv

end Invariants

end Outline
end Interleave
