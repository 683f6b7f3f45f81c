import ReactorCloud.Storage.LikeMatch

/-!
This module proves that the evaluation of `reactor-storage` agrees with the meaning of an expression
where the evaluation of its parts is faithful, and when `checkPolicy` only grants what the meaning allows.
-/

namespace Reactor.Storage

open Rust (Json Number)
open Policy PolicyEvalContext
open Sql (valueOfJson Value Interp Truth)

section

variable {C : Type} [PolicyEvalContext C] {ctx : C} {facts : ObjectFacts}

theorem evaluateStorage_fact {e : PolicyExpr} {v : Json} (h : factOf ctx facts e = some v)
    : evaluateStorage e ctx facts = .value v := by
  unfold factOf at h
  split at h <;> simp_all [evaluateStorage, evalLiteral, evalAuthBuiltinStorage, evalDomainBuiltin]

@[simp]
theorem valueOfJson_null : valueOfJson .null = .null := rfl

@[simp]
theorem valueOfJson_string (s : String) : valueOfJson (.string s) = .text s := rfl

@[simp]
theorem valueOfJson_number (n : Number) : valueOfJson (.number n) = .num n.toRat := rfl

@[simp]
theorem valueOfJson_null_iff (v : Json) : valueOfJson v = .null ↔ v = .null := by
  cases v <;> simp [valueOfJson]

@[simp]
theorem valueOfJson_jsonOption (s : Option String) : valueOfJson (jsonOption s) = textOrNull s := by
  cases s <;> rfl

theorem value_fact {e : PolicyExpr} {v : Json} (h : factOf ctx facts e = some v)
    (hfin : e ≠ .literal (.float .infinite)) (I : Interp) (U : Unknown)
    : e.value I (U.meaning ctx facts) = valueOfJson v := by
  unfold factOf at h
  split at h
  case h_4 n =>
    cases n with
    | infinite => contradiction
    | finite value hvalue =>
      obtain rfl := Option.some.inj h
      rfl
  all_goals
    simp only [Option.some.injEq, reduceCtorEq] at h
  all_goals
    subst h
    simp [PolicyExpr.value, PolicyLiteral.value, Unknown.meaning]

theorem evalLess_ne_value (l r v : Json) : evalLess l r ≠ .value v := by
  unfold evalLess
  split <;> simp

theorem evalBinaryOp_ne_value {op : PolicyBinaryOp} (hand : op ≠ .and) (hor : op ≠ .or)
    (left right : StorageEvalResult) (v : Json) : evalBinaryOpStorage op left right ≠ .value v := by
  unfold evalBinaryOpStorage
  split <;> simp_all [evalLess_ne_value]

/--
Only a fact evaluates to a value.
-/
theorem factOf_of_value {e : PolicyExpr} (hbool : BoolOperands ctx facts e) {v : Json}
    (h : evaluateStorage e ctx facts = .value v) : factOf ctx facts e = some v := by
  induction e using BoolOperands.induct with
  | case1 left right ihl ihr =>
    have ⟨hl, hr, hbl, hbr⟩ := hbool
    simp only [evaluateStorage] at h
    unfold evalBinaryOpStorage at h
    split at h <;> simp_all
  | case2 left right ihl ihr =>
    have ⟨hl, hr, hbl, hbr⟩ := hbool
    simp only [evaluateStorage] at h
    unfold evalBinaryOpStorage at h
    split at h <;> simp_all
  | case3 e hand hor =>
    cases e with
    | literal lit =>
      cases lit <;> simp_all [evaluateStorage, evalLiteral, factOf]
    | authBuiltin name args =>
      simp only [evaluateStorage] at h
      unfold evalAuthBuiltinStorage at h
      split at h
      . simpa [factOf] using h
      . simpa [factOf] using h
      . split at h
        . simp at h
        . split at h <;> simp at h
      . simp at h
      . simp at h
    | domainBuiltin domain name args =>
      simp only [evaluateStorage] at h
      unfold evalDomainBuiltin at h
      split at h <;> simp_all [factOf]
    | binaryOp op left right =>
      simp only [evaluateStorage] at h
      refine absurd h (evalBinaryOp_ne_value ?_ ?_ _ _ v)
      . rintro rfl
        exact hand left right rfl
      . rintro rfl
        exact hor left right rfl
    | unaryOp op expr =>
      simp only [evaluateStorage] at h
      unfold evalUnaryOpStorage at h
      split at h <;> simp at h
    | isNull expr negated =>
      simp only [evaluateStorage] at h
      unfold evalIsNullStorage at h
      split at h
      . split at h <;> simp at h
      . simp at h
      . simp at h
    | inList expr list negated =>
      simp only [evaluateStorage] at h
      unfold evalInListStorage at h
      split at h <;> simp at h
    | _ => simp [evaluateStorage] at h

theorem evaluate_value_iff {e : PolicyExpr} (hbool : BoolOperands ctx facts e) (v : Json)
    : evaluateStorage e ctx facts = .value v ↔ factOf ctx facts e = some v := by
  constructor
  . exact factOf_of_value hbool
  . exact evaluateStorage_fact

theorem evaluateStorageList_eq_map (list : List PolicyExpr)
    : evaluateStorageList list ctx facts = list.map (evaluateStorage · ctx facts) := by
  induction list with
  | nil => simp [evaluateStorageList]
  | cons e es ih => simp [evaluateStorageList, ih]

/--
Other operations than `AND` and `OR` are only decided on two values.
-/
theorem evalBinaryOp_residual {op : PolicyBinaryOp} (hand : op ≠ .and) (hor : op ≠ .or)
    {left right : StorageEvalResult} (h : (∀ v, left ≠ .value v) ∨ ∀ v, right ≠ .value v)
    : evalBinaryOpStorage op left right = .residual := by
  unfold evalBinaryOpStorage
  split <;> simp_all

theorem evaluate_ne_value {e : PolicyExpr} (hbool : BoolOperands ctx facts e)
    (h : factOf ctx facts e = none) (v : Json) : evaluateStorage e ctx facts ≠ .value v := by
  intro hv
  rw [evaluate_value_iff hbool, h] at hv
  contradiction

theorem undecided {e : PolicyExpr} (h : Undecided ctx facts e)
    : evaluateStorage e ctx facts = .residual := by
  induction e using Undecided.induct with
  | case1 b => contradiction
  | case2 args => contradiction
  | case3 args => contradiction
  | case4 left right ihl ihr => simp [evaluateStorage, evalBinaryOpStorage, ihl h.1, ihr h.2]
  | case5 left right ihl ihr => simp [evaluateStorage, evalBinaryOpStorage, ihl h.1, ihr h.2]
  | case6 op left right hand hor =>
    simp only [evaluateStorage]
    rw [Undecided.eq_6 _ _ _ _ _ hand hor] at h
    apply evalBinaryOp_residual hand hor
    cases h with
    | inl h => exact .inl (evaluate_ne_value h.2 h.1)
    | inr h => exact .inr (evaluate_ne_value h.2 h.1)
  | case7 expr ih => simp [evaluateStorage, evalUnaryOpStorage, ih h]
  | case8 expr => simp [evaluateStorage, evalUnaryOpStorage]
  | case9 expr negated ih => simp [evaluateStorage, evalIsNullStorage, ih h]
  | case10 expr list negated =>
    have hne := evaluate_ne_value h.2 h.1
    simp only [evaluateStorage]
    unfold evalInListStorage
    split <;> simp_all
  | case11 e hlit hperm hauth hand hor hop hnot hminus hnull hin =>
    cases e with
    | literal lit =>
      cases lit <;> simp_all [Undecided, factOf]
    | authBuiltin name args =>
      unfold Undecided at h
      simp only [evaluateStorage]
      unfold evalAuthBuiltinStorage
      split <;> simp_all [factOf]
    | domainBuiltin domain name args =>
      unfold Undecided at h
      simp only [evaluateStorage]
      unfold evalDomainBuiltin
      split <;> simp_all [factOf]
    | binaryOp op left right => exact (hop op left right rfl).elim
    | unaryOp op expr =>
      cases op with
      | not => exact (hnot expr rfl).elim
      | minus => exact (hminus expr rfl).elim
    | isNull expr negated => exact (hnull expr negated rfl).elim
    | inList expr list negated => exact (hin expr list negated rfl).elim
    | _ => simp [evaluateStorage]

theorem Apart.cmp_eq {v w : Json} (h : Apart v w) (I : Interp)
    : I.cmp .eq (valueOfJson v) (valueOfJson w) = some false := by
  unfold Apart at h
  split at h
  . simp [I.cmp_text, h]
  . simpa [valueOfJson, I.cmp_bool] using h
  . simp [I.cmp_num, Sql.CmpOp.test, h]
  . contradiction

theorem Apart.ne_null {v w : Json} (h : Apart v w) : v ≠ .null ∧ w ≠ .null := by
  unfold Apart at h
  split at h <;> simp_all

theorem evalCmp_eq_of_apart {v w : Json} (h : Apart v w) (I : Interp)
    : I.evalCmp .eq (valueOfJson v) (valueOfJson w) = .bool false := by
  have ⟨hv, hw⟩ := h.ne_null
  rw [I.evalCmp_of_ne_null (by simpa using hv) (by simpa using hw), h.cmp_eq]
  rfl

theorem evalCmp_ne_of_apart {v w : Json} (h : Apart v w) (I : Interp)
    : I.evalCmp .ne (valueOfJson v) (valueOfJson w) = .bool true := by
  have ⟨hv, hw⟩ := h.ne_null
  rw [I.evalCmp_of_ne_null (by simpa using hv) (by simpa using hw), I.cmp_ne, h.cmp_eq]
  rfl

theorem evalCmp_eq_self {v : Json} (h : v ≠ .null) (I : Interp)
    : I.evalCmp .eq (valueOfJson v) (valueOfJson v) = .bool true := by
  have hv : valueOfJson v ≠ .null := by simpa using h
  rw [I.evalCmp_of_ne_null hv hv, I.cmp_self _ hv]
  rfl

theorem evalCmp_ne_self {v : Json} (h : v ≠ .null) (I : Interp)
    : I.evalCmp .ne (valueOfJson v) (valueOfJson v) = .bool false := by
  have hv : valueOfJson v ≠ .null := by simpa using h
  rw [I.evalCmp_of_ne_null hv hv, I.cmp_ne, I.cmp_self _ hv]
  rfl

/--
Comparing doubles only goes wrong on numbers that round to the same double.
-/
theorem test_lt_of_evalLess {v w : Json} {b : Bool} (h : evalLess v w = .const b)
    (hfaith : b = false → ∀ m n, v = .number m → w = .number n → m.asF64 = n.asF64 → m.toRat = n.toRat)
    : ∃ p q, valueOfJson v = .num p ∧ valueOfJson w = .num q ∧ decide (p < q) = b := by
  unfold evalLess at h
  split at h
  . next l r hl hr =>
    cases v <;> simp only [Json.asF64, reduceCtorEq, Option.some.injEq] at hl
    cases w <;> simp only [Json.asF64, reduceCtorEq, Option.some.injEq] at hr
    next m n =>
      exists m.toRat, n.toRat
      refine ⟨rfl, rfl, ?_⟩
      subst hl hr
      obtain rfl := StorageEvalResult.const.inj h
      cases hlt : Rust.F64.lt m.asF64 n.asF64 with
      | true =>
        rw [Number.asF64_lt] at hlt
        exact decide_eq_true (Rust.F64.lt_of_nearest_lt hlt)
      | false =>
        apply decide_eq_false
        intro hrat
        have hle : Rust.F64.nearest n.toRat ≤ Rust.F64.nearest m.toRat := by
          rw [← Bool.not_eq_true, Number.asF64_lt] at hlt
          exact not_lt.mp hlt
        have heq := le_antisymm (Rust.F64.nearest_mono hrat.le) hle
        obtain ⟨hm, hm'⟩ := m.asF64_eq
        obtain ⟨hn, hn'⟩ := n.asF64_eq
        have := hfaith hlt m n rfl rfl (by rw [hm', hn']; simp [heq])
        exact absurd this hrat.ne
  . contradiction

theorem evalCmp_num (I : Interp) (op : Sql.CmpOp) (p q : Rat)
    : I.evalCmp op (.num p) (.num q) = .bool (op.test p q) := by
  rw [I.evalCmp_of_ne_null (by simp) (by simp), I.cmp_num]
  rfl

theorem evalLike_faithful {s p : String} {b : Bool} (hfaith : FaithfulOp .like b (.string s) (.string p))
    (h : evalBinaryOpStorage .like (.value (.string s)) (.value (.string p)) = .const b) (I : Interp)
    : I.evalLike false (.text s) (.text p) = .bool b := by
  have hb : likeMatch s.toList p.toList = b := by simpa [evalBinaryOpStorage] using h
  have key : Sql.Like.isMatch p.toList s.toList = b := by
    cases b with
    | true => exact likeMatch.sound hb
    | false =>
      rw [← Bool.not_eq_true]
      intro hmatch
      rw [likeMatch.complete (hfaith s p rfl rfl) hmatch] at hb
      contradiction
  rw [← key]
  simp [Interp.evalLike, Interp.strict, I.like_text, Value.ofTruth]

theorem evalBinaryOp_faithful {op : PolicyBinaryOp} {b : Bool} {v w : Json}
    (hand : op ≠ .and) (hor : op ≠ .or) (hfaith : FaithfulOp op b v w)
    (h : evalBinaryOpStorage op (.value v) (.value w) = .const b) (I : Interp)
    : op.value I (valueOfJson v) (valueOfJson w) = .bool b := by
  cases op with
  | eq =>
    have hb : decide (v = w) = b := by simpa [evalBinaryOpStorage] using h
    cases b with
    | true =>
      obtain rfl : v = w := of_decide_eq_true hb
      exact evalCmp_eq_self (hfaith rfl) I
    | false => exact evalCmp_eq_of_apart (hfaith (of_decide_eq_false hb)) I
  | notEq =>
    have hb : decide (v ≠ w) = b := by simpa [evalBinaryOpStorage] using h
    cases b with
    | true => exact evalCmp_ne_of_apart (hfaith (of_decide_eq_true hb)) I
    | false =>
      obtain rfl : v = w := Decidable.not_not.mp (of_decide_eq_false hb)
      exact evalCmp_ne_self (hfaith rfl) I
  | lt =>
    have hless : evalLess v w = .const b := by simpa [evalBinaryOpStorage] using h
    obtain ⟨p, q, hv, hw, hb⟩ := test_lt_of_evalLess hless (by
      rintro rfl
      exact hfaith)
    rw [hv, hw, ← hb]
    exact evalCmp_num I .lt p q
  | gt =>
    have hless : evalLess w v = .const b := by simpa [evalBinaryOpStorage] using h
    obtain ⟨p, q, hw, hv, hb⟩ := test_lt_of_evalLess hless (by
      rintro rfl m n hm hn heq
      exact (hfaith n m hn hm heq.symm).symm)
    rw [hv, hw, ← hb]
    exact evalCmp_num I .gt q p
  | like =>
    cases v with
    | string s =>
      cases w with
      | string p => exact evalLike_faithful hfaith h I
      | _ => simp [evalBinaryOpStorage] at h
    | _ => simp [evalBinaryOpStorage] at h
  | and => contradiction
  | or => contradiction
  | _ => simp [evalBinaryOpStorage] at h

/--
`v IN (ws)` is FALSE if every `w` is different from `v`.
-/
theorem evalIn_of_apart {v : Json} {ws : List Value}
    (h : ∀ x ∈ ws, ∃ w, x = valueOfJson w ∧ Apart v w) (I : Interp)
    : I.evalIn (valueOfJson v) ws = .bool false := by
  unfold Interp.evalIn
  induction ws with
  | nil => rfl
  | cons x ws ih =>
    obtain ⟨w, hx, hw⟩ := h x List.mem_cons_self
    have hws : ∀ y ∈ ws, ∃ w, y = valueOfJson w ∧ Apart v w := by
      intro y hy
      exact h y (List.mem_cons_of_mem x hy)
    simp only [List.map_cons, Truth.any_cons, hx, evalCmp_eq_of_apart hw, Value.truth_bool,
      Truth.false_or]
    exact ih hws

theorem evalIn_of_mem {v : Json} {ws : List Value} (hv : v ≠ .null) (hmem : valueOfJson v ∈ ws)
    (I : Interp) : I.evalIn (valueOfJson v) ws = .bool true := by
  have : (Truth.any (ws.map (fun w => (I.evalCmp .eq (valueOfJson v) w).truth))).Holds := by
    rw [Truth.any_holds]
    exists some true
    simp only [List.mem_map, Truth.holds_some, and_true]
    exact ⟨valueOfJson v, hmem, by rw [evalCmp_eq_self hv]; rfl⟩
  unfold Interp.evalIn
  rw [show Truth.any _ = some true from this]
  rfl

theorem ne_infinite {e : PolicyExpr} {v : Json} (h : factOf ctx facts e = some v) (hv : v ≠ .null)
    : e ≠ .literal (.float .infinite) := by
  rintro rfl
  apply hv
  exact (Option.some.inj h).symm

theorem found_iff {list : List PolicyExpr} (hbool : ∀ item ∈ list, BoolOperands ctx facts item)
    (v : Json)
    : (evaluateStorageList list ctx facts).any (· = .value v) = true
        ↔
      ∃ item ∈ list, factOf ctx facts item = some v := by
  rw [evaluateStorageList_eq_map, List.any_map, List.any_eq_true]
  constructor
  . rintro ⟨item, hmem, h⟩
    have h : evaluateStorage item ctx facts = .value v := by simpa using h
    exact ⟨item, hmem, factOf_of_value (hbool item hmem) h⟩
  . rintro ⟨item, hmem, h⟩
    exact ⟨item, hmem, by simpa using evaluateStorage_fact h⟩

theorem evalIn_faithful {e : PolicyExpr} {list : List PolicyExpr} {b negated : Bool} {v : Json}
    (hfact : factOf ctx facts e = some v)
    (hfaith : Faithful ctx facts b (.inList e list negated))
    (hb : (evaluateStorageList list ctx facts).any (· = .value v) = (b != negated))
    (I : Interp) (U : Unknown)
    : I.evalIn (e.value I (U.meaning ctx facts)) (PolicyExpr.values I (U.meaning ctx facts) list)
        =
      .bool (b != negated) := by
  have ⟨_, hbool, hmode⟩ := hfaith
  have hmode := hmode v hfact
  rw [PolicyExpr.values_eq_map]
  cases hfound : (b != negated) with
  | true =>
    have hne : b ≠ negated := by simpa using hfound
    rw [hfound, found_iff hbool] at hb
    rw [if_neg hne] at hmode
    have hv := hmode hb
    obtain ⟨item, hmem, hitem⟩ := hb
    rw [value_fact hfact (ne_infinite hfact hv)]
    apply evalIn_of_mem hv
    rw [← value_fact hitem (ne_infinite hitem hv) I U]
    exact List.mem_map_of_mem hmem
  | false =>
    have heq : b = negated := by simpa using hfound
    rw [if_pos heq] at hmode
    have hnot : ∀ item ∈ list, factOf ctx facts item ≠ some v := by
      intro item hmem hitem
      have := (found_iff hbool v).mpr ⟨item, hmem, hitem⟩
      rw [hb, hfound] at this
      contradiction
    have hapart := hmode hnot
    cases list with
    | nil => rfl
    | cons item items =>
      obtain ⟨_, _, hw⟩ := hapart item List.mem_cons_self
      rw [value_fact hfact (ne_infinite hfact hw.ne_null.1)]
      apply evalIn_of_apart
      intro x hx
      obtain ⟨item', hmem, rfl⟩ := List.mem_map.mp hx
      obtain ⟨w, hitem, hw⟩ := hapart item' hmem
      exact ⟨w, value_fact hitem (ne_infinite hitem hw.ne_null.2) I U, hw⟩

theorem evalInList_faithful {e : PolicyExpr} {list : List PolicyExpr} {b negated : Bool}
    (hfaith : Faithful ctx facts b (.inList e list negated))
    (h : evaluateStorage (.inList e list negated) ctx facts = .const b) (I : Interp) (U : Unknown)
    : (PolicyExpr.inList e list negated).value I (U.meaning ctx facts) = .bool b := by
  simp only [evaluateStorage] at h
  unfold evalInListStorage at h
  split at h
  . next v hv =>
    have hfact := factOf_of_value hfaith.1 hv
    have hb := StorageEvalResult.const.inj h
    have hfound : (evaluateStorageList list ctx facts).any (· = .value v) = (b != negated) := by
      cases negated <;> simp_all
    rw [PolicyExpr.value, evalIn_faithful hfact hfaith hfound]
    cases negated <;> simp [Sql.evalNotIf, Sql.evalNot, Value.ofTruth]
  . contradiction

theorem evalBinaryOp_ne_null {op : PolicyBinaryOp} {b : Bool} {v w : Json}
    (hfaith : FaithfulOp op b v w)
    (h : evalBinaryOpStorage op (.value v) (.value w) = .const b) : v ≠ .null ∧ w ≠ .null := by
  cases op with
  | eq =>
    have hb : decide (v = w) = b := by simpa [evalBinaryOpStorage] using h
    cases b with
    | true =>
      have heq := of_decide_eq_true hb
      exact ⟨hfaith heq, heq ▸ hfaith heq⟩
    | false => exact (hfaith (of_decide_eq_false hb)).ne_null
  | notEq =>
    have hb : decide (v ≠ w) = b := by simpa [evalBinaryOpStorage] using h
    cases b with
    | true => exact (hfaith (of_decide_eq_true hb)).ne_null
    | false =>
      have heq := Decidable.not_not.mp (of_decide_eq_false hb)
      exact ⟨hfaith heq, heq ▸ hfaith heq⟩
  | _ => cases v <;> cases w <;> simp_all [evalBinaryOpStorage, evalLess, Json.asF64]

theorem evalComparison_faithful {op : PolicyBinaryOp} {left right : PolicyExpr} {b : Bool}
    (hand : op ≠ .and) (hor : op ≠ .or)
    (hfaith : BoolOperands ctx facts left ∧ BoolOperands ctx facts right
      ∧ ∀ v w, factOf ctx facts left = some v → factOf ctx facts right = some w →
          FaithfulOp op b v w)
    (h : evaluateStorage (.binaryOp op left right) ctx facts = .const b) (I : Interp) (U : Unknown)
    : (PolicyExpr.binaryOp op left right).value I (U.meaning ctx facts) = .bool b := by
  have ⟨hbl, hbr, hop⟩ := hfaith
  simp only [evaluateStorage] at h
  by_cases hvalues : ∃ v w, factOf ctx facts left = some v ∧ factOf ctx facts right = some w
  . obtain ⟨v, w, hv, hw⟩ := hvalues
    rw [evaluateStorage_fact hv, evaluateStorage_fact hw] at h
    have hop := hop v w hv hw
    have ⟨hnv, hnw⟩ := evalBinaryOp_ne_null hop h
    rw [PolicyExpr.value, value_fact hv (ne_infinite hv hnv), value_fact hw (ne_infinite hw hnw)]
    exact evalBinaryOp_faithful hand hor hop h I
  . have hres : evalBinaryOpStorage op (evaluateStorage left ctx facts)
        (evaluateStorage right ctx facts) = .residual := by
      apply evalBinaryOp_residual hand hor
      cases hl : factOf ctx facts left with
      | none => exact .inl (evaluate_ne_value hbl hl)
      | some v =>
        cases hr : factOf ctx facts right with
        | none => exact .inr (evaluate_ne_value hbr hr)
        | some w => exact absurd ⟨v, w, hl, hr⟩ hvalues
    rw [hres] at h
    contradiction

theorem evalAnd_const {left right : StorageEvalResult} {b : Bool}
    (h : evalBinaryOpStorage .and left right = .const b)
    : if b then left = .const true ∧ right = .const true
      else left = .const false ∨ right = .const false := by
  unfold evalBinaryOpStorage at h
  split at h <;> simp_all

theorem evalOr_const {left right : StorageEvalResult} {b : Bool}
    (h : evalBinaryOpStorage .or left right = .const b)
    : if b then left = .const true ∨ right = .const true
      else left = .const false ∧ right = .const false := by
  unfold evalBinaryOpStorage at h
  split at h <;> simp_all

theorem evalIsNull_faithful {e : PolicyExpr} {b negated : Bool}
    (hfaith : Faithful ctx facts b (.isNull e negated))
    (h : evaluateStorage (.isNull e negated) ctx facts = .const b) (I : Interp) (U : Unknown)
    : (PolicyExpr.isNull e negated).value I (U.meaning ctx facts) = .bool b := by
  simp only [evaluateStorage] at h
  cases hfaith with
  | inl hfact =>
    obtain ⟨_, hsome, hfin⟩ := hfact
    obtain ⟨v, hv⟩ := Option.isSome_iff_exists.mp hsome
    rw [evaluateStorage_fact hv] at h
    rw [PolicyExpr.value, value_fact hv hfin]
    cases v <;> cases negated <;>
      simp_all [evalIsNullStorage, Sql.evalIsNull, Json.isNull, valueOfJson]
  | inr hund =>
    rw [undecided hund] at h
    contradiction

theorem evalHasPermission_faithful {arg : PolicyExpr} {args : List PolicyExpr} {b : Bool}
    (hfaith : Faithful ctx facts b (.authBuiltin "has_permission" (arg :: args)))
    (h : evaluateStorage (.authBuiltin "has_permission" (arg :: args)) ctx facts = .const b)
    (I : Interp) (U : Unknown)
    : (PolicyExpr.authBuiltin "has_permission" (arg :: args)).value I (U.meaning ctx facts)
        =
      .bool b := by
  have ⟨hbool, hstring⟩ := hfaith
  have key : ∃ perm, factOf ctx facts arg = some (.string perm) := by
    cases b with
    | false => exact hstring rfl
    | true =>
      simp only [evaluateStorage, evalAuthBuiltinStorage] at h
      split at h
      . next perm hperm => exact ⟨perm, factOf_of_value hbool hperm⟩
      . contradiction
  obtain ⟨perm, hperm⟩ := key
  simp only [evaluateStorage, evalAuthBuiltinStorage, evaluateStorage_fact hperm] at h
  rw [PolicyExpr.value, PolicyExpr.values, value_fact hperm (ne_infinite hperm (by simp)),
    valueOfJson_string, Unknown.meaning_hasPermission, StorageEvalResult.const.inj h]

/--
Where the evaluation is faithful for `b`, it is `b` only if the expression is, whatever the unknown
parts are.
-/
theorem evaluateStorage_faithful {e : PolicyExpr} {b : Bool} (hfaith : Faithful ctx facts b e)
    (h : evaluateStorage e ctx facts = .const b) (I : Interp) (U : Unknown)
    : e.value I (U.meaning ctx facts) = .bool b := by
  induction b, e using Faithful.induct with
  | case1 b left right ihl ihr =>
    have hconst := evalAnd_const (by simpa [evaluateStorage] using h)
    simp only [PolicyExpr.value, PolicyBinaryOp.value, Sql.evalAnd]
    cases b with
    | true =>
      rw [ihl hfaith.1 hconst.1, ihr hfaith.2 hconst.2]
      rfl
    | false =>
      cases hconst with
      | inl hl => simp [ihl hfaith.1 hl, Value.ofTruth]
      | inr hr => simp [ihr hfaith.2 hr, Value.ofTruth]
  | case2 b left right ihl ihr =>
    have hconst := evalOr_const (by simpa [evaluateStorage] using h)
    simp only [PolicyExpr.value, PolicyBinaryOp.value, Sql.evalOr]
    cases b with
    | true =>
      cases hconst with
      | inl hl => simp [ihl hfaith.1 hl, Value.ofTruth]
      | inr hr => simp [ihr hfaith.2 hr, Value.ofTruth]
    | false =>
      rw [ihl hfaith.1 hconst.1, ihr hfaith.2 hconst.2]
      rfl
  | case3 b op left right hand hor =>
    rw [Faithful.eq_3 _ _ _ _ _ _ hand hor] at hfaith
    exact evalComparison_faithful hand hor hfaith h I U
  | case4 b expr ih =>
    simp only [evaluateStorage] at h
    unfold evalUnaryOpStorage at h
    split at h
    . next c hc hop =>
      obtain rfl : c = !b := by
        have := StorageEvalResult.const.inj h
        simp [← this]
      simp [PolicyExpr.value, PolicyUnaryOp.value, Sql.evalNot, ih hfaith hop, Value.ofTruth]
    . contradiction
  | case5 b arg args => exact evalHasPermission_faithful hfaith h I U
  | case6 b =>
    obtain rfl : b = true := hfaith
    simp [evaluateStorage, evalAuthBuiltinStorage] at h
  | case7 b expr negated => exact evalIsNull_faithful hfaith h I U
  | case8 b expr list negated => exact evalInList_faithful hfaith h I U
  | case9 e b hand hor hop hnot hperm hperm' hnull hin =>
    cases e with
    | literal lit =>
      cases lit with
      | bool c =>
        rw [PolicyExpr.value, PolicyLiteral.value, StorageEvalResult.const.inj h]
      | _ => simp [evaluateStorage, evalLiteral] at h
    | authBuiltin name args =>
      simp only [evaluateStorage] at h
      unfold evalAuthBuiltinStorage at h
      split at h
      . contradiction
      . contradiction
      . cases args with
        | nil => exact (hperm' rfl).elim
        | cons arg args => exact (hperm arg args rfl).elim
      . rw [PolicyExpr.value, Unknown.meaning_isAuthenticated, StorageEvalResult.const.inj h]
      . contradiction
    | domainBuiltin domain name args =>
      simp only [evaluateStorage] at h
      unfold evalDomainBuiltin at h
      split at h <;> contradiction
    | binaryOp op left right => exact (hop op left right rfl).elim
    | unaryOp op expr =>
      cases op with
      | not => exact (hnot expr rfl).elim
      | minus => simp [evaluateStorage, evalUnaryOpStorage] at h
    | isNull expr negated => exact (hnull expr negated rfl).elim
    | inList expr list negated => exact (hin expr list negated rfl).elim
    | _ => simp [evaluateStorage] at h

end

/-! `checkPolicy` -/

open Rust (Json)
open Sql (Value Interp)

/--
If the policy grants access it is TRUE, whatever the parts are that the evaluation does not know.
-/
def GrantsOnlyTrue (e : PolicyExpr) (ctx : StorageCtx) (facts : ObjectFacts) : Prop :=
  checkPolicy e ctx facts = true → ∀ (I : Interp) (U : Unknown), e.Holds I (U.meaning ctx facts)

/--
`auth.is_authenticated() AND object.key LIKE 'public/%'`
-/
def publicPolicy : PolicyExpr :=
  .binaryOp .and (.authBuiltin "is_authenticated" [])
    (.binaryOp .like (.domainBuiltin "object" "key" []) (.stringLiteral "public/%"))

def signedIn : StorageCtx where
  auth := some { userId := some 1, activeOrg := none, email := none, permissions := [] }

def publicObject : ObjectFacts where
  key := "public/a.png"
  bucket := "images"
  contentType := none
  ownerId := none
  metadata := .object []

/--
`auth.user_id() = object.owner_id`
-/
def ownerPolicy : PolicyExpr :=
  .binaryOp .eq (.authBuiltin "user_id" []) (.domainBuiltin "object" "owner_id" [])

end Reactor.Storage
