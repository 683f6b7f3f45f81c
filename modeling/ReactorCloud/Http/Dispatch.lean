import ReactorCloud.Http.Router

/-!
This module contains the entries of a router and which of them answers a request.
-/

namespace Http

variable {M : Type → Type} {E B : Type}

/--
A `GET` handler also answers `HEAD`.
-/
def Method.accepts (m asked : Method) : Bool :=
  m == asked || (m == .get && asked == .head)

namespace MethodRouter

/--
The services of a method router. The fallback has no method.
-/
def entries (r : MethodRouter M E B) : List (Option Method × Service M E B) :=
  (none, r.fallback) :: r.handlers.map (fun h => (some h.1, h.2))

theorem mem_entries_layer {r : MethodRouter M E B} {l : Layer M E B} {m : Option Method}
    {s : Service M E B} : (m, s) ∈ (r.layer l).entries ↔ ∃ s', (m, s') ∈ r.entries ∧ s = l s' := by
  simp only [entries, layer, List.mem_cons, List.mem_map, Prod.mk.injEq]
  grind

theorem mem_entries_merge {r r' : MethodRouter M E B} {m : Method} {s : Service M E B}
    : (some m, s) ∈ (r.merge r').entries ↔ (some m, s) ∈ r.entries ∨ (some m, s) ∈ r'.entries := by
  simp only [entries, merge, List.mem_cons, List.mem_map, List.mem_append, Prod.mk.injEq]
  grind

theorem mem_entries_of_merge {r r' : MethodRouter M E B} {m : Option Method} {s : Service M E B}
    (h : (m, s) ∈ (r.merge r').entries) : (m, s) ∈ r.entries ∨ (m, s) ∈ r'.entries := by
  simp only [entries, merge, List.mem_cons, List.mem_map, List.mem_append, Prod.mk.injEq] at h ⊢
  grind

theorem mem_of_find {r : MethodRouter M E B} {m : Method} {s : Service M E B}
    (h : r.find m = some s) : (some m, s) ∈ r.entries := by
  simp only [find, Option.map_eq_some_iff] at h
  obtain ⟨x, hx, rfl⟩ := h
  have hmem := List.mem_of_find?_eq_some hx
  have heq := List.find?_some hx
  simp only [entries, List.mem_cons, List.mem_map, Prod.mk.injEq]
  exact .inr ⟨x, hmem, by simpa using heq, rfl⟩

theorem not_mem_of_find {r : MethodRouter M E B} {m : Method} {s : Service M E B}
    (h : r.find m = none) : (some m, s) ∉ r.entries := by
  simp only [find, Option.map_eq_none_iff, List.find?_eq_none] at h
  simp only [entries, List.mem_cons, List.mem_map, Prod.mk.injEq]
  rintro (⟨heq, _⟩ | ⟨x, hmem, heq, _⟩)
  . cases heq
  . cases heq
    exact h x hmem (by simp)

/--
Either a handler of the method answers, or there is none.
-/
theorem select_cases (r : MethodRouter M E B) (asked : Method)
    : (∃ m, m.accepts asked = true ∧ (some m, r.select asked) ∈ r.entries)
      ∨ (r.select asked = r.fallback ∧ ∀ m s, m.accepts asked = true → (some m, s) ∉ r.entries) := by
  have key : ∀ m : Method, m.accepts asked = true → m = asked ∨ (m = .get ∧ asked = .head) := by
    intro m h
    simpa [Method.accepts] using h
  by_cases hhead : asked = .head
  . subst hhead
    cases hfind : r.find .head with
    | some s =>
      refine .inl ⟨.head, rfl, ?_⟩
      simpa [select, hfind] using mem_of_find hfind
    | none =>
      cases hget : r.find .get with
      | some s =>
        refine .inl ⟨.get, rfl, ?_⟩
        simpa [select, hfind, hget] using mem_of_find hget
      | none =>
        refine .inr ⟨by simp [select, hfind, hget], ?_⟩
        intro m s h
        rcases key m h with rfl | ⟨rfl, _⟩
        . exact not_mem_of_find hfind
        . exact not_mem_of_find hget
  . have hselect : r.select asked = (r.find asked).getD r.fallback := by
      cases asked <;> first | rfl | exact absurd rfl hhead
    cases hfind : r.find asked with
    | some s =>
      refine .inl ⟨asked, by simp [Method.accepts], ?_⟩
      simpa [hselect, hfind] using mem_of_find hfind
    | none =>
      refine .inr ⟨by simp [hselect, hfind], ?_⟩
      intro m s h
      rcases key m h with rfl | ⟨_, heq⟩
      . exact not_mem_of_find hfind
      . exact absurd heq hhead

/--
All services of a method router.
-/
def All (P : Service M E B → Prop) (r : MethodRouter M E B) : Prop :=
  ∀ e ∈ r.entries, P e.2

theorem all_on [Monad M] {P : Service M E B → Prop} {method : Method} {handler : Service M E B}
    (hfallback : P (fun _ => pure (.empty 405))) (h : P handler) : (on method handler).All P := by
  intro e he
  simp only [entries, on, List.map_cons, List.map_nil, List.mem_cons, List.not_mem_nil,
    or_false] at he
  rcases he with rfl | rfl
  . exact hfallback
  . exact h

theorem All.merge {P : Service M E B → Prop} {r r' : MethodRouter M E B} (h : r.All P)
    (h' : r'.All P) : (r.merge r').All P := by
  intro e he
  cases mem_entries_of_merge he with
  | inl he => exact h e he
  | inr he => exact h' e he

end MethodRouter

/--
A service of a router under its pattern. The fallbacks have no method.
-/
structure Entry (M : Type → Type) (E B : Type) where
  pattern : String
  method : Option Method
  service : Service M E B

namespace Router

def Has (r : Router M E B) (e : Entry M E B) : Prop :=
  ∃ m, (e.pattern, m) ∈ r.routes ∧ (e.method, e.service) ∈ m.entries

section Insert

variable {path q : String} {m x : MethodRouter M E B} {routes : List (String × MethodRouter M E B)}

theorem mem_insertRoute (h : (q, x) ∈ insertRoute path m routes)
    : (q, x) ∈ routes ∨ (q = path ∧ (x = m ∨ ∃ y, (path, y) ∈ routes ∧ x = y.merge m)) := by
  induction routes with
  | nil => simpa [insertRoute] using h
  | cons y rest ih =>
    simp only [insertRoute] at h
    split at h
    . next heq =>
      cases h with
      | head => exact .inr ⟨heq, .inr ⟨y.2, by simp [← heq], rfl⟩⟩
      | tail _ h => exact .inl (.tail _ h)
    . cases h with
      | head => exact .inl (.head _)
      | tail _ h =>
        cases ih h with
        | inl h => exact .inl (.tail _ h)
        | inr h =>
          obtain ⟨heq, rfl | ⟨z, hz, rfl⟩⟩ := h
          . exact .inr ⟨heq, .inl rfl⟩
          . exact .inr ⟨heq, .inr ⟨z, .tail _ hz, rfl⟩⟩

/--
A route that was there is still there, perhaps with more methods.
-/
theorem insertRoute_keeps (path : String) (m : MethodRouter M E B) (h : (q, x) ∈ routes)
    : (q, x) ∈ insertRoute path m routes ∨ (q, x.merge m) ∈ insertRoute path m routes := by
  induction routes with
  | nil => cases h
  | cons y rest ih =>
    simp only [insertRoute]
    split
    . cases h with
      | head => exact .inr (.head _)
      | tail _ h => exact .inl (.tail _ h)
    . cases h with
      | head => exact .inl (.head _)
      | tail _ h =>
        cases ih h with
        | inl h => exact .inl (.tail _ h)
        | inr h => exact .inr (.tail _ h)

theorem insertRoute_self (path : String) (m : MethodRouter M E B)
    (routes : List (String × MethodRouter M E B))
    : (path, m) ∈ insertRoute path m routes
      ∨ ∃ y : MethodRouter M E B, (path, y.merge m) ∈ insertRoute path m routes := by
  induction routes with
  | nil => exact .inl (.head _)
  | cons y rest ih =>
    simp only [insertRoute]
    split
    . next heq => exact .inr ⟨y.2, by simp [heq]⟩
    . cases ih with
      | inl h => exact .inl (.tail _ h)
      | inr h =>
        obtain ⟨z, hz⟩ := h
        exact .inr ⟨z, .tail _ hz⟩

end Insert

variable {r r' : Router M E B} {e : Entry M E B}

theorem not_has_new : ¬ (new : Router M E B).Has e := by
  rintro ⟨m, hmem, _⟩
  cases hmem

theorem has_of_route {path : String} {m : MethodRouter M E B} (h : (r.route path m).Has e)
    : r.Has e ∨ (e.pattern = path ∧ (e.method, e.service) ∈ m.entries) := by
  obtain ⟨x, hmem, hentry⟩ := h
  cases mem_insertRoute hmem with
  | inl hmem => exact .inl ⟨x, hmem, hentry⟩
  | inr h =>
    obtain ⟨heq, rfl | ⟨y, hy, rfl⟩⟩ := h
    . exact .inr ⟨heq, hentry⟩
    . cases MethodRouter.mem_entries_of_merge hentry with
      | inl hentry => exact .inl ⟨y, heq ▸ hy, hentry⟩
      | inr hentry => exact .inr ⟨heq, hentry⟩

theorem has_route {path : String} {m : MethodRouter M E B} {q : String} {method : Method}
    {s : Service M E B} : (r.route path m).Has ⟨q, some method, s⟩
      ↔ r.Has ⟨q, some method, s⟩ ∨ (q = path ∧ (some method, s) ∈ m.entries) := by
  constructor
  . exact has_of_route
  . rintro (⟨x, hmem, hentry⟩ | ⟨rfl, hentry⟩)
    . cases insertRoute_keeps path m hmem with
      | inl hmem => exact ⟨x, hmem, hentry⟩
      | inr hmem => exact ⟨_, hmem, MethodRouter.mem_entries_merge.mpr (.inl hentry)⟩
    . cases insertRoute_self q m r.routes with
      | inl hmem => exact ⟨m, hmem, hentry⟩
      | inr hmem =>
        obtain ⟨y, hmem⟩ := hmem
        exact ⟨_, hmem, MethodRouter.mem_entries_merge.mpr (.inr hentry)⟩

theorem has_layer {l : Layer M E B} : (r.layer l).Has e
    ↔ ∃ s, r.Has ⟨e.pattern, e.method, s⟩ ∧ e.service = l s := by
  constructor
  . rintro ⟨x, hmem, hentry⟩
    simp only [layer, List.mem_map, Prod.mk.injEq] at hmem
    obtain ⟨y, hy, heq, rfl⟩ := hmem
    obtain ⟨s, hs, hl⟩ := MethodRouter.mem_entries_layer.mp hentry
    exact ⟨s, ⟨y.2, heq ▸ hy, hs⟩, hl⟩
  . rintro ⟨s, ⟨x, hmem, hentry⟩, hl⟩
    refine ⟨x.layer l, ?_, MethodRouter.mem_entries_layer.mpr ⟨s, hentry, hl⟩⟩
    exact List.mem_map.mpr ⟨_, hmem, rfl⟩

theorem Has.layer {q : String} {method : Option Method} {s : Service M E B} (h : r.Has ⟨q, method, s⟩)
    (l : Layer M E B) : (r.layer l).Has ⟨q, method, l s⟩ :=
  has_layer.mpr ⟨s, h, rfl⟩

theorem has_nest {outer : String} : (nest outer r).Has e
    ↔ ∃ q s, r.Has ⟨q, e.method, s⟩ ∧ e.pattern = outer ++ q ∧ e.service = stripPrefix outer s := by
  constructor
  . rintro ⟨x, hmem, hentry⟩
    simp only [nest, List.mem_map, Prod.mk.injEq] at hmem
    obtain ⟨y, hy, heq, rfl⟩ := hmem
    obtain ⟨s, hs, hl⟩ := MethodRouter.mem_entries_layer.mp hentry
    exact ⟨y.1, s, ⟨y.2, hy, hs⟩, heq.symm, hl⟩
  . rintro ⟨q, s, ⟨x, hmem, hentry⟩, hq, hl⟩
    refine ⟨x.layer (stripPrefix outer), ?_, MethodRouter.mem_entries_layer.mpr ⟨s, hentry, hl⟩⟩
    exact List.mem_map.mpr ⟨_, hmem, by rw [hq]⟩

theorem has_of_routeAll {routes : List (String × MethodRouter M E B)}
    (h : (r.routeAll routes).Has e)
    : r.Has e ∨ ∃ m, (e.pattern, m) ∈ routes ∧ (e.method, e.service) ∈ m.entries := by
  induction routes generalizing r with
  | nil => exact .inl h
  | cons x rest ih =>
    cases ih h with
    | inl h =>
      cases has_of_route h with
      | inl h => exact .inl h
      | inr h =>
        obtain ⟨heq, hentry⟩ := h
        exact .inr ⟨x.2, by simp [heq], hentry⟩
    | inr h =>
      obtain ⟨m, hmem, hentry⟩ := h
      exact .inr ⟨m, .tail _ hmem, hentry⟩

theorem has_routeAll {routes : List (String × MethodRouter M E B)} {q : String} {method : Method}
    {s : Service M E B}
    : (r.routeAll routes).Has ⟨q, some method, s⟩
      ↔ r.Has ⟨q, some method, s⟩ ∨ ∃ m, (q, m) ∈ routes ∧ (some method, s) ∈ m.entries := by
  constructor
  . exact has_of_routeAll
  . intro h
    induction routes generalizing r with
    | nil =>
      cases h with
      | inl h => exact h
      | inr h =>
        obtain ⟨m, hmem, _⟩ := h
        cases hmem
    | cons x rest ih =>
      apply ih
      cases h with
      | inl h => exact .inl (has_route.mpr (.inl h))
      | inr h =>
        obtain ⟨m, hmem, hentry⟩ := h
        cases hmem with
        | head => exact .inl (has_route.mpr (.inr ⟨rfl, hentry⟩))
        | tail _ hmem => exact .inr ⟨m, hmem, hentry⟩

theorem has_of_merge (h : (r.merge r').Has e) : r.Has e ∨ r'.Has e :=
  has_of_routeAll h

theorem has_merge {q : String} {method : Method} {s : Service M E B}
    : (r.merge r').Has ⟨q, some method, s⟩
      ↔ r.Has ⟨q, some method, s⟩ ∨ r'.Has ⟨q, some method, s⟩ :=
  has_routeAll

/--
No path is matched by two patterns of the router.
-/
def Disjoint (r : Router M E B) : Prop :=
  ∀ p ∈ r.routes.map (·.1), ∀ q ∈ r.routes.map (·.1), ∀ path,
    (matchPath p path).isSome = true → (matchPath q path).isSome = true → p = q

theorem disjoint_of_overlap (paths : List String) (hpaths : ∀ e, r.Has e → e.pattern ∈ paths)
    (h : ∀ p ∈ paths, ∀ q ∈ paths, overlap (pattern p) (pattern q) = true → p = q)
    : r.Disjoint := by
  have key : ∀ p ∈ r.routes.map (·.1), p ∈ paths := by
    intro p hp
    obtain ⟨x, hx, rfl⟩ := List.mem_map.mp hp
    exact hpaths ⟨x.1, none, x.2.fallback⟩ ⟨x.2, hx, .head _⟩
  intro p hp q hq path hmatch hmatch'
  exact h p (key p hp) q (key q hq) (overlap_of_match hmatch hmatch')

theorem find_some {path : String} {routes : List (String × MethodRouter M E B)}
    {m : MethodRouter M E B} {params : List (String × String)}
    (h : find path routes = some (m, params))
    : ∃ q, (q, m) ∈ routes ∧ matchPath q path = some params := by
  induction routes with
  | nil => cases h
  | cons x rest ih =>
    simp only [find] at h
    split at h
    . next hmatch =>
      cases h
      exact ⟨x.1, .head _, hmatch⟩
    . obtain ⟨q, hmem, hmatch⟩ := ih h
      exact ⟨q, .tail _ hmem, hmatch⟩

theorem find_none {path : String} {routes : List (String × MethodRouter M E B)}
    (h : find path routes = none) {q : String} {m : MethodRouter M E B} (hmem : (q, m) ∈ routes)
    : matchPath q path = none := by
  induction routes with
  | nil => cases hmem
  | cons x rest ih =>
    simp only [find] at h
    split at h
    . cases h
    . next hmatch =>
      cases hmem with
      | head => exact hmatch
      | tail _ hmem => exact ih h hmem

/--
Whatever answers a request is a service of the router.
-/
theorem call_has [Monad M] (r : Router M E B) (req : Request E)
    : r.call req = pure (.empty 404)
      ∨ ∃ e params, r.Has e ∧ r.call req = e.service { req with params := params } := by
  cases hfind : find req.path r.routes with
  | none => exact .inl (by simp [call, hfind])
  | some found =>
    obtain ⟨x, params⟩ := found
    obtain ⟨q, hmem, _⟩ := find_some hfind
    have hcall : r.call req = x.select req.method { req with params := params } := by
      simp [call, hfind]
    cases x.select_cases req.method with
    | inl h =>
      obtain ⟨m, _, hentry⟩ := h
      exact .inr ⟨⟨q, some m, _⟩, params, ⟨x, hmem, hentry⟩, hcall⟩
    | inr h =>
      exact .inr ⟨⟨q, none, x.fallback⟩, params, ⟨x, hmem, .head _⟩, by rw [hcall, h.1]⟩

section All

variable {P : Service M E B → Prop}

def All (P : Service M E B → Prop) (r : Router M E B) : Prop :=
  ∀ e, r.Has e → P e.service

theorem all_new : (new : Router M E B).All P :=
  fun _ h => absurd h not_has_new

theorem All.route {path : String} {m : MethodRouter M E B} (h : r.All P) (hm : m.All P)
    : (r.route path m).All P := by
  intro e he
  cases has_of_route he with
  | inl he => exact h e he
  | inr he => exact hm _ he.2

theorem All.layer {l : Layer M E B} (h : r.All P) (hl : ∀ s, P s → P (l s))
    : (r.layer l).All P := by
  intro e he
  obtain ⟨s, hs, heq⟩ := has_layer.mp he
  rw [heq]
  exact hl s (h _ hs)

theorem All.merge (h : r.All P) (h' : r'.All P) : (r.merge r').All P := by
  intro e he
  cases has_of_merge he with
  | inl he => exact h e he
  | inr he => exact h' e he

theorem All.nest {outer : String} (h : r.All P) (hl : ∀ s, P s → P (stripPrefix outer s))
    : (Router.nest outer r).All P := by
  intro e he
  obtain ⟨q, s, hs, _, heq⟩ := has_nest.mp he
  rw [heq]
  exact hl s (h _ hs)

end All

/--
Some handler of the router is for the request.
-/
def Routes (r : Router M E B) (asked : Method) (path : String) : Prop :=
  ∃ q m s, r.Has ⟨q, some m, s⟩ ∧ m.accepts asked = true ∧ (matchPath q path).isSome = true

/--
A request goes to a handler for it. It goes to a fallback or is not found only where there is none.
-/
theorem call_cases [Monad M] (hr : r.Disjoint) (req : Request E)
    : (∃ q m s params, r.Has ⟨q, some m, s⟩ ∧ m.accepts req.method = true
        ∧ matchPath q req.path = some params ∧ r.call req = s { req with params := params })
      ∨ (¬ r.Routes req.method req.path ∧ (r.call req = pure (.empty 404)
        ∨ ∃ q s params, r.Has ⟨q, none, s⟩ ∧ r.call req = s { req with params := params })) := by
  cases hfind : find req.path r.routes with
  | none =>
    refine .inr ⟨?_, .inl (by simp [call, hfind])⟩
    rintro ⟨q, m, s, ⟨x, hmem, _⟩, _, hmatch⟩
    simp [find_none hfind hmem] at hmatch
  | some found =>
    obtain ⟨x, params⟩ := found
    obtain ⟨q, hmem, hmatch⟩ := find_some hfind
    have hcall : r.call req = x.select req.method { req with params := params } := by
      simp [call, hfind]
    cases x.select_cases req.method with
    | inl h =>
      obtain ⟨m, haccepts, hentry⟩ := h
      exact .inl ⟨q, m, _, params, ⟨x, hmem, hentry⟩, haccepts, hmatch, hcall⟩
    | inr h =>
      obtain ⟨hselect, hnone⟩ := h
      refine .inr ⟨?_, .inr ⟨q, x.fallback, params, ⟨x, hmem, .head _⟩, by rw [hcall, hselect]⟩⟩
      rintro ⟨q', m, s, ⟨y, hmem', hentry⟩, haccepts, hmatch'⟩
      have hq : q = q' := hr q (List.mem_map_of_mem hmem) q' (List.mem_map_of_mem hmem') req.path
        (by simp [hmatch]) hmatch'
      subst hq
      have hy : y = x := by
        have := List.inj_on_of_nodup_map r.nodup hmem hmem' rfl
        simpa using this.symm
      subst hy
      exact hnone m s haccepts hentry

end Router
end Http
