import Mathlib.Data.List.Nodup
import ReactorCloud.Http.Service

/-!
This module contains routers. A layer on a method router runs inside of every layer of the router
around it, and no layer takes part in the choice of the route.
-/

namespace Http

inductive Segment where
  | static (text : String)
  | param (name : String)
  | wildcard (name : String)
deriving DecidableEq, Repr

def Segment.parse (s : String) : Segment :=
  match s.toList with
  | ':' :: name => .param (String.ofList name)
  | '*' :: name => .wildcard (String.ofList name)
  | _ => .static s

def segments (path : String) : List String :=
  Rust.Str.splitOnChar '/' path

/--
The parameters of a path that a pattern matches. A wildcard takes all that is left.
-/
def matchSegments : List Segment → List String → Option (List (String × String))
  | [], [] => some []
  | [.wildcard name], rest =>
    let text := Rust.Str.joinWith "/" rest
    if text = "" then none else some [(name, text)]
  | .static s :: pattern, x :: xs => if s = x then matchSegments pattern xs else none
  | .param name :: pattern, x :: xs =>
    if x = "" then none else (matchSegments pattern xs).map ((name, x) :: ·)
  | _, _ => none

def pattern (path : String) : List Segment :=
  (segments path).map Segment.parse

def matchPath (route path : String) : Option (List (String × String)) :=
  matchSegments (pattern route) (segments path)

/--
There may be a path that both patterns match.
-/
def overlap : List Segment → List Segment → Bool
  | [], [] => true
  | [.wildcard _], _ => true
  | _, [.wildcard _] => true
  | .static s :: ps, .static t :: qs => s = t && overlap ps qs
  | .static s :: ps, .param _ :: qs => s ≠ "" && overlap ps qs
  | .param _ :: ps, .static t :: qs => t ≠ "" && overlap ps qs
  | .param _ :: ps, .param _ :: qs => overlap ps qs
  | _, _ => false

section Overlap

variable {ps qs : List Segment} {path : List String}

def Matches (pattern : List Segment) (path : List String) : Prop :=
  (matchSegments pattern path).isSome = true

theorem matches_nil (h : Matches [] path) : path = [] := by
  cases path with
  | nil => rfl
  | cons x xs => cases h

theorem matches_static {s : String} (h : Matches (.static s :: ps) path)
    : ∃ xs, path = s :: xs ∧ Matches ps xs := by
  cases path with
  | nil => cases h
  | cons x xs =>
    simp only [Matches, matchSegments] at h
    split at h
    . next heq => exact ⟨xs, by rw [heq], h⟩
    . cases h

theorem matches_param {name : String} (h : Matches (.param name :: ps) path)
    : ∃ x xs, path = x :: xs ∧ x ≠ "" ∧ Matches ps xs := by
  cases path with
  | nil => cases h
  | cons x xs =>
    simp only [Matches, matchSegments] at h
    split at h
    . cases h
    . next hne => exact ⟨x, xs, rfl, hne, by simpa [Matches] using h⟩

theorem matches_wildcard {name : String} (h : Matches (.wildcard name :: ps) path) : ps = [] := by
  cases ps with
  | nil => rfl
  | cons p ps => cases path <;> cases h

theorem overlap_of_match (hp : Matches ps path) (hq : Matches qs path) : overlap ps qs = true := by
  induction ps generalizing qs path with
  | nil =>
    cases matches_nil hp
    match qs with
    | [] => rfl
    | .static s :: qs => cases hq
    | .param name :: qs => cases hq
    | .wildcard name :: qs =>
      cases matches_wildcard hq
      rfl
  | cons p ps ih =>
    match p, qs with
    | .wildcard name, qs =>
      cases matches_wildcard hp
      cases qs <;> rfl
    | .static s, [] =>
      cases matches_nil hq
      cases hp
    | .param name, [] =>
      cases matches_nil hq
      cases hp
    | .static s, .wildcard name :: qs =>
      cases matches_wildcard hq
      rfl
    | .param s, .wildcard name :: qs =>
      cases matches_wildcard hq
      rfl
    | .static s, .static t :: qs =>
      obtain ⟨xs, rfl, hps⟩ := matches_static hp
      obtain ⟨ys, heq, hqs⟩ := matches_static hq
      cases heq
      simp [overlap, ih hps hqs]
    | .static s, .param t :: qs =>
      obtain ⟨xs, rfl, hps⟩ := matches_static hp
      obtain ⟨y, ys, heq, hne, hqs⟩ := matches_param hq
      cases heq
      simp [overlap, hne, ih hps hqs]
    | .param s, .static t :: qs =>
      obtain ⟨x, xs, rfl, hne, hps⟩ := matches_param hp
      obtain ⟨ys, heq, hqs⟩ := matches_static hq
      cases heq
      simp [overlap, hne, ih hps hqs]
    | .param s, .param t :: qs =>
      obtain ⟨x, xs, rfl, _, hps⟩ := matches_param hp
      obtain ⟨y, ys, heq, _, hqs⟩ := matches_param hq
      cases heq
      simp [overlap, ih hps hqs]

end Overlap

variable {M : Type → Type} {E B : Type}

/--
The handlers of one path. The fallback answers all other methods.
-/
structure MethodRouter (M : Type → Type) (E B : Type) where
  handlers : List (Method × Service M E B)
  fallback : Service M E B

namespace MethodRouter

def on [Monad M] (method : Method) (handler : Service M E B) : MethodRouter M E B :=
  ⟨[(method, handler)], fun _ => pure (.empty 405)⟩

def layer (r : MethodRouter M E B) (l : Layer M E B) : MethodRouter M E B :=
  ⟨r.handlers.map (fun h => (h.1, l h.2)), l r.fallback⟩

def merge (r r' : MethodRouter M E B) : MethodRouter M E B :=
  ⟨r.handlers ++ r'.handlers, r.fallback⟩

def find (r : MethodRouter M E B) (method : Method) : Option (Service M E B) :=
  (r.handlers.find? (fun h => h.1 == method)).map (·.2)

/--
A `GET` handler also answers `HEAD`.
-/
def select (r : MethodRouter M E B) (method : Method) : Service M E B :=
  let found :=
    match method with
    | .head => r.find .head <|> r.find .get
    | _ => r.find method
  found.getD r.fallback

end MethodRouter

/--
Routes by their path patterns. A second one for a path adds to the first one.
-/
def insertRoute (path : String) (r : MethodRouter M E B)
    : List (String × MethodRouter M E B) → List (String × MethodRouter M E B)
  | [] => [(path, r)]
  | (q, x) :: rest => if q = path then (q, x.merge r) :: rest else (q, x) :: insertRoute path r rest

theorem insertRoute_paths (path : String) (r : MethodRouter M E B)
    (routes : List (String × MethodRouter M E B)) (q : String)
    : q ∈ (insertRoute path r routes).map (·.1) ↔ q = path ∨ q ∈ routes.map (·.1) := by
  induction routes with
  | nil => simp [insertRoute]
  | cons x rest ih =>
    unfold insertRoute
    split
    . next heq =>
      simp only [List.map_cons, List.mem_cons, heq]
      grind
    . simp only [List.map_cons, List.mem_cons, ih]
      grind

theorem insertRoute_nodup (path : String) (r : MethodRouter M E B)
    {routes : List (String × MethodRouter M E B)} (h : (routes.map (·.1)).Nodup)
    : ((insertRoute path r routes).map (·.1)).Nodup := by
  induction routes with
  | nil => simp [insertRoute]
  | cons x rest ih =>
    simp only [List.map_cons, List.nodup_cons] at h
    unfold insertRoute
    split
    . simpa using h
    . next hne =>
      simp only [List.map_cons, List.nodup_cons, insertRoute_paths]
      refine ⟨?_, ih h.2⟩
      rintro (heq | hmem)
      . exact hne heq
      . exact h.1 hmem

/--
A router has one method router for each of its path patterns.
-/
structure Router (M : Type → Type) (E B : Type) where
  routes : List (String × MethodRouter M E B)
  nodup : (routes.map (·.1)).Nodup

namespace Router

def new : Router M E B :=
  ⟨[], List.nodup_nil⟩

def route (r : Router M E B) (path : String) (m : MethodRouter M E B) : Router M E B :=
  ⟨insertRoute path m r.routes, insertRoute_nodup path m r.nodup⟩

def routeAll (r : Router M E B) (routes : List (String × MethodRouter M E B)) : Router M E B :=
  routes.foldl (fun r x => r.route x.1 x.2) r

def merge (r r' : Router M E B) : Router M E B :=
  r.routeAll r'.routes

def layer (r : Router M E B) (l : Layer M E B) : Router M E B where
  routes := r.routes.map (fun x => (x.1, x.2.layer l))
  nodup := by
    rw [List.map_map]
    exact r.nodup

def stripPrefix (outer : String) : Layer M E B :=
  fun next req => next { req with path := String.ofList (req.path.toList.drop outer.length) }

/--
The layers inside of a nested router see the path without the outer part.
-/
def nest (outer : String) (r : Router M E B) : Router M E B where
  routes := r.routes.map (fun x => (outer ++ x.1, x.2.layer (stripPrefix outer)))
  nodup := by
    have hinj : Function.Injective (outer ++ ·) := by
      intro s t heq
      simpa using heq
    have := r.nodup.map hinj
    rw [List.map_map] at this ⊢
    exact this

def find (path : String) : List (String × MethodRouter M E B)
    → Option (MethodRouter M E B × List (String × String))
  | [] => none
  | (pattern, r) :: rest =>
    match matchPath pattern path with
    | some params => some (r, params)
    | none => find path rest

def call [Monad M] (r : Router M E B) : Service M E B :=
  fun req =>
    match find req.path r.routes with
    | some (m, params) => m.select req.method { req with params := params }
    | none => pure (.empty 404)

end Router

end Http
