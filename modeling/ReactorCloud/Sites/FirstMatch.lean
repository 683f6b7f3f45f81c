import ReactorCloud.Sites.Routes

/-!
This module contains which of the routes of a deployment is used. The router goes by how specific a pattern is
and knows neither priorities nor methods.
-/

namespace Reactor.Sites

open Http.Pattern (PatternRouter InsertError MatchesAt MostSpecific listRouter listRouter_documented)
open Rust (Json Uuid)

/-! ## What is to be shown -/

/--
The path is one that the pattern describes. A parameter is one segment, a tail is anything.
-/
def fits : List Piece → List Char → Bool
  | [], path => path.isEmpty
  | .lit c :: ps, path =>
    match path with
    | [] => false
    | d :: rest => c == d && fits ps rest
  | .param _ :: ps, path => !(path.takeWhile (· ≠ '/')).isEmpty && fits ps (path.dropWhile (· ≠ '/'))
  | .tail _ nonempty :: ps, path => (if nonempty then path.tails.drop 1 else path.tails).any (fits ps)

def DeploymentRoute.admits (route : DeploymentRoute) (method : String) : Bool :=
  route.methods.all (·.any (eqIgnoreAsciiCase · method))

section

variable (alphanumeric : Char → Bool) (routes : List DeploymentRoute) (path method : String)

structure Candidate (route : DeploymentRoute) : Prop where
  listed : route ∈ routes
  fits : fits (pieces alphanumeric route.pattern) path.toList = true
  admits : route.admits method = true

structure Highest (route : DeploymentRoute) : Prop where
  candidate : Candidate alphanumeric routes path method route
  priority : ∀ other, Candidate alphanumeric routes path method other → other.priority ≤ route.priority

def RouteEntry.IsOf (entry : RouteEntry) (route : DeploymentRoute) : Prop :=
  entry.pattern = route.pattern ∧ entry.methods = route.methods ∧ entry.data = route.data

/--
The first route wins that matches, in the order of the priorities.
-/
def FirstMatchWins (M : PatternRouter) (functionMap : List (String × Uuid)) : Prop :=
  ∃ resolver : RouteResolver M, RouteResolver.fromRoutes alphanumeric routes functionMap = .ok resolver
    ∧ (∀ matched, resolver.matcher.matchRoute path method = some matched →
      ∃ route, Highest alphanumeric routes path method route ∧ matched.entry.IsOf route)
    ∧ (resolver.resolve path method = .notFound → ∀ route, ¬ Candidate alphanumeric routes path method route)

def routerPatterns : List String :=
  (sortRoutes routes).map fun route => convertPattern alphanumeric route.pattern

/--
The route with the most specific of the patterns that match.
-/
def Picked (route : DeploymentRoute) : Prop :=
  ∃ i, (sortRoutes routes)[i]? = some route ∧ MostSpecific (routerPatterns alphanumeric routes) i path

def DeploymentRoute.kindKnown (route : DeploymentRoute) : Prop :=
  route.routeKind ∈ ["static", "function", "redirect", "prerender"]

/--
The router takes all the patterns, and the most specific route that matches is one that the method may use,
if there is one, and the one of the highest priority.
-/
structure InOrder (M : PatternRouter) : Prop where
  accepted : ∃ router, M.insertAll 0 (routerPatterns alphanumeric routes) M.new = .ok router
  highest : ∀ route, Picked alphanumeric routes path route → route.admits method = true →
    Highest alphanumeric routes path method route ∧ route.kindKnown
  found : (∃ route, Candidate alphanumeric routes path method route) →
    ∃ route, Picked alphanumeric routes path route ∧ route.admits method = true

end

/-! ## The router -/

section Resolver

variable {M : PatternRouter} {alphanumeric : Char → Bool} {routes : List DeploymentRoute} {path method : String}
  {functionMap : List (String × Uuid)}

def DeploymentRoute.entry (route : DeploymentRoute) (index : Nat) : RouteEntry :=
  ⟨route.pattern, index, route.methods, route.data⟩

theorem addRoutes_eq {m m' : RouteMatcher M}
    : addRoutes alphanumeric routes m = .ok m'
      ↔ ∃ router, M.insertAll m.routes.length (routes.map fun route => convertPattern alphanumeric route.pattern)
          m.router = .ok router
        ∧ m' = ⟨router, m.routes ++ (routes.zipIdx m.routes.length).map fun (route, i) => route.entry i⟩ := by
  induction routes generalizing m with
  | nil =>
    simp [addRoutes, PatternRouter.insertAll, eq_comm]
  | cons route routes ih =>
    simp only [addRoutes, RouteMatcher.addRoute, List.map_cons, PatternRouter.insertAll]
    cases M.insert m.router (convertPattern alphanumeric route.pattern) m.routes.length with
    | error e => simp
    | ok router =>
      simp only [ih, List.length_append, List.length_singleton, List.zipIdx_cons, List.map_cons, List.append_assoc,
        List.singleton_append]
      rfl

theorem fromRoutes_eq {resolver : RouteResolver M}
    : RouteResolver.fromRoutes alphanumeric routes functionMap = .ok resolver
      ↔ ∃ router, M.insertAll 0 (routerPatterns alphanumeric routes) M.new = .ok router
        ∧ resolver = ⟨⟨router, (sortRoutes routes).zipIdx.map fun (route, i) => route.entry i⟩, functionMap⟩ := by
  unfold RouteResolver.fromRoutes
  constructor
  . intro h
    split at h
    . next matcher hadd =>
      obtain ⟨router, hrouter, rfl⟩ := addRoutes_eq.mp hadd
      cases h
      exact ⟨router, hrouter, rfl⟩
    . cases h
  . rintro ⟨router, hrouter, rfl⟩
    have hadd : addRoutes alphanumeric (sortRoutes routes) RouteMatcher.new = .ok _ :=
      addRoutes_eq.mpr ⟨router, hrouter, rfl⟩
    rw [hadd]
    rfl

theorem lookup_iff (hM : M.Documented) {patterns : List String} {router : M.Router}
    (hrouter : M.insertAll 0 patterns M.new = .ok router) {i : Nat}
    : (∃ params, M.lookup router path = some (i, params)) ↔ MostSpecific patterns i path := by
  constructor
  . rintro ⟨params, hlookup⟩
    exact hM.sound patterns router path i params hrouter hlookup
  . intro hbest
    obtain ⟨⟨j, params⟩, hlookup⟩ := Option.isSome_iff_exists.mp (hM.complete patterns router path i hrouter hbest.1)
    rw [(hM.sound patterns router path j params hrouter hlookup).unique hbest] at hlookup
    exact ⟨params, hlookup⟩

/--
The route that the router picks is used if the method may use it.
-/
theorem matchRoute_iff (hM : M.Documented) {router : M.Router}
    (hrouter : M.insertAll 0 (routerPatterns alphanumeric routes) M.new = .ok router) {entry : RouteEntry}
    : (∃ params, (RouteMatcher.mk router ((sortRoutes routes).zipIdx.map fun (route, i) => route.entry i)).matchRoute
        path method = some ⟨entry, params⟩)
      ↔ ∃ i route, (sortRoutes routes)[i]? = some route ∧ MostSpecific (routerPatterns alphanumeric routes) i path
        ∧ route.admits method = true ∧ entry = route.entry i := by
  have hget : ∀ i : Nat, ((sortRoutes routes).zipIdx.map fun (route, i) => DeploymentRoute.entry route i)[i]?
      = (sortRoutes routes)[i]?.map (DeploymentRoute.entry · i) := by
    intro i
    rw [List.getElem?_map, List.getElem?_zipIdx, Option.map_map, Nat.zero_add]
    rfl
  simp only [RouteMatcher.matchRoute, Option.bind_eq_bind, Option.bind_eq_some_iff, hget, Option.map_eq_some_iff]
  constructor
  . rintro ⟨params, ⟨i, params'⟩, hlookup, _, ⟨route, hroute, rfl⟩, hif⟩
    split at hif
    . next hadmits =>
      cases hif
      exact ⟨i, route, hroute, (lookup_iff hM hrouter).mp ⟨_, hlookup⟩, hadmits, rfl⟩
    . cases hif
  . rintro ⟨i, route, hroute, hbest, hadmits, rfl⟩
    obtain ⟨params, hlookup⟩ := (lookup_iff hM hrouter).mpr hbest
    exact ⟨params, ⟨i, params⟩, hlookup, _, ⟨route, hroute, rfl⟩, if_pos hadmits⟩

theorem buildDecision_eq_notFound {resolver : RouteResolver M} {matched : RouteMatch}
    : resolver.buildDecision matched = .notFound
      ↔ matched.entry.data.kind ∉ ["static", "function", "redirect", "prerender"] := by
  unfold RouteResolver.buildDecision
  dsimp only
  split
  . next hkind => simp [hkind]
  . next hkind => simp [hkind]
  . next hkind => simp [hkind]
  . next hkind => simp [hkind]
  . next hstatic hfunction hredirect hprerender =>
    simp only [List.mem_cons, List.not_mem_nil, or_false, not_or, true_iff]
    exact ⟨hstatic, hfunction, hredirect, hprerender⟩

theorem Highest.of_isOf {route route' : DeploymentRoute} {i : Nat} (hlisted : route ∈ routes)
    (h : Highest alphanumeric routes path method route') (heq : (route.entry i).IsOf route')
    : Highest alphanumeric routes path method route := by
  obtain ⟨hpattern, hmethods, hdata⟩ := heq
  have hpriority : route.priority = route'.priority := congrArg RouteData.priority hdata
  constructor
  . refine ⟨hlisted, ?_, ?_⟩
    . rw [show route.pattern = route'.pattern from hpattern]
      exact h.candidate.fits
    . rw [DeploymentRoute.admits, show route.methods = route'.methods from hmethods]
      exact h.candidate.admits
  . rw [hpriority]
    exact h.priority

theorem mem_sortRoutes {route : DeploymentRoute} {i : Nat} (h : (sortRoutes routes)[i]? = some route)
    : route ∈ routes :=
  (List.perm_insertionSort _ routes).mem_iff.mp (List.mem_of_getElem? h)

end Resolver

def page (pattern target : String) (methods : Option String) (priority : Int) : DeploymentRoute :=
  ⟨pattern, methods, "static", target, .null, priority⟩

/--
Two methods of one path.
-/
def items : List DeploymentRoute :=
  [page "/api/items" "list" (some "GET") 1, page "/api/items" "create" (some "POST") 1]

end Reactor.Sites
