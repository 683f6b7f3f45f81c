import ReactorCloud.Caddy.Http
import ReactorCloud.Gateway.Caddy
import ReactorCloud.Rust.Result

/-!
This module contains to which backend the configuration of the gateway sends a host, and for which
project.
-/

namespace Reactor.Gateway

open Rust (Json)

/-! ## What the server reads in the configuration -/

namespace CaddyAdminConfig

variable (config : CaddyAdminConfig)

def caddyRoute (route : Route) : Caddy.Route where
  hosts := [route.host]
  handle :=
    ((config.limitOf route).map (fun _ => .passes "rate_limit")).toList
      ++ [.reverseProxy [route.backendTarget.address]
        [("X-Forwarded-Proto", ["https"]), ("X-Real-IP", ["\x7bhttp.request.remote.host\x7d"]),
          ("X-Reactor-Project", [route.projectRef.text])]]
  terminal := true

def caddyDefault (defaultBackend : String) : Caddy.Route where
  hosts := ["*"]
  handle := [.reverseProxy [defaultBackend] []]
  terminal := true

def caddyRoutes (table : RoutingTable) : List Caddy.Route :=
  table.enabledRoutes.map config.caddyRoute ++ (config.defaultBackend.map caddyDefault).toList

/--
What becomes of a request under the configuration.
-/
def served (table : RoutingTable) (req : Caddy.Request) : Option Caddy.Forward :=
  match config.buildRoutes table with
  | .ok routes => (routes.mapM Caddy.Route.ofJson).bind (fun routes => Caddy.serve routes req)
  | .error _ => none

theorem buildRoute_ofJson (route : Route)
    : ∃ j, config.buildRoute route = .ok j ∧ Caddy.Route.ofJson j = some (config.caddyRoute route) := by
  unfold buildRoute caddyRoute rateLimiters
  cases config.limitOf route with
  | none => exact ⟨_, rfl, rfl⟩
  | some rateLimit => exact ⟨_, rfl, rfl⟩

theorem buildRoutes_ofJson (routes : List Route)
    : ∃ js, routes.mapM config.buildRoute = .ok js
      ∧ js.mapM Caddy.Route.ofJson = some (routes.map config.caddyRoute) := by
  induction routes with
  | nil => exact ⟨[], rfl, rfl⟩
  | cons route routes ih =>
    obtain ⟨j, hj, hof⟩ := config.buildRoute_ofJson route
    obtain ⟨js, hjs, hofs⟩ := ih
    refine ⟨j :: js, ?_, ?_⟩
    . rw [List.mapM_cons, hj, hjs]
      rfl
    . rw [List.mapM_cons, hof, hofs]
      rfl

theorem served_eq (table : RoutingTable) (req : Caddy.Request)
    : config.served table req = Caddy.serve (config.caddyRoutes table) req := by
  obtain ⟨js, hjs, hofs⟩ := config.buildRoutes_ofJson table.enabledRoutes
  unfold served buildRoutes caddyRoutes
  rw [hjs]
  cases hdefault : config.defaultBackend with
  | none =>
    show ((js ++ []).mapM Caddy.Route.ofJson).bind _ = _
    rw [List.append_nil, hofs]
    simp
  | some backend =>
    have hdefault : Caddy.Route.ofJson (buildDefaultRoute backend) = some (caddyDefault backend) := rfl
    show ((js ++ [buildDefaultRoute backend]).mapM Caddy.Route.ofJson).bind _ = _
    simp [List.mapM_append, hofs, hdefault]

end CaddyAdminConfig

/-! ## The route of a host -/

/--
The enabled routes whose host matches, in the order of the map.
-/
def RoutingTable.matching (table : RoutingTable) (host : String) : List Route :=
  table.enabledRoutes.filter (fun r => Caddy.hostMatches r.host host)

/--
No other route that matches has fewer labels that are a `*`.
-/
def IsMostSpecific (table : RoutingTable) (host : String) (r : Route) : Prop :=
  r ∈ table.matching host
    ∧ ∀ r' ∈ table.matching host, Caddy.wildcards r.host ≤ Caddy.wildcards r'.host

def projectHeader (headers : List (String × String)) : List String :=
  Caddy.valuesOf "x-reactor-project" headers

def SentTo (r : Route) (f : Caddy.Forward) : Prop :=
  f.upstreams = [r.backendTarget.address] ∧ projectHeader f.headers = [r.projectRef.text]

/--
The request is sent to a most specific route for its project, to the default backend only without one,
and not with a project that the client has named.
-/
@[irreducible]
def SendsRight (config : CaddyAdminConfig) (table : RoutingTable) (req : Caddy.Request) : Prop :=
  match config.served table req with
  | some f =>
    (∃ r, IsMostSpecific table req.host r ∧ SentTo r f)
      ∨ (table.matching req.host = []
          ∧ (∃ backend, config.defaultBackend = some backend ∧ f.upstreams = [backend])
          ∧ ∀ v ∈ projectHeader req.headers, v ∉ projectHeader f.headers)
  | none => table.matching req.host = [] ∧ config.defaultBackend = none

/--
The first route that matches sends where a most specific one would. Where none matches there is no
default backend, or the host has one label and the client names no project.
-/
def RightFirst (config : CaddyAdminConfig) (table : RoutingTable) (req : Caddy.Request) : Prop :=
  match table.matching req.host with
  | first :: _ =>
    ∃ r, IsMostSpecific table req.host r
      ∧ r.backendTarget.address = first.backendTarget.address ∧ r.projectRef = first.projectRef
  | [] =>
    config.defaultBackend = none
      ∨ ((Caddy.labels req.host).length = 1 ∧ projectHeader req.headers = [])

section Served

variable {config : CaddyAdminConfig} {table : RoutingTable} {req : Caddy.Request}

theorem forward_caddyRoute (config : CaddyAdminConfig) (route : Route) (req : Caddy.Request)
    : ∃ f, Caddy.forward (config.caddyRoute route).handle req = some f ∧ SentTo route f := by
  have hset : ∀ headers, projectHeader
      (Caddy.setHeader "X-Reactor-Project" [route.projectRef.text] headers)
        = [route.projectRef.text] := by
    intro headers
    have hlower : Caddy.lower "X-Reactor-Project" = "x-reactor-project" := by decide
    rw [projectHeader, ← hlower]
    exact Caddy.valuesOf_setHeader_self
  unfold CaddyAdminConfig.caddyRoute
  cases config.limitOf route with
  | none => exact ⟨_, rfl, rfl, hset _⟩
  | some rateLimit => exact ⟨_, rfl, rfl, hset _⟩

theorem forward_caddyDefault (backend : String) (req : Caddy.Request)
    : Caddy.forward (CaddyAdminConfig.caddyDefault backend).handle req = some ⟨[backend], req.headers⟩ :=
  rfl

/--
The first route that matches answers the request.
-/
theorem served_eq_find? (config : CaddyAdminConfig) (table : RoutingTable) (req : Caddy.Request)
    : config.served table req
        = ((config.caddyRoutes table).find? (·.hit req)).bind
          (fun r => Caddy.forward r.handle req) := by
  rw [config.served_eq]
  apply Caddy.serve_eq
  intro r hr
  rw [CaddyAdminConfig.caddyRoutes, List.mem_append] at hr
  cases hr with
  | inl hr =>
    obtain ⟨route, _, rfl⟩ := List.mem_map.mp hr
    obtain ⟨f, hf, _⟩ := forward_caddyRoute config route req
    rw [hf]
    rfl
  | inr hr =>
    rw [Option.mem_toList, Option.map_eq_some_iff] at hr
    obtain ⟨backend, _, rfl⟩ := hr
    rfl

theorem find?_caddyRoutes (config : CaddyAdminConfig) (table : RoutingTable) (req : Caddy.Request)
    : (config.caddyRoutes table).find? (·.hit req)
        = ((table.matching req.host).head?.map config.caddyRoute).or
          ((config.defaultBackend.map CaddyAdminConfig.caddyDefault).filter (·.hit req)) := by
  have hhit : (fun r : Caddy.Route => r.hit req) ∘ config.caddyRoute
      = fun r : Route => Caddy.hostMatches r.host req.host := by
    funext r
    simp [Caddy.Route.hit, CaddyAdminConfig.caddyRoute]
  rw [CaddyAdminConfig.caddyRoutes, List.find?_append, List.find?_map, hhit, RoutingTable.matching,
    List.head?_filter]
  cases config.defaultBackend with
  | none => rfl
  | some backend =>
    simp only [Option.map_some, Option.toList_some, List.find?_singleton, Option.filter_some]

theorem hit_caddyDefault (backend : String)
    : (CaddyAdminConfig.caddyDefault backend).hit req = true ↔ (Caddy.labels req.host).length = 1 := by
  rw [← Caddy.hostMatches_star]
  simp [Caddy.Route.hit, CaddyAdminConfig.caddyDefault]

theorem served_of_matching {first : Route} {rest : List Route}
    (h : table.matching req.host = first :: rest)
    : ∃ f, config.served table req = some f ∧ SentTo first f := by
  rw [served_eq_find?, find?_caddyRoutes, h]
  exact forward_caddyRoute config first req

theorem served_of_none (h : table.matching req.host = []) (hnone : config.defaultBackend = none)
    : config.served table req = none := by
  rw [served_eq_find?, find?_caddyRoutes, h, hnone]
  rfl

theorem served_of_default {backend : String} (h : table.matching req.host = [])
    (hdefault : config.defaultBackend = some backend)
    : config.served table req
        = if (Caddy.labels req.host).length = 1 then some ⟨[backend], req.headers⟩ else none := by
  rw [served_eq_find?, find?_caddyRoutes, h, hdefault]
  simp only [List.head?_nil, Option.map_none, Option.map_some, Option.none_or, Option.filter_some]
  simp only [hit_caddyDefault]
  split
  . rw [Option.bind_some, forward_caddyDefault]
  . rfl

/--
The configuration sends a request right under exactly that condition.
-/
theorem sendsRight_iff (config : CaddyAdminConfig) (table : RoutingTable) (req : Caddy.Request)
    : SendsRight config table req ↔ RightFirst config table req := by
  unfold SendsRight RightFirst
  cases hmatching : table.matching req.host with
  | cons first rest =>
    obtain ⟨f, hserved, hupstreams, hproject⟩ := @served_of_matching config _ _ _ _ hmatching
    simp only [hserved, reduceCtorEq, false_and, or_false]
    constructor
    . intro ⟨r, hr, haddress, href⟩
      rw [hupstreams, List.cons.injEq] at haddress
      rw [hproject, List.cons.injEq] at href
      exact ⟨r, hr, haddress.1.symm, (ProjectRef.ext_text href.1).symm⟩
    . intro ⟨r, hr, haddress, href⟩
      refine ⟨r, hr, ?_, ?_⟩
      . rw [hupstreams, haddress]
      . rw [hproject, href]
  | nil =>
    have hnone : ∀ r, ¬ IsMostSpecific table req.host r := by
      intro r hr
      have := hr.1
      rw [hmatching] at this
      cases this
    cases hdefault : config.defaultBackend with
    | none => simp [served_of_none hmatching hdefault]
    | some backend =>
      rw [served_of_default hmatching hdefault]
      split
      . next f heq =>
        split at heq
        . next hlabels =>
          cases heq
          simp only [hnone, false_and, exists_false, false_or, true_and, hlabels, Option.some.injEq,
            reduceCtorEq]
          rw [List.eq_nil_iff_forall_not_mem]
          constructor
          . intro h v hv
            exact h.2 v hv hv
          . intro h
            exact ⟨⟨backend, rfl, rfl⟩, fun v hv => absurd hv (h v)⟩
        . cases heq
      . next heq =>
        split at heq
        . cases heq
        . next hlabels => simp [hlabels]

end Served

section Examples

def projectRef (c : Char) (h : isRefChar c = true) : ProjectRef where
  text := String.ofList (List.replicate 20 c)
  length_eq := by simp
  isRefChar_of_mem := by
    intro d hd
    rw [String.toList_ofList] at hd
    rw [List.eq_of_mem_replicate hd]
    exact h

def wildcardRoute : Route :=
  ⟨"*.reactor.cloud", 1, projectRef 'a' rfl, .dedicated, ⟨"a.internal:8000", "/_admin/health"⟩, true⟩

def exactRoute : Route :=
  ⟨"b.reactor.cloud", 2, projectRef 'b' rfl, .dedicated, ⟨"b.internal:8000", "/_admin/health"⟩, true⟩

def plainConfig : CaddyAdminConfig :=
  ⟨none, some "reactor-cloud.internal:8000", "*.reactor.cloud", "admin@reactor.cloud", false, none⟩

def exactFirst : RoutingTable :=
  ⟨[exactRoute, wildcardRoute], by decide⟩

/--
Where the map begins with the exact host, the request goes to it.
-/
example : RightFirst plainConfig exactFirst ⟨"b.reactor.cloud", []⟩ := by
  have hmatching : exactFirst.matching "b.reactor.cloud" = [exactRoute, wildcardRoute] := by
    decide
  have hspecific : IsMostSpecific exactFirst "b.reactor.cloud" exactRoute := by
    unfold IsMostSpecific
    decide
  simp only [RightFirst, hmatching]
  exact ⟨exactRoute, hspecific, rfl, rfl⟩

def wildcardFirst : RoutingTable :=
  ⟨[wildcardRoute, exactRoute], by decide⟩

/--
Where it begins with the wildcard host, the request of one project goes to another.
-/
theorem not_sendsRight : ¬ ∀ config table req, SendsRight config table req := by
  intro h
  have hright := h plainConfig wildcardFirst ⟨"b.reactor.cloud", []⟩
  have hserved : plainConfig.served wildcardFirst ⟨"b.reactor.cloud", []⟩
      = some ⟨["a.internal:8000"], [("x-forwarded-proto", "https"),
        ("x-real-ip", "\x7bhttp.request.remote.host\x7d"),
        ("x-reactor-project", "aaaaaaaaaaaaaaaaaaaa")]⟩ := by
    decide
  have hspecific : ∀ r ∈ wildcardFirst.matching "b.reactor.cloud",
      (∀ r' ∈ wildcardFirst.matching "b.reactor.cloud", Caddy.wildcards r.host ≤ Caddy.wildcards r'.host) →
        r.backendTarget.address ≠ "a.internal:8000" := by
    decide
  have hsome : wildcardFirst.matching "b.reactor.cloud" ≠ [] := by
    decide
  unfold SendsRight at hright
  simp only [hserved] at hright
  cases hright with
  | inl hright =>
    obtain ⟨r, ⟨hr, hle⟩, haddress, _⟩ := hright
    rw [List.cons.injEq] at haddress
    exact hspecific r hr hle haddress.1.symm
  | inr hright => exact hsome hright.1

end Examples
end Reactor.Gateway
