import Mathlib.Data.List.Nodup
import ReactorCloud.Core.Types
import ReactorCloud.Rust.Json

/-!
This module contains the routing table of the edge gateway and the builder of the configuration that it
loads into Caddy.
-/

namespace Reactor.Gateway

open Rust (Uuid)

inductive BackendKind where
  | dedicated
  | shared
deriving DecidableEq, Repr

structure BackendTarget where
  address : String
  healthPath : String
deriving DecidableEq, Repr

structure Route where
  host : String
  projectId : Uuid
  projectRef : ProjectRef
  backendKind : BackendKind
  backendTarget : BackendTarget
  enabled : Bool
deriving DecidableEq

/--
The routes in the order in which the map iterates over them. The key of a route is its host.
-/
structure RoutingTable where
  routes : List Route
  nodup : (routes.map (·.host)).Nodup

namespace RoutingTable

def new : RoutingTable :=
  ⟨[], List.nodup_nil⟩

/--
The map keeps its order where the host is known. A new route may come to stand anywhere, here in front.
-/
def upsert (route : Route) (table : RoutingTable) : RoutingTable where
  routes :=
    if table.routes.any (·.host == route.host) then
      table.routes.map (fun r => if r.host == route.host then route else r)
    else
      route :: table.routes
  nodup := by
    split
    . have hkeep : (fun r : Route => (if r.host == route.host then route else r).host)
          = (fun r => r.host) := by
        funext r
        split
        . next h => exact (beq_iff_eq.mp h).symm
        . rfl
      rw [List.map_map]
      show (table.routes.map (fun r : Route => (if r.host == route.host then route else r).host)).Nodup
      rw [hkeep]
      exact table.nodup
    . next hnew =>
      rw [List.map_cons, List.nodup_cons]
      constructor
      . intro hmem
        obtain ⟨r, hr, heq⟩ := List.mem_map.mp hmem
        apply hnew
        rw [List.any_eq_true]
        exact ⟨r, hr, by simpa using heq⟩
      . exact table.nodup

def fromRoutes (routes : List Route) : RoutingTable :=
  routes.foldl (fun table r => table.upsert r) new

/--
The routes that are not disabled.
-/
def enabledRoutes (table : RoutingTable) : List Route :=
  table.routes.filter (·.enabled)

def len (table : RoutingTable) : Nat :=
  table.routes.length

end RoutingTable

/-! The configuration -/

open Rust (Json)

inductive GatewayError where
  | database (message : String)
  | caddyAdmin (message : String)
  | http (message : String)
  | rollbackFailed (message : String)
  | internal (message : String)
deriving DecidableEq, Repr

abbrev GatewayResult (α : Type) :=
  Except GatewayError α

structure RateLimitConfig where
  requestsPerSecond : UInt32
  burst : UInt32
  sharedOnly : Bool

structure CaddyAdminConfig where
  cloudflareToken : Option String
  defaultBackend : Option String
  wildcardDomain : String
  acmeEmail : String
  acmeStaging : Bool
  rateLimit : Option RateLimitConfig

def texts (items : List String) : Json :=
  .array (items.map Json.string)

def natural (n : UInt32) : Json :=
  .number (.posInt n.toUInt64)

/--
The double nearest to 0.2.
-/
def jitter : Json :=
  .number (.float (3602879701896397 / 18014398509481984) (by decide +kernel))

namespace CaddyAdminConfig

variable (config : CaddyAdminConfig)

def buildBaseConfig : List (String × Json) :=
  [("admin", .object [
      ("listen", .string "localhost:2019"),
      ("enforce_origin", .bool false)]),
    ("logging", .object [
      ("logs", .object [
        ("default", .object [
          ("level", .string "INFO"),
          ("encoder", .object [("format", .string "json")])])])])]

def buildRateLimiter (rateLimit : RateLimitConfig) (host : String) : GatewayResult Json :=
  .ok (.object [
    ("handler", .string "rate_limit"),
    ("rate_limits", .object [
      ("static", .object [
        ("match", .array [.object [("methods", texts ["GET", "POST", "PUT", "PATCH", "DELETE"])]]),
        ("key", .string host),
        ("window", .string "1s"),
        ("max_events", natural rateLimit.requestsPerSecond)])]),
    ("distributed", .object [("write_interval", .string "1s")]),
    ("jitter", jitter)])

def buildReverseProxy (backend : String) (projectRef : ProjectRef) : GatewayResult Json :=
  .ok (.object [
    ("handler", .string "reverse_proxy"),
    ("upstreams", .array [.object [("dial", .string backend)]]),
    ("headers", .object [
      ("request", .object [
        ("set", .object [
          ("X-Forwarded-Proto", texts ["https"]),
          ("X-Real-IP", texts ["\x7bhttp.request.remote.host\x7d"]),
          ("X-Reactor-Project", texts [projectRef.text])])])]),
    ("transport", .object [("protocol", .string "http"), ("tls", .object [])])])

/--
The limit on the requests of a route, if there is one.
-/
def limitOf (route : Route) : Option RateLimitConfig :=
  config.rateLimit.filter (fun rateLimit =>
    let shouldRateLimit := if rateLimit.sharedOnly then route.backendKind == .shared else true
    shouldRateLimit && decide (rateLimit.requestsPerSecond > 0))

def rateLimiters (route : Route) : GatewayResult (List Json) :=
  match config.limitOf route with
  | some rateLimit => (buildRateLimiter rateLimit route.host).map (fun limiter => [limiter])
  | none => .ok []

def buildRoute (route : Route) : GatewayResult Json := do
  let limiters ← config.rateLimiters route
  let proxy ← buildReverseProxy route.backendTarget.address route.projectRef
  pure (.object [
    ("match", .array [.object [("host", texts [route.host])]]),
    ("handle", .array (limiters ++ [proxy])),
    ("terminal", .bool true)])

def buildDefaultRoute (defaultBackend : String) : Json :=
  .object [
    ("match", .array [.object [("host", texts ["*"])]]),
    ("handle", .array [.object [
      ("handler", .string "reverse_proxy"),
      ("upstreams", .array [.object [("dial", .string defaultBackend)]])]]),
    ("terminal", .bool true)]

/--
The grouping of the routes by their targets is never read.
-/
def buildRoutes (table : RoutingTable) : GatewayResult (List Json) := do
  let routes ← table.enabledRoutes.mapM config.buildRoute
  pure (routes ++ (config.defaultBackend.map buildDefaultRoute).toList)

def buildServers (table : RoutingTable) : GatewayResult Json := do
  let routes ← config.buildRoutes table
  let httpsServer := .object [
    ("listen", texts [":443"]),
    ("routes", .array routes),
    ("automatic_https", .object [("disable", .bool false)])]
  let httpServer := .object [
    ("listen", texts [":80"]),
    ("routes", .array [.object [
      ("match", .array [.object [("host", texts ["*"])]]),
      ("handle", .array [.object [
        ("handler", .string "static_response"),
        ("status_code", .string "301"),
        ("headers", .object [
          ("Location", texts ["https://\x7bhttp.request.host\x7d\x7bhttp.request.uri\x7d"])])]])]])]
  pure (.object [("https", httpsServer), ("http", httpServer)])

/--
`trim_start_matches` of `"*."`.
-/
def trimWildcards : List Char → List Char
  | '*' :: '.' :: rest => trimWildcards rest
  | cs => cs

/--
The issuer of a policy. The staging directory takes the place of the default one.
-/
def issuer (more : List (String × Json)) : Json :=
  .object ([("module", .string "acme"), ("email", .string config.acmeEmail)] ++ more
    ++ if config.acmeStaging then
        [("ca", .string "https://acme-staging-v02.api.letsencrypt.org/directory")]
      else
        [])

def buildTlsApp : GatewayResult Json :=
  let wildcardPolicies := match config.cloudflareToken with
    | some token => [.object [
        ("subjects", texts [config.wildcardDomain,
          String.ofList (trimWildcards config.wildcardDomain.toList)]),
        ("issuers", .array [config.issuer [
          ("challenges", .object [
            ("dns", .object [
              ("provider", .object [
                ("name", .string "cloudflare"),
                ("api_token", .string token)])])])]])]]
    | none => []
  let onDemandPolicy := .object [
    ("on_demand", .bool true),
    ("issuers", .array [config.issuer []])]
  .ok (.object [
    ("automation", .object [
      ("on_demand", .object [
        ("ask", .string "http://localhost:9000/ask"),
        ("interval", .string "2m"),
        ("burst", natural 5)]),
      ("policies", .array (wildcardPolicies ++ [onDemandPolicy]))])])

def buildApps (table : RoutingTable) : GatewayResult Json := do
  let servers ← config.buildServers table
  let tls ← config.buildTlsApp
  pure (.object [("http", .object [("servers", servers)]), ("tls", tls)])

def build (table : RoutingTable) : GatewayResult Json := do
  let apps ← config.buildApps table
  pure (.object (buildBaseConfig ++ [("apps", apps)]))

end CaddyAdminConfig
end Reactor.Gateway
