import Mathlib.Data.BitVec
import ReactorCloud.Core.Types
import ReactorCloud.Http.Dispatch
import ReactorCloud.Interleave.Program

/-!
This module contains the configuration and the middleware of the ops surface. Each one learns about the route
only from the extensions of the request.
-/

namespace Reactor.Ops

inductive IpAddr where
  | v4 (addr : BitVec 32)
  | v6 (addr : BitVec 128)
deriving DecidableEq, Repr

/--
An address with the length of its network part.
-/
inductive IpNetwork where
  | v4 (addr : BitVec 32) (len : Nat)
  | v6 (addr : BitVec 128) (len : Nat)
deriving DecidableEq, Repr

def IpNetwork.contains : IpNetwork → IpAddr → Bool
  | .v4 net len, .v4 addr => net >>> (32 - len) == addr >>> (32 - len)
  | .v6 net len, .v6 addr => net >>> (128 - len) == addr >>> (128 - len)
  | _, _ => false

structure OpsConfig where
  trustedNetworks : List String
  stepUpWindowSecs : UInt64
  requireStepUpFor : List String

namespace OpsConfig

/--
The parser of networks is not part of the repository.
-/
def isTrustedIp (config : OpsConfig) (parse : String → Option IpNetwork) (ip : IpAddr) : Bool :=
  (config.trustedNetworks.filterMap parse).any (·.contains ip)

def requiresStepUp (config : OpsConfig) (scope : String) : Bool :=
  config.requireStepUpFor.any (· == scope)

def default : OpsConfig where
  trustedNetworks := ["127.0.0.0/8", "::1/128", "fdaa::/16"]
  stepUpWindowSecs := 300
  requireStepUpFor := ["ops:cluster_admin", "vault:write", "cloud:projects:delete"]

end OpsConfig

open Interleave
open Interleave.Program (request attempt)
open Http (headerStr)

structure RouteMeta where
  requiredScope : String
  action : String
  resourceType : Option String
deriving DecidableEq, Repr

def RouteMeta.new (scope action : String) : RouteMeta :=
  ⟨scope, action, none⟩

structure OpsAuthCtx where
  claims : Core.Claims
  authCtx : Core.AuthCtx
  userId : ReactorId
  stepUpVerified : Bool

structure Extensions where
  connectInfo : Option IpAddr
  opsAuthCtx : Option OpsAuthCtx
  routeMeta : Option RouteMeta
  bodyLimit : Option Nat

inductive OpsError where
  | untrustedNetwork
  | authenticationRequired
  | invalidToken
  | missingScope (scope : String)
  | stepUpRequired
deriving DecidableEq, Repr

inductive AuditStatus where
  | success
  | denied
  | error
deriving DecidableEq, Repr

structure OpsAuditEntry where
  actorUserId : Option ReactorId
  actorIp : Option String
  actorUserAgent : Option String
  action : String
  scopeUsed : Option String
  resourceType : Option String
  resourceId : Option String
  status : AuditStatus
  stepUpUsed : Bool
deriving DecidableEq, Repr

inductive Body where
  | error (error message : String)
  | bytes (b : Http.Bytes)
deriving DecidableEq, Repr

abbrev Request := Http.Request Extensions
abbrev Response := Http.Response Body

def OpsError.intoResponse : OpsError → Response
  | .untrustedNetwork =>
    ⟨403, [], some (.error "untrusted_network" "access denied: untrusted network")⟩
  | .authenticationRequired =>
    ⟨401, [], some (.error "authentication_required" "authentication required")⟩
  | .invalidToken => ⟨401, [], some (.error "invalid_token" "invalid or expired token")⟩
  | .missingScope scope =>
    ⟨403, [], some (.error "missing_scope"
      ("Access denied: missing required scope '" ++ scope ++ "'"))⟩
  | .stepUpRequired =>
    ⟨403, [("www-authenticate", "WebAuthn realm=\"reactor-ops\"")],
      some (.error "step_up_required" "step-up authentication required")⟩

/--
The functions behind the routes of both routers.
-/
inductive Handler where
  | bootstrap
  | status
  | promote
  | doctor
  | version
  | deploymentStatus
  | listAudit
  | readSecret
  | writeSecret
  | deleteSecret
  | opsCreateProject
  | opsListProjects
  | opsGetProject
  | opsDeleteProject
  | opsDeploy
deriving DecidableEq, Repr

inductive Call where
  | resolveCtx (token : String)
  | now
  | handle (h : Handler) (req : Request)
  | log (entry : OpsAuditEntry)

/--
What the auth service or the database fails with, of which only the log speaks.
-/
structure Failure where
  message : String

abbrev interface : Interface where
  Call := Call
  Ret
    | .resolveCtx _ => Core.AuthCtx
    | .now => Int64
    | .handle _ _ => Response
    | .log _ => Unit
  Err := Failure

abbrev OpsM := Program interface
abbrev Service := Http.Service OpsM Extensions Body
abbrev Layer := Http.Layer OpsM Extensions Body

def Handler.service (h : Handler) : Service :=
  fun req => request (I := interface) (.handle h req)

variable (config : OpsConfig) (parse : String → Option IpNetwork)

-- Without the address the extractor answers itself.
def networkCheck : Layer := fun next req =>
  match req.extensions.connectInfo with
  | some addr =>
    if config.isTrustedIp parse addr then
      next req
    else
      pure OpsError.untrustedNetwork.intoResponse
  | none => pure (.empty 500)

def bearerToken (m : Http.Message) : Option String :=
  ((m.header "authorization").bind headerStr).bind (Rust.Str.stripPrefix "Bearer ")

def identityCheck : Layer := fun next req =>
  match bearerToken req.toMessage with
  | none => pure OpsError.authenticationRequired.intoResponse
  | some token => do
    match ← attempt (request (I := interface) (.resolveCtx token)) with
    | .error _ => pure OpsError.invalidToken.intoResponse
    | .ok authCtx =>
      match authCtx.claims.userId with
      | none => pure OpsError.invalidToken.intoResponse
      | some userId =>
        let opsCtx : OpsAuthCtx := ⟨authCtx.claims, authCtx, userId, false⟩
        next { req with extensions := { req.extensions with opsAuthCtx := some opsCtx } }

def scopeCheck : Layer := fun next req =>
  match req.extensions.routeMeta with
  | some routeMeta =>
    match req.extensions.opsAuthCtx with
    | none => pure OpsError.authenticationRequired.intoResponse
    | some opsCtx =>
      if opsCtx.claims.hasScope routeMeta.requiredScope then
        next req
      else
        pure (OpsError.missingScope routeMeta.requiredScope).intoResponse
  | none => next req

def stepUpCheck : Layer := fun next req =>
  match req.extensions.routeMeta with
  | some routeMeta =>
    if config.requiresStepUp routeMeta.requiredScope then
      match req.extensions.opsAuthCtx with
      | none => pure OpsError.authenticationRequired.intoResponse
      | some opsCtx => do
        let now ← request (I := interface) .now
        if opsCtx.claims.requiresStepUp now config.stepUpWindowSecs.toInt64 then
          pure OpsError.stepUpRequired.intoResponse
        else
          let opsCtx := { opsCtx with stepUpVerified := true }
          next { req with extensions := { req.extensions with opsAuthCtx := some opsCtx } }
    else
      next req
  | none => next req

def actorIp (m : Http.Message) : Option String :=
  ((m.header "x-forwarded-for" <|> m.header "x-real-ip").bind headerStr).map
    (fun s => Rust.Str.trim ((Rust.Str.splitOnChar ',' s).headD s))

def auditStatus (response : Response) : AuditStatus :=
  if response.isSuccess then
    .success
  else if response.status = 403 ∨ response.status = 401 then
    .denied
  else
    .error

-- The route is read before the handler runs. A failure to log is no failure of the request.
def auditLog : Layer := fun next req => do
  let opsCtx := req.extensions.opsAuthCtx
  let response ← next req
  match req.extensions.routeMeta with
  | some routeMeta =>
    let _ ← attempt (request (I := interface) (.log {
      actorUserId := opsCtx.map (·.userId),
      actorIp := actorIp req.toMessage,
      actorUserAgent := (req.header "user-agent").bind headerStr,
      action := routeMeta.action,
      scopeUsed := some routeMeta.requiredScope,
      resourceType := routeMeta.resourceType,
      resourceId := none,
      status := auditStatus response,
      stepUpUsed := (opsCtx.map (·.stepUpVerified)).getD false }))
    pure response
  | none => pure response

end Reactor.Ops

/-!
This module contains the routers of the ops surface, the one of `reactor-ops` and the one the server
adds to it.
-/

namespace Reactor.Ops

open Http (Method MethodRouter)

abbrev Router := Http.Router OpsM Extensions Body

structure Route where
  path : String
  method : Method
  handler : Handler
  routeMeta : RouteMeta
deriving DecidableEq, Repr

/--
The metadata is an `Extension` layer on the method router of the handler.
-/
def Route.service (x : Route) : MethodRouter OpsM Extensions Body :=
  (MethodRouter.on x.method x.handler.service).layer
    (Http.extension (fun e => { e with routeMeta := some x.routeMeta }))

def routerOf (routes : List Route) : Router :=
  Http.Router.new.routeAll (routes.map (fun x => (x.path, x.service)))

def operatorsRoutes : List Route := [
  ⟨"/operators/bootstrap", .post, .bootstrap, .new "ops:bootstrap" "operators.bootstrap"⟩,
  ⟨"/operators/status", .get, .status, .new "ops:read" "operators.status"⟩,
  ⟨"/operators/promote", .post, .promote, .new "ops:cluster_admin" "operators.promote"⟩]

def healthRoutes : List Route := [
  ⟨"/doctor", .get, .doctor, .new "ops:read" "doctor"⟩,
  ⟨"/version", .get, .version, .new "ops:read" "version"⟩]

def deploymentRoutes : List Route := [
  ⟨"/deployments/status", .get, .deploymentStatus, .new "ops:deploy" "deployments.status"⟩]

def auditRoutes : List Route := [
  ⟨"/audit", .get, .listAudit, .new "ops:read" "audit.list"⟩]

def vaultRoutes : List Route := [
  ⟨"/vault/*path", .get, .readSecret, .new "vault:read" "vault.read"⟩,
  ⟨"/vault/*path", .put, .writeSecret, .new "vault:write" "vault.write"⟩,
  ⟨"/vault/*path", .delete, .deleteSecret, .new "vault:write" "vault.delete"⟩]

def projectsRoutes : List Route := [
  ⟨"/projects", .post, .opsCreateProject, .new "cloud:projects:write" "projects.create"⟩,
  ⟨"/projects", .get, .opsListProjects, .new "cloud:projects:read" "projects.list"⟩,
  ⟨"/projects/:project_ref", .get, .opsGetProject, .new "cloud:projects:read" "projects.get"⟩,
  ⟨"/projects/:project_ref", .delete, .opsDeleteProject,
    .new "cloud:projects:delete" "projects.delete"⟩]

def deployRoutes : List Route := [
  ⟨"/deployments", .post, .opsDeploy, .new "ops:deploy" "deployments.create"⟩]

variable (config : OpsConfig) (parse : String → Option IpNetwork)

/--
The last layer added is the first to run.
-/
def middlewareStack (api : Router) : Router :=
  ((((api.layer auditLog).layer (stepUpCheck config)).layer scopeCheck).layer identityCheck).layer
    (networkCheck config parse)

def router : Router :=
  let api := (((((Http.Router.new.merge (routerOf operatorsRoutes)).merge
    (routerOf healthRoutes)).merge (routerOf deploymentRoutes)).merge
    (routerOf [])).merge (routerOf vaultRoutes)).merge (routerOf auditRoutes)
  .nest "/_ops/v1" (middlewareStack config parse api)

def buildDelegatingRouter (cloud adminState : Bool) : Router :=
  let api : Router := .new
  let api := if cloud then api.merge (routerOf projectsRoutes) else api
  let api :=
    if adminState then
      api.merge ((routerOf deployRoutes).layer
        (Http.extension (fun e => { e with bodyLimit := some (256 * 1024 * 1024) })))
    else
      api
  .nest "/_ops/v1" (middlewareStack config parse api)

def buildRouter (cloud adminState : Bool) : Router :=
  (router config parse).merge (buildDelegatingRouter config parse cloud adminState)

/--
All the routes the server has.
-/
def routes (cloud adminState : Bool) : List Route :=
  operatorsRoutes ++ healthRoutes ++ deploymentRoutes ++ vaultRoutes ++ auditRoutes
    ++ (if cloud then projectsRoutes else []) ++ (if adminState then deployRoutes else [])

end Reactor.Ops
