import ReactorCloud.Deployments.Store
import ReactorCloud.Functions.Types
import ReactorCloud.Policy.Eval
import ReactorCloud.Rust.Json

/-!
This module contains the routes that deploy the bundles of a function, promote a deployment and roll
back to one.
-/

namespace Reactor.Functions

open Interleave
open Interleave.Program (okOr ofExcept require attempt fail)
open Reactor.Deployments
open Rust (Uuid Json)

structure FunctionCtx where
  auth : AuthCtx
  orgId : ReactorId

def FunctionCtx.activeOrg (ctx : FunctionCtx) : Uuid :=
  ctx.orgId

def FunctionCtx.hasPermission (ctx : FunctionCtx) (permission : String) : Bool :=
  ctx.auth.hasPermission permission

abbrev Handler (α : Type) :=
  Program (storeCalls FunctionsError) α

def getFunctionByName (ctx : FunctionCtx) (functionName : String) : Handler Owner := do
  let function ← store (.getByName ctx.activeOrg functionName)
  okOr function (.functionNotFound functionName)

/--
A service without the runtime of the function takes the deployment to be ready.
-/
def runtimeDeploy (deployment : Deployment) (hasRuntime : Bool)
    : Handler (Except FunctionsError Unit) :=
  if hasRuntime then do
    store (.writeBundle deployment.id)
    attempt (store (.deploy deployment.id))
  else
    pure (.ok ())

def recordResult (deployment : Deployment) : Except FunctionsError Unit → Handler Deployment
  | .ok _ => do
    store (.updateDeploymentStatus deployment.id .ready)
    let reloaded ← store (.getDeployment deployment.id)
    okOr reloaded (.deploymentNotFound deployment.id.hyphenated)
  | .error _ => do
    store (.updateDeploymentStatus deployment.id .failed)
    fail (.runtimeError "deployment failed - see status_detail")

/--
Both an upload that cannot be read and a bundle that is not valid end the request before anything is
stored.
-/
def createDeployment (ctx : FunctionCtx) (functionName : String) (bundle : Except FunctionsError Unit)
    (hasRuntime : Bool) : Handler Deployment := do
  let permission := "functions:" ++ functionName ++ ":deploy"
  require (ctx.hasPermission permission || ctx.hasPermission "*")
    (.permissionDenied (permission ++ " permission required"))
  let function ← getFunctionByName ctx functionName
  ofExcept bundle
  -- The first version only names the bundle, the insertion computes its own.
  let _ ← store (.nextDeploymentVersion function.id)
  let version ← store (.nextDeploymentVersion function.id)
  let deployment ← store (.createDeployment function.id version)
  let runtimeDeployResult ← runtimeDeploy deployment hasRuntime
  recordResult deployment runtimeDeployResult

structure PromoteResponse where
  previousDeploymentId : Option String
  currentDeploymentId : String
  message : String
deriving DecidableEq, Repr

/--
The deployment a request is about, if it is one of the function and ready.
-/
def readyDeployment (function : Owner) (id : Uuid) (idText action : String) : Handler Deployment := do
  let deployment ← store (.getDeployment id)
  let deployment ← okOr deployment (.deploymentNotFound idText)
  require (deployment.ownerId == function.id) (.deploymentNotFound idText)
  require (deployment.status == .ready)
    (.invalidRequest ("deployment status is '" ++ deployment.status.asStr ++ "', must be 'ready' to "
      ++ action))
  pure deployment

def promoteDeployment (ctx : FunctionCtx) (functionName : String) (body : Json)
    : Handler PromoteResponse := do
  let permission := "functions:" ++ functionName ++ ":admin"
  require (ctx.hasPermission permission || ctx.hasPermission "functions:*:admin")
    (.permissionDenied permission)
  let function ← getFunctionByName ctx functionName
  let deploymentIdStr ← okOr ((body.get "deployment_id").bind Json.asStr)
    (.invalidRequest "deployment_id is required")
  let deploymentId ← okOr (Uuid.parseStr deploymentIdStr)
    (.invalidRequest "invalid deployment_id format")
  let _ ← readyDeployment function deploymentId deploymentIdStr "promote"
  store (.setCurrentDeployment function.id (some deploymentId))
  pure ⟨function.currentDeploymentId.map Uuid.hyphenated, deploymentId.hyphenated,
    "Deployment " ++ deploymentId.hyphenated ++ " is now serving traffic"⟩

/--
The text of the deployment a rollback names.
-/
def deploymentIdOf (body : Option Json) : Option String :=
  body.bind (fun body => (body.get "deployment_id").bind Json.asStr)

/--
The deployment before the current one: the first of the ready ones behind it.
-/
def previousOf (currentId : Option Uuid) (deployments : List Deployment) : Option Deployment :=
  let readyDeployments := deployments.filter (·.status == .ready)
  (readyDeployments.dropWhile (fun d => some d.id == currentId)).head?

def targetDeploymentId (function : Owner) (body : Option Json) : Handler Uuid :=
  match deploymentIdOf body with
  | some deploymentIdStr =>
    okOr (Uuid.parseStr deploymentIdStr) (.invalidRequest "invalid deployment_id format")
  | none => do
    let deployments ← store (.listDeployments function.id none)
    let previous ← okOr (previousOf function.currentDeploymentId deployments)
      (.invalidRequest "no previous deployment to rollback to")
    pure previous.id

def rollbackDeployment (ctx : FunctionCtx) (functionName : String) (body : Option Json)
    : Handler PromoteResponse := do
  let permission := "functions:" ++ functionName ++ ":admin"
  require (ctx.hasPermission permission || ctx.hasPermission "functions:*:admin")
    (.permissionDenied permission)
  let function ← getFunctionByName ctx functionName
  let target ← targetDeploymentId function body
  let deployment ← readyDeployment function target target.hyphenated "rollback to"
  store (.setCurrentDeployment function.id (some target))
  pure ⟨function.currentDeploymentId.map Uuid.hyphenated, target.hyphenated,
    "Rolled back to deployment " ++ target.hyphenated ++ " (version " ++ toString deployment.version
      ++ ")"⟩

end Reactor.Functions
