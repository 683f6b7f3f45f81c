import ReactorCloud.Functions.Bun
import ReactorCloud.Functions.Deployments
import ReactorCloud.Http.Wire
import ReactorCloud.Rust.Bytes
import ReactorCloud.Rust.HashMap

/-!
This module contains what the invoke route makes of a request, and what `BunRuntime` writes to the socket
of the function.
-/

namespace Reactor.Functions

open Rust (Uuid HashMap)
open Rust.Str (bytes jsonString joinWith)
open Http.Wire (Bytes isToken isFieldByte)

/-! ## Requests as they come in -/

structure Method where
  text : String
  isToken : isToken (bytes text) = true

/--
An entry of a `HeaderMap`. Names are in lower case.
-/
structure HeaderField where
  name : String
  value : Bytes
  isName : isToken (bytes name) = true ∧ (bytes name).map Http.Wire.lowerByte = bytes name
  isValue : value.all isFieldByte = true

/--
The rest of the path is the one the router has decoded.
-/
structure CallerRequest where
  method : Method
  rest : Option String
  query : Option String
  headers : List HeaderField
  body : Bytes

/--
The middleware makes the id of the request from a UUID.
-/
structure InvokeCtx extends FunctionCtx where
  requestId : Uuid

def InvokeCtx.userId (ctx : InvokeCtx) : Option Uuid :=
  ctx.auth.userId

/-! ## The request for the runtime -/

structure BundleLimits where
  maxBodyInMb : UInt32
  maxBodyOutMb : UInt32

structure ConcurrencyConfig where
  maxConcurrency : UInt32

structure Manifest where
  limits : BundleLimits
  concurrency : ConcurrencyConfig

structure Limits where
  maxBodyInBytes : Nat
  maxBodyOutBytes : Nat

def Limits.ofManifest (manifest : Manifest) : Limits where
  maxBodyInBytes := manifest.limits.maxBodyInMb.toNat * 1024 * 1024
  maxBodyOutBytes := manifest.limits.maxBodyOutMb.toNat * 1024 * 1024

/--
`HeaderValue::to_str`
-/
def isText (value : Bytes) : Bool :=
  value.all (fun b => b == 9 || (32 ≤ b && b < 127))

def toStr (value : Bytes) : Option String :=
  if isText value then some (String.ofList (value.map (fun b => Char.ofNat b.toNat))) else none

def hopByHop : List String :=
  ["connection", "keep-alive", "proxy-authenticate", "proxy-authorization", "te", "trailers",
    "transfer-encoding", "upgrade"]

/--
The text of a `ReactorAuthHeader`.
-/
def reactorAuth (ctx : InvokeCtx) : String :=
  "\x7b\"user_id\":" ++ (ctx.userId.elim "null" (fun id => jsonString id.hyphenated))
    ++ ",\"org_id\":" ++ jsonString ctx.activeOrg.hyphenated
    ++ ",\"permissions\":[" ++ joinWith "," (ctx.auth.permissions.map jsonString) ++ "]\x7d"

def keepHeader (field : HeaderField) : Option (Σ _ : String, String) :=
  if field.name ∈ hopByHop then none
  else if field.name = "authorization" then none
  else (toStr field.value).map (⟨field.name, ·⟩)

def outHeaders (ctx : InvokeCtx) (headers : List HeaderField) : HashMap String :=
  let out := HashMap.extend ∅ (headers.filterMap keepHeader)
  let out := out.insert "x-reactor-auth" (reactorAuth ctx)
  out.insert "x-request-id" ctx.requestId.hyphenated

def contentLength (headers : List HeaderField) : Option Nat := do
  let field ← headers.find? (·.name == "content-length")
  let text ← toStr field.value
  Rust.parseU64 text.toList

/--
A request with what no runtime reads.
-/
structure FullRequest extends IncomingRequest where
  query : Option String
  contentLength : Option Nat

def outPath (subpath : String) : String :=
  if subpath = "" then "/" else if subpath.toList.head? = some '/' then subpath else "/" ++ subpath

/--
The body is a stream of which only the stated length is looked at.
-/
def buildIncomingRequest (caller : CallerRequest) (ctx : InvokeCtx) (limits : Limits)
    : Except FunctionsError FullRequest := do
  let path := outPath (caller.rest.getD "")
  let headers := (outHeaders ctx caller.headers).entries.map (fun e => (e.1, e.2))
  let contentLength := contentLength caller.headers
  match contentLength with
  | some len =>
    if len > limits.maxBodyInBytes then
      throw (.requestBodyTooLarge len limits.maxBodyInBytes)
  | none => pure ()
  pure ⟨⟨caller.method.text, path, headers, some caller.body⟩, caller.query, contentLength⟩

/-! ## The text on the socket -/

def headerLines (headers : List (String × String)) : Bytes :=
  headers.flatMap (fun (key, value) => bytes (key ++ ": " ++ value ++ "\r\n"))

/--
What `invoke_over_socket` writes. A request without an id gets a new one.
-/
def written (handle : DeploymentHandle) (newId : Uuid) (request : IncomingRequest) : Bytes :=
  bytes (request.method ++ " " ++ request.path ++ " HTTP/1.1\r\nHost: " ++ handle.functionName ++ "\r\n")
    ++ headerLines request.headers
    ++ (if request.headers.any (·.1 == "x-request-id") then []
      else bytes ("x-request-id: " ++ newId.hyphenated ++ "\r\n"))
    ++ (match request.body with
      | some body => bytes ("content-length: " ++ Nat.repr body.length ++ "\r\n")
      | none => bytes "content-length: 0\r\n")
    ++ bytes "\r\n"
    ++ request.body.getD []

/-! ## Plain requests -/

def InvokeCtx.plain : InvokeCtx where
  auth := ⟨some 1, some 2, none, ["functions:hello:invoke"]⟩
  orgId := 2
  requestId := 3

def CallerRequest.plain (body : Http.Wire.Bytes) : CallerRequest where
  method := ⟨"POST", by decide⟩
  rest := none
  query := none
  headers := []
  body := body

end Reactor.Functions
