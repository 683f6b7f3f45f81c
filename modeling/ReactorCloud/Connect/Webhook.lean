import Mathlib.Logic.Function.Basic
import ReactorCloud.Http.Service
import ReactorCloud.Interleave.Machine
import ReactorCloud.Rust.Json
import ReactorCloud.Rust.Uuid

/-!
This module contains the verification of webhooks and the ingress route, which looks up the receiver of
a request, verifies the request and uses the cache to refuse an event it has seen before.
-/

namespace Reactor.Connect.Webhook

open Http (Bytes headerStr)
open Interleave (Machine)
open Rust (Json Uuid)

inductive VerificationKind where
  | hmacSha256 (header secretField : String)
  | ed25519 (header : String) (keyIdHeader : Option String)
  | custom (docsUrl : String)
deriving DecidableEq

structure WebhookDescriptor where
  name : String
  verification : VerificationKind
  replayWindowSeconds : Nat
deriving DecidableEq

structure Receiver where
  id : Uuid
  instanceId : Uuid
  webhookName : String
  enabled : Bool
deriving DecidableEq

structure Instance where
  id : Uuid
  typeId : String
deriving DecidableEq

inductive IngressError where
  | database
  | receiverNotFound
  | receiverDisabled
  | instanceNotFound (id : String)
  | connector (message : String)
  | webhookSignatureInvalid
  | webhookReplayDetected
deriving DecidableEq

/--
What the store and the connectors answer, the secrets of the instances and the functions of other
libraries.
-/
structure Env where
  receiverByToken : String → Option Receiver
  instanceById : Uuid → Option Instance
  webhooks : String → Except IngressError (List WebhookDescriptor)
  secret : Instance → String → Bytes
  hmacSha256 : Bytes → Bytes → Bytes
  base64Decode : String → Option Bytes
  parseJson : Bytes → Option Json

structure Request where
  receiverToken : String
  headers : List (String × String)
  body : Bytes
deriving DecidableEq

/--
`headers.get(name)` as text. The names of the headers of a request are in lower case.
-/
def getHeader (headers : List (String × String)) (name : String) : Option String :=
  let name := String.ofList (name.toList.map Char.toLower)
  ((headers.find? (fun h => h.1 == name)).map (·.2)).bind headerStr

/-! The verification of `webhook::verify_signature` -/

/--
`hex::decode`
-/
def hexDecode : List Char → Option Bytes
  | [] => some []
  | [_] => none
  | h :: l :: cs => do
    let h ← Uuid.hexValue h
    let l ← Uuid.hexValue l
    let rest ← hexDecode cs
    some (UInt8.ofNat (16 * h + l) :: rest)

def withoutPrefix (signature : String) : String :=
  match Rust.Str.stripPrefix "sha256=" signature with
  | some rest => rest
  | none => (Rust.Str.stripPrefix "v0=" signature).getD signature

def verifyHmacSha256 (env : Env) (headers : List (String × String)) (body secret : Bytes)
    (headerName : String) : Except IngressError Unit := do
  let some signature := getHeader headers headerName
    | throw .webhookSignatureInvalid
  let signature := withoutPrefix signature
  let some expected := (hexDecode signature.toList).orElse (fun _ => env.base64Decode signature)
    | throw .webhookSignatureInvalid
  if env.hmacSha256 secret body = expected then
    return
  else
    throw .webhookSignatureInvalid

def verifySignature (env : Env) (verification : VerificationKind)
    (headers : List (String × String)) (body secret : Bytes) : Except IngressError Unit :=
  match verification with
  | .hmacSha256 header _ => verifyHmacSha256 env headers body secret header
  | .ed25519 _ _ => .ok ()
  | .custom _ => .ok ()

/-! The ingress route -/

/--
The signature only has to be there.
-/
def checkHeader (headers : List (String × String)) (header : String) : Except IngressError Unit :=
  match getHeader headers header with
  | some signature => if signature.isEmpty then throw .webhookSignatureInvalid else .ok ()
  | none => throw .webhookSignatureInvalid

/--
The verifier of the route.
-/
def routeVerify (verification : VerificationKind) (headers : List (String × String))
    : Except IngressError Unit :=
  match verification with
  | .hmacSha256 header _ => checkHeader headers header
  | .ed25519 header _ => checkHeader headers header
  | .custom _ => .ok ()

def idHeaders : List String :=
  ["X-Request-ID", "X-Event-ID", "X-Delivery-ID", "X-GitHub-Delivery"]

def idFields : List String :=
  ["id", "event_id", "eventId", "delivery_id"]

/--
The event id a body names.
-/
def bodyEventId (env : Env) (body : Bytes) : Option String :=
  (env.parseJson body).bind
    (fun json => idFields.findSome? (fun field => (json.get field).bind Json.asStr))

/--
The fallback is a new `Uuid::now_v7`.
-/
def extractEventId (env : Env) (headers : List (String × String)) (body : Bytes)
    (fallback : String) : String :=
  match idHeaders.findSome? (getHeader headers) with
  | some id => id
  | none => (bodyEventId env body).getD fallback

structure Target where
  receiver : Receiver
  ofInstance : Instance
  webhook : WebhookDescriptor
deriving DecidableEq

/--
The receiver, the instance and the webhook of a token.
-/
def findTarget (env : Env) (token : String) : Except IngressError Target := do
  let some receiver := env.receiverByToken token
    | throw .receiverNotFound
  if !receiver.enabled then
    throw .receiverDisabled
  let some ofInstance := env.instanceById receiver.instanceId
    | throw (.instanceNotFound receiver.instanceId.hyphenated)
  let webhooks ← env.webhooks ofInstance.typeId
  let some webhook := webhooks.find? (·.name = receiver.webhookName)
    | throw .receiverNotFound
  return ⟨receiver, ofInstance, webhook⟩

def replayKey (receiver : Receiver) (eventId : String) : String :=
  "connect:replay:" ++ receiver.id.hyphenated ++ ":" ++ eventId

/-! The cache -/

/--
`expires_at` of a value that is set now, in milliseconds. A duration chrono has no place for counts as
none, and a time after its last one is a panic.
-/
def expiresAt (now windowSeconds : Nat) : Option Nat :=
  let ttl := if windowSeconds ≤ 9223372036854775 then windowSeconds * 1000 else 0
  if now + ttl ≤ 8210266876799999 then some (now + ttl) else none

/--
A key holds a value that expires.
-/
abbrev Cache := String → Option Nat

def Cache.present (cache : Cache) (now : Nat) (key : String) : Bool :=
  match cache key with
  | some expires => decide (now < expires)
  | none => false

/--
What a request comes to next.
-/
inductive Task where
  | enter (req : Request)
  | getKey (req : Request) (target : Target) (eventId : String)
  | setKey (req : Request) (target : Target) (eventId : String)
deriving DecidableEq

inductive Event where
  | quiet
  | rejected (t : Nat) (e : IngressError)
  | panicked (t : Nat)
  | accepted (t : Nat) (req : Request) (eventId : String) (time : Nat)
deriving DecidableEq

/--
The time is in milliseconds. The numbers from `nextTask` on are not in use.
-/
structure State where
  cache : Cache
  tasks : Nat → Option Task
  nextTask : Nat
  now : Nat

/--
What the environment decides in a step: if the store or the cache fails, and the new id.
-/
structure Choice where
  fails : Bool
  newId : String
deriving DecidableEq

inductive Move where
  | receive (req : Request)
  | run (t : Nat) (choice : Choice)
  | hangUp (t : Nat)
  | wait (d : Nat)
deriving DecidableEq

def State.init : State :=
  ⟨fun _ => none, fun _ => none, 0, 0⟩

def State.goTo (st : State) (t : Nat) (task : Option Task) : State :=
  { st with tasks := Function.update st.tasks t task }

def enter (env : Env) (t : Nat) (req : Request) (choice : Choice) : Event × Option Task :=
  if choice.fails then
    (.rejected t .database, none)
  else
    match findTarget env req.receiverToken with
    | .error e => (.rejected t e, none)
    | .ok target =>
      match routeVerify target.webhook.verification req.headers with
      | .error e => (.rejected t e, none)
      | .ok () =>
        (.quiet, some (.getKey req target (extractEventId env req.headers req.body choice.newId)))

def operate (env : Env) (t : Nat) (task : Task) (choice : Choice) (st : State)
    : Event × Option Task × Cache :=
  match task with
  | .enter req =>
    let (e, next) := enter env t req choice
    (e, next, st.cache)
  | .getKey req target eventId =>
    -- an error of the cache counts as a key that is not there
    if !choice.fails && st.cache.present st.now (replayKey target.receiver eventId) then
      (.rejected t .webhookReplayDetected, none, st.cache)
    else
      (.quiet, some (.setKey req target eventId), st.cache)
  | .setKey req target eventId =>
    match expiresAt st.now target.webhook.replayWindowSeconds with
    | none => (.panicked t, none, st.cache)
    | some expires =>
      -- the result of the write is not looked at
      let cache :=
        if choice.fails then st.cache
        else Function.update st.cache (replayKey target.receiver eventId) (some expires)
      (.accepted t req eventId st.now, none, cache)

def runTask (env : Env) (t : Nat) (task : Task) (choice : Choice) (st : State) : Event × State :=
  let (e, next, cache) := operate env t task choice st
  (e, { st.goTo t next with cache := cache })

def step (env : Env) : Move → State → Option (Event × State)
  | .receive req, st =>
    some (.quiet, { st.goTo st.nextTask (some (.enter req)) with nextTask := st.nextTask + 1 })
  | .run t choice, st => (st.tasks t).map (fun task => runTask env t task choice st)
  | .hangUp t, st => some (.quiet, st.goTo t none)
  | .wait d, st => some (.quiet, { st with now := st.now + d })

/--
The requests on one node, which share the cache.
-/
def machine (env : Env) : Machine State Move Event :=
  ⟨.init, step env⟩

end Reactor.Connect.Webhook
