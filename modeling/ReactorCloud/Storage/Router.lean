import ReactorCloud.Storage.Routes
import ReactorCloud.Http.Dispatch

/-!
This module contains the middleware of `reactor-storage`, the check of signed URLs and the one that finds
out who is asking, and its router.
-/

namespace Reactor.Storage

open Http (Message headerStr)
open Interleave

/--
The context the authentication leaves for the handlers.
-/
abbrev Extensions := Option StorageCtx

abbrev Request := Http.Request Extensions
abbrev Service := Http.Service StorageM Extensions Body
abbrev Layer := Http.Layer StorageM Extensions Body

namespace SignedUrlError

def expired : Response :=
  ⟨403, [], some (.coded "url_expired" "Signed URL has expired")⟩

def invalid : Response :=
  ⟨403, [], some (.coded "invalid_signature" "Invalid signature")⟩

def missing : Response :=
  ⟨400, [], some (.coded "missing_signature" "Signature and expires parameters required")⟩

end SignedUrlError

structure SignedUrlQuery where
  signature : Option String
  expires : Option Nat

/--
What both the signer and the check feed to the HMAC.
-/
def signedMessage (method path : String) (expires : Nat) : String :=
  method ++ ":" ++ path ++ ":" ++ toString expires

section SignedUrl

variable (config : StorageConfig) (hmac : String → String → String)

/--
The answer to a request with a signature that is refused. The HMAC is the one of the hex digests.
-/
def verifySignedUrl (now : Nat) (m : Message) (signature : String) (expires : Nat)
    : Except Response Unit :=
  if now > expires then
    .error SignedUrlError.expired
  else
    match config.signingSecret with
    | none => .error SignedUrlError.invalid
    | some secret =>
      let expected := hmac secret (signedMessage m.method.asStr m.path expires)
      if signature = expected then .ok () else .error SignedUrlError.invalid

variable (parseQuery : Option String → Option SignedUrlQuery)

def verifySignedUrlMiddleware : Layer := fun next req =>
  match parseQuery req.query with
  | none => pure (.empty 400)
  | some ⟨some signature, some expires⟩ => do
    let now ← utcNow
    match verifySignedUrl config hmac now req.toMessage signature expires with
    | .error response => pure response
    | .ok () => next req
  | some ⟨none, none⟩ => next req
  | some _ => pure SignedUrlError.missing

end SignedUrl

section Auth

variable (config : StorageConfig)

def eqIgnoreAsciiCase (s t : List Char) : Bool :=
  s.map Char.toLower == t.map Char.toLower

-- The header is visible ASCII, so that the bytes are the characters.
def extractBearerToken (m : Message) : Option String := do
  let value ← m.header "authorization"
  let value ← headerStr value
  let chars := value.toList
  if chars.length > 7 && eqIgnoreAsciiCase (chars.take 7) "Bearer ".toList then
    some (String.ofList (chars.drop 7))
  else
    none

def extractOrgRef (m : Message) : Option OrgRef := do
  let value ← m.header "x-reactor-org"
  let value ← headerStr value
  if value = "" then
    none
  else
    some (match Rust.Uuid.parseStr value with
      | some id => .id id
      | none => .slug value)

def systemCtx : StorageCtx where
  auth := some { userId := none, activeOrg := some 0, email := none, permissions := ["*"] }

def forbidden (message : String) : Response :=
  ⟨403, [], some (.coded message "forbidden")⟩

def authMiddleware : Layer := fun next req =>
  if "/health".toList <:+ req.path.toList then
    next req
  else
    match extractBearerToken req.toMessage with
    | none => next { req with extensions := some ⟨none⟩ }
    | some token =>
      if config.adminToken = some token then
        next { req with extensions := some systemCtx }
      else do
        match ← @Program.request calls (.resolveCtx token (extractOrgRef req.toMessage)) with
        | .ok auth => next { req with extensions := some ⟨some auth⟩ }
        | .error e => pure (forbidden ("authentication failed: " ++ e))

end Auth

/-! The router -/

open Http (Message MethodRouter)

/--
The extractors of the web framework. A JSON body that is refused is answered with a status.
-/
structure Extractors where
  percentDecode : String → Option String
  signedUrlQuery : Option String → Option SignedUrlQuery
  multipartQuery : Option String → Option String
  uploadPartQuery : Option String → Option (String × Int)
  signUrlRequest : Message → Except Nat SignUrlRequest
  createMultipartRequest : Message → Except Nat (Option String)
  completeMultipartRequest : Message → Except Nat (List PartInfo)
  createBucketRequest : Message → Except Nat (String × Bool)

abbrev Router := Http.Router StorageM Extensions Body

section Handlers

variable (x : Extractors)

def respond (handler : StorageM Response) : StorageM Response := do
  match ← handler.attempt with
  | .ok response => pure response
  | .error e => pure e.intoResponse

/--
Without the context the extractor answers itself.
-/
def withCtx (handler : StorageCtx → Service) : Service := fun req =>
  match req.extensions with
  | some ctx => handler ctx req
  | none => pure (.empty 500)

def withPath (handler : String → String → Service) : Service := fun req =>
  match req.params.mapM (fun p => x.percentDecode p.2) with
  | some [bucketRef, key] => handler bucketRef key req
  | _ => pure (.empty 400)

def withBucket (handler : String → Service) : Service := fun req =>
  match req.params.mapM (fun p => x.percentDecode p.2) with
  | some [bucketRef] => handler bucketRef req
  | _ => pure (.empty 400)

def withQuery {α : Type} (parse : Option String → Option α) (handler : α → Service) : Service :=
  fun req =>
    match parse req.query with
    | some query => handler query req
    | none => pure (.empty 400)

def withJson {α : Type} (parse : Message → Except Nat α) (handler : α → Service) : Service :=
  fun req =>
    match parse req.toMessage with
    | .ok request => handler request req
    | .error status => pure (.empty status)

def on (method : Http.Method) (handler : StorageCtx → Service)
    : MethodRouter StorageM Extensions Body :=
  .on method (withCtx handler)

def handle (h : Handler) : Service := fun req =>
  @Program.request calls (.handle h req.extensions req.toMessage)

end Handlers

section Router

variable (config : StorageConfig) (hmac : String → String → String) (x : Extractors)

def healthRoute : Router :=
  (Http.Router.new.route "/health" (.on .get (handle .health))).route "/openapi.json"
    (.on .get (handle .openapi))

def metricsRoute : Router :=
  .route .new "/metrics" (.on .get (handle .metrics))

def bucketRoutes : Router :=
  ((Http.Router.new.route "/buckets"
    ((MethodRouter.on .get (handle .listBuckets)).merge
      (on .post fun ctx => withJson x.createBucketRequest fun (slug, isPublic) _ =>
        respond (createBucket ctx slug isPublic)))).route "/buckets/:bucket_ref"
    (((MethodRouter.on .get (handle .getBucket)).merge
      (.on .patch (handle .updateBucket))).merge
      (on .delete fun ctx => withBucket x fun bucketRef _ =>
        respond (deleteBucket ctx bucketRef)))).layer (authMiddleware config)

def objectRoutes : Router :=
  ((Http.Router.new.route "/object/:bucket/*key"
    ((((on .get fun ctx => withPath x fun bucketRef key req =>
        respond (getObject ctx bucketRef key req.toMessage)).merge
      (on .put fun ctx => withPath x fun bucketRef key req =>
        respond (putObject config ctx bucketRef key req.toMessage))).merge
      (on .head fun ctx => withPath x fun bucketRef key _ =>
        respond (headObject ctx bucketRef key))).merge
      (on .delete fun ctx => withPath x fun bucketRef key _ =>
        respond (deleteObject ctx bucketRef key)))).layer (authMiddleware config)).layer
    (verifySignedUrlMiddleware config hmac x.signedUrlQuery)

def signRoutes : Router :=
  (Http.Router.new.route "/sign/:bucket/*key"
    (on .post fun ctx => withPath x fun bucketRef key =>
      withJson x.signUrlRequest fun request _ =>
        respond (createSignedUrl ctx bucketRef key request))).layer (authMiddleware config)

def multipartRoutes : Router :=
  ((((Http.Router.new.route "/upload/:bucket/:key"
    (on .post fun ctx => withPath x fun bucketRef key =>
      withJson x.createMultipartRequest fun contentType _ =>
        respond (createMultipartUpload ctx bucketRef key contentType))).route
    "/upload/:bucket/:key/part"
    (on .put fun ctx => withPath x fun bucketRef key =>
      withQuery x.uploadPartQuery fun (uploadId, partNumber) req =>
        respond (uploadPart config ctx bucketRef key uploadId partNumber req.body))).route
    "/upload/:bucket/:key/complete"
    (on .post fun ctx => withPath x fun bucketRef key =>
      withQuery x.multipartQuery fun uploadId =>
        withJson x.completeMultipartRequest fun parts _ =>
          respond (completeMultipartUpload ctx bucketRef key uploadId parts))).route
    "/upload/:bucket/:key/abort"
    (on .delete fun ctx => withPath x fun bucketRef key =>
      withQuery x.multipartQuery fun uploadId _ =>
        respond (abortMultipartUpload ctx bucketRef key uploadId))).layer (authMiddleware config)

def router : Router :=
  .nest "/storage/v1" (((((healthRoute.merge metricsRoute).merge
    (bucketRoutes config x)).merge (objectRoutes config hmac x)).merge
    (multipartRoutes config x)).merge (signRoutes config x))

end Router
end Reactor.Storage
