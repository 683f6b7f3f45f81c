import ReactorCloud.Storage.Service

/-!
This module contains the route handlers of `reactor-storage`.
-/

namespace Reactor.Storage

open Http (Bytes Message)
open Interleave
open Interleave.Program (fail okOr require)
open Rust (Uuid)

namespace StorageCtx

def isAnonymous (ctx : StorageCtx) : Bool :=
  ctx.auth.isNone

def orgId (ctx : StorageCtx) : Option OrgId :=
  ctx.auth.bind AuthCtx.activeOrg

def userId (ctx : StorageCtx) : Option Uuid :=
  ctx.auth.bind AuthCtx.userId

def hasPermission (ctx : StorageCtx) (permission : String) : Bool :=
  (ctx.auth.map (·.hasPermission permission)).getD false

end StorageCtx

def ok (headers : List (String × String)) (body : Option Body) : Response :=
  ⟨200, headers, body⟩

def requireOrg (ctx : StorageCtx) : StorageM OrgId := do
  require (!ctx.isAnonymous) .authRequired
  okOr ctx.orgId (.invalidRequest "organization context required")

def findBucket (orgId : OrgId) (bucketRef : String) : StorageM Bucket := do
  let bucket ← query (.getBucketBySlug orgId bucketRef)
  okOr bucket (.bucketNotFound bucketRef)

def permission (slug action : String) : String :=
  "storage:" ++ slug ++ ":" ++ action

def permits (ctx : StorageCtx) (slug action : String) : Bool :=
  ctx.hasPermission (permission slug action) || ctx.hasPermission (permission "*" action)

def requirePermission (ctx : StorageCtx) (slug action : String) : StorageM Unit :=
  require (permits ctx slug action)
    (.permissionDenied (permission slug action ++ " permission required"))

/--
The bucket of a request, which needs the permission for it. Everybody may read a public one.
-/
def authorize (ctx : StorageCtx) (bucketRef action : String) (publicAllowed : Bool)
    : StorageM (OrgId × Bucket) := do
  let orgId ← requireOrg ctx
  let bucket ← findBucket orgId bucketRef
  if publicAllowed && bucket.isPublic then
    pure (orgId, bucket)
  else
    requirePermission ctx bucket.slug action
    pure (orgId, bucket)

/--
`axum::body::to_bytes` on a body that arrives.
-/
def bodyBytes (config : StorageConfig) (body : Bytes) : StorageM Bytes := do
  require (body.length ≤ config.maxUploadSize) (.tooLarge 0 config.maxUploadSize)
  pure body

section Objects

variable (config : StorageConfig) (ctx : StorageCtx) (bucketRef key : String) (m : Message)

def putObject : StorageM Response := do
  let (orgId, bucket) ← authorize ctx bucketRef "write" false
  let contentType := (m.header "content-type").bind Http.headerStr
  let body ← bodyBytes config m.body
  let etag ← blobStore (.put orgId.hyphenated bucket.slug key body contentType)
  let _ ← MetadataStore.upsertObject
    ⟨bucket.id, key, contentType, body.length, some etag, ctx.userId⟩
  pure (ok [("etag", etag)] none)

def parseU64 (s : String) : Option Nat := do
  let digits := match s.toList with
    | '+' :: digits => digits
    | digits => digits
  let n ← Rust.parseNat digits
  if n < 2 ^ 64 then some n else none

/--
The range is half open, the header names its last byte.
-/
def parseRangeHeader (value : String) (totalSize : Nat) : Option (Nat × Nat) := do
  let value ← Rust.Str.stripPrefix "bytes=" value
  match Rust.Str.splitOnChar '-' value with
  | [first, last] =>
    let (start, stop) ←
      if first = "" then do
        let suffix ← parseU64 last
        some (totalSize - suffix, totalSize)
      else if last = "" then do
        let start ← parseU64 first
        some (start, totalSize)
      else do
        let start ← parseU64 first
        let stop ← parseU64 last
        some (start, (stop + 1) % 2 ^ 64)
    if start ≥ totalSize ∨ start ≥ stop then none else some (start, min stop totalSize)
  | _ => none

def metaHeaders (info : BlobMeta) : List (String × String) :=
  (info.contentType.map (("content-type", ·))).toList

def getObject : StorageM Response := do
  let (orgId, bucket) ← authorize ctx bucketRef "read" true
  let (data, info) ← blobStore (.get orgId.hyphenated bucket.slug key none)
  let range := ((m.header "range").bind Http.headerStr).bind (parseRangeHeader · info.contentLength)
  let headers := metaHeaders info ++ (info.etag.map (("etag", ·))).toList ++ [("accept-ranges", "bytes")]
  match range with
  | some (start, stop) =>
    let (ranged, _) ← blobStore (.get orgId.hyphenated bucket.slug key (some (start, stop)))
    let contentRange := "bytes " ++ toString start ++ "-" ++ toString (stop - 1) ++ "/"
      ++ toString info.contentLength
    pure ⟨206, headers ++ [("content-range", contentRange),
      ("content-length", toString (stop - start))], some (.bytes ranged)⟩
  | none => pure (ok (headers ++ [("content-length", toString info.contentLength)]) (some (.bytes data)))

def headObject : StorageM Response := do
  let (orgId, bucket) ← authorize ctx bucketRef "read" true
  let info ← blobStore (.head orgId.hyphenated bucket.slug key)
  pure (ok ([("content-length", toString info.contentLength), ("accept-ranges", "bytes")]
    ++ metaHeaders info) none)

def deleteObject : StorageM Response := do
  let (orgId, bucket) ← authorize ctx bucketRef "write" false
  let object ← query (.getObjectByKey bucket.id key)
  let object ← okOr object (.notFound (bucketRef ++ "/" ++ key))
  blobStore (.delete orgId.hyphenated bucket.slug key)
  MetadataStore.deleteObject object.id
  pure (.empty 204)

end Objects

section Sign

variable (ctx : StorageCtx) (bucketRef key : String) (request : SignUrlRequest)

def defaultExpiresIn : Nat := 3600

def maxExpires : Nat := 7 * 24 * 3600

def createSignedUrl : StorageM Response := do
  let action := if request.forUpload then "write" else "read"
  let (orgId, bucket) ← authorize ctx bucketRef action (!request.forUpload)
  require (request.expiresIn ≤ maxExpires) (.invalidRequest
    ("expires_in cannot exceed " ++ toString maxExpires ++ " seconds (7 days)"))
  let expiresIn := if request.expiresIn = 0 then defaultExpiresIn else request.expiresIn
  let signed ← blobStore
    (.signUrl orgId.hyphenated bucket.slug key expiresIn request.forUpload)
  pure (ok [] (some (.signed signed)))

end Sign

section Multipart

variable (config : StorageConfig) (ctx : StorageCtx) (bucketRef key uploadId : String)

def createMultipartUpload (contentType : Option String) : StorageM Response := do
  let (orgId, bucket) ← authorize ctx bucketRef "write" false
  let uploadId ← blobStore (.createMultipart orgId.hyphenated bucket.slug key contentType)
  let _ ← MetadataStore.createMultipartUpload bucket.id key uploadId ctx.userId contentType
  pure (ok [] (some (.upload uploadId)))

def findUpload (bucketId : Uuid) : StorageM MultipartUpload := do
  let upload ← MetadataStore.getMultipartUpload bucketId uploadId
  okOr upload (MetadataStore.uploadNotFound uploadId)

def uploadPart (partNumber : Int) (body : Bytes) : StorageM Response := do
  let (orgId, bucket) ← authorize ctx bucketRef "write" false
  let _ ← findUpload uploadId bucket.id
  let body ← bodyBytes config body
  let etag ← blobStore (.uploadPart orgId.hyphenated bucket.slug key uploadId partNumber body)
  let _ ← MetadataStore.addMultipartPart bucket.id uploadId partNumber etag body.length
  pure (ok [("etag", etag)] (some (.part etag)))

def completeMultipartUpload (parts : List PartInfo) : StorageM Response := do
  let (orgId, bucket) ← authorize ctx bucketRef "write" false
  let upload ← findUpload uploadId bucket.id
  let parts := parts.map (fun p => (p.partNumber, p.etag))
  let etag ← blobStore (.completeMultipart orgId.hyphenated bucket.slug key uploadId parts)
  let storedParts ← MetadataStore.listMultipartParts bucket.id uploadId
  let totalSize := (storedParts.map (·.size)).sum
  let _ ← MetadataStore.upsertObject
    ⟨bucket.id, key, upload.contentType, totalSize, some etag, ctx.userId⟩
  MetadataStore.deleteMultipartUpload bucket.id uploadId
  pure (ok [] (some (.completed etag key)))

def abortMultipartUpload : StorageM Response := do
  let (orgId, bucket) ← authorize ctx bucketRef "write" false
  blobStore (.abortMultipart orgId.hyphenated bucket.slug key uploadId)
  MetadataStore.deleteMultipartUpload bucket.id uploadId
  pure (.empty 204)

end Multipart

section Buckets

variable (ctx : StorageCtx)

/--
`^[a-z0-9]([a-z0-9-]*[a-z0-9])?$`
-/
def isSlug (s : String) : Bool :=
  let word := fun c : Char => ('a' ≤ c && c ≤ 'z') || c.isDigit
  match s.toList with
  | [] => false
  | c :: cs => word c && cs.all (fun c => word c || c == '-') && (cs.getLast?.all word)

def validateSlug (slug : String) : Except String Unit :=
  if slug.utf8ByteSize = 0 ∨ slug.utf8ByteSize > 63 then
    .error "slug must be 1-63 characters"
  else if !isSlug slug then
    .error ("slug must be lowercase alphanumeric with hyphens, "
      ++ "not starting or ending with hyphen")
  else
    .ok ()

def createBucket (slug : String) (isPublic : Bool) : StorageM Response := do
  let orgId ← requireOrg ctx
  require (ctx.hasPermission "storage:bucket:create")
    (.permissionDenied "storage:bucket:create permission required")
  Program.ofExcept ((validateSlug slug).mapError .invalidRequest)
  let bucket ← MetadataStore.createBucket orgId slug isPublic ctx.userId
  pure ⟨201, [], some (.bucket bucket)⟩

def deleteBucket (bucketRef : String) : StorageM Response := do
  let orgId ← requireOrg ctx
  let bucket ← match Uuid.parseStr bucketRef with
    | some id => query (.getBucket id)
    | none => query (.getBucketBySlug orgId bucketRef)
  let bucket ← okOr bucket (.bucketNotFound bucketRef)
  require (bucket.orgId = orgId) (.bucketNotFound bucketRef)
  requirePermission ctx bucket.slug "admin"
  MetadataStore.deleteBucket bucket.id
  pure (.empty 204)

end Buckets
end Reactor.Storage
