import ReactorCloud.Interleave.Program
import ReactorCloud.Storage.Types

/-!
This module contains what the routes of `reactor-storage` call: the statements of the metadata store
and the methods of a blob store. A method of the metadata store is a program over its statements.
-/

namespace Reactor.Storage

open Http (Bytes)
open Interleave
open Interleave.Program (fail okOr require)
open Rust (Uuid)

inductive DbCall where
  | createBucket (id : Uuid) (orgId : OrgId) (slug : String) (isPublic : Bool)
      (createdBy : Option Uuid)
  | getBucket (id : Uuid)
  | getBucketBySlug (orgId : OrgId) (slug : String)
  | deleteBucket (id : Uuid)
  | upsertObject (id : Uuid) (input : ObjectCreate)
  | getObjectByKey (bucketId : Uuid) (key : String)
  | deleteObject (id : Uuid)
  | listPolicies (bucketId : Uuid)
  | insertMultipartUpload (row : MultipartUpload)
  | getMultipartUpload (bucketId id : Uuid)
  | upsertPart (row : MultipartPart)
  | listParts (uploadId : Uuid)
  | deleteParts (uploadId : Uuid)
  | deleteMultipartUpload (bucketId id : Uuid)

@[reducible]
def DbCall.Ret : DbCall → Type
  | .createBucket .. => Bucket
  | .getBucket _ => Option Bucket
  | .getBucketBySlug .. => Option Bucket
  | .deleteBucket _ => Nat
  | .upsertObject .. => Object
  | .getObjectByKey .. => Option Object
  | .deleteObject _ => Nat
  | .listPolicies _ => List StoredPolicy
  | .insertMultipartUpload _ => MultipartUpload
  | .getMultipartUpload .. => Option MultipartUpload
  | .upsertPart _ => MultipartPart
  | .listParts _ => List MultipartPart
  | .deleteParts _ => Unit
  | .deleteMultipartUpload .. => Nat

/--
The methods of `BlobStore`.
-/
inductive BlobCall where
  | put (orgId bucket key : String) (data : Bytes) (contentType : Option String)
  | get (orgId bucket key : String) (range : Option (Nat × Nat))
  | head (orgId bucket key : String)
  | delete (orgId bucket key : String)
  | exists (orgId bucket key : String)
  | signUrl (orgId bucket key : String) (expiresInSecs : Nat) (forUpload : Bool)
  | createMultipart (orgId bucket key : String) (contentType : Option String)
  | uploadPart (orgId bucket key uploadId : String) (partNumber : Int) (data : Bytes)
  | completeMultipart (orgId bucket key uploadId : String) (parts : List (Int × String))
  | abortMultipart (orgId bucket key uploadId : String)
deriving DecidableEq

@[reducible]
def BlobCall.Ret : BlobCall → Type
  | .put .. => String
  | .get .. => Bytes × BlobMeta
  | .head .. => BlobMeta
  | .delete .. => Unit
  | .exists .. => Bool
  | .signUrl .. => SignedUrl
  | .createMultipart .. => String
  | .uploadPart .. => String
  | .completeMultipart .. => String
  | .abortMultipart .. => Unit

inductive OrgRef where
  | id (id : OrgId)
  | slug (slug : String)
deriving DecidableEq, Repr

/--
The handlers that have nothing to do with objects.
-/
inductive Handler where
  | health
  | openapi
  | metrics
  | listBuckets
  | getBucket
  | updateBucket
deriving DecidableEq, Repr

inductive Call where
  | db (c : DbCall)
  | blob (c : BlobCall)
  | newId
  | utcNow
  | resolveCtx (token : String) (orgRef : Option OrgRef)
  | handle (h : Handler) (ctx : Option StorageCtx) (m : Http.Message)

@[reducible]
def Call.Ret : Call → Type
  | .db c => c.Ret
  | .blob c => c.Ret
  | .newId => Uuid
  | .utcNow => Nat
  | .resolveCtx .. => Except String AuthCtx
  | .handle .. => Response

abbrev calls : Interface where
  Call := Call
  Ret := Call.Ret
  Err := StorageError

abbrev StorageM (α : Type) := Program calls α

abbrev query (c : DbCall) : StorageM c.Ret :=
  @Program.request calls (.db c)

abbrev blobStore (c : BlobCall) : StorageM c.Ret :=
  @Program.request calls (.blob c)

def newId : StorageM Uuid :=
  @Program.request calls .newId

def utcNow : StorageM Nat :=
  @Program.request calls .utcNow

namespace MetadataStore

def createBucket (orgId : OrgId) (slug : String) (isPublic : Bool) (createdBy : Option Uuid)
    : StorageM Bucket := do
  let id ← newId
  query (.createBucket id orgId slug isPublic createdBy)

def deleteBucket (id : Uuid) : StorageM Unit := do
  let affected ← query (.deleteBucket id)
  require (affected ≠ 0) (.bucketNotFound id.hyphenated)

def upsertObject (input : ObjectCreate) : StorageM Object := do
  let id ← newId
  query (.upsertObject id input)

def deleteObject (id : Uuid) : StorageM Unit := do
  let affected ← query (.deleteObject id)
  require (affected ≠ 0) (.notFound id.hyphenated)

def parseUploadId (uploadId : String) : StorageM Uuid :=
  okOr (Uuid.parseStr uploadId) (.invalidRequest "Invalid upload ID")

def uploadNotFound (uploadId : String) : StorageError :=
  .notFound ("Upload " ++ uploadId ++ " not found")

def createMultipartUpload (bucketId : Uuid) (key uploadId : String) (createdBy : Option Uuid)
    (contentType : Option String) : StorageM MultipartUpload := do
  let id ← parseUploadId uploadId
  query (.insertMultipartUpload ⟨id, bucketId, key, contentType, createdBy⟩)

def getMultipartUpload (bucketId : Uuid) (uploadId : String)
    : StorageM (Option MultipartUpload) := do
  let id ← parseUploadId uploadId
  query (.getMultipartUpload bucketId id)

def addMultipartPart (bucketId : Uuid) (uploadId : String) (partNumber : Int) (etag : String)
    (size : Nat) : StorageM MultipartPart := do
  let id ← parseUploadId uploadId
  let upload ← query (.getMultipartUpload bucketId id)
  require upload.isSome (uploadNotFound uploadId)
  query (.upsertPart ⟨id, partNumber, etag, size⟩)

def listMultipartParts (bucketId : Uuid) (uploadId : String) : StorageM (List MultipartPart) := do
  let id ← parseUploadId uploadId
  let upload ← query (.getMultipartUpload bucketId id)
  require upload.isSome (uploadNotFound uploadId)
  query (.listParts id)

-- The parts go first, whichever bucket the upload is in.
def deleteMultipartUpload (bucketId : Uuid) (uploadId : String) : StorageM Unit := do
  let id ← parseUploadId uploadId
  query (.deleteParts id)
  let affected ← query (.deleteMultipartUpload bucketId id)
  require (affected ≠ 0) (uploadNotFound uploadId)

end MetadataStore
end Reactor.Storage
