import ReactorCloud.Http.Service
import ReactorCloud.Relational.Table
import ReactorCloud.Storage.Eval

/-!
This module contains the rows of the metadata store of `reactor-storage`, its errors and what its
routes take and return.
-/

namespace Reactor.Storage

open Http (Bytes)
open Rust (Uuid)

abbrev OrgId := ReactorId

/--
The kinds of an `std::io::Error` the code or the file system model tells apart.
-/
inductive IoErrorKind where
  | notFound
  | notADirectory
  | isADirectory
  | directoryNotEmpty
  | alreadyExists
  | invalidInput
  | unexpectedEof
  | other
deriving DecidableEq, Repr

inductive StorageError where
  | notFound (message : String)
  | bucketNotFound (message : String)
  | bucketExists (message : String)
  | permissionDenied (message : String)
  | invalidRequest (message : String)
  | authRequired
  | tooLarge (size limit : Nat)
  | database
  | io (kind : IoErrorKind)
  | internal (message : String)
deriving DecidableEq, Repr

structure Bucket where
  id : Uuid
  orgId : OrgId
  slug : String
  isPublic : Bool
  createdBy : Option Uuid
deriving DecidableEq, Repr

structure Object where
  id : Uuid
  bucketId : Uuid
  key : String
  contentType : Option String
  contentLength : Nat
  etag : Option String
  createdBy : Option Uuid
deriving DecidableEq, Repr

structure ObjectCreate where
  bucketId : Uuid
  key : String
  contentType : Option String
  contentLength : Nat
  etag : Option String
  createdBy : Option Uuid
deriving DecidableEq, Repr

structure StoredPolicy where
  bucketId : Uuid
  name : String
  scopes : List String
  usingAst : Option Rust.Json
  checkAst : Option Rust.Json

structure MultipartUpload where
  id : Uuid
  bucketId : Uuid
  key : String
  contentType : Option String
  createdBy : Option Uuid
deriving DecidableEq, Repr

structure MultipartPart where
  uploadId : Uuid
  partNumber : Int
  etag : String
  size : Nat
deriving DecidableEq, Repr

instance : Relational.Constrained Bucket where
  conflict r s := r.id == s.id || (r.orgId == s.orgId && r.slug == s.slug)
  conflict_comm r s := by simp only [BEq.comm]

instance : Relational.Constrained Object where
  conflict r s := r.id == s.id || (r.bucketId == s.bucketId && r.key == s.key)
  conflict_comm r s := by simp only [BEq.comm]

instance : Relational.Constrained MultipartUpload where
  conflict r s := r.id == s.id
  conflict_comm r s := by simp only [BEq.comm]

instance : Relational.Constrained MultipartPart where
  conflict r s := r.uploadId == s.uploadId && r.partNumber == s.partNumber
  conflict_comm r s := by simp only [BEq.comm]

structure StorageConfig where
  adminToken : Option String
  signingSecret : Option String
  maxUploadSize : Nat

structure BlobMeta where
  contentLength : Nat
  contentType : Option String
  etag : Option String
deriving DecidableEq, Repr

structure SignedUrl where
  url : String
  expiresAt : Nat
deriving DecidableEq, Repr

structure SignUrlRequest where
  expiresIn : Nat
  forUpload : Bool

structure PartInfo where
  partNumber : Int
  etag : String

/--
The bodies of the responses.
-/
inductive Body where
  | bytes (data : Bytes)
  | error (message : String)
  | coded (error message : String)
  | bucket (b : Bucket)
  | signed (url : SignedUrl)
  | upload (uploadId : String)
  | part (etag : String)
  | completed (etag key : String)
deriving DecidableEq, Repr

abbrev Response := Http.Response Body

def StorageError.intoResponse : StorageError → Response
  | .notFound message => ⟨404, [], some (.error message)⟩
  | .bucketNotFound message => ⟨404, [], some (.error message)⟩
  | .bucketExists message => ⟨409, [], some (.error message)⟩
  | .permissionDenied message => ⟨403, [], some (.error message)⟩
  | .invalidRequest message => ⟨400, [], some (.error message)⟩
  | .authRequired => ⟨401, [], some (.error "Authentication required")⟩
  | .tooLarge size limit =>
    ⟨413, [], some (.error ("Object size " ++ toString size ++ " exceeds limit " ++ toString limit))⟩
  | .database => ⟨500, [], some (.error "Database error")⟩
  | .io _ => ⟨500, [], some (.error "IO error")⟩
  | .internal _ => ⟨500, [], some (.error "Internal error")⟩

end Reactor.Storage
