import ReactorCloud.Storage.Routes
import ReactorCloud.Storage.Store

/-!
This module contains the operations on objects and when each of them succeeds, over any blob store.
-/

namespace Reactor.Storage

open Http (Bytes Message)
open Interleave
open Policy (PolicyScope)
open Rust (Uuid)

structure State (B : Type) where
  db : MetadataDb
  blobs : B

/--
The blob store and what else the environment answers.
-/
structure Backend (B : Type) where
  blob : (c : BlobCall) → B → Except StorageError c.Ret × B
  newId : State B → Uuid
  utcNow : B → Nat
  resolveCtx : String → Option OrgRef → State B → Except String AuthCtx
  handle : Handler → Option StorageCtx → Message → State B → Except StorageError Response × State B

variable {B : Type}

def Backend.respond (b : Backend B) : (c : Call) → State B → Except StorageError c.Ret × State B
  | .db c, s => ((s.db.exec c).1, { s with db := (s.db.exec c).2 })
  | .blob c, s => ((b.blob c s.blobs).1, { s with blobs := (b.blob c s.blobs).2 })
  | .newId, s => (.ok (b.newId s), s)
  | .utcNow, s => (.ok (b.utcNow s.blobs), s)
  | .resolveCtx token orgRef, s => (.ok (b.resolveCtx token orgRef s), s)
  | .handle h ctx m, s => b.handle h ctx m s

inductive ObjectOp where
  | put (m : Message)
  | get (m : Message)
  | head
  | delete
  | sign (request : SignUrlRequest)
  | createMultipart (contentType : Option String)
  | uploadPart (uploadId : String) (partNumber : Int) (body : Bytes)
  | completeMultipart (uploadId : String) (parts : List PartInfo)
  | abortMultipart (uploadId : String)

def ObjectOp.program (config : StorageConfig) (ctx : StorageCtx) (bucketRef key : String)
    : ObjectOp → StorageM Response
  | .put m => putObject config ctx bucketRef key m
  | .get m => getObject ctx bucketRef key m
  | .head => headObject ctx bucketRef key
  | .delete => deleteObject ctx bucketRef key
  | .sign request => createSignedUrl ctx bucketRef key request
  | .createMultipart contentType => createMultipartUpload ctx bucketRef key contentType
  | .uploadPart uploadId n body => Reactor.Storage.uploadPart config ctx bucketRef key uploadId n body
  | .completeMultipart uploadId parts => completeMultipartUpload ctx bucketRef key uploadId parts
  | .abortMultipart uploadId => abortMultipartUpload ctx bucketRef key uploadId

/--
The scope an operation falls under.
-/
def ObjectOp.scope : ObjectOp → PolicyScope
  | .get _ => .read
  | .head => .read
  | .delete => .delete
  | .sign request => if request.forUpload then .write else .read
  | _ => .write

def ObjectOp.action : ObjectOp → String
  | .get _ => "read"
  | .head => "read"
  | .sign request => if request.forUpload then "write" else "read"
  | _ => "write"

def ObjectOp.publicAllowed : ObjectOp → Bool
  | .get _ => true
  | .head => true
  | .sign request => !request.forUpload
  | _ => false

section Steps

/--
The caller belongs to the organization of the bucket and may do the action there. Everybody may read
from a public bucket.
-/
structure Authorized (ctx : StorageCtx) (db : MetadataDb) (bucketRef action : String)
    (publicAllowed : Bool) (orgId : OrgId) (bucket : Bucket) : Prop where
  org : ctx.orgId = some orgId
  found : db.findBucket orgId bucketRef = some bucket
  allowed : (publicAllowed && bucket.isPublic) = true ∨ permits ctx bucket.slug action = true

variable (b : Backend B) (config : StorageConfig) (ctx : StorageCtx) (orgId : OrgId)
  (bucket : Bucket) (key : String) (s : State B)

/--
The row of an object is written after the blob store is done.
-/
def Records (s : State B) (contentType : Option String) (contentLength : Nat) (etag : String)
    : Prop :=
  (s.db.upsertObject (b.newId s)
    ⟨bucket.id, key, contentType, contentLength, some etag, ctx.userId⟩).isSome = true

def rangeOf (m : Message) (info : BlobMeta) : Option (Nat × Nat) :=
  ((m.header "range").bind Http.headerStr).bind (parseRangeHeader · info.contentLength)

/--
What an operation needs of the stores, and of its arguments, after it is authorized.
-/
def ObjectOp.Steps : ObjectOp → Prop
  | .put m =>
    let contentType := (m.header "content-type").bind Http.headerStr
    m.body.length ≤ config.maxUploadSize ∧ ∃ etag blobs,
      b.blob (.put orgId.hyphenated bucket.slug key m.body contentType) s.blobs = (.ok etag, blobs)
        ∧ Records b ctx bucket key ⟨s.db, blobs⟩ contentType m.body.length etag
  | .get m => ∃ data info blobs,
      b.blob (.get orgId.hyphenated bucket.slug key none) s.blobs = (.ok (data, info), blobs)
        ∧ ∀ range, rangeOf m info = some range → ∃ ranged blobs',
          b.blob (.get orgId.hyphenated bucket.slug key (some range)) blobs = (.ok ranged, blobs')
  | .head => ∃ info blobs,
      b.blob (.head orgId.hyphenated bucket.slug key) s.blobs = (.ok info, blobs)
  | .delete => ∃ o blobs, s.db.findObject bucket.id key = some o
      ∧ b.blob (.delete orgId.hyphenated bucket.slug key) s.blobs = (.ok (), blobs)
  | .sign request =>
    let expiresIn := if request.expiresIn = 0 then defaultExpiresIn else request.expiresIn
    request.expiresIn ≤ maxExpires ∧ ∃ signed blobs,
      b.blob (.signUrl orgId.hyphenated bucket.slug key expiresIn request.forUpload) s.blobs
        = (.ok signed, blobs)
  | .createMultipart contentType => ∃ uploadId blobs id,
      b.blob (.createMultipart orgId.hyphenated bucket.slug key contentType) s.blobs
          = (.ok uploadId, blobs)
        ∧ Uuid.parseStr uploadId = some id ∧ s.db.uploads.any (·.id == id) = false
  | .uploadPart uploadId partNumber body => ∃ id upload,
      Uuid.parseStr uploadId = some id ∧ s.db.findUpload bucket.id id = some upload
        ∧ body.length ≤ config.maxUploadSize ∧ ∃ etag blobs,
          b.blob (.uploadPart orgId.hyphenated bucket.slug key uploadId partNumber body) s.blobs
            = (.ok etag, blobs)
  | .completeMultipart uploadId parts => ∃ id upload,
      Uuid.parseStr uploadId = some id ∧ s.db.findUpload bucket.id id = some upload
        ∧ ∃ etag blobs,
          b.blob (.completeMultipart orgId.hyphenated bucket.slug key uploadId
              (parts.map (fun p => (p.partNumber, p.etag)))) s.blobs
            = (.ok etag, blobs)
          ∧ Records b ctx bucket key ⟨s.db, blobs⟩ upload.contentType
            ((s.db.partsOf id).map (·.size)).sum etag
  | .abortMultipart uploadId => ∃ blobs id upload,
      b.blob (.abortMultipart orgId.hyphenated bucket.slug key uploadId) s.blobs = (.ok (), blobs)
        ∧ Uuid.parseStr uploadId = some id ∧ s.db.findUpload bucket.id id = some upload

end Steps

section Succeeds

variable {b : Backend B} {ctx : StorageCtx} {s : State B} {α : Type}

theorem succeeds_blobStore {c : BlobCall} {f : c.Ret → StorageM α}
    : Program.Succeeds b.respond (@bind _ _ (no_index c.Ret) α (blobStore c) f) s
      ↔ ∃ a blobs, b.blob c s.blobs = (.ok a, blobs)
        ∧ (f a).Succeeds b.respond ⟨s.db, blobs⟩ := by
  rw [Program.succeeds_bind]
  simp only [Program.eval_call, Program.eval_done]
  cases hblob : b.blob c s.blobs with
  | mk r blobs =>
    simp only [Backend.respond, hblob, Prod.mk.injEq]
    constructor
    . rintro ⟨a, s', ⟨hr, rfl⟩, hf⟩
      exact ⟨a, blobs, ⟨hr, rfl⟩, hf⟩
    . rintro ⟨a, blobs', ⟨hr, rfl⟩, hf⟩
      exact ⟨a, _, ⟨hr, rfl⟩, hf⟩

theorem succeeds_newId {f : Uuid → StorageM α}
    : Program.Succeeds b.respond (@bind _ _ (no_index Uuid) α newId f) s
      ↔ (f (b.newId s)).Succeeds b.respond s := Iff.rfl

theorem succeeds_query {c : DbCall} {f : c.Ret → StorageM α}
    : Program.Succeeds b.respond (@bind _ _ (no_index c.Ret) α (query c) f) s
      ↔ ∃ a db, s.db.Answers c a db ∧ (f a).Succeeds b.respond ⟨db, s.blobs⟩ := by
  rw [Program.succeeds_bind]
  simp only [Program.eval_call, Program.eval_done]
  cases hexec : s.db.exec c with
  | mk r db =>
    simp only [Backend.respond, MetadataDb.Answers, hexec, Prod.mk.injEq]
    constructor
    . rintro ⟨a, s', ⟨hr, rfl⟩, hf⟩
      exact ⟨a, db, ⟨hr, rfl⟩, hf⟩
    . rintro ⟨a, db', ⟨hr, rfl⟩, hf⟩
      exact ⟨a, _, ⟨hr, rfl⟩, hf⟩

theorem succeeds_authorize {bucketRef action : String} {publicAllowed : Bool}
    {f : OrgId × Bucket → StorageM α}
    : (authorize ctx bucketRef action publicAllowed >>= f).Succeeds b.respond s
      ↔ ∃ orgId bucket, Authorized ctx s.db bucketRef action publicAllowed orgId bucket
        ∧ (f (orgId, bucket)).Succeeds b.respond s := by
  have hanon : ∀ orgId, ctx.orgId = some orgId → (!ctx.isAnonymous) = true := by
    intro orgId horg
    cases hauth : ctx.auth with
    | none => simp [StorageCtx.orgId, hauth] at horg
    | some auth => simp [StorageCtx.isAnonymous, hauth]
  simp only [authorize, requireOrg, findBucket, Program.bind_assoc, Program.succeeds_require_bind,
    Program.succeeds_okOr_bind, succeeds_query, MetadataDb.answers_getBucketBySlug,
    and_assoc, exists_and_left, exists_eq_left']
  constructor
  . rintro ⟨_, orgId, horg, bucket, hfind, h⟩
    split at h
    . next hpublic => exact ⟨orgId, bucket, ⟨horg, hfind, .inl hpublic⟩, h⟩
    . simp only [requirePermission, Program.bind_assoc, Program.succeeds_require_bind] at h
      exact ⟨orgId, bucket, ⟨horg, hfind, .inr h.1⟩, h.2⟩
  . rintro ⟨orgId, bucket, hauth, h⟩
    refine ⟨hanon orgId hauth.org, orgId, hauth.org, bucket, hauth.found, ?_⟩
    split
    . exact h
    . next hpublic =>
      simp only [requirePermission, Program.bind_assoc, Program.succeeds_require_bind]
      exact ⟨hauth.allowed.resolve_left hpublic, h⟩

variable {config : StorageConfig} {bucketRef key : String}

theorem succeeds_putObject {m : Message}
    : (putObject config ctx bucketRef key m).Succeeds b.respond s
      ↔ ∃ orgId bucket, Authorized ctx s.db bucketRef "write" false orgId bucket
        ∧ (ObjectOp.put m).Steps b config ctx orgId bucket key s := by
  simp only [putObject, Program.bind_assoc, bodyBytes, MetadataStore.upsertObject,
    Program.succeeds_require_bind, succeeds_blobStore, succeeds_newId, succeeds_authorize,
    Program.pure_bind, succeeds_query, MetadataDb.answers_upsertObject, Program.succeeds_pure, ObjectOp.Steps,
    Records, Option.isSome_iff_exists, Prod.exists, decide_eq_true_eq, and_true]

theorem succeeds_getObject {m : Message}
    : (getObject ctx bucketRef key m).Succeeds b.respond s
      ↔ ∃ orgId bucket, Authorized ctx s.db bucketRef "read" true orgId bucket
        ∧ (ObjectOp.get m).Steps b config ctx orgId bucket key s := by
  simp only [getObject, succeeds_blobStore, succeeds_authorize, ObjectOp.Steps,
    Prod.exists]
  have hrange : ∀ (info : BlobMeta),
      ((m.header "range").bind Http.headerStr).bind (parseRangeHeader · info.contentLength)
        = rangeOf m info := fun _ => rfl
  simp only [hrange]
  refine exists_congr (fun orgId => exists_congr (fun bucket => and_congr_right (fun _ =>
    exists_congr (fun data => exists_congr (fun info => exists_congr (fun blobs =>
      and_congr_right (fun _ => ?_)))))))
  cases rangeOf m info with
  | none => simp [Program.succeeds_pure]
  | some range => simp [succeeds_blobStore, Program.succeeds_pure]

theorem succeeds_headObject
    : (headObject ctx bucketRef key).Succeeds b.respond s
      ↔ ∃ orgId bucket, Authorized ctx s.db bucketRef "read" true orgId bucket
        ∧ ObjectOp.head.Steps b config ctx orgId bucket key s := by
  simp only [headObject, succeeds_blobStore, succeeds_authorize, ObjectOp.Steps,
    Program.succeeds_pure, and_true]

theorem succeeds_deleteObject
    : (deleteObject ctx bucketRef key).Succeeds b.respond s
      ↔ ∃ orgId bucket, Authorized ctx s.db bucketRef "write" false orgId bucket
        ∧ ObjectOp.delete.Steps b config ctx orgId bucket key s := by
  simp only [deleteObject, MetadataStore.deleteObject, Program.bind_assoc, succeeds_blobStore,
    succeeds_authorize, ObjectOp.Steps, succeeds_query, Program.succeeds_okOr_bind,
    MetadataDb.answers_getObjectByKey, MetadataDb.answers_deleteObject, and_assoc, exists_and_left,
    exists_eq_left', Program.succeeds_require_bind, Program.succeeds_pure, and_true,
    decide_eq_true_eq]
  constructor
  . rintro ⟨orgId, bucket, hauth, o, hfind, u, blobs, hblob, _⟩
    exact ⟨orgId, bucket, hauth, o, hfind, blobs, hblob⟩
  . rintro ⟨orgId, bucket, hauth, o, hfind, blobs, hblob⟩
    exact ⟨orgId, bucket, hauth, o, hfind, (), blobs, hblob, MetadataDb.count_of_findObject hfind⟩

theorem succeeds_createSignedUrl {request : SignUrlRequest}
    : (createSignedUrl ctx bucketRef key request).Succeeds b.respond s
      ↔ ∃ orgId bucket, Authorized ctx s.db bucketRef
          (if request.forUpload then "write" else "read") (!request.forUpload) orgId bucket
        ∧ (ObjectOp.sign request).Steps b config ctx orgId bucket key s := by
  simp only [createSignedUrl, succeeds_blobStore, succeeds_authorize, ObjectOp.Steps,
    Program.succeeds_require_bind, Program.succeeds_pure, and_true, decide_eq_true_eq]

theorem succeeds_createMultipartUpload {contentType : Option String}
    : (createMultipartUpload ctx bucketRef key contentType).Succeeds b.respond s
      ↔ ∃ orgId bucket, Authorized ctx s.db bucketRef "write" false orgId bucket
        ∧ (ObjectOp.createMultipart contentType).Steps b config ctx orgId bucket key s := by
  simp only [createMultipartUpload, MetadataStore.createMultipartUpload,
    MetadataStore.parseUploadId, Program.bind_assoc, succeeds_blobStore, succeeds_authorize,
    ObjectOp.Steps, succeeds_query, Program.succeeds_okOr_bind,
    MetadataDb.answers_insertMultipartUpload, exists_and_left, Program.succeeds_pure, and_true]
  constructor
  . rintro ⟨orgId, bucket, hauth, uploadId, blobs, hblob, id, hid, _, _, _, uploads, hinsert, _⟩
    have hnew := (MetadataDb.uploads_insert_isSome _).mp (Option.isSome_of_eq_some hinsert)
    exact ⟨orgId, bucket, hauth, uploadId, blobs, hblob, id, hid, hnew⟩
  . rintro ⟨orgId, bucket, hauth, uploadId, blobs, hblob, id, hid, hnew⟩
    obtain ⟨uploads, hinsert⟩ := Option.isSome_iff_exists.mp
      ((MetadataDb.uploads_insert_isSome
        ⟨id, bucket.id, key, contentType, ctx.userId⟩).mpr hnew)
    exact ⟨orgId, bucket, hauth, uploadId, blobs, hblob, id, hid,
      MetadataDb.hasBucket_of_findBucket hauth.found, _, _, uploads, hinsert, rfl, rfl⟩

theorem succeeds_uploadPart {uploadId : String} {n : Int} {body : Bytes}
    : (uploadPart config ctx bucketRef key uploadId n body).Succeeds b.respond s
      ↔ ∃ orgId bucket, Authorized ctx s.db bucketRef "write" false orgId bucket
        ∧ (ObjectOp.uploadPart uploadId n body).Steps b config ctx orgId bucket key s := by
  simp only [uploadPart, findUpload, bodyBytes, MetadataStore.getMultipartUpload,
    MetadataStore.addMultipartPart, MetadataStore.parseUploadId, Program.bind_assoc,
    succeeds_blobStore, Program.pure_bind, succeeds_authorize, ObjectOp.Steps, succeeds_query,
    Program.succeeds_okOr_bind, MetadataDb.answers_upsertPart,
    MetadataDb.answers_getMultipartUpload, and_assoc, exists_and_left, exists_eq_left',
    Program.succeeds_require_bind, Program.succeeds_pure, and_true, decide_eq_true_eq]
  constructor
  . rintro ⟨orgId, bucket, hauth, id, hid, upload, hupload, hsize, etag, blobs, hblob, _⟩
    exact ⟨orgId, bucket, hauth, id, hid, upload, hupload, hsize, etag, blobs, hblob⟩
  . rintro ⟨orgId, bucket, hauth, id, hid, upload, hupload, hsize, etag, blobs, hblob⟩
    obtain ⟨db, hpart⟩ := Option.isSome_iff_exists.mp
      (MetadataDb.upsertPart_isSome ⟨id, n, etag, body.length⟩ hupload)
    exact ⟨orgId, bucket, hauth, id, hid, upload, hupload, hsize, etag, blobs, hblob, id, hid,
      Option.isSome_of_eq_some hupload, _, db, hpart, rfl⟩

theorem succeeds_completeMultipartUpload {uploadId : String} {parts : List PartInfo}
    : (completeMultipartUpload ctx bucketRef key uploadId parts).Succeeds b.respond s
      ↔ ∃ orgId bucket, Authorized ctx s.db bucketRef "write" false orgId bucket
        ∧ (ObjectOp.completeMultipart uploadId parts).Steps b config ctx orgId bucket key s := by
  simp only [completeMultipartUpload, findUpload, MetadataStore.getMultipartUpload,
    MetadataStore.listMultipartParts, MetadataStore.parseUploadId, MetadataStore.upsertObject,
    MetadataStore.deleteMultipartUpload, Program.bind_assoc, succeeds_blobStore, succeeds_newId,
    succeeds_authorize, ObjectOp.Steps, succeeds_query, Program.succeeds_okOr_bind,
    MetadataDb.answers_upsertObject, MetadataDb.answers_getMultipartUpload,
    MetadataDb.answers_listParts, MetadataDb.answers_deleteParts,
    MetadataDb.answers_deleteMultipartUpload, and_assoc, exists_and_left, exists_eq_left',
    Program.succeeds_require_bind, Program.succeeds_pure, and_true, decide_eq_true_eq]
  constructor
  . rintro ⟨orgId, bucket, hauth, id, hid, upload, hupload, etag, blobs, hblob, id', hid', _, o, db,
      hrow, _⟩
    cases hid.symm.trans hid'
    exact ⟨orgId, bucket, hauth, id, hid, upload, hupload, etag, blobs, hblob,
      Option.isSome_of_eq_some hrow⟩
  . rintro ⟨orgId, bucket, hauth, id, hid, upload, hupload, etag, blobs, hblob, hrow⟩
    obtain ⟨⟨o, db⟩, hrow⟩ := Option.isSome_iff_exists.mp hrow
    have hcount := MetadataDb.count_of_findUpload hupload
    rw [← MetadataDb.upsertObject_uploads hrow] at hcount
    exact ⟨orgId, bucket, hauth, id, hid, upload, hupload, etag, blobs, hblob, id, hid,
      Option.isSome_of_eq_some hupload, o, db, hrow, id, hid, (), hcount⟩

theorem succeeds_abortMultipartUpload {uploadId : String}
    : (abortMultipartUpload ctx bucketRef key uploadId).Succeeds b.respond s
      ↔ ∃ orgId bucket, Authorized ctx s.db bucketRef "write" false orgId bucket
        ∧ (ObjectOp.abortMultipart uploadId).Steps b config ctx orgId bucket key s := by
  simp only [abortMultipartUpload, MetadataStore.parseUploadId,
    MetadataStore.deleteMultipartUpload, Program.bind_assoc, succeeds_blobStore,
    succeeds_authorize, ObjectOp.Steps, succeeds_query, Program.succeeds_okOr_bind,
    MetadataDb.answers_deleteParts, MetadataDb.answers_deleteMultipartUpload, and_assoc,
    exists_and_left, exists_eq_left', Program.succeeds_require_bind, Program.succeeds_pure,
    and_true, decide_eq_true_eq]
  constructor
  . rintro ⟨orgId, bucket, hauth, _, blobs, hblob, id, hid, _, hcount⟩
    obtain ⟨upload, hupload⟩ := Option.isSome_iff_exists.mp
      (MetadataDb.findUpload_isSome.mpr hcount)
    exact ⟨orgId, bucket, hauth, blobs, hblob, id, hid, upload, hupload⟩
  . rintro ⟨orgId, bucket, hauth, blobs, hblob, id, hid, upload, hupload⟩
    exact ⟨orgId, bucket, hauth, (), blobs, hblob, id, hid, (),
      MetadataDb.count_of_findUpload hupload⟩

theorem ObjectOp.succeeds_iff {op : ObjectOp}
    : (op.program config ctx bucketRef key).Succeeds b.respond s
      ↔ ∃ orgId bucket, Authorized ctx s.db bucketRef op.action op.publicAllowed orgId bucket
        ∧ op.Steps b config ctx orgId bucket key s := by
  cases op with
  | put m => exact succeeds_putObject
  | get m => exact succeeds_getObject
  | head => exact succeeds_headObject
  | delete => exact succeeds_deleteObject
  | sign request => exact succeeds_createSignedUrl
  | createMultipart contentType => exact succeeds_createMultipartUpload
  | uploadPart uploadId n body => exact succeeds_uploadPart
  | completeMultipart uploadId parts => exact succeeds_completeMultipartUpload
  | abortMultipart uploadId => exact succeeds_abortMultipartUpload

end Succeeds

end Reactor.Storage
