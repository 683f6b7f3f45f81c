import ReactorCloud.Storage.Service

/-!
This module contains the tables of the metadata store and what each of its statements does.
-/

namespace Reactor.Storage

open Relational (Table)
open Rust (Uuid)

structure MetadataDb where
  buckets : Table Bucket
  objects : Table Object
  policies : List StoredPolicy
  uploads : Table MultipartUpload
  parts : Table MultipartPart

namespace MetadataDb

def empty : MetadataDb :=
  ⟨.empty, .empty, [], .empty, .empty⟩

def findBucket (db : MetadataDb) (orgId : OrgId) (slug : String) : Option Bucket :=
  db.buckets.find? (fun b => b.orgId == orgId && b.slug == slug)

def findObject (db : MetadataDb) (bucketId : Uuid) (key : String) : Option Object :=
  db.objects.find? (fun o => o.bucketId == bucketId && o.key == key)

def findUpload (db : MetadataDb) (bucketId id : Uuid) : Option MultipartUpload :=
  db.uploads.find? (fun u => u.bucketId == bucketId && u.id == id)

def hasBucket (db : MetadataDb) (id : Uuid) : Bool :=
  db.buckets.any (·.id == id)

def partsOf (db : MetadataDb) (uploadId : Uuid) : List MultipartPart :=
  (db.parts.select (·.uploadId == uploadId)).mergeSort (fun p q => p.partNumber ≤ q.partNumber)

/--
The foreign keys of the other tables cascade.
-/
def deleteBucket (db : MetadataDb) (id : Uuid) : MetadataDb where
  buckets := db.buckets.delete (·.id == id)
  objects := db.objects.delete (·.bucketId == id)
  policies := db.policies.filter (·.bucketId != id)
  uploads := db.uploads.delete (·.bucketId == id)
  parts := db.parts.delete
    (fun p => db.uploads.any (fun u => u.bucketId == id && u.id == p.uploadId))

def updated (input : ObjectCreate) (o : Object) : Object :=
  { o with
    contentType := input.contentType, contentLength := input.contentLength, etag := input.etag }

def upsertObject (db : MetadataDb) (id : Uuid) (input : ObjectCreate)
    : Option (Object × MetadataDb) :=
  match db.findObject input.bucketId input.key with
  | some o =>
    some (updated input o, { db with
      objects := db.objects.modify (fun o => o.bucketId == input.bucketId && o.key == input.key)
        (updated input) (fun _ _ => rfl) })
  | none =>
    let o : Object := ⟨id, input.bucketId, input.key, input.contentType, input.contentLength,
      input.etag, input.createdBy⟩
    if db.hasBucket input.bucketId then
      (db.objects.insert o).map (fun objects => (o, { db with objects := objects }))
    else
      none

/--
`ON CONFLICT` the row takes the new values.
-/
def upsertPart (db : MetadataDb) (row : MultipartPart) : Option MetadataDb :=
  if db.uploads.any (·.id == row.uploadId) then
    let others := db.parts.delete
      (fun p => p.uploadId == row.uploadId && p.partNumber == row.partNumber)
    (others.insert row).map (fun parts => { db with parts := parts })
  else
    none

def policiesOf (db : MetadataDb) (bucketId : Uuid) : List StoredPolicy :=
  (db.policies.filter (·.bucketId == bucketId)).mergeSort (fun p q => p.name ≤ q.name)

def exec (c : DbCall) (db : MetadataDb) : Except StorageError c.Ret × MetadataDb :=
  match c with
  | .createBucket id orgId slug isPublic createdBy =>
    let b : Bucket := ⟨id, orgId, slug, isPublic, createdBy⟩
    match db.buckets.insert b with
    | some buckets => (.ok b, { db with buckets := buckets })
    | none => (.error (.bucketExists slug), db)
  | .getBucket id => (.ok (db.buckets.find? (·.id == id)), db)
  | .getBucketBySlug orgId slug => (.ok (db.findBucket orgId slug), db)
  | .deleteBucket id => (.ok (db.buckets.count (·.id == id)), db.deleteBucket id)
  | .upsertObject id input =>
    match db.upsertObject id input with
    | some (o, db') => (.ok o, db')
    | none => (.error .database, db)
  | .getObjectByKey bucketId key => (.ok (db.findObject bucketId key), db)
  | .deleteObject id =>
    (.ok (db.objects.count (·.id == id)), { db with objects := db.objects.delete (·.id == id) })
  | .listPolicies bucketId => (.ok (db.policiesOf bucketId), db)
  | .insertMultipartUpload row =>
    if db.hasBucket row.bucketId then
      match db.uploads.insert row with
      | some uploads => (.ok row, { db with uploads := uploads })
      | none => (.error .database, db)
    else
      (.error .database, db)
  | .getMultipartUpload bucketId id => (.ok (db.findUpload bucketId id), db)
  | .upsertPart row =>
    match db.upsertPart row with
    | some db' => (.ok row, db')
    | none => (.error .database, db)
  | .listParts uploadId => (.ok (db.partsOf uploadId), db)
  | .deleteParts uploadId =>
    (.ok (), { db with parts := db.parts.delete (·.uploadId == uploadId) })
  | .deleteMultipartUpload bucketId id =>
    let gone := fun u : MultipartUpload => u.bucketId == bucketId && u.id == id
    (.ok (db.uploads.count gone), { db with
      uploads := db.uploads.delete gone,
      parts := db.parts.delete (fun p => db.uploads.any gone && p.uploadId == id) })

/--
The statement succeeds.
-/
def Answers (db : MetadataDb) (c : DbCall) (a : c.Ret) (db' : MetadataDb) : Prop :=
  db.exec c = (.ok a, db')

section Answers

variable {db db' : MetadataDb}

theorem answers_of_exec {c : DbCall} {a a' : c.Ret} {db'' : MetadataDb} (h : db.exec c = (.ok a, db''))
    : db.Answers c a' db' ↔ a = a' ∧ db'' = db' := by
  rw [Answers, h, Prod.mk.injEq, Except.ok.injEq]

theorem answers_getBucketBySlug {orgId : OrgId} {slug : String} {bucket : Option Bucket}
    : db.Answers (.getBucketBySlug orgId slug) bucket db'
      ↔ db.findBucket orgId slug = bucket ∧ db = db' := by
  exact answers_of_exec rfl

theorem answers_getObjectByKey {bucketId : Uuid} {key : String} {o : Option Object}
    : db.Answers (.getObjectByKey bucketId key) o db'
      ↔ db.findObject bucketId key = o ∧ db = db' := by
  exact answers_of_exec rfl

theorem answers_listPolicies {bucketId : Uuid} {policies : List StoredPolicy}
    : db.Answers (.listPolicies bucketId) policies db'
      ↔ db.policiesOf bucketId = policies ∧ db = db' := by
  exact answers_of_exec rfl

theorem answers_getMultipartUpload {bucketId id : Uuid} {upload : Option MultipartUpload}
    : db.Answers (.getMultipartUpload bucketId id) upload db'
      ↔ db.findUpload bucketId id = upload ∧ db = db' := by
  exact answers_of_exec rfl

theorem answers_listParts {uploadId : Uuid} {parts : List MultipartPart}
    : db.Answers (.listParts uploadId) parts db' ↔ db.partsOf uploadId = parts ∧ db = db' := by
  exact answers_of_exec rfl

theorem answers_upsertObject {id : Uuid} {input : ObjectCreate} {o : Object}
    : db.Answers (.upsertObject id input) o db' ↔ db.upsertObject id input = some (o, db') := by
  unfold Answers exec
  dsimp only
  split
  . next heq => simp [heq]
  . next heq => simp [heq]

theorem answers_deleteObject {id : Uuid} {n : Nat}
    : db.Answers (.deleteObject id) n db'
      ↔ db.objects.count (·.id == id) = n
        ∧ { db with objects := db.objects.delete (·.id == id) } = db' := by
  exact answers_of_exec rfl

theorem answers_insertMultipartUpload {row row' : MultipartUpload}
    : db.Answers (.insertMultipartUpload row) row' db'
      ↔ db.hasBucket row.bucketId = true ∧ ∃ uploads, db.uploads.insert row = some uploads
        ∧ row = row' ∧ { db with uploads := uploads } = db' := by
  unfold Answers exec
  dsimp only
  split
  . next hbucket =>
    split
    . next heq => simp [hbucket, heq]
    . next heq => simp [heq]
  . next hbucket => simp [hbucket]

theorem answers_upsertPart {row row' : MultipartPart}
    : db.Answers (.upsertPart row) row' db' ↔ db.upsertPart row = some db' ∧ row = row' := by
  unfold Answers exec
  dsimp only
  split
  . next heq => simp [heq, and_comm]
  . next heq => simp [heq]

theorem answers_deleteParts {uploadId : Uuid} {a : Unit}
    : db.Answers (.deleteParts uploadId) a db'
      ↔ { db with parts := db.parts.delete (·.uploadId == uploadId) } = db' := by
  rw [answers_of_exec rfl]
  exact and_iff_right rfl

theorem answers_deleteMultipartUpload {bucketId id : Uuid} {n : Nat}
    : db.Answers (.deleteMultipartUpload bucketId id) n db'
      ↔ db.uploads.count (fun u => u.bucketId == bucketId && u.id == id) = n
        ∧ { db with
            uploads := db.uploads.delete (fun u => u.bucketId == bucketId && u.id == id),
            parts := db.parts.delete (fun p =>
              db.uploads.any (fun u => u.bucketId == bucketId && u.id == id) && p.uploadId == id) }
          = db' := by
  exact answers_of_exec rfl

end Answers

section Rows

variable {db db' : MetadataDb}

theorem hasBucket_of_findBucket {orgId : OrgId} {slug : String} {bucket : Bucket}
    (h : db.findBucket orgId slug = some bucket) : db.hasBucket bucket.id = true :=
  Table.any_eq_true.mpr ⟨bucket, Table.mem_of_find? h, beq_self_eq_true _⟩

theorem count_of_findObject {bucketId : Uuid} {key : String} {o : Object}
    (h : db.findObject bucketId key = some o) : db.objects.count (·.id == o.id) ≠ 0 :=
  Table.count_ne_zero.mpr ⟨o, Table.mem_of_find? h, beq_self_eq_true _⟩

theorem count_of_findUpload {bucketId id : Uuid} {upload : MultipartUpload}
    (h : db.findUpload bucketId id = some upload)
    : db.uploads.count (fun u => u.bucketId == bucketId && u.id == id) ≠ 0 := by
  have hp := Table.prop_of_find? h
  exact Table.count_ne_zero.mpr ⟨upload, Table.mem_of_find? h, hp⟩

theorem findUpload_isSome {bucketId id : Uuid}
    : (db.findUpload bucketId id).isSome = true
      ↔ db.uploads.count (fun u => u.bucketId == bucketId && u.id == id) ≠ 0 := by
  constructor
  . intro h
    obtain ⟨upload, hfind⟩ := Option.isSome_iff_exists.mp h
    exact count_of_findUpload hfind
  . intro h
    obtain ⟨upload, hmem, hp⟩ := Table.count_ne_zero.mp h
    exact Table.find?_isSome hmem hp

theorem uploads_insert_isSome (row : MultipartUpload)
    : (db.uploads.insert row).isSome = true ↔ db.uploads.any (·.id == row.id) = false := by
  rw [Table.insert_isSome, Table.any_eq_false]
  simp only [Relational.Constrained.conflict, BEq.comm]

theorem upsertPart_isSome {bucketId : Uuid} {upload : MultipartUpload} (row : MultipartPart)
    (h : db.findUpload bucketId row.uploadId = some upload) : (db.upsertPart row).isSome = true := by
  have hid := Table.prop_of_find? h
  simp only [Bool.and_eq_true] at hid
  have hany : db.uploads.any (·.id == row.uploadId) = true :=
    Table.any_eq_true.mpr ⟨upload, Table.mem_of_find? h, hid.2⟩
  simp only [upsertPart, hany, if_true, Option.isSome_map]
  rw [Table.insert_isSome]
  intro p hp
  have hother := (Table.mem_delete.mp hp).2
  simpa [Relational.Constrained.conflict, BEq.comm] using hother

theorem upsertObject_uploads {id : Uuid} {input : ObjectCreate} {o : Object}
    (h : db.upsertObject id input = some (o, db')) : db'.uploads = db.uploads := by
  unfold upsertObject at h
  split at h
  . cases h
    rfl
  . split at h
    . obtain ⟨objects, _, heq⟩ := Option.map_eq_some_iff.mp h
      cases heq
      rfl
    . cases h

end Rows

end MetadataDb
end Reactor.Storage
