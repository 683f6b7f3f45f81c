import ReactorCloud.Rust.Result
import ReactorCloud.Storage.Served

/-!
This module contains `check_object_access` and what it takes for it to allow an access.
-/

namespace Reactor.Storage

open Interleave
open Policy (PolicyExpr PolicyScope)
open Rust (Json Uuid)

def scopeStr : PolicyScope → String
  | .read => "read"
  | .write => "write"
  | .select => "read"
  | .insert => "write"
  | .update => "write"
  | .delete => "write"

def isWriteScope : PolicyScope → Bool
  | .write => true
  | .insert => true
  | .update => true
  | .delete => true
  | _ => false

section Check

-- The deserializer is generated from the type of the expressions.
variable (fromValue : Json → Except String PolicyExpr)

variable (scope : PolicyScope) (ctx : StorageCtx) (facts : ObjectFacts)

def clauseAllows (ast : Option Json) : Except StorageError Bool :=
  match ast with
  | some ast => do
    let expr ← (fromValue ast).mapError (fun e => .internal ("invalid policy AST: " ++ e))
    pure (checkPolicy expr ctx facts)
  | none => pure false

/--
A clause that allows the access is enough. The `CHECK` clause only counts for writes.
-/
def policyAllows (p : StoredPolicy) : Except StorageError Bool := do
  if ← clauseAllows fromValue ctx facts p.usingAst then
    pure true
  else if isWriteScope scope then
    clauseAllows fromValue ctx facts p.checkAst
  else
    pure false

def anyAllows : List StoredPolicy → Except StorageError Bool
  | [] => pure false
  | p :: ps => do
    if ← policyAllows fromValue scope ctx facts p then
      pure true
    else
      anyAllows ps

def matchingPolicies (policies : List StoredPolicy) : List StoredPolicy :=
  policies.filter (fun p => p.scopes.any (· == scopeStr scope))

def decideAccess (policies : List StoredPolicy) : Except StorageError Unit :=
  if policies.isEmpty then
    pure ()
  else
    let matching := matchingPolicies scope policies
    if matching.isEmpty then
      pure ()
    else do
      if ← anyAllows fromValue scope ctx facts matching then
        pure ()
      else
        .error (.permissionDenied ("no policy grants " ++ scopeStr scope ++ " access to "
          ++ facts.bucket ++ "/" ++ facts.key))

def checkObjectAccess (bucketId : Uuid) : StorageM Unit := do
  let policies ← query (.listPolicies bucketId)
  Program.ofExcept (decideAccess fromValue scope ctx facts policies)

/--
The clauses of the policies in the order they are looked at.
-/
def clauses (policies : List StoredPolicy) : List Json :=
  (matchingPolicies scope policies).flatMap
    (fun p => p.usingAst.toList ++ if isWriteScope scope then p.checkAst.toList else [])

def Holds (ast : Json) : Prop :=
  ∃ expr, fromValue ast = .ok expr ∧ checkPolicy expr ctx facts = true

/--
The clause can be read and does not hold.
-/
def Fails (ast : Json) : Prop :=
  ∃ expr, fromValue ast = .ok expr ∧ checkPolicy expr ctx facts = false

/--
One of the clauses holds, and none before it is unreadable.
-/
def Opens (policies : List StoredPolicy) : Prop :=
  ∃ before ast after, clauses scope policies = before ++ ast :: after
    ∧ (∀ a ∈ before, Fails fromValue ctx facts a) ∧ Holds fromValue ctx facts ast

end Check

variable {fromValue : Json → Except String PolicyExpr} {scope : PolicyScope} {ctx : StorageCtx}
  {facts : ObjectFacts}

/--
The clauses are tried one after another.
-/
def scan (fromValue : Json → Except String PolicyExpr) (ctx : StorageCtx) (facts : ObjectFacts)
    : List Json → Except StorageError Bool
  | [] => pure false
  | ast :: rest => do
    if ← clauseAllows fromValue ctx facts (some ast) then
      pure true
    else
      scan fromValue ctx facts rest

theorem scan_append (l l' : List Json)
    : scan fromValue ctx facts (l ++ l')
        =
      (do if ← scan fromValue ctx facts l then pure true else scan fromValue ctx facts l') := by
  induction l with
  | nil => rfl
  | cons ast rest ih =>
    simp only [List.cons_append, scan, ih]
    cases clauseAllows fromValue ctx facts (some ast) with
    | error e => rfl
    | ok b => cases b <;> rfl

theorem scan_toList (ast : Option Json)
    : scan fromValue ctx facts ast.toList = clauseAllows fromValue ctx facts ast := by
  cases ast with
  | none => rfl
  | some ast =>
    simp only [Option.toList, scan]
    cases clauseAllows fromValue ctx facts (some ast) with
    | error e => rfl
    | ok b => cases b <;> rfl

theorem anyAllows_eq_scan (policies : List StoredPolicy)
    : anyAllows fromValue scope ctx facts policies
        =
      scan fromValue ctx facts (policies.flatMap
        (fun p => p.usingAst.toList ++ if isWriteScope scope then p.checkAst.toList else []))
    := by
  induction policies with
  | nil => rfl
  | cons p ps ih =>
    simp only [anyAllows, List.flatMap_cons, scan_append, ih, policyAllows, scan_toList]
    cases clauseAllows fromValue ctx facts p.usingAst with
    | error e => rfl
    | ok b =>
      cases b with
      | true => rfl
      | false => split <;> simp_all [scan_toList, scan]

theorem clauseAllows_eq_true {ast : Json}
    : clauseAllows fromValue ctx facts (some ast) = .ok true ↔ Holds fromValue ctx facts ast := by
  unfold Holds
  cases hparse : fromValue ast with
  | error e => simp [clauseAllows, hparse, Except.mapError, bind, Except.bind]
  | ok expr => simp [clauseAllows, hparse, Except.mapError, bind, Except.bind, pure, Except.pure]

theorem clauseAllows_eq_false {ast : Json}
    : clauseAllows fromValue ctx facts (some ast) = .ok false ↔ Fails fromValue ctx facts ast := by
  unfold Fails
  cases hparse : fromValue ast with
  | error e => simp [clauseAllows, hparse, Except.mapError, bind, Except.bind]
  | ok expr => simp [clauseAllows, hparse, Except.mapError, bind, Except.bind, pure, Except.pure]

theorem scan_eq_true {l : List Json}
    : scan fromValue ctx facts l = .ok true
      ↔ ∃ before ast after, l = before ++ ast :: after
        ∧ (∀ a ∈ before, Fails fromValue ctx facts a) ∧ Holds fromValue ctx facts ast := by
  constructor
  . intro h
    induction l with
    | nil => cases h
    | cons ast rest ih =>
      simp only [scan] at h
      cases hallows : clauseAllows fromValue ctx facts (some ast) with
      | error e => simp [hallows, bind, Except.bind] at h
      | ok b =>
        cases b with
        | true => exact ⟨[], ast, rest, rfl, by simp, clauseAllows_eq_true.mp hallows⟩
        | false =>
          simp only [hallows, Rust.bind_eq_ok] at h
          obtain ⟨_, hb, hscan⟩ := h
          cases hb
          obtain ⟨before, x, after, rfl, hbefore, hx⟩ := ih hscan
          refine ⟨ast :: before, x, after, rfl, ?_, hx⟩
          intro a ha
          cases ha with
          | head => exact clauseAllows_eq_false.mp hallows
          | tail _ ha => exact hbefore a ha
  . rintro ⟨before, ast, after, rfl, hbefore, hx⟩
    induction before with
    | nil =>
      simp only [List.nil_append, scan, clauseAllows_eq_true.mpr hx]
      rfl
    | cons a before ih =>
      simp only [List.cons_append, scan, clauseAllows_eq_false.mpr (hbefore a (.head _))]
      exact ih (fun b hb => hbefore b (.tail _ hb))

theorem decideAccess_eq_ok {policies : List StoredPolicy}
    : decideAccess fromValue scope ctx facts policies = .ok ()
      ↔ matchingPolicies scope policies = [] ∨ Opens fromValue scope ctx facts policies := by
  unfold decideAccess Opens
  rw [← scan_eq_true, clauses, ← anyAllows_eq_scan]
  split
  . next hempty =>
    have : matchingPolicies scope policies = [] := by
      rw [List.isEmpty_iff.mp hempty]
      rfl
    simp [this, pure, Except.pure]
  . simp only [List.isEmpty_iff]
    split
    . next hmatching => simp [hmatching, pure, Except.pure]
    . next hmatching =>
      simp only [hmatching, false_or]
      cases anyAllows fromValue scope ctx facts (matchingPolicies scope policies) with
      | error e => simp [bind, Except.bind]
      | ok b => cases b <;> simp [bind, Except.bind, pure, Except.pure]

end Reactor.Storage

/-!
This module contains how far the operations on objects obey the policies of their bucket.
-/

namespace Reactor.Storage

open Http (Message)
open Interleave
open Policy (PolicyExpr PolicyScope)
open Rust (Json)

section Obeys

variable {B : Type} (fromValue : Json → Except String PolicyExpr) (b : Backend B)
  (config : StorageConfig) (ctx : StorageCtx) (bucketRef key : String) (op : ObjectOp)
  (facts : ObjectFacts) (s : State B)

def usingClauses (scope : PolicyScope) (policies : List StoredPolicy) : List Json :=
  (matchingPolicies scope policies).filterMap (·.usingAst)

def checkClauses (scope : PolicyScope) (policies : List StoredPolicy) : List Json :=
  (matchingPolicies scope policies).filterMap (·.checkAst)

/--
The `USING` clauses are alternatives, the `CHECK` clauses are requirements.
-/
def WriteLawful (scope : PolicyScope) (policies : List StoredPolicy) : Prop :=
  (usingClauses scope policies ≠ [] →
      ∃ ast ∈ usingClauses scope policies, Holds fromValue ctx facts ast)
    ∧ ∀ ast ∈ checkClauses scope policies, Holds fromValue ctx facts ast

def Allowed (bucket : Bucket) (scope : PolicyScope) : Prop :=
  (checkObjectAccess fromValue scope ctx facts bucket.id).Succeeds b.respond s

/--
An operation that succeeds is allowed by the policies of its bucket, and an access that is allowed is
lawful if it is a write.
-/
def ObjectOp.Obeys : Prop :=
  ∀ orgId bucket, ctx.orgId = some orgId → s.db.findBucket orgId bucketRef = some bucket →
    ((op.program config ctx bucketRef key).Succeeds b.respond s
        → Allowed fromValue b ctx facts s bucket op.scope)
      ∧ (isWriteScope op.scope = true → Allowed fromValue b ctx facts s bucket op.scope
        → WriteLawful fromValue ctx facts op.scope (s.db.policiesOf bucket.id))

/--
The policies grant what the permissions and the stores let through, and no clause opens the bucket
for writing while another one stands against it.
-/
structure ObjectOp.Agrees (orgId : OrgId) (bucket : Bucket) : Prop where
  granted : (op.publicAllowed && bucket.isPublic) = true ∨ permits ctx bucket.slug op.action = true →
    op.Steps b config ctx orgId bucket key s →
      matchingPolicies op.scope (s.db.policiesOf bucket.id) = []
        ∨ Opens fromValue op.scope ctx facts (s.db.policiesOf bucket.id)
  lawful : isWriteScope op.scope = true →
    Opens fromValue op.scope ctx facts (s.db.policiesOf bucket.id) →
      WriteLawful fromValue ctx facts op.scope (s.db.policiesOf bucket.id)

end Obeys

variable {B : Type} {fromValue : Json → Except String PolicyExpr} {b : Backend B}
  {config : StorageConfig} {ctx : StorageCtx} {bucketRef key : String} {op : ObjectOp}
  {facts : ObjectFacts} {s : State B} {scope : PolicyScope}

theorem allowed_iff {bucket : Bucket}
    : Allowed fromValue b ctx facts s bucket scope
      ↔ matchingPolicies scope (s.db.policiesOf bucket.id) = []
        ∨ Opens fromValue scope ctx facts (s.db.policiesOf bucket.id) := by
  rw [← decideAccess_eq_ok]
  unfold Allowed checkObjectAccess
  simp only [succeeds_query, MetadataDb.answers_listPolicies, and_assoc, exists_and_left,
    exists_eq_left']
  cases decideAccess fromValue scope ctx facts (s.db.policiesOf bucket.id) with
  | ok u => simp [Program.ofExcept, Program.Succeeds]
  | error e => simp [Program.ofExcept, Program.Succeeds]

theorem writeLawful_of_matchingPolicies_eq_nil {policies : List StoredPolicy}
    (h : matchingPolicies scope policies = []) : WriteLawful fromValue ctx facts scope policies := by
  simp [WriteLawful, usingClauses, checkClauses, h]

section Counterexample

/--
The deserializer on a boolean literal.
-/
def readLiteral : Json → Except String PolicyExpr
  | .object [("kind", .object [("type", .string "Literal"), ("literal_type", .string "Bool"),
      ("value", .bool b)])] => .ok (.literal (.bool b))
  | _ => .error "missing field"

def literalAst (b : Bool) : Json :=
  .object [("kind", .object [("type", .string "Literal"), ("literal_type", .string "Bool"),
    ("value", .bool b)])]

def lockedBucket : Bucket := ⟨7, 1, "docs", false, none⟩

/--
No access to the bucket is granted.
-/
def lockedState : State Unit where
  db := { MetadataDb.empty with
    buckets := ⟨[lockedBucket], List.pairwise_singleton _ _⟩
    policies := [⟨7, "nobody", ["read", "write"], some (literalAst false), none⟩] }
  blobs := ()

def writer : StorageCtx where
  auth := some {
    userId := some 2, activeOrg := some 1, email := none, permissions := ["storage:docs:write"] }

/--
A blob store that takes every object.
-/
def takesAll : Backend Unit where
  blob c blobs :=
    match c with
    | .put .. => (.ok "etag", blobs)
    | _ => (.error (.notFound ""), blobs)
  newId _ := 9
  utcNow _ := 0
  resolveCtx _ _ _ := .error "invalid token"
  handle _ _ _ s := (.ok (.empty 200), s)

def lockedFacts : ObjectFacts where
  key := "a.txt"
  bucket := "docs"
  contentType := none
  ownerId := none
  metadata := .object []

def upload : Message where
  method := .put
  path := "/object/docs/a.txt"
  query := none
  headers := []
  body := []

end Counterexample

end Reactor.Storage
