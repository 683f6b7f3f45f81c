import ReactorCloud.Storage.Router
import ReactorCloud.Storage.Served

/-!
This module contains the signing of URLs by the file system store and what becomes of a signed URL.
-/

namespace Reactor.Storage

open Http (Bytes Message Method MethodRouter Router)
open Interleave

section Signer

variable (config : StorageConfig) (hmac : String → String → String)

def signHmac (method path : String) (expires : Nat) : Except StorageError String :=
  match config.signingSecret with
  | none => .error (.internal "signing secret not configured")
  | some secret => .ok (hmac secret (signedMessage method path expires))

def signedMethod (forUpload : Bool) : Method :=
  if forUpload then .put else .get

def signUrl (now : Nat) (orgId bucket key : String) (expiresInSecs : Nat) (forUpload : Bool)
    : Except StorageError SignedUrl := do
  let expiresAt := now + expiresInSecs
  let path := orgId ++ "/" ++ bucket ++ "/" ++ key
  let signature ← signHmac config hmac (signedMethod forUpload).asStr path expiresAt
  pure ⟨"/storage/v1/object/" ++ bucket ++ "/" ++ key ++ "?signature=" ++ signature ++ "&expires="
    ++ toString expiresAt, expiresAt⟩

/--
The environment with a file system store that signs.
-/
def Backend.signing {B : Type} (b : Backend B) : Backend B where
  blob c blobs :=
    match c with
    | .signUrl orgId bucket key expiresInSecs forUpload =>
      (signUrl config hmac (b.utcNow blobs) orgId bucket key expiresInSecs forUpload, blobs)
    | c => b.blob c blobs
  newId := b.newId
  utcNow := b.utcNow
  resolveCtx := b.resolveCtx
  handle := b.handle

end Signer

section Anonymous

/--
The request carries no token, and no context was made from one.
-/
def Anonymous (req : Request) : Prop :=
  extractBearerToken req.toMessage = none ∧ (req.extensions = none ∨ req.extensions = some ⟨none⟩)

def isBlob : Call → Bool
  | .blob _ => true
  | _ => false

/--
An anonymous request does not get to the blob store.
-/
def Shut (service : Service) : Prop :=
  ∀ req, Anonymous req → (service req).Uses (fun c => isBlob c = false)

theorem shut_pure {response : Response} : Shut (fun _ => pure response) :=
  fun _ _ => Program.uses_pure _

theorem Shut.auth {config : StorageConfig} {service : Service} (h : Shut service)
    : Shut (authMiddleware config service) := by
  intro req hreq
  unfold authMiddleware
  split
  . exact h req hreq
  . simp only [hreq.1]
    exact h _ ⟨hreq.1, .inr rfl⟩

theorem Shut.verify {config : StorageConfig} {hmac : String → String → String}
    {parseQuery : Option String → Option SignedUrlQuery} {service : Service} (h : Shut service)
    : Shut (verifySignedUrlMiddleware config hmac parseQuery service) := by
  intro req hreq
  unfold verifySignedUrlMiddleware
  split
  . exact Program.uses_pure _
  . have hnow : utcNow.Uses (fun c => isBlob c = false) :=
      Program.uses_request (I := calls) .utcNow rfl
    apply Program.uses_bind hnow
    intro now
    split
    . exact Program.uses_pure _
    . exact h req hreq
  . exact h req hreq
  . exact Program.uses_pure _

theorem Shut.stripPrefix {outer : String} {service : Service} (h : Shut service)
    : Shut (Http.Router.stripPrefix outer service) := by
  intro req hreq
  exact h _ hreq

theorem shut_withCtx {handler : StorageCtx → Service} (h : Shut (handler ⟨none⟩))
    : Shut (withCtx handler) := by
  intro req hreq
  unfold withCtx
  cases hreq.2 with
  | inl hnone =>
    rw [hnone]
    exact Program.uses_pure _
  | inr hanon =>
    rw [hanon]
    exact h req hreq

theorem shut_withPath {x : Extractors} {handler : String → String → Service}
    (h : ∀ bucketRef key, Shut (handler bucketRef key)) : Shut (withPath x handler) := by
  intro req hreq
  unfold withPath
  split
  . exact h _ _ req hreq
  . exact Program.uses_pure _

theorem shut_withBucket {x : Extractors} {handler : String → Service}
    (h : ∀ bucketRef, Shut (handler bucketRef)) : Shut (withBucket x handler) := by
  intro req hreq
  unfold withBucket
  split
  . exact h _ req hreq
  . exact Program.uses_pure _

theorem shut_withQuery {α : Type} {parse : Option String → Option α} {handler : α → Service}
    (h : ∀ query, Shut (handler query)) : Shut (withQuery parse handler) := by
  intro req hreq
  unfold withQuery
  split
  . exact h _ req hreq
  . exact Program.uses_pure _

theorem shut_withJson {α : Type} {parse : Message → Except Nat α} {handler : α → Service}
    (h : ∀ request, Shut (handler request)) : Shut (withJson parse handler) := by
  intro req hreq
  unfold withJson
  split
  . exact h _ req hreq
  . exact Program.uses_pure _

theorem shut_handle {h : Handler} : Shut (handle h) :=
  fun req _ => Program.uses_request (I := calls) (.handle h req.extensions req.toMessage) rfl

/--
A handler that asks for the organization first.
-/
theorem shut_authRequired {handler : Request → StorageM Response}
    (h : ∀ req, handler req = .done (.error .authRequired))
    : Shut (fun req => respond (handler req)) := by
  intro req _
  show (respond (handler req)).Uses _
  rw [h req]
  exact Program.uses_pure _

theorem shut_on {method : Method} {handler : StorageCtx → Service} (h : Shut (handler ⟨none⟩))
    : (on method handler).All Shut :=
  MethodRouter.all_on shut_pure (shut_withCtx h)

variable {config : StorageConfig} {hmac : String → String → String} {x : Extractors}

theorem shut_healthRoute : healthRoute.All Shut :=
  (Router.all_new.route (MethodRouter.all_on shut_pure shut_handle)).route
    (MethodRouter.all_on shut_pure shut_handle)

theorem shut_metricsRoute : metricsRoute.All Shut :=
  Router.all_new.route (MethodRouter.all_on shut_pure shut_handle)

theorem shut_bucketRoutes : (bucketRoutes config x).All Shut := by
  apply Router.All.layer
  . apply Router.All.route
    . refine Router.all_new.route ?_
      refine (MethodRouter.all_on shut_pure shut_handle).merge ?_
      exact shut_on (shut_withJson fun _ => shut_authRequired fun _ => rfl)
    . apply MethodRouter.All.merge
      . exact (MethodRouter.all_on shut_pure shut_handle).merge
          (MethodRouter.all_on shut_pure shut_handle)
      . exact shut_on (shut_withBucket fun _ => shut_authRequired fun _ => rfl)
  . intro service h
    exact h.auth

theorem shut_objectRoutes : (objectRoutes config hmac x).All Shut := by
  apply Router.All.layer
  . apply Router.All.layer
    . refine Router.all_new.route ?_
      apply MethodRouter.All.merge
      . apply MethodRouter.All.merge
        . apply MethodRouter.All.merge
          . exact shut_on (shut_withPath fun _ _ => shut_authRequired fun _ => rfl)
          . exact shut_on (shut_withPath fun _ _ => shut_authRequired fun _ => rfl)
        . exact shut_on (shut_withPath fun _ _ => shut_authRequired fun _ => rfl)
      . exact shut_on (shut_withPath fun _ _ => shut_authRequired fun _ => rfl)
    . intro service h
      exact h.auth
  . intro service h
    exact h.verify

theorem shut_signRoutes : (signRoutes config x).All Shut := by
  apply Router.All.layer
  . refine Router.all_new.route ?_
    exact shut_on (shut_withPath fun _ _ => shut_withJson fun _ => shut_authRequired fun _ => rfl)
  . intro service h
    exact h.auth

theorem shut_multipartRoutes : (multipartRoutes config x).All Shut := by
  apply Router.All.layer
  . apply Router.All.route
    . apply Router.All.route
      . apply Router.All.route
        . refine Router.all_new.route ?_
          exact shut_on (shut_withPath fun _ _ => shut_withJson fun _ =>
            shut_authRequired fun _ => rfl)
        . exact shut_on (shut_withPath fun _ _ => shut_withQuery fun _ =>
            shut_authRequired fun _ => rfl)
      . exact shut_on (shut_withPath fun _ _ => shut_withQuery fun _ => shut_withJson fun _ =>
          shut_authRequired fun _ => rfl)
    . exact shut_on (shut_withPath fun _ _ => shut_withQuery fun _ =>
        shut_authRequired fun _ => rfl)
  . intro service h
    exact h.auth

theorem shut_router : (router config hmac x).All Shut := by
  apply Router.All.nest
  . exact ((((shut_healthRoute.merge shut_metricsRoute).merge shut_bucketRoutes).merge
      shut_objectRoutes).merge shut_multipartRoutes).merge shut_signRoutes
  . intro service h
    exact h.stripPrefix

theorem shut_call : Shut (router config hmac x).call := by
  intro req hreq
  cases Http.Router.call_has (router config hmac x) req with
  | inl h =>
    rw [h]
    exact Program.uses_pure _
  | inr h =>
    obtain ⟨e, params, he, heq⟩ := h
    rw [heq]
    exact shut_router e he _ hreq

end Anonymous

section Signature

variable {config : StorageConfig} {hmac : String → String → String}

theorem signUrl_expiresAt {now expiresIn : Nat} {orgId bucket key : String} {forUpload : Bool}
    {signed : SignedUrl}
    (h : signUrl config hmac now orgId bucket key expiresIn forUpload = .ok signed)
    : signed.expiresAt = now + expiresIn := by
  unfold signUrl signHmac at h
  cases hsecret : config.signingSecret with
  | none => simp [hsecret, bind, Except.bind] at h
  | some secret =>
    simp only [hsecret, bind, Except.bind, pure, Except.pure] at h
    cases h
    rfl

theorem signUrl_ok {now expiresIn : Nat} {orgId bucket key : String} {forUpload : Bool}
    : (∃ signed, signUrl config hmac now orgId bucket key expiresIn forUpload = .ok signed)
      ↔ config.signingSecret.isSome = true := by
  unfold signUrl signHmac
  cases config.signingSecret with
  | none => simp [bind, Except.bind]
  | some secret => simp [bind, Except.bind, pure, Except.pure]

end Signature

section Grants

variable {B : Type} (b : Backend B) (config : StorageConfig) (hmac : String → String → String)
  (x : Extractors) (client : String → Option (String × Option String))

/--
The request passes the check of its signature. The middleware sees the path without the prefix.
-/
def Admitted (s : State B) (m : Message) (signature : String) : Prop :=
  ∃ expires, x.signedUrlQuery m.query = some ⟨some signature, some expires⟩
    ∧ verifySignedUrl config hmac (b.utcNow s.blobs)
      { m with path := String.ofList (m.path.toList.drop "/storage/v1".length) } signature expires
        = .ok ()

def Reaches (s : State B) (m : Message) (c : BlobCall) : Prop :=
  Call.blob c ∈ ((router config hmac x).call ⟨m, [], none⟩).trace (b.signing config hmac).respond s

/--
The blob is read, or written, as it was signed.
-/
def IsFor (orgId bucket key : String) (forUpload : Bool) : BlobCall → Prop
  | .get o s k _ => forUpload = false ∧ o = orgId ∧ s = bucket ∧ k = key
  | .put o s k _ _ => forUpload = true ∧ o = orgId ∧ s = bucket ∧ k = key
  | _ => False

/--
A client that sends the URL in time, without a token, gets to the object.
-/
def Works (orgId bucket key : String) (forUpload : Bool) (signed : SignedUrl) : Prop :=
  ∀ (s : State B) headers body, b.utcNow s.blobs < signed.expiresAt →
    headers.all (fun h => h.1 != "authorization") = true →
      ∃ path query signature c, client signed.url = some (path, query)
        ∧ Admitted b config hmac x s ⟨signedMethod forUpload, path, query, headers, body⟩ signature
        ∧ IsFor orgId bucket key forUpload c
        ∧ Reaches b config hmac x s ⟨signedMethod forUpload, path, query, headers, body⟩ c

/--
The signature lets no other request through, and none when it is over.
-/
def Exclusive (orgId bucket key : String) (forUpload : Bool) (signed : SignedUrl) : Prop :=
  ∀ (s : State B) m signature,
    signHmac config hmac (signedMethod forUpload).asStr (orgId ++ "/" ++ bucket ++ "/" ++ key)
        signed.expiresAt = .ok signature →
      Admitted b config hmac x s m signature →
        b.utcNow s.blobs < signed.expiresAt
          ∧ ∀ c, Reaches b config hmac x s m c → IsFor orgId bucket key forUpload c

variable (ctx : StorageCtx) (bucketRef key : String) (request : SignUrlRequest) (s : State B)

/--
The URL that `create_signed_url` returns grants what was signed and nothing else.
-/
def Grants : Prop :=
  ∀ orgId bucket signed s', ctx.orgId = some orgId → s.db.findBucket orgId bucketRef = some bucket →
    (createSignedUrl ctx bucketRef key request).eval (b.signing config hmac).respond s
        = (.ok (ok [] (some (.signed signed))), s') →
      Works b config hmac x client orgId.hyphenated bucket.slug key request.forUpload signed
        ∧ Exclusive b config hmac x orgId.hyphenated bucket.slug key request.forUpload signed

/--
A URL is returned.
-/
def Issued : Prop :=
  ∃ orgId bucket, Authorized ctx s.db bucketRef (ObjectOp.sign request).action
      (ObjectOp.sign request).publicAllowed orgId bucket
    ∧ request.expiresIn ≤ maxExpires ∧ config.signingSecret.isSome = true

end Grants

section Issued

variable {B : Type} {b : Backend B} {config : StorageConfig} {hmac : String → String → String}
  {x : Extractors} {client : String → Option (String × Option String)} {ctx : StorageCtx}
  {bucketRef key action : String} {request : SignUrlRequest} {s : State B}

theorem eval_authorize {publicAllowed : Bool} {orgId : OrgId} {bucket : Bucket}
    (h : Authorized ctx s.db bucketRef action publicAllowed orgId bucket)
    : (authorize ctx bucketRef action publicAllowed).eval b.respond s = (.ok (orgId, bucket), s) := by
  obtain ⟨auth, hauth, _⟩ := Option.bind_eq_some_iff.mp h.org
  have hanon : ctx.isAnonymous = false := by simp [StorageCtx.isAnonymous, hauth]
  have hfind : (findBucket orgId bucketRef).eval b.respond s = (.ok bucket, s) := by
    rw [findBucket, Program.eval_bind]
    simp [Backend.respond, MetadataDb.exec, h.found]
  have hrest : Program.eval b.respond
      (if (publicAllowed && bucket.isPublic) = true then pure (orgId, bucket)
        else do
          requirePermission ctx bucket.slug action
          pure (orgId, bucket)) s = (.ok (orgId, bucket), s) := by
    split
    . rfl
    . next hpublic =>
      rw [Program.eval_bind]
      simp [requirePermission, h.allowed.resolve_left hpublic]
  rw [authorize, Program.eval_bind, requireOrg, Program.eval_bind]
  simp only [hanon, h.org, Bool.not_false, Program.eval_require, if_true, Program.eval_okOr_some]
  rw [Program.eval_bind, hfind]
  exact hrest

theorem eval_createSignedUrl {orgId : OrgId} {bucket : Bucket} {signed : SignedUrl} {blobs : B}
    (h : Authorized ctx s.db bucketRef (ObjectOp.sign request).action
      (ObjectOp.sign request).publicAllowed orgId bucket)
    (hexpires : request.expiresIn ≤ maxExpires)
    (hblob : b.blob (.signUrl orgId.hyphenated bucket.slug key
      (if request.expiresIn = 0 then defaultExpiresIn else request.expiresIn) request.forUpload)
        s.blobs = (.ok signed, blobs))
    : (createSignedUrl ctx bucketRef key request).eval b.respond s
        = (.ok (ok [] (some (.signed signed))), ⟨s.db, blobs⟩) := by
  have hauth : (authorize ctx bucketRef (if request.forUpload then "write" else "read")
      (!request.forUpload)).eval b.respond s = (.ok (orgId, bucket), s) := eval_authorize h
  rw [createSignedUrl, Program.eval_bind, hauth]
  simp only
  rw [Program.eval_bind]
  simp only [hexpires, decide_true, Program.eval_require, if_true]
  rw [Program.eval_bind]
  simp [Backend.respond, hblob]

theorem not_reaches {m : Message} {c : BlobCall} (h : extractBearerToken m = none)
    : ¬ Reaches b config hmac x s m c := by
  intro hmem
  have hshut : Shut (router config hmac x).call := shut_call
  have hblob := (hshut ⟨m, [], none⟩ ⟨h, .inl rfl⟩).of_mem_trace hmem
  cases hblob

theorem blob_signUrl {orgId bucket : String} {expiresIn : Nat} {forUpload : Bool}
    {signed : SignedUrl} {blobs blobs' : B}
    : (b.signing config hmac).blob (.signUrl orgId bucket key expiresIn forUpload) blobs
          = (.ok signed, blobs')
      ↔ signUrl config hmac (b.utcNow blobs) orgId bucket key expiresIn forUpload = .ok signed
        ∧ blobs = blobs' := by
  simp [Backend.signing]

theorem issued_of_succeeds
    (h : (createSignedUrl ctx bucketRef key request).Succeeds (b.signing config hmac).respond s)
    : Issued config ctx bucketRef request s := by
  have hop : ((ObjectOp.sign request).program config ctx bucketRef key).Succeeds
      (b.signing config hmac).respond s := h
  obtain ⟨orgId, bucket, hauth, hexpires, signed, blobs, hblob⟩ := ObjectOp.succeeds_iff.mp hop
  exact ⟨orgId, bucket, hauth, hexpires, signUrl_ok.mp ⟨signed, (blob_signUrl.mp hblob).1⟩⟩

/--
The request with the URL comes without a token, and the handlers turn it away.
-/
theorem not_works {orgId bucket : String} {forUpload : Bool} {signed : SignedUrl} (s : State B)
    (h : b.utcNow s.blobs < signed.expiresAt)
    : ¬ Works b config hmac x client orgId bucket key forUpload signed := by
  intro hworks
  obtain ⟨path, query, signature, c, _, _, _, hreaches⟩ := hworks s [] [] h rfl
  exact not_reaches rfl hreaches

theorem grants_iff
    : Grants b config hmac x client ctx bucketRef key request s
      ↔ ¬ Issued config ctx bucketRef request s := by
  constructor
  . rintro h ⟨orgId, bucket, hauth, hexpires, hsecret⟩
    have hpos : 0 < (if request.expiresIn = 0 then defaultExpiresIn else request.expiresIn) := by
      split
      . decide
      . omega
    obtain ⟨signed, hsigned⟩ : ∃ signed, signUrl config hmac (b.utcNow s.blobs) orgId.hyphenated
        bucket.slug key (if request.expiresIn = 0 then defaultExpiresIn else request.expiresIn)
        request.forUpload = .ok signed := signUrl_ok.mpr hsecret
    have heval := eval_createSignedUrl hauth hexpires
      ((blob_signUrl (b := b)).mpr ⟨hsigned, rfl⟩)
    refine not_works s ?_ (h orgId bucket signed _ hauth.org hauth.found heval).1
    rw [signUrl_expiresAt hsigned]
    omega
  . intro hnot orgId bucket signed s' _ _ heval
    exact absurd (issued_of_succeeds ⟨_, _, heval⟩) hnot

/--
The URL for an object of a public bucket.
-/
def publicBucket : Bucket := ⟨7, 1, "docs", true, none⟩

def publicState : State Unit where
  db := { MetadataDb.empty with buckets := ⟨[publicBucket], List.pairwise_singleton _ _⟩ }
  blobs := ()

def member : StorageCtx where
  auth := some { userId := some 2, activeOrg := some 1, email := none, permissions := [] }

def idle : Backend Unit where
  blob _ blobs := (.error (.notFound ""), blobs)
  newId _ := 9
  utcNow _ := 0
  resolveCtx _ _ _ := .error "invalid token"
  handle _ _ _ s := (.ok (.empty 200), s)

/--
The extractors on the requests of the example.
-/
def plain : Extractors where
  percentDecode := some
  signedUrlQuery query :=
    match query.map (Rust.Str.splitOnChar '&') with
    | some [signature, expires] =>
      some ⟨Rust.Str.stripPrefix "signature=" signature,
        (Rust.Str.stripPrefix "expires=" expires).bind parseU64⟩
    | _ => some ⟨none, none⟩
  multipartQuery _ := none
  uploadPartQuery _ := none
  signUrlRequest _ := .ok ⟨60, false⟩
  createMultipartRequest _ := .error 400
  completeMultipartRequest _ := .error 400
  createBucketRequest _ := .error 400

def splitUrl (url : String) : Option (String × Option String) :=
  match Rust.Str.splitOnChar '?' url with
  | [path, query] => some (path, some query)
  | [path] => some (path, none)
  | _ => none

theorem not_grants_public
    : ¬ Grants idle ⟨none, some "secret", 100⟩ (fun secret m => secret ++ m) plain splitUrl member
      "docs" "a.txt" ⟨60, false⟩ publicState := by
  intro h
  have hworks := (h 1 publicBucket _ _ rfl rfl rfl).1
  refine not_works publicState ?_ hworks
  show 0 < 0 + 60
  decide

end Issued

section Refused

variable {config : StorageConfig} {hmac : String → String → String}

theorem head?_hyphenated (id : Rust.Uuid) : ∃ c, id.hyphenated.toList.head? = some c := by
  simp [Rust.Uuid.hyphenated, Rust.Uuid.nibbles]

/--
The signed path starts with the organization, the one that is checked with a slash.
-/
theorem signature_refused (hinj : ∀ secret, Function.Injective (hmac secret)) {orgId : OrgId}
    {bucket key signature : String} {forUpload : Bool} {expires expires' now : Nat} {m : Message}
    (hsigned : signHmac config hmac (signedMethod forUpload).asStr
      (orgId.hyphenated ++ "/" ++ bucket ++ "/" ++ key) expires = .ok signature)
    (hmethod : m.method = signedMethod forUpload) (hpath : m.path.toList.head? = some '/')
    : verifySignedUrl config hmac now m signature expires' ≠ .ok () := by
  intro hverify
  unfold signHmac at hsigned
  unfold verifySignedUrl at hverify
  cases hsecret : config.signingSecret with
  | none => simp [hsecret] at hsigned
  | some secret =>
    simp only [hsecret, Except.ok.injEq] at hsigned hverify
    split at hverify
    . cases hverify
    . split at hverify
      . next heq =>
        have hmessage := hinj secret (hsigned.trans heq)
        have hlist := congrArg String.toList hmessage
        simp only [hmethod, signedMessage, String.toList_append, List.append_assoc,
          List.append_cancel_left_eq] at hlist
        have hhead := congrArg List.head? hlist
        obtain ⟨c, hc⟩ := head?_hyphenated orgId
        simp only [List.head?_append, hpath, hc, Option.some_or, Option.some.injEq] at hhead
        have hmem := Rust.Uuid.mem_hyphenated (List.mem_of_head? hc)
        rw [hhead] at hmem
        contradiction
      . cases hverify

end Refused

end Reactor.Storage
