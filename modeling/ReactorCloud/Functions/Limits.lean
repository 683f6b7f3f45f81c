import ReactorCloud.Functions.Invoke
import ReactorCloud.Interleave.Holding

/-!
This module contains the invoke route and when the limits of a manifest hold. The semaphore of a request
is its own, the body is measured by the length that the client states, and the response is not measured.
-/

namespace Reactor.Functions

open Interleave
open Interleave.Program (attempt fail ofExcept okOr require lift lift_bind uses_bind uses_pure uses_fail
  uses_request uses_okOr uses_require uses_ofExcept uses_lift)
open Reactor.Deployments (DeploymentStatus Owner)
open Rust (Uuid)

/-! ## The route -/

inductive RuntimeKind where
  | wasm
  | bun
  | lambda
deriving DecidableEq, Repr

/--
The lower case of no other letter is one of those in the names.
-/
def RuntimeKind.parse (s : String) : Option RuntimeKind :=
  let lower := String.ofList (s.toList.map Char.toLower)
  if lower = "wasm" then some .wasm
  else if lower = "bun" then some .bun
  else if lower = "lambda" then some .lambda
  else none

def RuntimeKind.name : RuntimeKind → String
  | .wasm => "wasm"
  | .bun => "bun"
  | .lambda => "lambda"

structure FunctionRow extends Owner where
  runtime : String

/--
The manifest is what the JSON of the row reads as.
-/
structure DeploymentRow where
  status : DeploymentStatus
  manifest : Option Manifest

structure InvokeHandle extends DeploymentHandle where
  limits : Limits
  maxConcurrency : UInt32

structure Semaphore where
  permits : Nat

/--
No other request gets to see the semaphore.
-/
def getOrCreateSemaphore (_deploymentId : DeploymentId) (maxConcurrency : Int32) : Semaphore :=
  ⟨(max maxConcurrency.toInt 1).toNat⟩

def Semaphore.tryAcquireOwned (s : Semaphore) : Option Semaphore :=
  if s.permits = 0 then none else some ⟨s.permits - 1⟩

/--
The call of `runtime.invoke` is a step of its own, `enter`.
-/
inductive InvokeCall where
  | getFunctionByName (orgId : Uuid) (name : String)
  | getDeployment (id : DeploymentId)
  | enter (handle : InvokeHandle) (incoming : FullRequest)
  | runtime (c : Call)

@[reducible]
def InvokeCall.Ret : InvokeCall → Type
  | .getFunctionByName .. => Option FunctionRow
  | .getDeployment _ => Option DeploymentRow
  | .enter .. => Unit
  | .runtime c => c.Ret

abbrev invokeCalls : Interface where
  Call := InvokeCall
  Ret := InvokeCall.Ret
  Err := FunctionsError

abbrev InvokeM (α : Type) := Program invokeCalls α

abbrev await (c : InvokeCall) : InvokeM c.Ret :=
  @Program.request invokeCalls c

def onRuntime {α : Type} (x : FnM α) : InvokeM α :=
  @lift calls α invokeCalls .runtime id (fun _ r => r) x

/--
The registry of the server holds the Bun runtime.
-/
def getRuntime (kind : RuntimeKind) : Option Unit :=
  if kind = .bun then some () else none

/--
A timeout drops the future of the runtime, as a client does that goes away.
-/
def invokeHandler (ctx : InvokeCtx) (name : String) (caller : CallerRequest) : InvokeM InvokeResult := do
  let permission := "functions:" ++ name ++ ":invoke"
  require (ctx.hasPermission permission || ctx.hasPermission "functions:*:invoke")
    (.permissionDenied permission)
  let function ← await (.getFunctionByName ctx.activeOrg name)
  let function ← okOr function (.functionNotFound name)
  let deploymentId ← okOr function.currentDeploymentId .deploymentNotReady
  let deployment ← await (.getDeployment deploymentId)
  let deployment ← okOr deployment .deploymentNotReady
  require (deployment.status == .ready) .deploymentNotReady
  let manifest ← okOr deployment.manifest (.internal "invalid manifest in deployment")
  let kind ← okOr (RuntimeKind.parse function.runtime) (.unsupportedRuntime function.runtime)
  okOr (getRuntime kind) (.unsupportedRuntime kind.name)
  let semaphore := getOrCreateSemaphore deploymentId manifest.concurrency.maxConcurrency.toInt32
  let _permit ← okOr semaphore.tryAcquireOwned (.tooManyRequests 1)
  let limits := Limits.ofManifest manifest
  let handle : InvokeHandle :=
    ⟨⟨deploymentId, function.name⟩, limits, manifest.concurrency.maxConcurrency⟩
  let incoming ← ofExcept (buildIncomingRequest caller ctx limits)
  await (.enter handle incoming)
  onRuntime (invoke handle.toDeploymentHandle incoming.toIncomingRequest)

/-! ## The system -/

/--
Besides the invocations there is all else that uses the runtime.
-/
inductive InvokeRequest where
  | invoke (ctx : InvokeCtx) (name : String) (caller : CallerRequest)
  | runtime (req : Request)

def InvokeRequest.Reply : InvokeRequest → Type
  | .invoke .. => InvokeResult
  | .runtime req => req.Reply

def invokeProgram : (req : InvokeRequest) → InvokeM req.Reply
  | .invoke ctx name caller => invokeHandler ctx name caller
  | .runtime req => onRuntime (program req)

/--
What is in the tables is decided by others.
-/
structure InvokeChoice where
  function : Option FunctionRow
  status : Option DeploymentStatus
  bun : Choice

/--
The manifest of a deployment never changes.
-/
def invokeExec (config : BunRuntimeConfig) (manifests : DeploymentId → Option Manifest) (pid : Nat)
    (c : InvokeCall) (x : InvokeChoice) (s : BunState)
    : Option (Except FunctionsError c.Ret × BunState) :=
  match c with
  | .getFunctionByName .. => some (.ok x.function, s)
  | .getDeployment id => some (.ok (x.status.map (⟨·, manifests id⟩)), s)
  | .enter .. => some (.ok (), s)
  | .runtime c => s.exec config pid c x.bun

def invokeSystem (config : BunRuntimeConfig) (manifests : DeploymentId → Option Manifest)
    : System invokeCalls where
  State := BunState
  Request := InvokeRequest
  Reply := InvokeRequest.Reply
  program := invokeProgram
  Choice := InvokeChoice
  exec := invokeExec config manifests
  failure := .runtimeError "failed"
  release pid s := if s.writer = some pid then { s with writer := none } else s
  Tick := Nat
  tick d s := { s with now := s.now + d }

/-! ## The limits -/

section Limits

variable {config : BunRuntimeConfig} {manifests : DeploymentId → Option Manifest}

def entered : Event (invokeSystem config manifests) → Option DeploymentId
  | .call _ (.enter handle _) (.ok _) => some handle.deploymentId
  | _ => none

/--
The bytes of the body that is written to the function.
-/
def delivered : Event (invokeSystem config manifests) → Option Nat
  | .call _ (.runtime (.invokeOverSocket _ request)) _ => some (request.body.getD []).length
  | _ => none

/--
The bytes of the body that goes back to the caller.
-/
def returned : Event (invokeSystem config manifests) → Option Nat
  | .finish _ (.invoke ..) (.ok result) => some (InvokeResult.response result).body.length
  | _ => none

/--
The invocations of the deployment that are inside the runtime.
-/
def inside (id : DeploymentId) (w : World (invokeSystem config manifests)) : Finset Nat :=
  holders entered (fun _ => none) id w

def Entered (pid : Nat) (id : DeploymentId) (w : World (invokeSystem config manifests)) : Prop :=
  Did (fun e => entered e = some id) pid w

instance (pid : Nat) (id : DeploymentId) (w : World (invokeSystem config manifests))
    : Decidable (Entered pid id w) :=
  inferInstanceAs (Decidable (Did _ pid w))

/--
The limits of all manifests hold for what has happened.
-/
structure WithinLimits (w : World (invokeSystem config manifests)) : Prop where
  concurrency : ∀ id m, manifests id = some m →
    (inside id w).card ≤ m.concurrency.maxConcurrency.toNat
  bodyIn : ∀ pid id m n, manifests id = some m → Entered pid id w →
    Did (fun e => delivered e = some n) pid w → n ≤ (Limits.ofManifest m).maxBodyInBytes
  bodyOut : ∀ pid id m n, manifests id = some m → Entered pid id w →
    Did (fun e => returned e = some n) pid w → n ≤ (Limits.ofManifest m).maxBodyOutBytes

/--
The deployment that is entered and the length of the body that is sent to it.
-/
def offered : Event (invokeSystem config manifests) → Option (DeploymentId × Nat)
  | .call _ (.enter handle incoming) (.ok _) =>
    some (handle.deploymentId, (incoming.body.getD []).length)
  | _ => none

/--
The invocation that the function answers and the length of the answer.
-/
def answered : Event (invokeSystem config manifests) → Option (Nat × Nat)
  | .call pid (.runtime (.invokeOverSocket ..)) (.ok response) =>
    some (pid, (OutgoingResponse.body response).length)
  | _ => none

/--
An invocation enters when there is room for it and with a body that is not too long, and the function
does not answer with one that is.
-/
def StaysWithin (w : World (invokeSystem config manifests)) (e : Event (invokeSystem config manifests)) : Prop :=
  (∀ x ∈ offered e, ∀ m ∈ manifests x.1,
    (inside x.1 w).card < m.concurrency.maxConcurrency.toNat
      ∧ x.2 ≤ (Limits.ofManifest m).maxBodyInBytes)
  ∧ ∀ x ∈ answered e, ∀ e' ∈ w.trace, e'.pid? = some x.1 → ∀ id ∈ entered e', ∀ m ∈ manifests id,
    x.2 ≤ (Limits.ofManifest m).maxBodyOutBytes

instance (w : World (invokeSystem config manifests)) (e : Event (invokeSystem config manifests))
    : Decidable (StaysWithin w e) :=
  -- the identifiers could also be looked through one by one
  have (n : Nat) (e' : Event (invokeSystem config manifests)) : Decidable (∀ id ∈ entered e',
      ∀ m ∈ manifests id, n ≤ (Limits.ofManifest m).maxBodyOutBytes) :=
    Option.decidableForallMem _
  inferInstanceAs (Decidable (_ ∧ _))

end Limits

/--
The limits hold in every state of the runs whose steps are `ok`.
-/
def LimitsHold (config : BunRuntimeConfig) (manifests : DeploymentId → Option Manifest)
    (ok : World (invokeSystem config manifests) → Event (invokeSystem config manifests) → Prop) : Prop :=
  ∀ now ms c, Config.Along ok ms (Config.start (.start now))
    → Config.run ms (Config.start (.start now)) = some c → WithinLimits c.world

/-! ## Verification of the route -/

section Steps

variable {config : BunRuntimeConfig} {manifests : DeploymentId → Option Manifest} {pid : Nat}
  {w w' : World (invokeSystem config manifests)} {s : BunState}
  {e : Event (invokeSystem config manifests)}

def limitsOutline (config : BunRuntimeConfig) (manifests : DeploymentId → Option Manifest)
    : Outline (invokeSystem config manifests) where
  inv := WithinLimits
  ok := StaysWithin
  safe _ _ := True
  rely _ _ _ := True
  post pid req r w := ∀ n, returned (.finish pid req r) = some n →
    ∀ id m, manifests id = some m → Entered pid id w → n ≤ (Limits.ofManifest m).maxBodyOutBytes
  rely_refl _ _ := trivial
  rely_trans _ _ _ _ _ _ := trivial

/--
What else happens is within the limits when the bytes that flow are.
-/
theorem keeps_flow (hinv : WithinLimits w) (hpid : e.pid? = some pid) (henter : entered e = none)
    (hin : ∀ n, delivered e = some n → ∀ id m, manifests id = some m → Entered pid id w →
      n ≤ (Limits.ofManifest m).maxBodyInBytes)
    (hout : ∀ n, returned e = some n → ∀ id m, manifests id = some m → Entered pid id w →
      n ≤ (Limits.ofManifest m).maxBodyOutBytes)
    : (limitsOutline config manifests).Keeps w s e := by
  have hentered : ∀ q id, Entered q id (w.after s e) → Entered q id w := by
    intro q id hq
    apply (Did.after_iff.mp hq).resolve_left
    rw [henter]
    exact fun h => nomatch h.2
  refine ⟨trivial, ⟨?_, ?_, ?_⟩, fun _ _ => trivial⟩
  . intro id m hm
    apply (card_holders_le _).trans (hinv.concurrency id m hm)
    rw [henter]
    exact nofun
  . intro q id m n hm hq hn
    cases Did.after_iff.mp hn with
    | inl hnew =>
      cases hpid.symm.trans hnew.1
      exact hin n hnew.2 id m hm (hentered _ _ hq)
    | inr hold => exact hinv.bodyIn q id m n hm (hentered _ _ hq) hold
  . intro q id m n hm hq hn
    cases Did.after_iff.mp hn with
    | inl hnew =>
      cases hpid.symm.trans hnew.1
      exact hout n hnew.2 id m hm (hentered _ _ hq)
    | inr hold => exact hinv.bodyOut q id m n hm (hentered _ _ hq) hold

/--
A call of the route that is neither the entry nor the delivery.
-/
def InvokeCall.IsSilent : InvokeCall → Prop
  | .enter .. => False
  | .runtime (.invokeOverSocket ..) => False
  | _ => True

theorem silent_call {c : InvokeCall} {r : Except FunctionsError c.Ret} (h : c.IsSilent)
    : entered (.call pid c r : Event (invokeSystem config manifests)) = none
      ∧ delivered (.call pid c r : Event (invokeSystem config manifests)) = none := by
  cases c with
  | getFunctionByName => exact ⟨rfl, rfl⟩
  | getDeployment => exact ⟨rfl, rfl⟩
  | enter => exact h.elim
  | runtime c =>
    cases c with
    | invokeOverSocket => exact h.elim
    | _ => exact ⟨rfl, rfl⟩

theorem keeps_silent {c : InvokeCall} {r : Except FunctionsError c.Ret} (h : c.IsSilent)
    (hinv : WithinLimits w) : (limitsOutline config manifests).Keeps w s (.call pid c r) := by
  apply keeps_flow hinv rfl (silent_call h).1
  . intro n hn
    rw [(silent_call h).2] at hn
    cases hn
  . intro n hn
    cases hn

/--
The process has not come to the runtime.
-/
structure Outside (pid : Nat) (w : World (invokeSystem config manifests)) : Prop where
  entered : ∀ id, ¬ Entered pid id w
  delivered : ∀ n, ¬ Did (fun e => delivered e = some n) pid w
  returned : ∀ n, ¬ Did (fun e => returned e = some n) pid w

/--
The process has come to the runtime for the deployment and with a body that is not too long.
-/
structure Inside (pid : Nat) (id : DeploymentId) (request : IncomingRequest)
    (w : World (invokeSystem config manifests)) : Prop where
  only : ∀ id', Entered pid id' w → id' = id
  bodyIn : ∀ m, manifests id = some m →
    (request.body.getD []).length ≤ (Limits.ofManifest m).maxBodyInBytes

variable {id : DeploymentId} {request : IncomingRequest}

theorem Outside.extends (h : Outside pid w) (hextends : Extends pid w w') : Outside pid w' where
  entered id := by
    rw [Entered, Did.extends_iff hextends]
    exact h.entered id
  delivered n := by
    rw [Did.extends_iff hextends]
    exact h.delivered n
  returned n := by
    rw [Did.extends_iff hextends]
    exact h.returned n

theorem Inside.extends (h : Inside pid id request w) (hextends : Extends pid w w')
    : Inside pid id request w' where
  only id' := by
    rw [Entered, Did.extends_iff hextends]
    exact h.only id'
  bodyIn := h.bodyIn

theorem Outside.spawned (h : Fresh pid w) (req : InvokeRequest)
    : Outside pid (w.after w.state (.spawn pid req)) where
  entered _ hid := Did.not_of_fresh h ((Did.after_iff.mp hid).resolve_left nofun)
  delivered _ hn := Did.not_of_fresh h ((Did.after_iff.mp hn).resolve_left nofun)
  returned _ hn := Did.not_of_fresh h ((Did.after_iff.mp hn).resolve_left nofun)

theorem Outside.silent (h : Outside pid w) {c : InvokeCall} {r : Except FunctionsError c.Ret}
    (hc : c.IsSilent) : Outside pid (w.after s (.call pid c r)) where
  entered id hid := by
    apply h.entered id
    apply (Did.after_iff.mp hid).resolve_left
    rw [(silent_call hc).1]
    exact fun h => nomatch h.2
  delivered n hn := by
    apply h.delivered n
    apply (Did.after_iff.mp hn).resolve_left
    rw [(silent_call hc).2]
    exact fun h => nomatch h.2
  returned n hn := h.returned n ((Did.after_iff.mp hn).resolve_left nofun)

theorem Inside.after (h : Inside pid id request w) (henter : entered e = none)
    : Inside pid id request (w.after s e) where
  only id' hid := by
    apply h.only id'
    apply (Did.after_iff.mp hid).resolve_left
    rw [henter]
    exact fun h => nomatch h.2
  bodyIn := h.bodyIn

/--
The entry of a process that is not yet in the runtime.
-/
theorem Outside.enter (h : Outside pid w) (hinv : WithinLimits w) {handle : InvokeHandle}
    {incoming : FullRequest} {r : Except FunctionsError Unit}
    (hok : StaysWithin w (.call pid (InvokeCall.enter handle incoming) r))
    : (limitsOutline config manifests).Keeps w s (.call pid (InvokeCall.enter handle incoming) r)
      ∧ (r = .ok () → Inside pid handle.deploymentId incoming.toIncomingRequest
        (w.after s (.call pid (InvokeCall.enter handle incoming) r))) := by
  cases r with
  | error _ =>
    constructor
    . exact keeps_flow hinv rfl rfl nofun nofun
    . exact nofun
  | ok _ =>
    have hstays := hok.1 _ rfl
    -- nothing has flowed for the process, so only the number of those inside changes
    refine ⟨⟨trivial, ⟨?_, ?_, ?_⟩, fun _ _ => trivial⟩, ?_⟩
    . intro id m hm
      by_cases hid : handle.deploymentId = id
      . subst hid
        apply card_holders_succ.trans
        exact (hstays m hm).1
      . apply (card_holders_le _).trans (hinv.concurrency id m hm)
        exact fun heq => hid (Option.some.inj heq)
    . intro q id m n hm hq hn
      have hn := (Did.after_iff.mp hn).resolve_left nofun
      cases Did.after_iff.mp hq with
      | inl hnew =>
        cases hnew.1
        exact absurd hn (h.delivered n)
      | inr hold => exact hinv.bodyIn q id m n hm hold hn
    . intro q id m n hm hq hn
      have hn := (Did.after_iff.mp hn).resolve_left nofun
      cases Did.after_iff.mp hq with
      | inl hnew =>
        cases hnew.1
        exact absurd hn (h.returned n)
      | inr hold => exact hinv.bodyOut q id m n hm hold hn
    . intro _
      constructor
      . intro id' hid'
        cases Did.after_iff.mp hid' with
        | inl hnew => exact (Option.some.inj hnew.2).symm
        | inr hold => exact absurd hold (h.entered id')
      . intro m hm
        exact (hstays m hm).2

end Steps

section Programs

variable {config : BunRuntimeConfig} {manifests : DeploymentId → Option Manifest} {pid : Nat}
  {w : World (invokeSystem config manifests)} {α : Type}

theorem wp_silent {x : InvokeM α} {J : World (invokeSystem config manifests) → Prop}
    (hx : x.Uses InvokeCall.IsSilent) (hJ : J w) (hextends : ∀ w w', Extends pid w w' → J w → J w')
    (hsilent : ∀ w s c r, InvokeCall.IsSilent c → J w → J (w.after s (.call pid c r)))
    : (limitsOutline config manifests).Wp pid (fun _ => J) x w := by
  apply Outline.wp_of_uses hx hJ
  . intro w w' hrely _ hJ
    exact hextends w w' hrely.1 hJ
  . intro c hc w r s hJ hinv _ _
    exact ⟨keeps_silent hc hinv, hsilent w s c r hc hJ⟩

theorem acquireInstance_silent (handle : DeploymentHandle)
    : (onRuntime (acquireInstance handle)).Uses InvokeCall.IsSilent := by
  apply uses_lift
  apply uses_bind (uses_request _ trivial)
  intro a
  cases a with
  | found p => exact uses_pure _
  | full => exact uses_fail _
  | missing => exact uses_fail _
  | spawn =>
    apply uses_bind (uses_request _ trivial)
    intro p
    apply uses_bind (uses_request _ trivial)
    intro _
    exact uses_pure _

/--
What the runtime returns is within the limit.
-/
def Returns (pid : Nat) (r : Except FunctionsError InvokeResult)
    (w : World (invokeSystem config manifests)) : Prop :=
  ∀ result, r = .ok result → ∀ id m, manifests id = some m → Entered pid id w →
    result.response.body.length ≤ (Limits.ofManifest m).maxBodyOutBytes

theorem runtime_wp {handle : DeploymentHandle} {request : IncomingRequest}
    (h : Inside pid handle.deploymentId request w)
    : (limitsOutline config manifests).Wp pid (Returns pid) (onRuntime (invoke handle request)) w := by
  unfold onRuntime invoke
  rw [lift_bind]
  apply Outline.wp_bind
  apply Outline.wp_mono (wp_silent (acquireInstance_silent handle) h
    (fun _ _ hextends h => h.extends hextends)
    (fun _ _ _ _ hc h => h.after (silent_call hc).1))
  intro r w _ h
  cases r with
  | error e =>
    intro w' _ _ result hr
    cases hr
  | ok a =>
    obtain ⟨p, coldStart⟩ := a
    -- the request goes to the instance and its answer comes back
    intro w' hrely hinv r s _ hok
    have h := h.extends hrely.1
    constructor
    . apply keeps_flow hinv rfl rfl
      . intro n hn id m hm hid
        cases hn
        cases h.only id hid
        exact h.bodyIn m hm
      . intro n hn
        cases hn
    -- then the instance is given back
    intro w'' hrely' hinv' r' s' _ _
    have hstill : ∀ id, Entered pid id w'' → Entered pid id w' := by
      intro id hid
      rw [Entered, Did.extends_iff hrely'.1] at hid
      exact (Did.after_iff.mp hid).resolve_left nofun
    constructor
    . exact keeps_silent trivial hinv'
    . cases r' with
      | error e =>
        intro _ _ _ result hr
        cases hr
      | ok _ =>
        cases r with
        | error e =>
          intro _ _ _ result hr
          cases hr
        | ok response =>
          intro w₃ hrely₃ _ result hr id m hm hid
          cases hr
          rw [Entered, Did.extends_iff hrely₃.1] at hid
          obtain ⟨e, he, hpid, hid⟩ := hstill id ((Did.after_iff.mp hid).resolve_left nofun)
          exact hok.2 _ rfl e he hpid id hid m hm

theorem returns_fail {e : FunctionsError}
    : (limitsOutline config manifests).Wp pid (Returns pid) (Program.fail e) w := by
  intro w' _ _ result hr
  cases hr

theorem wp_ask {c : InvokeCall} {f : c.Ret → InvokeM InvokeResult} (hc : c.IsSilent)
    (h : Outside pid w)
    (hf : ∀ a w', Outside pid w' → (limitsOutline config manifests).Wp pid (Returns pid) (f a) w')
    : (limitsOutline config manifests).Wp pid (Returns pid) (await c >>= f) w := by
  apply Outline.wp_call
  intro w' hrely hinv r s _ _
  constructor
  . exact keeps_silent hc hinv
  . have hafter := (h.extends hrely.1).silent (s := s) (r := r) hc
    cases r with
    | ok a => exact hf a _ hafter
    | error e => exact returns_fail

theorem enter_wp (x : Except FunctionsError FullRequest) (handle : InvokeHandle) (h : Outside pid w)
    : (limitsOutline config manifests).Wp pid (Returns pid)
        (do
          let incoming ← ofExcept x
          await (.enter handle incoming)
          onRuntime (invoke handle.toDeploymentHandle incoming.toIncomingRequest)) w := by
  cases x with
  | error e => exact returns_fail
  | ok incoming =>
    apply Outline.wp_call
    intro w' hrely hinv r s _ hok
    obtain ⟨hkeeps, hinside⟩ := (h.extends hrely.1).enter (s := s) hinv hok
    constructor
    . exact hkeeps
    . cases r with
      | ok _ => exact runtime_wp (hinside rfl)
      | error e => exact returns_fail

theorem invokeHandler_wp (ctx : InvokeCtx) (name : String) (caller : CallerRequest) (h : Outside pid w)
    : (limitsOutline config manifests).Wp pid (Returns pid) (invokeHandler ctx name caller) w := by
  apply Outline.wp_require _ fun _ => returns_fail
  intro _
  apply wp_ask (c := .getFunctionByName ctx.activeOrg name) trivial h
  intro function w h
  apply Outline.wp_okOr _ fun _ => returns_fail
  intro function _
  apply Outline.wp_okOr _ fun _ => returns_fail
  intro deploymentId _
  apply wp_ask (c := .getDeployment deploymentId) trivial h
  intro deployment w h
  apply Outline.wp_okOr _ fun _ => returns_fail
  intro deployment _
  apply Outline.wp_require _ fun _ => returns_fail
  intro _
  apply Outline.wp_okOr _ fun _ => returns_fail
  intro manifest _
  apply Outline.wp_okOr _ fun _ => returns_fail
  intro kind _
  apply Outline.wp_okOr _ fun _ => returns_fail
  intro _ _
  -- the semaphore is there, but nothing follows from the permit
  apply Outline.wp_okOr _ fun _ => returns_fail
  intro permit _
  exact enter_wp _ _ h

/--
No other use of the runtime enters it for an invocation.
-/
def InvokeCall.IsOfRuntime : InvokeCall → Prop
  | .runtime _ => True
  | _ => False

theorem keeps_ofRuntime {c : InvokeCall} {r : Except FunctionsError c.Ret} {s : BunState}
    (hc : c.IsOfRuntime) (hinv : WithinLimits w) (h : ∀ id, ¬ Entered pid id w)
    : (limitsOutline config manifests).Keeps w s (.call pid c r)
      ∧ ∀ id, ¬ Entered pid id (w.after s (.call pid c r)) := by
  have henter : entered (.call pid c r : Event (invokeSystem config manifests)) = none := by
    cases c with
    | runtime c => rfl
    | getFunctionByName => exact hc.elim
    | getDeployment => exact hc.elim
    | enter => exact hc.elim
  constructor
  . apply keeps_flow hinv rfl henter
    . intro n _ id m _ hid
      exact absurd hid (h id)
    . intro n hn
      cases hn
  . intro id hid
    apply h id
    apply (Did.after_iff.mp hid).resolve_left
    rw [henter]
    exact fun h => nomatch h.2

theorem uses_true {x : FnM α} : x.Uses (fun _ => True) := by
  induction x with
  | done r => trivial
  | call c next ih => exact ⟨trivial, ih⟩

theorem onRuntime_wp {x : FnM α} (h : ∀ id, ¬ Entered pid id w)
    : (limitsOutline config manifests).Wp pid (fun _ w => ∀ id, ¬ Entered pid id w) (onRuntime x) w := by
  apply Outline.wp_of_uses (P := InvokeCall.IsOfRuntime) (uses_lift uses_true) h
  . intro w w' hrely _ h id
    rw [Entered, Did.extends_iff hrely.1]
    exact h id
  . intro c hc w r s h hinv _ _
    exact keeps_ofRuntime hc hinv h

end Programs

theorem limitsOutline_sound (config : BunRuntimeConfig) (manifests : DeploymentId → Option Manifest)
    : (limitsOutline config manifests).Sound where
  spawn w pid req hinv _ _ := keeps_flow hinv rfl rfl nofun nofun
  program w pid req _ hfresh _ := by
    have houtside := Outside.spawned hfresh req
    cases req with
    | invoke ctx name caller =>
      apply Outline.wp_mono (invokeHandler_wp ctx name caller houtside)
      intro r w _ h n hn
      cases r with
      | error e => cases hn
      | ok result =>
        cases hn
        exact h result rfl
    | runtime req =>
      apply Outline.wp_mono (onRuntime_wp houtside.entered)
      intro r w _ h n hn
      cases hn
  finish w pid req r hinv _ hpost _ := keeps_flow hinv rfl rfl nofun hpost
  crash w pid req hinv _ _ := keeps_flow hinv rfl rfl nofun nofun
  tick w t hinv _ := by
    have hdid : ∀ (P : Event (invokeSystem config manifests) → Prop) pid s,
        Did P pid (w.after s .tick) → Did P pid w := by
      intro P pid s h
      exact (Did.after_iff.mp h).resolve_left nofun
    refine ⟨trivial, ⟨?_, ?_, ?_⟩, fun _ _ => trivial⟩
    . intro id m hm
      apply (card_holders_le _).trans (hinv.concurrency id m hm)
      exact fun h => nomatch h
    . intro pid id m n hm hid hn
      exact hinv.bodyIn pid id m n hm (hdid _ _ _ hid) (hdid _ _ _ hn)
    . intro pid id m n hm hid hn
      exact hinv.bodyOut pid id m n hm (hdid _ _ _ hid) (hdid _ _ _ hn)

/--
A body of one mebibyte either way, and one invocation at a time.
-/
def Manifest.plain : Manifest :=
  ⟨⟨1, 1⟩, ⟨1⟩⟩

def InvokeChoice.plain (id : Uuid) : InvokeChoice where
  function := some ⟨⟨5, 2, "hello", some 7⟩, "bun"⟩
  status := some .ready
  bun := ⟨id, ⟨200, [], []⟩⟩

abbrev plainSystem : System invokeCalls :=
  invokeSystem ⟨300, 2⟩ (fun _ => some .plain)

/--
The process `pid` makes its next `n` calls, and the `k`-th socket that is made is `id + k`.
-/
def proceeds (pid n : Nat) (id : Uuid) : List (Move plainSystem) :=
  (List.range n).map (fun k => .call pid (.plain (id + BitVec.ofNat 128 k)))

def deploys : List (Move plainSystem) :=
  .spawn (.runtime (.deploy 7)) :: proceeds 0 1 0 ++ [.finish 0]

def invokes (pid n : Nat) (body : Http.Wire.Bytes) (id : Uuid) : List (Move plainSystem) :=
  .spawn (.invoke .plain "hello" (.plain body)) :: proceeds pid n id

/--
One invocation comes after the other.
-/
example :
    let ms := deploys ++ invokes 1 8 [1, 2] 20 ++ .finish 1 :: invokes 2 6 [] 30
    Config.Along (S := plainSystem) StaysWithin ms (Config.start (.start 0))
      ∧ (Config.run ms (Config.start (.start 0))).any (fun c =>
        decide ((inside 7 c.world).card = 1 ∧ c.world.trace.any (fun e => delivered e == some 2))) = true := by
  decide

end Reactor.Functions
