import ReactorCloud.Ops.Router

/-!
This module proves which of its checks the ops surface enforces. The layers around a method router run
before the metadata of its route is there, so they never see it.
-/

namespace Reactor.Ops

open Interleave
open Http (Message matchPath)

inductive Event where
  | ran (h : Handler)
  | logged (entry : OpsAuditEntry)
deriving DecidableEq

/--
The auth client, the clock, the handlers and the audit table, over any state.
-/
structure Backend (D : Type) where
  resolveCtx : String → D → Except Failure Core.AuthCtx × D
  now : D → Int64
  handle : Handler → Request → D → Response × D
  insertAudit : OpsAuditEntry → D → Except Failure Unit × D

structure World (D : Type) where
  data : D
  events : List Event

variable {D : Type}

def Backend.respond (b : Backend D)
    : (c : Call) → World D → Except Failure (interface.Ret c) × World D
  | .resolveCtx token, w => ((b.resolveCtx token w.data).1, ⟨(b.resolveCtx token w.data).2, w.events⟩)
  | .now, w => (.ok (b.now w.data), w)
  | .handle h req, w =>
    (.ok (b.handle h req w.data).1, ⟨(b.handle h req w.data).2, w.events ++ [.ran h]⟩)
  | .log entry, w =>
    match b.insertAudit entry w.data with
    | (.ok (), d) => (.ok (), ⟨d, w.events ++ [.logged entry]⟩)
    | (.error e, d) => (.error e, ⟨d, w.events⟩)

/--
A request from the wire, with the address of the peer that the server adds.
-/
def incoming (m : Message) (peer : IpAddr) : Request :=
  ⟨m, [], ⟨some peer, none, none, none⟩⟩

section Spec

variable (config : OpsConfig) (parse : String → Option IpNetwork) (cloud adminState : Bool)
  (b : Backend D) (m : Message) (peer : IpAddr) (d : D)

/--
What happens while the request is served.
-/
def events : List Event :=
  let w : World D := ⟨d, []⟩
  (((buildRouter config parse cloud adminState).call (incoming m peer)).eval b.respond w).2.events

/--
The token resolves to a user, whose claims satisfy `P` at the time of the answer.
-/
def Identified (P : Core.Claims → Int64 → Prop) : Prop :=
  ∃ token ctx d', bearerToken m = some token ∧ b.resolveCtx token d = (.ok ctx, d')
    ∧ ctx.claims.userId.isSome = true ∧ P ctx.claims (b.now d')

structure Authorized (x : Route) : Prop where
  trusted : config.isTrustedIp parse peer = true
  identified : Identified b m d (fun claims now => claims.hasScope x.routeMeta.requiredScope = true
    ∧ (config.requiresStepUp x.routeMeta.requiredScope = true
      → claims.mfaVerifiedWithin now config.stepUpWindowSecs.toInt64 = true))

/--
Handlers only run for authorized requests, and each run is in the audit log.
-/
structure Enforced : Prop where
  authorized : ∀ x ∈ routes cloud adminState,
    .ran x.handler ∈ events config parse cloud adminState b m peer d
      → Authorized config parse b m peer d x
  audited : ∀ x ∈ routes cloud adminState,
    .ran x.handler ∈ events config parse cloud adminState b m peer d
      → ∃ entry, .logged entry ∈ events config parse cloud adminState b m peer d
        ∧ entry.action = x.routeMeta.action

/--
The route is one for the request.
-/
def Route.IsFor (x : Route) : Prop :=
  x.method.accepts m.method = true ∧ (matchPath ("/_ops/v1" ++ x.path) m.path).isSome = true

end Spec

section Layers

variable {config : OpsConfig} {parse : String → Option IpNetwork} {b : Backend D}

def guarded (config : OpsConfig) (parse : String → Option IpNetwork) (inner : Service) : Service :=
  Http.Router.stripPrefix "/_ops/v1"
    (networkCheck config parse (identityCheck (scopeCheck (stepUpCheck config (auditLog inner)))))

theorem scopeCheck_none {next : Service} {req : Request} (h : req.extensions.routeMeta = none)
    : scopeCheck next req = next req := by
  simp [scopeCheck, h]

theorem stepUpCheck_none {next : Service} {req : Request} (h : req.extensions.routeMeta = none)
    : stepUpCheck config next req = next req := by
  simp [stepUpCheck, h]

theorem auditLog_none {next : Service} {req : Request} (h : req.extensions.routeMeta = none)
    (w : World D) : (auditLog next req).eval b.respond w = (next req).eval b.respond w := by
  simp only [auditLog, h, Program.eval_bind, Program.eval_pure]
  split
  . next heq => exact heq.symm
  . next heq => exact heq.symm

theorem eval_resolveCtx {token : String} {f : Except Failure Core.AuthCtx → OpsM Response}
    (w : World D)
    : (Program.attempt (Program.request (I := interface) (.resolveCtx token)) >>= f).eval b.respond w
        =
      (f (b.resolveCtx token w.data).1).eval b.respond ⟨(b.resolveCtx token w.data).2, w.events⟩ := rfl

variable {req : Request} {w : World D}

theorem identityCheck_refuses {next : Service} (h : ¬ Identified b req.toMessage w.data (fun _ _ => True))
    : ((identityCheck next req).eval b.respond w).2.events = w.events := by
  unfold identityCheck
  cases htoken : bearerToken req.toMessage with
  | none => rfl
  | some token =>
    rw [eval_resolveCtx]
    cases hresolve : b.resolveCtx token w.data with
    | mk r d' =>
      cases r with
      | error e => rfl
      | ok ctx =>
        cases huser : ctx.claims.userId with
        | none => simp [huser]
        | some uid =>
          have : Identified b req.toMessage w.data (fun _ _ => True) :=
            ⟨token, ctx, d', htoken, hresolve, by simp [huser], trivial⟩
          contradiction

theorem identityCheck_admits (next : Service)
    (h : Identified b req.toMessage w.data (fun _ _ => True)) : ∃ opsCtx d', (identityCheck next req).eval b.respond w
        =
      (next { req with extensions := { req.extensions with opsAuthCtx := some opsCtx } }).eval
        b.respond ⟨d', w.events⟩ := by
  obtain ⟨token, ctx, d', htoken, hresolve, huser, _⟩ := h
  obtain ⟨uid, huser⟩ := Option.isSome_iff_exists.mp huser
  refine ⟨⟨ctx.claims, ctx, uid, false⟩, d', ?_⟩
  simp only [identityCheck, htoken]
  rw [eval_resolveCtx, hresolve]
  simp only [huser]

/--
Whoever gets past the first two layers gets to the inner service. The other three see no metadata.
-/
theorem guarded_admits (inner : Service) (hnone : req.extensions.routeMeta = none) {peer : IpAddr}
    (hpeer : req.extensions.connectInfo = some peer) (htrusted : config.isTrustedIp parse peer = true)
    (h : Identified b req.toMessage w.data (fun _ _ => True))
    : ∃ req' d', (guarded config parse inner req).eval b.respond w
        =
      (inner req').eval b.respond ⟨d', w.events⟩ := by
  let stripped := { req with path := String.ofList (req.path.toList.drop "/_ops/v1".length) }
  have hid : Identified b stripped.toMessage w.data (fun _ _ => True) := h
  obtain ⟨opsCtx, d', heval⟩ :=
    identityCheck_admits (scopeCheck (stepUpCheck config (auditLog inner))) hid
  let seen := { stripped with extensions := { req.extensions with opsAuthCtx := some opsCtx } }
  have hseen : seen.extensions.routeMeta = none := hnone
  refine ⟨seen, d', ?_⟩
  calc (guarded config parse inner req).eval b.respond w
    _ = (identityCheck (scopeCheck (stepUpCheck config (auditLog inner))) stripped).eval b.respond w
        := by
      simp only [guarded, Http.Router.stripPrefix, networkCheck, hpeer, htrusted, if_true, stripped]
    _ = (scopeCheck (stepUpCheck config (auditLog inner)) seen).eval b.respond ⟨d', w.events⟩ := heval
    _ = (inner seen).eval b.respond ⟨d', w.events⟩ := by
      rw [scopeCheck_none hseen, stepUpCheck_none hseen, auditLog_none hseen]

theorem guarded_refuses {inner : Service} {peer : IpAddr} (hpeer : req.extensions.connectInfo = some peer)
    (h : ¬ (config.isTrustedIp parse peer = true
      ∧ Identified b req.toMessage w.data (fun _ _ => True)))
    : ((guarded config parse inner req).eval b.respond w).2.events = w.events := by
  unfold guarded Http.Router.stripPrefix networkCheck
  simp only [hpeer]
  split
  . next htrusted =>
    apply identityCheck_refuses
    intro hid
    exact h ⟨htrusted, hid⟩
  . rfl

end Layers

section Routing

open Http.Router

def methodNotAllowed : Service := fun _ => pure (.empty 405)

/--
The router has the routes of the list and no others, with `wrap` around each of them.
-/
structure Covers (outer : String) (wrap : Service → Service) (r : Router) (l : List Route) : Prop where
  sound : ∀ e, r.Has e → ∃ x ∈ l, e.pattern = outer ++ x.path ∧ ∃ insert inner,
    e.service = wrap (Http.extension insert inner)
      ∧ (e.method = some x.method ∧ inner = x.handler.service
        ∨ e.method = none ∧ inner = methodNotAllowed)
  complete : ∀ x ∈ l, ∃ insert,
    r.Has ⟨outer ++ x.path, some x.method, wrap (Http.extension insert x.handler.service)⟩

variable {outer : String} {wrap : Service → Service} {r r' : Router} {l l' : List Route}

theorem covers_new (outer : String) (wrap : Service → Service) : Covers outer wrap .new [] where
  sound := by
    intro e h
    exact absurd h not_has_new
  complete := by
    intro x hx
    cases hx

theorem covers_routerOf (l : List Route) : Covers "" id (routerOf l) l where
  sound := by
    intro e h
    cases has_of_routeAll h with
    | inl h => exact absurd h not_has_new
    | inr h =>
      obtain ⟨m, hmem, hentry⟩ := h
      obtain ⟨x, hx, heq⟩ := List.mem_map.mp hmem
      simp only [Prod.mk.injEq] at heq
      obtain ⟨hpath, rfl⟩ := heq
      refine ⟨x, hx, by simp [hpath], fun e => { e with routeMeta := some x.routeMeta }, ?_⟩
      obtain ⟨s, hs, heq⟩ := Http.MethodRouter.mem_entries_layer.mp hentry
      simp only [Http.MethodRouter.entries, Http.MethodRouter.on, List.map_cons, List.map_nil, List.mem_cons,
        List.not_mem_nil, or_false, Prod.mk.injEq] at hs
      exact ⟨s, heq, hs.symm⟩
  complete := by
    intro x hx
    refine ⟨fun e => { e with routeMeta := some x.routeMeta }, ?_⟩
    rw [String.empty_append]
    refine has_routeAll.mpr (.inr ⟨x.service, ?_, ?_⟩)
    . exact List.mem_map.mpr ⟨x, hx, rfl⟩
    . exact .tail _ (.head _)

theorem Covers.merge (h : Covers outer wrap r l) (h' : Covers outer wrap r' l')
    : Covers outer wrap (r.merge r') (l ++ l') where
  sound := by
    intro e hhas
    cases has_of_merge hhas with
    | inl hhas =>
      obtain ⟨x, hx, hrest⟩ := h.sound e hhas
      exact ⟨x, List.mem_append_left _ hx, hrest⟩
    | inr hhas =>
      obtain ⟨x, hx, hrest⟩ := h'.sound e hhas
      exact ⟨x, List.mem_append_right _ hx, hrest⟩
  complete := by
    intro x hx
    cases List.mem_append.mp hx with
    | inl hx =>
      obtain ⟨insert, hhas⟩ := h.complete x hx
      exact ⟨insert, has_merge.mpr (.inl hhas)⟩
    | inr hx =>
      obtain ⟨insert, hhas⟩ := h'.complete x hx
      exact ⟨insert, has_merge.mpr (.inr hhas)⟩

theorem Covers.extension (h : Covers outer id r l) (f : Extensions → Extensions)
    : Covers outer id (r.layer (Http.extension f)) l where
  sound := by
    intro e hhas
    obtain ⟨s, hs, heq⟩ := has_layer.mp hhas
    obtain ⟨x, hx, hpattern, insert, inner, hinner, hrest⟩ := h.sound _ hs
    refine ⟨x, hx, hpattern, insert ∘ f, inner, ?_, hrest⟩
    rw [heq, show s = _ from hinner]
    rfl
  complete := by
    intro x hx
    obtain ⟨insert, hhas⟩ := h.complete x hx
    exact ⟨insert ∘ f, has_layer.mpr ⟨_, hhas, rfl⟩⟩

theorem Covers.nest (config : OpsConfig) (parse : String → Option IpNetwork) (h : Covers "" id r l)
    : Covers "/_ops/v1" (guarded config parse)
      (.nest "/_ops/v1" (middlewareStack config parse r)) l where
  sound := by
    intro e hhas
    obtain ⟨q, s, hs, hq, heq⟩ := has_nest.mp hhas
    obtain ⟨s₁, hs, rfl⟩ := has_layer.mp hs
    obtain ⟨s₂, hs, rfl⟩ := has_layer.mp hs
    obtain ⟨s₃, hs, rfl⟩ := has_layer.mp hs
    obtain ⟨s₄, hs, rfl⟩ := has_layer.mp hs
    obtain ⟨s₅, hs, rfl⟩ := has_layer.mp hs
    obtain ⟨x, hx, hpattern, insert, inner, hinner, hrest⟩ := h.sound _ hs
    refine ⟨x, hx, ?_, insert, inner, ?_, hrest⟩
    . rw [hq, show q = _ from hpattern, String.empty_append]
    . rw [heq, show s₅ = _ from hinner]
      rfl
  complete := by
    intro x hx
    obtain ⟨insert, hhas⟩ := h.complete x hx
    rw [String.empty_append] at hhas
    have hstack := ((((hhas.layer auditLog).layer (stepUpCheck config)).layer scopeCheck).layer
      identityCheck).layer (networkCheck config parse)
    exact ⟨insert, has_nest.mpr ⟨x.path, _, hstack, rfl, rfl⟩⟩

theorem buildRouter_covers (config : OpsConfig) (parse : String → Option IpNetwork)
    (cloud adminState : Bool) : Covers "/_ops/v1" (guarded config parse)
      (buildRouter config parse cloud adminState) (routes cloud adminState) := by
  have hbase : Covers "/_ops/v1" (guarded config parse) (router config parse)
      (operatorsRoutes ++ healthRoutes ++ deploymentRoutes ++ [] ++ vaultRoutes ++ auditRoutes) := by
    apply Covers.nest
    exact ((((((covers_new _ _).merge (covers_routerOf _)).merge (covers_routerOf _)).merge
      (covers_routerOf _)).merge (covers_routerOf _)).merge (covers_routerOf _)).merge
      (covers_routerOf _)
  have hextra : Covers "/_ops/v1" (guarded config parse)
      (buildDelegatingRouter config parse cloud adminState)
      ((if cloud then projectsRoutes else []) ++ (if adminState then deployRoutes else [])) := by
    apply Covers.nest
    cases cloud <;> cases adminState
    . exact covers_new _ _
    . exact (covers_new _ _).merge ((covers_routerOf _).extension _)
    . exact (covers_new _ _).merge (covers_routerOf _)
    . exact ((covers_new _ _).merge (covers_routerOf _)).merge ((covers_routerOf _).extension _)
  have := hbase.merge hextra
  simp only [List.append_nil, ← List.append_assoc] at this
  exact this

theorem routes_disjoint : ∀ x ∈ routes true true, ∀ y ∈ routes true true,
    Http.overlap (Http.pattern ("/_ops/v1" ++ x.path)) (Http.pattern ("/_ops/v1" ++ y.path)) = true
      → x.path = y.path := by
  decide +kernel

theorem routes_subset (cloud adminState : Bool) : routes cloud adminState ⊆ routes true true := by
  cases cloud <;> cases adminState <;> decide

theorem buildRouter_disjoint (config : OpsConfig) (parse : String → Option IpNetwork)
    (cloud adminState : Bool) : (buildRouter config parse cloud adminState).Disjoint := by
  apply disjoint_of_overlap ((routes true true).map (fun x => "/_ops/v1" ++ x.path))
  . intro e h
    obtain ⟨x, hx, hpattern, _⟩ := (buildRouter_covers config parse cloud adminState).sound e h
    exact List.mem_map.mpr ⟨x, routes_subset cloud adminState hx, hpattern.symm⟩
  . intro p hp q hq h
    obtain ⟨x, hx, rfl⟩ := List.mem_map.mp hp
    obtain ⟨y, hy, rfl⟩ := List.mem_map.mp hq
    rw [routes_disjoint x hx y hy h]

end Routing

section Enforced

variable {config : OpsConfig} {parse : String → Option IpNetwork} {cloud adminState : Bool}
  {b : Backend D} {m : Message} {peer : IpAddr} {d : D}

/--
A guarded service sees a request from the wire exactly when the peer is trusted and the token resolves
to a user.
-/
theorem guarded_events (config : OpsConfig) (parse : String → Option IpNetwork) (b : Backend D)
    (m : Message) (peer : IpAddr) (d : D) (inner : Service) (params : List (String × String))
    : let w : World D := ⟨d, []⟩
      let req := { incoming m peer with params := params }
      let after := ((guarded config parse inner req).eval b.respond w).2.events
      let admitted := config.isTrustedIp parse peer = true ∧ Identified b m d (fun _ _ => True)
      (admitted ∧ ∃ req' d', after = ((inner req').eval b.respond (⟨d', []⟩ : World D)).2.events)
        ∨ (¬ admitted ∧ after = []) := by
  intro w req after admitted
  by_cases h : admitted
  . obtain ⟨req', d', heval⟩ : ∃ req' d', (guarded config parse inner req).eval b.respond w = _ :=
      guarded_admits inner rfl rfl h.1 h.2
    exact .inl ⟨h, req', d', by simp only [after, heval, w]⟩
  . exact .inr ⟨h, guarded_refuses rfl h⟩

/--
The network and the identity of a request are checked, and the handler is the one of its route. There
is no entry in the audit log.
-/
theorem events_cases (config : OpsConfig) (parse : String → Option IpNetwork)
    (cloud adminState : Bool) (b : Backend D) (m : Message) (peer : IpAddr) (d : D)
    : let admitted := config.isTrustedIp parse peer = true ∧ Identified b m d (fun _ _ => True)
      let after := events config parse cloud adminState b m peer d
      (admitted ∧ ∃ x ∈ routes cloud adminState, x.IsFor m ∧ after = [.ran x.handler])
        ∨ (¬ (admitted ∧ ∃ x ∈ routes cloud adminState, x.IsFor m) ∧ after = []) := by
  intro admitted after
  have hcovers := buildRouter_covers config parse cloud adminState
  have guarded_events := guarded_events config parse b m peer d
  cases Http.Router.call_cases (buildRouter_disjoint config parse cloud adminState)
    (incoming m peer) with
  | inl h =>
    obtain ⟨q, method, s, params, hhas, haccepts, hmatch, hcall⟩ := h
    obtain ⟨x, hx, hpattern, insert, inner, rfl, hentry⟩ := hcovers.sound _ hhas
    simp only [Option.some.injEq, reduceCtorEq, false_and, or_false] at hentry
    obtain ⟨rfl, rfl⟩ := hentry
    obtain rfl : q = "/_ops/v1" ++ x.path := hpattern
    have hfor : x.IsFor m := ⟨haccepts, Option.isSome_of_eq_some hmatch⟩
    cases guarded_events (Http.extension insert x.handler.service) params with
    | inl h =>
      obtain ⟨hadmitted, req', d', heq⟩ := h
      refine .inl ⟨hadmitted, x, hx, hfor, ?_⟩
      simp only [after, events, hcall, heq]
      rfl
    | inr h =>
      refine .inr ⟨fun hall => h.1 hall.1, ?_⟩
      simp only [after, events, hcall]
      exact h.2
  | inr h =>
    obtain ⟨hnone, hcall⟩ := h
    refine .inr ⟨?_, ?_⟩
    . rintro ⟨_, x, hx, haccepts, hmatch⟩
      obtain ⟨insert, hhas⟩ := hcovers.complete x hx
      exact hnone ⟨_, _, _, hhas, haccepts, hmatch⟩
    . rcases hcall with hcall | ⟨q, s, params, hhas, hcall⟩
      . simp only [after, events, hcall]
        rfl
      . obtain ⟨x, hx, hpattern, insert, inner, rfl, hentry⟩ := hcovers.sound _ hhas
        simp only [reduceCtorEq, false_and, true_and, false_or] at hentry
        subst hentry
        simp only [after, events, hcall]
        rcases guarded_events (Http.extension insert methodNotAllowed) params with
          ⟨_, req', d', heq⟩ | ⟨_, heq⟩
        . rw [heq]
          rfl
        . exact heq

theorem enforced_iff (config : OpsConfig) (parse : String → Option IpNetwork)
    (cloud adminState : Bool) (b : Backend D) (m : Message) (peer : IpAddr) (d : D)
    : Enforced config parse cloud adminState b m peer d
      ↔ ¬ (config.isTrustedIp parse peer = true ∧ Identified b m d (fun _ _ => True)
        ∧ ∃ x ∈ routes cloud adminState, x.IsFor m) := by
  have hcases := events_cases config parse cloud adminState b m peer d
  simp only at hcases
  constructor
  . rintro henforced ⟨htrusted, hid, x, hx, hfor⟩
    rcases hcases with ⟨_, y, hy, _, heq⟩ | ⟨hnot, _⟩
    . obtain ⟨entry, hlogged, _⟩ := henforced.audited y hy (by simp [heq])
      simp [heq] at hlogged
    . exact hnot ⟨⟨htrusted, hid⟩, x, hx, hfor⟩
  . intro hnot
    rcases hcases with ⟨⟨htrusted, hid⟩, y, hy, hfor, _⟩ | ⟨_, heq⟩
    . exact absurd ⟨htrusted, hid, y, hy, hfor⟩ hnot
    . constructor
      . intro x hx hran
        simp [heq] at hran
      . intro x hx hran
        simp [heq] at hran

end Enforced

def loopback (s : String) : Option IpNetwork :=
  if s = "127.0.0.0/8" then some (.v4 0x7f000000#32 8) else none

/--
Every token is one of a user without any scope and without a second factor.
-/
def unscoped : Backend Unit where
  resolveCtx _ _ := (.ok ⟨⟨"user_00000000-0000-7000-8000-000000000001", none, [], none⟩, none, []⟩, ())
  now _ := 1700000000
  handle _ _ _ := (.empty 204, ())
  insertAudit _ _ := (.ok (), ())

def deleteDbPassword : Message where
  method := .delete
  path := "/_ops/v1/vault/db/password"
  query := none
  headers := [("authorization", "Bearer token")]
  body := []

theorem not_enforced_unscoped
    : ¬ Enforced .default loopback true true unscoped deleteDbPassword (.v4 0x7f000001#32) () := by
  have hevents : events .default loopback true true unscoped deleteDbPassword (.v4 0x7f000001#32) ()
      = [.ran .deleteSecret] := by
    decide +kernel
  intro h
  let x : Route := ⟨"/vault/*path", .delete, .deleteSecret, .new "vault:write" "vault.delete"⟩
  obtain ⟨entry, hlogged, _⟩ := h.audited x (by decide) (by simp [hevents, x])
  simp [hevents] at hlogged

end Reactor.Ops
