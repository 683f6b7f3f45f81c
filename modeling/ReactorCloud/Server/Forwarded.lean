import ReactorCloud.Http.Service
import ReactorCloud.Rust.Uuid

/-!
This module contains the addresses of `std::net` and how they are parsed.
-/

namespace Rust

inductive IpAddr where
  | v4 (bits : BitVec 32)
  | v6 (bits : BitVec 128)
  deriving DecidableEq, Repr

namespace IpAddr

def toDigit (radix : Nat) (c : Char) : Option Nat :=
  let digit :=
    if c.isDigit then
      c.toNat - '0'.toNat
    else if 'a' ≤ c.toLower ∧ c.toLower ≤ 'z' then
      c.toLower.toNat - 'a'.toNat + 10
    else
      radix
  if digit < radix then some digit else none

/--
A number of at most `maxDigits` digits below `bound`.
-/
def readNumber (radix maxDigits bound : Nat) (zeroPrefix : Bool) (s : List Char)
    : Option (Nat × List Char) :=
  let isDigit := fun c => (toDigit radix c).isSome
  let digits := s.takeWhile isDigit
  let value := (digits.filterMap (toDigit radix)).foldl (fun n d => radix * n + d) 0
  if digits.isEmpty || maxDigits < digits.length || bound ≤ value then
    none
  else if !zeroPrefix && digits.head? = some '0' && 1 < digits.length then
    none
  else
    some (value, s.dropWhile isDigit)

def readChar (c : Char) : List Char → Option (List Char)
  | d :: rest => if d = c then some rest else none
  | [] => none

def readIpv4 (s : List Char) : Option (BitVec 32 × List Char) := do
  let (a, s) ← readNumber 10 3 256 false s
  let s ← readChar '.' s
  let (b, s) ← readNumber 10 3 256 false s
  let s ← readChar '.' s
  let (c, s) ← readNumber 10 3 256 false s
  let s ← readChar '.' s
  let (d, s) ← readNumber 10 3 256 false s
  some (BitVec.ofNat 32 (((a * 256 + b) * 256 + c) * 256 + d), s)

/--
At most `limit` groups of an IPv6 address, the last two may be an IPv4 address.
-/
def readGroups (limit : Nat) (isFirst : Bool) (s : List Char) : List Nat × Bool × List Char :=
  match limit with
  | 0 => ([], false, s)
  | limit + 1 =>
    let start := if isFirst then some s else readChar ':' s
    let embedded := if 1 ≤ limit then start.bind readIpv4 else none
    match embedded with
    | some (bits, rest) => ([bits.toNat / 65536, bits.toNat % 65536], true, rest)
    | none =>
      match start.bind (readNumber 16 4 65536 true) with
      | some (group, rest) =>
        let (groups, isV4, rest) := readGroups limit false rest
        (group :: groups, isV4, rest)
      | none => ([], false, s)

def ofGroups (groups : List Nat) : BitVec 128 :=
  BitVec.ofNat 128 (groups.foldl (fun n group => n * 65536 + group) 0)

def readIpv6 (s : List Char) : Option (BitVec 128 × List Char) :=
  let (head, isV4, rest) := readGroups 8 true s
  if head.length = 8 then
    some (ofGroups head, rest)
  else if isV4 then
    none
  else
    match rest with
    | ':' :: ':' :: rest =>
      let (tail, _, rest) := readGroups (8 - (head.length + 1)) true rest
      some (ofGroups (head ++ List.replicate (8 - head.length - tail.length) 0 ++ tail), rest)
    | _ => none

/--
`text.parse::<IpAddr>()`
-/
def parse (s : List Char) : Option IpAddr :=
  match readIpv4 s with
  | some (bits, rest) => if rest.isEmpty then some (.v4 bits) else none
  | none =>
    match readIpv6 s with
    | some (bits, rest) => if rest.isEmpty then some (.v6 bits) else none
    | none => none

end IpAddr
end Rust

/-!
This module contains what the server takes from the forwarding headers of a request, the address of the
client behind trusted proxies and the host that names the tenant, and for which requests both are out of
the reach of the headers that the client sends.
-/

namespace Reactor.Server

open Http (Message headerStr)
open Rust (IpAddr Uuid)
open Rust.Str (trimStart trimEnd)

/-! Trusted proxies -/

def width : IpAddr → Nat
  | .v4 _ => 32
  | .v6 _ => 128

structure IpRange where
  network : IpAddr
  prefixLen : Nat
  prefixLen_le : prefixLen ≤ width network

def mask (w prefixLen : Nat) : BitVec w :=
  if prefixLen = 0 then 0 else BitVec.allOnes w <<< (w - prefixLen)

def IpRange.contains (range : IpRange) (ip : IpAddr) : Bool :=
  match range.network, ip with
  | .v4 net, .v4 addr => net &&& mask 32 range.prefixLen == addr &&& mask 32 range.prefixLen
  | .v6 net, .v6 addr => net &&& mask 128 range.prefixLen == addr &&& mask 128 range.prefixLen
  | _, _ => false

/--
The ranges of the trusted proxies.
-/
abbrev TrustedProxies := List IpRange

namespace TrustedProxies

def addRange (proxies : TrustedProxies) (network : String) (prefixLen : Nat) : TrustedProxies :=
  match IpAddr.parse network.toList with
  | some ip => if h : prefixLen ≤ width ip then proxies ++ [⟨ip, prefixLen, h⟩] else proxies
  | none => proxies

/--
The mesh of Fly.io and the local host.
-/
def flyDefaults : TrustedProxies :=
  (((addRange [] "fdaa::" 16).addRange "172.19.0.0" 16).addRange "127.0.0.1" 32).addRange "::1" 128

def isTrusted (proxies : TrustedProxies) (ip : IpAddr) : Bool :=
  proxies.any (·.contains ip)

end TrustedProxies

def trimText (s : List Char) : List Char :=
  trimEnd (trimStart s)

/--
The first entry of the first `X-Forwarded-For` header.
-/
def xffAddress (m : Message) : Option IpAddr := do
  let value ← (m.header "x-forwarded-for").bind headerStr
  IpAddr.parse (trimText (value.toList.takeWhile (· ≠ ',')))

def realIpAddress (m : Message) : Option IpAddr := do
  let value ← (m.header "x-real-ip").bind headerStr
  IpAddr.parse (trimText value.toList)

def trimStartMatches (c : Char) (s : List Char) : List Char :=
  s.dropWhile (· = c)

def trimEndMatches (c : Char) (s : List Char) : List Char :=
  (s.reverse.dropWhile (· = c)).reverse

/--
The address of a `for=` directive.
-/
def forAddress (part : List Char) : Option IpAddr :=
  let part := trimText part
  if "for=".toList.isPrefixOf (part.map Char.toLower) then
    let ipStr := trimEndMatches '"' (trimStartMatches '"' (part.drop 4))
    let ipStr := trimEndMatches ']' (trimStartMatches '[' ipStr)
    IpAddr.parse (ipStr.takeWhile (· ≠ ':'))
  else
    none

def forwardedAddress (m : Message) : Option IpAddr := do
  let value ← (m.header "forwarded").bind headerStr
  (value.toList.splitOn ';').findSome? forAddress

def extractForwardedIp (m : Message) : Option IpAddr :=
  (xffAddress m).or ((realIpAddress m).or (forwardedAddress m))

/--
What `trusted_proxy_middleware` puts into `RealClientIp`.
-/
def realClientIp (trusted : TrustedProxies) (peer : Option IpAddr) (m : Message) : Option IpAddr :=
  match peer with
  | some peerIp => if trusted.isTrusted peerIp then (extractForwardedIp m).or (some peerIp) else some peerIp
  | none => extractForwardedIp m

/-! Tenants -/

structure TenantCtx where
  projectId : Uuid
  projectRef : String
  projectName : String
  deriving DecidableEq

/--
A route with the project that it belongs to.
-/
structure Route where
  host : String
  enabled : Bool
  isActive : Bool
  project : TenantCtx

inductive TenantResolutionError where
  | notConfigured
  | invalidHost (h : String)
  | notFound (r : String)
  deriving DecidableEq

def lookupTenant (routes : List Route) (host : String) : Except TenantResolutionError TenantCtx :=
  match routes.find? (fun r => r.host == host && r.enabled && r.isActive) with
  | some route => .ok route.project
  | none => .error (.notFound host)

def stripPort (host : String) : String :=
  String.ofList (host.toList.takeWhile (· ≠ ':'))

/--
The host that names the tenant of a request.
-/
def requestHost (fallbackHost : Option String) (m : Message) : Option String :=
  ((((m.header "x-forwarded-host").or (m.header "host")).bind headerStr).map stripPort).or fallbackHost

abbrev TenantCache := List (String × TenantCtx)

/--
The tenant and the cache afterwards. An entry is found as long as it lives.
-/
def resolveAsync (cache : TenantCache) (routes : List Route) (fallbackHost : Option String) (m : Message)
    : Except TenantResolutionError TenantCtx × TenantCache :=
  match requestHost fallbackHost m with
  | none => (.error (.invalidHost "missing host header"), cache)
  | some host =>
    match cache.lookup host with
    | some ctx => (.ok ctx, cache)
    | none =>
      match lookupTenant routes host with
      | .ok ctx => (.ok ctx, (host, ctx) :: cache)
      | .error e => (.error e, cache)

/-! What the client cannot reach -/

def withoutForwardedHost (m : Message) : Message :=
  { m with headers := m.headers.filter (fun h => h.1 != "x-forwarded-host") }

/--
The tenant is that of the `Host` header, whatever the routes and the cache are.
-/
def HostAlone (fallbackHost : Option String) (m : Message) : Prop :=
  ∀ (cache : TenantCache) (routes : List Route),
    (resolveAsync cache routes fallbackHost m).1.toOption
      = (resolveAsync cache routes fallbackHost (withoutForwardedHost m)).1.toOption

/--
A text is an address, an IPv6 address may stand in brackets.
-/
def Spells (text : List Char) (ip : IpAddr) : Prop :=
  IpAddr.parse (trimText text) = some ip
    ∨ ∃ inner, trimText text = '[' :: (inner ++ [']']) ∧ IpAddr.parse inner = some ip

/--
The entries of all `X-Forwarded-For` headers.
-/
def forwardedEntries (m : Message) : List (List Char) :=
  (m.headers.filter (fun h => h.1 == "x-forwarded-for")).flatMap (fun h => h.2.toList.splitOn ',')

/--
The request came from the client to a trusted proxy and through trusted proxies to the server. Each
of them appended the address that it got the request from, what stands before is from the client.
-/
structure ArrivesFrom (trusted : TrustedProxies) (peer : Option IpAddr) (m : Message) (client : IpAddr)
    : Prop where
  arrived : ∃ peerIp, peer = some peerIp ∧ trusted.isTrusted peerIp = true
  untrusted : trusted.isTrusted client = false
  entries : ∃ supplied entry hops, forwardedEntries m = supplied ++ entry :: hops ∧ Spells entry client
    ∧ ∀ hop ∈ hops, ∃ ip, Spells hop ip ∧ trusted.isTrusted ip = true

def PeerTrusted (trusted : TrustedProxies) (peer : Option IpAddr) : Prop :=
  ∃ peerIp, peer = some peerIp ∧ trusted.isTrusted peerIp = true

/--
Neither the tenant nor the address of the client is chosen by forwarding headers of the client.
-/
def ForwardingSafe (trusted : TrustedProxies) (fallbackHost : Option String) (peer : Option IpAddr)
    (m : Message) : Prop :=
  (¬ PeerTrusted trusted peer → HostAlone fallbackHost m)
    ∧ ∀ client, ArrivesFrom trusted peer m client → realClientIp trusted peer m = some client

/--
The first of the entries and headers that is an address is the client's.
-/
def FirstIs (m : Message) (client : IpAddr) : Prop :=
  match xffAddress m, realIpAddress m with
  | some ip, _ => ip = client
  | none, some ip => ip = client
  | none, none => forwardedAddress m = some client

theorem extractForwardedIp_eq_iff (m : Message) (client : IpAddr)
    : extractForwardedIp m = some client ↔ FirstIs m client := by
  unfold extractForwardedIp FirstIs
  cases xffAddress m with
  | some ip => simp
  | none => cases realIpAddress m <;> simp

theorem realClientIp_iff {trusted : TrustedProxies} {peer : Option IpAddr} {m : Message}
    {client : IpAddr} (h : ArrivesFrom trusted peer m client)
    : realClientIp trusted peer m = some client ↔ FirstIs m client := by
  have ⟨peerIp, hpeer, htrusted⟩ := h.arrived
  have hclient := h.untrusted
  subst hpeer
  simp only [realClientIp, htrusted, if_true]
  rw [← extractForwardedIp_eq_iff]
  cases extractForwardedIp m with
  | some ip => simp
  | none =>
    -- the peer is a proxy and no client
    simp only [Option.none_or, Option.some.injEq, reduceCtorEq, iff_false]
    rintro rfl
    rw [hclient] at htrusted
    cases htrusted

/--
Only the route of one host is there.
-/
def routeFor (host : String) : Route :=
  ⟨host, true, true, ⟨0, "", ""⟩⟩

theorem resolveAsync_routeFor (host : String) (fallbackHost : Option String) (m : Message)
    : (resolveAsync [] [routeFor host] fallbackHost m).1.toOption.isSome
        = decide (requestHost fallbackHost m = some host) := by
  unfold resolveAsync
  cases requestHost fallbackHost m with
  | none => rfl
  | some name =>
    by_cases hname : host = name
    . simp [lookupTenant, routeFor, hname, Except.toOption]
    . simp [lookupTenant, routeFor, hname, Ne.symm hname, Except.toOption]

theorem hostAlone_iff (fallbackHost : Option String) (m : Message)
    : HostAlone fallbackHost m
        ↔ requestHost fallbackHost m = requestHost fallbackHost (withoutForwardedHost m) := by
  constructor
  . intro h
    have hroute (host : String)
        : decide (requestHost fallbackHost m = some host)
          = decide (requestHost fallbackHost (withoutForwardedHost m) = some host) := by
      rw [← resolveAsync_routeFor, ← resolveAsync_routeFor, h]
    cases hhost : requestHost fallbackHost m with
    | some host =>
      have := hroute host
      rw [hhost, decide_eq_true rfl] at this
      exact (of_decide_eq_true this.symm).symm
    | none =>
      cases hother : requestHost fallbackHost (withoutForwardedHost m) with
      | none => rfl
      | some host =>
        have := hroute host
        rw [hhost, hother] at this
        simp at this
  . intro h cache routes
    unfold resolveAsync
    rw [h]

def spoofedHost : Message :=
  ⟨.get, "/", none, [("host", "mine.example"), ("x-forwarded-host", "other.example")], []⟩

def spoofedAddress : Message :=
  ⟨.get, "/", none, [("host", "mine.example"), ("x-forwarded-for", "198.51.100.7, 203.0.113.9")], []⟩

end Reactor.Server
