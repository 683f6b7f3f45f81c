import ReactorCloud.Rust.Json
import ReactorCloud.Rust.Str

/-!
This module contains how a Caddy server answers a request from the JSON of its routes: they are tried in
their order, and a terminal one is the last.
-/

namespace Caddy

open Rust (Json)

def lower (s : String) : String :=
  String.ofList (s.toList.map Char.toLower)

/-! ## Hosts -/

def labels (host : String) : List String :=
  Rust.Str.splitOnChar '.' host

/--
A `*` of a pattern stands for one label.
-/
def labelsMatch : List String → List String → Bool
  | [], [] => true
  | p :: ps, l :: ls => (p == "*" || lower p == lower l) && labelsMatch ps ls
  | _, _ => false

def hostMatches (pattern host : String) : Bool :=
  labelsMatch (labels pattern) (labels host)

def wildcards (pattern : String) : Nat :=
  (labels pattern).count "*"

theorem labels_star : labels "*" = ["*"] := by
  decide

theorem labelsMatch_star (ls : List String) : labelsMatch ["*"] ls = true ↔ ls.length = 1 := by
  cases ls with
  | nil => simp [labelsMatch]
  | cons l ls => cases ls <;> simp [labelsMatch]

/--
The pattern of one `*` only matches hosts of one label.
-/
theorem hostMatches_star (host : String) : hostMatches "*" host = true ↔ (labels host).length = 1 := by
  rw [hostMatches, labels_star]
  exact labelsMatch_star (labels host)

/-! ## Routes -/

/--
The names of the headers are in lower case.
-/
structure Request where
  host : String
  headers : List (String × String)
deriving DecidableEq

/--
A request as a backend receives it. One of the addresses is dialled.
-/
structure Forward where
  upstreams : List String
  headers : List (String × String)
deriving DecidableEq

def valuesOf (name : String) (headers : List (String × String)) : List String :=
  (headers.filter (·.1 == name)).map (·.2)

def setHeader (name : String) (values : List String) (headers : List (String × String))
    : List (String × String) :=
  headers.filter (·.1 != lower name) ++ values.map (fun v => (lower name, v))

theorem valuesOf_setHeader_self {name : String} {values : List String}
    {headers : List (String × String)} : valuesOf (lower name) (setHeader name values headers) = values := by
  have hnone : (headers.filter (·.1 != lower name)).filter (·.1 == lower name) = [] := by
    rw [List.filter_filter, List.filter_eq_nil_iff]
    intro h _
    simp
  rw [valuesOf, setHeader, List.filter_append, hnone, List.nil_append, List.filter_eq_self.mpr]
  . simp
  . intro h hmem
    obtain ⟨v, _, rfl⟩ := List.mem_map.mp hmem
    simp

/--
A proxy answers the request, the other handlers pass it on.
-/
inductive Handler where
  | reverseProxy (upstreams : List String) (set : List (String × List String))
  | passes (name : String)
deriving DecidableEq

structure Route where
  hosts : List String
  handle : List Handler
  terminal : Bool
deriving DecidableEq

def Route.hit (r : Route) (req : Request) : Bool :=
  r.hosts.any (hostMatches · req.host)

def forward : List Handler → Request → Option Forward
  | [], _ => none
  | .passes _ :: hs, req => forward hs req
  | .reverseProxy upstreams set :: _, req =>
    some ⟨upstreams, set.foldl (fun headers (name, values) => setHeader name values headers) req.headers⟩

def serve : List Route → Request → Option Forward
  | [], _ => none
  | r :: rs, req =>
    if r.hit req then
      match forward r.handle req with
      | some f => some f
      | none => if r.terminal then none else serve rs req
    else
      serve rs req

/--
Where every route has an answer, the first one that matches gives it.
-/
theorem serve_eq {rs : List Route} {req : Request} (h : ∀ r ∈ rs, (forward r.handle req).isSome = true)
    : serve rs req = (rs.find? (·.hit req)).bind (fun r => forward r.handle req) := by
  induction rs with
  | nil => rfl
  | cons r rs ih =>
    rw [serve, List.find?_cons]
    cases r.hit req with
    | true =>
      obtain ⟨f, hf⟩ := Option.isSome_iff_exists.mp (h r List.mem_cons_self)
      simp [hf]
    | false =>
      simp only [Bool.false_eq_true, if_false]
      apply ih
      intro r' hr'
      exact h r' (List.mem_cons_of_mem _ hr')

/-! ## The JSON of a route -/

def strings (j : Json) : Option (List String) := do
  (← j.asArray).mapM Json.asStr

def Handler.ofJson (j : Json) : Option Handler := do
  let name ← (← j.get "handler").asStr
  if name = "reverse_proxy" then
    let upstreams ← (← (← j.get "upstreams").asArray).mapM (fun u => (u.get "dial").bind Json.asStr)
    let set :=
      match ((j.get "headers").bind (Json.get "request")).bind (Json.get "set") with
      | some (.object members) => members
      | _ => []
    let set ← set.mapM (fun (name, values) => (strings values).map (fun values => (name, values)))
    pure (.reverseProxy upstreams set)
  else
    pure (.passes name)

/--
The hosts of all the sets of matchers, of which one has to match.
-/
def Route.ofJson (j : Json) : Option Route := do
  let hosts ← (← (← j.get "match").asArray).mapM (fun m => (m.get "host").bind strings)
  let handle ← (← (← j.get "handle").asArray).mapM Handler.ofJson
  pure ⟨hosts.flatten, handle, ((j.get "terminal").bind Json.asBool).getD false⟩

end Caddy
