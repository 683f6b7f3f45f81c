import Mathlib.Data.List.Sort
import ReactorCloud.Http.Pattern
import ReactorCloud.Rust.Json
import ReactorCloud.Rust.Str
import ReactorCloud.Rust.Uuid

/-!
This module contains the routes of a deployment, how they are put into a router and what is decided when one of
them matches. The router and `char::is_alphanumeric` are parameters.
-/

namespace Reactor.Sites

open Http.Pattern (PatternRouter InsertError)
open Rust (Json Uuid)

structure DeploymentRoute where
  pattern : String
  methodFilter : Option String
  routeKind : String
  targetRef : String
  cacheRulesJson : Json
  priority : Int

/-! ## Patterns -/

/--
A tail is any or one that is not empty.
-/
inductive Piece where
  | lit (c : Char)
  | param (name : List Char)
  | tail (name : List Char) (nonempty : Bool)
  deriving DecidableEq, Repr

/--
The name after a colon, the sign of a catch-all and the rest.
-/
def paramName (alphanumeric : Char → Bool) : List Char → List Char × Option Char × List Char
  | [] => ([], none, [])
  | c :: cs =>
    if alphanumeric c || c == '_' then
      let (name, sign, rest) := paramName alphanumeric cs
      (c :: name, sign, rest)
    else if c == '*' || c == '+' then
      ([], some c, cs)
    else
      ([], none, c :: cs)

/--
The pieces of a pattern of at most `fuel` characters.
-/
def piecesOf (alphanumeric : Char → Bool) : Nat → List Char → List Piece
  | 0, _ => []
  | _, [] => []
  | fuel + 1, c :: cs =>
    if c == ':' then
      match paramName alphanumeric cs with
      | (name, none, rest) => .param name :: piecesOf alphanumeric fuel rest
      | (name, some sign, rest) => .tail name (sign == '+') :: piecesOf alphanumeric fuel rest
    else if c == '*' then
      .tail "rest".toList false :: piecesOf alphanumeric fuel cs
    else
      .lit c :: piecesOf alphanumeric fuel cs

def pieces (alphanumeric : Char → Bool) (pattern : String) : List Piece :=
  piecesOf alphanumeric pattern.length pattern.toList

def Piece.render : Piece → List Char
  | .lit c => [c]
  | .param name => '\x7b' :: name ++ ['\x7d']
  | .tail name _ => '\x7b' :: '*' :: name ++ ['\x7d']

def convertPattern (alphanumeric : Char → Bool) (pattern : String) : String :=
  String.ofList ((pieces alphanumeric pattern).flatMap Piece.render)

example : convertPattern Char.isAlphanum "/users/:id/files/:path*" = "/users/\x7bid\x7d/files/\x7b*path\x7d" := by
  decide

/-! ## Matching -/

structure RouteData where
  kind : String
  target : String
  cacheRules : Json
  priority : Int

structure RouteEntry where
  pattern : String
  index : Nat
  methods : Option (List String)
  data : RouteData

def eqIgnoreAsciiCase (s t : String) : Bool :=
  s.toList.map Char.toLower == t.toList.map Char.toLower

def RouteEntry.admits (entry : RouteEntry) (method : String) : Bool :=
  entry.methods.all (·.any (eqIgnoreAsciiCase · method))

section Matcher

variable (M : PatternRouter) (alphanumeric : Char → Bool)

structure RouteMatcher where
  router : M.Router
  routes : List RouteEntry

/--
The parameters are in the order in which the map goes through them.
-/
structure RouteMatch where
  entry : RouteEntry
  params : List (String × String)

variable {M}

def RouteMatcher.new : RouteMatcher M :=
  ⟨M.new, []⟩

def RouteMatcher.addRoute (m : RouteMatcher M) (pattern : String) (methods : Option (List String)) (data : RouteData)
    : Except InsertError (RouteMatcher M) :=
  let index := m.routes.length
  match M.insert m.router (convertPattern alphanumeric pattern) index with
  | .ok router => .ok ⟨router, m.routes ++ [⟨pattern, index, methods, data⟩]⟩
  | .error e => .error e

def RouteMatcher.matchRoute (m : RouteMatcher M) (path method : String) : Option RouteMatch := do
  let (index, params) ← M.lookup m.router path
  let entry ← m.routes[index]?
  if entry.admits method then some ⟨entry, params⟩ else none

end Matcher

/-! ## Decisions -/

/--
The JSON of the cache rules is read into the header when the file is served.
-/
inductive RouteDecision where
  | staticFile (storageKey : String) (cache : Json)
  | function (functionId : Uuid) (functionName : String) (subPath : String)
  | redirect (location : String) (status : UInt16) (permanent : Bool)
  | prerender (storageKey : String) (revalidateAfter : Option Nat) (fallback : Option RouteDecision)
  | notFound

def asU64 : Json → Option Nat
  | .number (.posInt n) => some n.toNat
  | _ => none

/--
`str::replace` of a pattern that is not empty. The first `skip` characters have been replaced already.
-/
def replaceFrom (pattern sub : List Char) : Nat → List Char → List Char
  | _, [] => []
  | skip + 1, _ :: cs => replaceFrom pattern sub skip cs
  | 0, c :: cs =>
    if pattern.isPrefixOf (c :: cs) then
      sub ++ replaceFrom pattern sub (pattern.length - 1) cs
    else
      c :: replaceFrom pattern sub 0 cs

def replace (pattern sub s : List Char) : List Char :=
  replaceFrom pattern sub 0 s

def expandTarget (target : String) (params : List (String × String)) : String :=
  String.ofList (params.foldl (fun result (key, value) =>
    replace (':' :: key.toList) value.toList (replace ('$' :: key.toList) value.toList result)) target.toList)

def param (params : List (String × String)) (name : String) : Option String :=
  params.lookup name

section Resolver

variable (M : PatternRouter)

structure RouteResolver where
  matcher : RouteMatcher M
  functionMap : List (String × Uuid)

variable {M}

/--
Routes of the same priority keep their order.
-/
def sortRoutes (routes : List DeploymentRoute) : List DeploymentRoute :=
  routes.insertionSort (fun a b => b.priority ≤ a.priority)

def DeploymentRoute.methods (route : DeploymentRoute) : Option (List String) :=
  route.methodFilter.map fun filter => (Rust.Str.splitOnChar ',' filter).map Rust.Str.trim

def DeploymentRoute.data (route : DeploymentRoute) : RouteData :=
  ⟨route.routeKind, route.targetRef, route.cacheRulesJson, route.priority⟩

def addRoutes (alphanumeric : Char → Bool) : List DeploymentRoute → RouteMatcher M
    → Except InsertError (RouteMatcher M)
  | [], m => .ok m
  | route :: routes, m =>
    match m.addRoute alphanumeric route.pattern route.methods route.data with
    | .ok m => addRoutes alphanumeric routes m
    | .error e => .error e

namespace RouteResolver

def fromRoutes (alphanumeric : Char → Bool) (routes : List DeploymentRoute) (functionMap : List (String × Uuid))
    : Except InsertError (RouteResolver M) :=
  match addRoutes alphanumeric (sortRoutes routes) RouteMatcher.new with
  | .ok matcher => .ok ⟨matcher, functionMap⟩
  | .error e => .error e

def functionId (resolver : RouteResolver M) (target : String) : Uuid :=
  (resolver.functionMap.lookup target).getD 0

def fallback (resolver : RouteResolver M) (params : List (String × String)) (f : Json) : RouteDecision :=
  let kind := ((f.get "kind").bind Json.asStr).getD "function"
  let target := ((f.get "target").bind Json.asStr).getD ""
  if kind == "function" then
    .function (resolver.functionId target) target ((param params "path").getD "")
  else
    .notFound

def isObject : Json → Bool
  | .object _ => true
  | _ => false

def buildDecision (resolver : RouteResolver M) (matched : RouteMatch) : RouteDecision :=
  let data := matched.entry.data
  match data.kind with
  | "static" => .staticFile (expandTarget data.target matched.params) data.cacheRules
  | "function" =>
    .function (resolver.functionId data.target) data.target
      (((param matched.params "path").or (param matched.params "rest")).getD "")
  | "redirect" =>
    let status := (((data.cacheRules.get "status").bind asU64).getD 302).toUInt16
    .redirect (expandTarget data.target matched.params) status (status == 301 || status == 308)
  | "prerender" =>
    .prerender (expandTarget data.target matched.params) ((data.cacheRules.get "revalidate").bind asU64)
      (((data.cacheRules.get "fallback").filter isObject).map (resolver.fallback matched.params))
  | _ => .notFound

def resolve (resolver : RouteResolver M) (path method : String) : RouteDecision :=
  match resolver.matcher.matchRoute path method with
  | some matched => resolver.buildDecision matched
  | none => .notFound

end RouteResolver

end Resolver

end Reactor.Sites
