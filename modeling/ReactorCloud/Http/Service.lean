import ReactorCloud.Rust.Str

/-!
This module contains the requests, services and layers of a web server. A layer wraps a service: what
it does to the request is only seen by what it wraps.
-/

namespace Http

inductive Method where
  | get
  | head
  | post
  | put
  | patch
  | delete
  | other (name : String)
deriving DecidableEq, Repr

def Method.asStr : Method → String
  | .get => "GET"
  | .head => "HEAD"
  | .post => "POST"
  | .put => "PUT"
  | .patch => "PATCH"
  | .delete => "DELETE"
  | .other name => name

abbrev Bytes := List UInt8

/--
A request as it comes from the wire. The names of its headers are in lower case.
-/
structure Message where
  method : Method
  path : String
  query : Option String
  headers : List (String × String)
  body : Bytes
deriving DecidableEq, Repr

/--
A request inside of the server. The extensions are what its layers tell each other.
-/
structure Request (E : Type) extends Message where
  params : List (String × String)
  extensions : E

structure Response (B : Type) where
  status : Nat
  headers : List (String × String)
  body : Option B
deriving DecidableEq, Repr

def Response.empty {B : Type} (status : Nat) : Response B :=
  ⟨status, [], none⟩

def Response.isSuccess {B : Type} (r : Response B) : Bool :=
  200 ≤ r.status && r.status < 300

/--
`HeaderValue::to_str`, which refuses all but visible ASCII characters.
-/
def headerStr (value : String) : Option String :=
  if value.toList.all (fun c => (32 ≤ c.toNat && c.toNat < 127) || c == '\t') then
    some value
  else
    none

/--
The first value of a header.
-/
def Message.header (m : Message) (name : String) : Option String :=
  (m.headers.find? (fun h => h.1 == name)).map (·.2)

abbrev Service (M : Type → Type) (E B : Type) := Request E → M (Response B)

abbrev Layer (M : Type → Type) (E B : Type) := Service M E B → Service M E B

variable {M : Type → Type} {E B : Type}

/--
`axum::Extension` as a layer.
-/
def extension (insert : E → E) : Layer M E B :=
  fun next req => next { req with extensions := insert req.extensions }

end Http
