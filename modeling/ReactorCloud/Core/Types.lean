import ReactorCloud.Policy.Eval

/-!
This module contains the project references of `reactor-core`, which are safe to use in URLs, and the
claims of an access token.
-/

namespace Reactor

/--
The characters of a reference, lower case letters and digits of ASCII.
-/
def isRefChar (c : Char) : Bool :=
  ('a' ≤ c && c ≤ 'z') || c.isDigit

/--
Every way to make a reference checks or ensures its length and its characters.
-/
structure ProjectRef where
  text : String
  length_eq : text.toList.length = 20
  isRefChar_of_mem : ∀ c ∈ text.toList, isRefChar c = true
  deriving DecidableEq

namespace ProjectRef

def parse (s : String) : Option ProjectRef :=
  if h : s.toList.length = 20 ∧ s.toList.all isRefChar = true then
    some ⟨s, h.1, List.all_eq_true.mp h.2⟩
  else
    none

theorem ext_text {p q : ProjectRef} (h : p.text = q.text) : p = q := by
  cases p
  cases q
  simp_all

end ProjectRef
end Reactor

/-! Claims -/

namespace Reactor.Core

structure Claims where
  sub : String
  email : Option String
  scopes : List String
  mfaAt : Option Int64

namespace Claims

def userId (c : Claims) : Option ReactorId :=
  (Rust.Str.stripPrefix "user_" c.sub).bind Rust.Uuid.parseStr

def hasScope (c : Claims) (scope : String) : Bool :=
  Permissions.matchesAny c.scopes scope

/--
The difference wraps around as `i64` does.
-/
def mfaVerifiedWithin (c : Claims) (now windowSecs : Int64) : Bool :=
  match c.mfaAt with
  | some mfaAt => now - mfaAt ≤ windowSecs
  | none => false

def requiresStepUp (c : Claims) (now windowSecs : Int64) : Bool :=
  !c.mfaVerifiedWithin now windowSecs

end Claims

structure AuthCtx where
  claims : Claims
  activeOrg : Option ReactorId
  permissions : List String

end Reactor.Core
