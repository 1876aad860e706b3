import Apigate.Http

/-!
# `Apigate.Backend` — upstream base URIs and backend pools
-/

namespace Apigate
open Lib

structure BaseUri where
  scheme : Str
  authority : Str
  /-- Pre-computed `"{scheme}://{authority}"`. -/
  urlPrefix : Str
  /-- Pre-computed `Host` header value. -/
  hostHeader : HeaderValue
  deriving DecidableEq

inductive BaseUriParseError where
  | invalidUri (input source : Str)
  | missingScheme (input : Str)
  | missingAuthority (input : Str)
  | invalidHostHeader (authority : Str)
  deriving DecidableEq

/-- `HeaderValue::from_str`: no control bytes except the tab. -/
def HeaderValue.fromStr (s : Str) : Option HeaderValue :=
  if s.all (fun b => (0x20 ≤ b && b != 0x7F) || b == 0x09) then some s else none

/-- `BaseUri::parse`; `parseUri` is `str::parse::<Uri>`, its error as text. -/
def BaseUri.parse (parseUri : Str → Except Str Uri) (s : Str) : Except BaseUriParseError BaseUri := do
  let uri ← match parseUri s with
    | .ok uri => .ok uri
    | .error source => .error (.invalidUri s source)
  let scheme ← match uri.scheme with
    | some scheme => .ok scheme
    | none => .error (.missingScheme s)
  let authority ← match uri.authority with
    | some authority => .ok authority
    | none => .error (.missingAuthority s)
  let hostHeader ← match HeaderValue.fromStr authority with
    | some value => .ok value
    | none => .error (.invalidHostHeader authority)
  return ⟨scheme, authority, scheme ++ str "://" ++ authority, hostHeader⟩

/-- A configured upstream backend. -/
structure Backend where
  base : BaseUri
  deriving DecidableEq

/-- Immutable collection of upstream backends for one service. -/
structure BackendPool where
  backends : List Backend
  deriving DecidableEq

namespace BackendPool

def new (bases : List BaseUri) : BackendPool := ⟨bases.map Backend.mk⟩

def len (p : BackendPool) : Nat := p.backends.length

/-- A backend by stable pool index. -/
def get (p : BackendPool) (index : Nat) : Option Backend := p.backends[index]?

theorem get_isSome {p : BackendPool} {i : Nat} : (p.get i).isSome = true ↔ i < p.len := by
  simp [get, len]

end BackendPool
end Apigate
