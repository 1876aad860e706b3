import Apigate.Backend
import Apigate.Lib.Segments

/-!
# `Apigate.Routing` — route strategies: affinity keys and candidate sets
-/

namespace Apigate
open Lib Text Segments

/-- Request context passed to route-key strategies. -/
structure RouteCtx where
  service : Str
  servicePrefix : Str
  routePath : Str
  method : Str
  uri : Uri
  headers : HeaderMap

abbrev AffinityKey := Str

/-- Backend candidates selected by a route strategy. -/
inductive CandidateSet where
  | all
  | indices (indices : List Nat)
  deriving DecidableEq

structure RoutingDecision where
  affinity : Option AffinityKey
  candidates : CandidateSet
  deriving DecidableEq

/-- The trait `RouteStrategy`; the state is what an implementation keeps behind `&self`. -/
class RouteStrategy (ρ : Type) where
  route : ρ → RouteCtx → BackendPool → RoutingDecision × ρ

/-- No affinity key, every backend eligible. -/
structure NoRouteKey where
  deriving DecidableEq

instance : RouteStrategy NoRouteKey where
  route s _ _ := (⟨none, .all⟩, s)

/-- A request header as the affinity key. -/
structure HeaderSticky where
  header : Str
  deriving DecidableEq

instance : RouteStrategy HeaderSticky where
  route s ctx _ :=
    let affinity := do
      let name ← HeaderName.fromBytes s.header
      let value ← ctx.headers.get? name
      value.toStr
    (⟨affinity, .all⟩, s)

/-- A path parameter as the affinity key. -/
structure PathSticky where
  param : Str
  deriving DecidableEq

/-- The name in a `{name}` segment. -/
def bracedName (tmpl : Str) : Option Str := do
  let inner ← stripPrefix? (str "\x7b") tmpl
  if endsWith inner closeBrace then some inner.dropLast else none

/-- The loop of `extract_param`: walk the template and the path segments side by side. -/
def extractLoop (param : Str) : List Str → List Str → Option Str
  | [], _ => none
  | _ :: _, [] => none
  | tmpl :: tmpls, value :: values =>
      if bracedName tmpl = some param then some value else extractLoop param tmpls values

def extractParam (routePath servicePrefix uriPath param : Str) : Option Str :=
  let stripped := (stripPrefix? servicePrefix uriPath).getD uriPath
  extractLoop param (nonEmptySegs slash routePath) (nonEmptySegs slash stripped)

instance : RouteStrategy PathSticky where
  route s ctx _ := (⟨extractParam ctx.routePath ctx.servicePrefix ctx.uri.path s.param, .all⟩, s)

end Apigate
