import Apigate.Balancing

/-!
# `Apigate.Policy` — routing and balancing policies

`Arc<dyn RouteStrategy>` and `Arc<dyn Balancer>` are tagged unions of the built-in implementations and one
custom type each.

With unions instead of trait objects a policy is data: its state can be compared, and a theorem about
least-request can say that the balancer is that one. The custom types are parameters, with the traits as
classes, so that whatever is proved of policies holds next to implementations that are not known.
-/

namespace Apigate
open Lib

/-- A boxed route strategy; `ρ` is the state of the custom ones. -/
inductive DynRouter (ρ : Type) where
  | noRouteKey (s : NoRouteKey)
  | headerSticky (s : HeaderSticky)
  | pathSticky (s : PathSticky)
  | custom (s : ρ)
  deriving DecidableEq

/-- A boxed balancer; `σ` is the state of the custom ones. -/
inductive DynBalancer (σ : Type) where
  | roundRobin (s : RoundRobin)
  | consistentHash (s : ConsistentHash)
  | leastRequest (s : LeastRequest)
  | leastTime (s : LeastTime)
  | custom (s : σ)
  deriving DecidableEq

/-- `xxhash_rust::xxh3::xxh3_64`, a function outside the repository. -/
class Xxh3 where
  xxh3 : Str → UInt64

/-- A stand-in that hashes a key to its length. -/
@[reducible] def Xxh3.length : Xxh3 := ⟨fun key => UInt64.ofNat key.length⟩

instance [Xxh3] : Balancer ConsistentHash where
  pick := ConsistentHash.pick Xxh3.xxh3

section
variable {ρ σ : Type} [RouteStrategy ρ] [Balancer σ] [Xxh3]

open RouteStrategy Balancer

instance : RouteStrategy (DynRouter ρ) where
  route
    | .noRouteKey s, ctx, pool => (route s ctx pool).map id .noRouteKey
    | .headerSticky s, ctx, pool => (route s ctx pool).map id .headerSticky
    | .pathSticky s, ctx, pool => (route s ctx pool).map id .pathSticky
    | .custom s, ctx, pool => (route s ctx pool).map id .custom

instance : Balancer (DynBalancer σ) where
  pick
    | .roundRobin s, ctx => (pick s ctx).map id .roundRobin
    | .consistentHash s, ctx => (pick s ctx).map id .consistentHash
    | .leastRequest s, ctx => (pick s ctx).map id .leastRequest
    | .leastTime s, ctx => (pick s ctx).map id .leastTime
    | .custom s, ctx => (pick s ctx).map id .custom
  onStart
    | .roundRobin s, event => .roundRobin (onStart s event)
    | .consistentHash s, event => .consistentHash (onStart s event)
    | .leastRequest s, event => .leastRequest (onStart s event)
    | .leastTime s, event => .leastTime (onStart s event)
    | .custom s, event => .custom (onStart s event)
  onResult
    | .roundRobin s, event => .roundRobin (onResult s event)
    | .consistentHash s, event => .consistentHash (onResult s event)
    | .leastRequest s, event => .leastRequest (onResult s event)
    | .leastTime s, event => .leastTime (onResult s event)
    | .custom s, event => .custom (onResult s event)

end

/-- Routing and balancing policy applied to one or more routes. -/
structure Policy (ρ σ : Type) where
  router : DynRouter ρ
  balancer : DynBalancer σ
  deriving DecidableEq

namespace Policy

variable {ρ σ : Type}

/-- Default policy: `NoRouteKey + RoundRobin`. -/
def new : Policy ρ σ := ⟨.noRouteKey {}, .roundRobin .new⟩

def headerSticky (header : Str) : Policy ρ σ := ⟨.headerSticky ⟨header⟩, .consistentHash .new⟩

def pathSticky (param : Str) : Policy ρ σ := ⟨.pathSticky ⟨param⟩, .consistentHash .new⟩

def consistentHash : Policy ρ σ := { (new : Policy ρ σ) with balancer := .consistentHash .new }

def leastRequest : Policy ρ σ := { (new : Policy ρ σ) with balancer := .leastRequest .new }

def leastTime : Policy ρ σ := { (new : Policy ρ σ) with balancer := .leastTime .new }

def roundRobin : Policy ρ σ := { (new : Policy ρ σ) with balancer := .roundRobin .new }

end Policy
end Apigate
