import Apigate.App.Build

/-!
# `App.Calls` — sequences of builder calls

A gateway is configured by a sequence of calls on the builder. What such a sequence says is read off it
without running it: the collections it mounts, the backend URLs it registers, and the policies it hands over, each
kind in its own order.
-/

namespace Apigate
open Lib

variable {V ρ σ : Type}

/-! ## Calls -/

namespace AppBuilder

def setRequestTimeout (b : AppBuilder V ρ σ) (d : Duration) : AppBuilder V ρ σ := { b with requestTimeout := d }

def setMapBodyLimit (b : AppBuilder V ρ σ) (bytes : Nat) : AppBuilder V ρ σ := { b with mapBodyLimit := bytes }

def setState (b : AppBuilder V ρ σ) (ty : TypeId) (val : V) : AppBuilder V ρ σ :=
  { b with state := b.state.insert ty val }

def setErrorRenderer (b : AppBuilder V ρ σ) (renderer : ErrorRenderer) : AppBuilder V ρ σ :=
  { b with errorRenderer := renderer }

/-- `runtime_observer`, `enable_default_tracing` and `disable_runtime_observer`. -/
def setRuntimeObserver (b : AppBuilder V ρ σ) (enabled : Bool) : AppBuilder V ρ σ :=
  { b with runtimeObserver := enabled }

end AppBuilder

/-- A call on the builder. -/
inductive BuilderCall (V ρ σ : Type) where
  | backend (service : Str) (urls : List Str)
  | policy (name : Str) (policy : Policy ρ σ)
  | defaultPolicy (policy : Policy ρ σ)
  | mount (routes : Routes (PipelineFn V))
  | mountService (routes : Routes (PipelineFn V)) (urls : List Str)
  | requestTimeout (d : Duration)
  | mapBodyLimit (bytes : Nat)
  | state (ty : TypeId) (val : V)
  | errorRenderer (renderer : ErrorRenderer)
  | runtimeObserver (enabled : Bool)
  /-- A call that configures the upstream client only, of which nothing is modelled. -/
  | upstream

namespace BuilderCall

def apply (b : AppBuilder V ρ σ) : BuilderCall V ρ σ → AppBuilder V ρ σ
  | backend service urls => b.backend service urls
  | policy name p => b.policy name p
  | defaultPolicy p => b.setDefaultPolicy p
  | mount routes => b.mount routes
  | mountService routes urls => b.mountService routes urls
  | requestTimeout d => b.setRequestTimeout d
  | mapBodyLimit bytes => b.setMapBodyLimit bytes
  | state ty val => b.setState ty val
  | errorRenderer renderer => b.setErrorRenderer renderer
  | runtimeObserver enabled => b.setRuntimeObserver enabled
  | upstream => b

/-- The collection that a call mounts. -/
def mounts? : BuilderCall V ρ σ → Option (Routes (PipelineFn V))
  | mount routes | mountService routes _ => some routes
  | _ => none

/-- The backend URLs that a call registers, and for which service. -/
def registers? : BuilderCall V ρ σ → Option (Str × List Str)
  | backend service urls => some (service, urls)
  | mountService routes urls => some (routes.service, urls)
  | _ => none

/-- The policy that a call hands over, and its name; the fallback policy has none. -/
def hands? : BuilderCall V ρ σ → Option (Option Str × Policy ρ σ)
  | policy name p => some (some name, p)
  | defaultPolicy p => some (none, p)
  | _ => none

/-! What a call does to the builder is said by these three. -/

section
variable (b : AppBuilder V ρ σ) (call : BuilderCall V ρ σ)

theorem apply_mounted : (call.apply b).mounted = b.mounted ++ call.mounts?.toList := by
  cases call <;> first | rfl | exact (List.append_nil _).symm

theorem apply_backends :
    (call.apply b).backends = call.registers?.toList.foldl (fun m e => m.insert e.1 e.2) b.backends := by
  cases call <;> rfl

theorem apply_arcs : (call.apply b).arcs = b.arcs ++ call.hands?.toList.map Prod.snd := by
  cases call <;> first | rfl | exact (List.append_nil _).symm

theorem apply_defaultPolicy :
    (call.apply b).defaultPolicy =
      match call.hands? with
      | some (none, _) => b.arcs.length
      | _ => b.defaultPolicy := by
  cases call <;> rfl

theorem apply_policies :
    (call.apply b).policies =
      match call.hands? with
      | some (some name, _) => b.policies.insert name b.arcs.length
      | _ => b.policies := by
  cases call <;> rfl

end

end BuilderCall

/-- The builder after a sequence of calls. -/
def AppBuilder.ofCalls (calls : List (BuilderCall V ρ σ)) : AppBuilder V ρ σ := calls.foldl BuilderCall.apply .new

/-! ## What a sequence of calls says -/

section
variable (calls : List (BuilderCall V ρ σ))

/-- The collections that are mounted, in order. -/
def collections : List (Routes (PipelineFn V)) := calls.filterMap BuilderCall.mounts?

/-- The route definitions that are mounted, each with its collection, in order. -/
def definitionsOf (mounted : List (Routes (PipelineFn V))) :
    List (Routes (PipelineFn V) × RouteDef (PipelineFn V)) :=
  mounted.flatMap fun routes => routes.routes.map (routes, ·)

def definitions : List (Routes (PipelineFn V) × RouteDef (PipelineFn V)) := definitionsOf (collections calls)

/-- The registrations of backend URLs, in order. -/
def registrations : List (Str × List Str) := calls.filterMap BuilderCall.registers?

/-- The URLs registered last for a service name. -/
def registeredUrls (service : Str) : Option (List Str) := MultiMap.latest? (registrations calls) service

/-- The policies in the order in which they are handed over; the first is the builder's own fallback. -/
def handedOver : List (Option Str × Policy ρ σ) := (none, Policy.roundRobin) :: calls.filterMap BuilderCall.hands?

/-- The policy registered last under a name, or as the fallback. -/
def registeredPolicy (name : Option Str) : Option PolicyRef :=
  MultiMap.latest? ((handedOver calls).map Prod.fst).zipIdx name

end

end Apigate
