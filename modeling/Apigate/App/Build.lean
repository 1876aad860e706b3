import Apigate.Policy
import Apigate.Macros.Codegen

/-!
# `App.Build` — the builder: backend pools, the route table, shared policies

`build` turns the registrations into the route table that the handlers index. An `Arc<Policy>` is an index
into the policies handed to the builder: two routes with one index share one policy and its state.
-/

namespace Apigate
open Lib Text

variable {V ρ σ : Type}

/-- The builder. `arcs` are the policies allocated so far. -/
structure AppBuilder (V ρ σ : Type) where
  backends : MultiMap Str (List Str)
  mounted : List (Routes (PipelineFn V))
  arcs : List (Policy ρ σ)
  policies : MultiMap Str PolicyRef
  defaultPolicy : PolicyRef
  requestTimeout : Duration
  mapBodyLimit : Nat
  state : Extensions V
  errorRenderer : ErrorRenderer
  /-- Whether a runtime observer is set. -/
  runtimeObserver : Bool

/-- What the handlers share. -/
structure Inner (V : Type) where
  state : Extensions V
  mapBodyLimit : Nat
  requestTimeout : Duration
  routeMetas : List (RouteMeta (PipelineFn V))
  errorRenderer : ErrorRenderer
  runtimeObserver : Bool

/-- A handler installed in the router: `proxy_handler` with this route index. -/
structure RouteEntry where
  method : Method
  path : Str
  routeIdx : Nat
  deriving DecidableEq

/-- The built application; `policies` are the initial states behind the `Arc`s. -/
structure App (V ρ σ : Type) where
  router : List RouteEntry
  inner : Inner V
  policies : List (Policy ρ σ)

namespace AppBuilder

/-- Default timeouts, round-robin policy, no runtime observer. -/
def new : AppBuilder V ρ σ :=
  { backends := .empty
    mounted := []
    arcs := [Policy.roundRobin]
    policies := .empty
    defaultPolicy := 0
    requestTimeout := 30 * 1000000000
    mapBodyLimit := 2 * 1024 * 1024
    state := .empty
    errorRenderer := defaultErrorRenderer
    runtimeObserver := false }

/-- Registers backend URLs for a service name. -/
def backend (b : AppBuilder V ρ σ) (service : Str) (urls : List Str) : AppBuilder V ρ σ :=
  { b with backends := b.backends.insert service urls }

/-- Registers a named policy. -/
def policy (b : AppBuilder V ρ σ) (name : Str) (p : Policy ρ σ) : AppBuilder V ρ σ :=
  { b with arcs := b.arcs ++ [p], policies := b.policies.insert name b.arcs.length }

/-- Sets the fallback policy used by routes without an explicit policy. -/
def setDefaultPolicy (b : AppBuilder V ρ σ) (p : Policy ρ σ) : AppBuilder V ρ σ :=
  { b with arcs := b.arcs ++ [p], defaultPolicy := b.arcs.length }

/-- Mounts a macro-generated service route collection. -/
def mount (b : AppBuilder V ρ σ) (routes : Routes (PipelineFn V)) : AppBuilder V ρ σ :=
  { b with mounted := b.mounted ++ [routes] }

/-- Registers backend URLs for `routes.service` and mounts these routes. -/
def mountService (b : AppBuilder V ρ σ) (routes : Routes (PipelineFn V)) (urls : List Str) :
    AppBuilder V ρ σ :=
  { b with backends := b.backends.insert routes.service urls, mounted := b.mounted ++ [routes] }

end AppBuilder

/-! ## Paths and policies -/

/-- Joins a service prefix and a route path; slashes at the end of the prefix are dropped. -/
def join (servicePrefix path : Str) : Str :=
  (if endsWith servicePrefix slash then trimEndMatches slash servicePrefix else servicePrefix) ++
    (if startsWith path (str "/") then path else slash :: path)

/-- The policy of a route: route over service over default. -/
def resolvePolicy (servicePolicy routePolicy : Option Str) (registry : MultiMap Str PolicyRef)
    (defaultPolicy : PolicyRef) : Except ApigateBuildError PolicyRef :=
  match routePolicy.or servicePolicy with
  | some name =>
      match registry.get? name with
      | some policy => .ok policy
      | none => .error (.policyNotRegistered name)
  | none => .ok defaultPolicy

/-! ## Building -/

/-- A build step may panic, fail, or go on. -/
abbrev Build (α : Type) := ExceptT ApigateBuildError Option α

/-- A panic, unless there is a value. -/
def orPanic {α : Type} (x : Checked α) : Build α := (x.map .ok : Option (Except ApigateBuildError α))

/-- The backend pool of one service. -/
def buildPool (crates : Crates V) (service : Str) (urls : List Str) :
    Except ApigateBuildError BackendPool := do
  let bases ← urls.mapM fun url =>
    (BaseUri.parse crates.parseUri url).mapError (.invalidBackendUri service url)
  return BackendPool.new bases

/-- The pools of all registered services. -/
def buildPools (crates : Crates V) (backends : MultiMap Str (List Str)) :
    Except ApigateBuildError (MultiMap Str BackendPool) :=
  backends.entries.foldlM (fun pools (service, urls) => do
    let pool ← buildPool crates service urls
    return pools.insert service pool) .empty

/-- The router and the route table while they are being built. -/
structure Mounted (V : Type) where
  router : List RouteEntry
  routeMetas : List (RouteMeta (PipelineFn V))

/-- The rewrite strategy of a route. -/
def RewriteSpec.toRewrite (crates : Crates V) : RewriteSpec → Checked Rewrite
  | .stripPrefix => some .stripPrefix
  | .static target => do
      let fixed ← FixedRewrite.new crates.pathAndQueryFromStatic target
      some (.static fixed)
  | .template tpl => some (.template tpl)

/-- The token of a method. -/
def Method.name : Method → Str
  | .get => str "GET"
  | .post => str "POST"
  | .put => str "PUT"
  | .delete => str "DELETE"
  | .patch => str "PATCH"
  | .head => str "HEAD"
  | .options => str "OPTIONS"

/-- Mounts one route of a collection. -/
def mountRoute (crates : Crates V) (routes : Routes (PipelineFn V)) (policies : MultiMap Str PolicyRef)
    (defaultPolicy : PolicyRef) (pool : BackendPool) (st : Mounted V) (rd : RouteDef (PipelineFn V)) :
    Build (Mounted V) := do
  let fullPath := join routes.servicePrefix rd.path
  let policy ← liftExcept (resolvePolicy routes.policy rd.policy policies defaultPolicy)
  let rewrite ← orPanic (rd.rewrite.toRewrite crates)
  let routeMeta : RouteMeta (PipelineFn V) :=
    ⟨routes.service, rd.path, routes.servicePrefix, rewrite, pool, policy, rd.pipeline⟩
  let routeIdx := st.routeMetas.length
  -- `Router::route` panics on a path that conflicts with another
  let known := st.router.map fun entry => (entry.method.name, entry.path)
  orPanic (if crates.routeAccepted known (rd.method.name, fullPath) then some () else none)
  return ⟨st.router ++ [⟨rd.method, fullPath, routeIdx⟩], st.routeMetas ++ [routeMeta]⟩
where
  /-- An error stops the build. -/
  liftExcept {α : Type} (x : Except ApigateBuildError α) : Build α := (some x : Option _)

/-- Mounts the routes of a collection. -/
def mountRoutes (crates : Crates V) (routes : Routes (PipelineFn V)) (policies : MultiMap Str PolicyRef)
    (defaultPolicy : PolicyRef) (pool : BackendPool) (st : Mounted V) : Build (Mounted V) :=
  routes.routes.foldlM (mountRoute crates routes policies defaultPolicy pool) st

/-- Mounts a collection on the pool of its service. -/
def mountCollection (crates : Crates V) (pools : MultiMap Str BackendPool)
    (policies : MultiMap Str PolicyRef) (defaultPolicy : PolicyRef) (st : Mounted V)
    (routes : Routes (PipelineFn V)) : Build (Mounted V) := do
  match pools.get? routes.service with
  | none => throw (.backendNotRegistered routes.service)
  | some pool => mountRoutes crates routes policies defaultPolicy pool st

/-- Builds the gateway application. -/
def AppBuilder.build (crates : Crates V) (b : AppBuilder V ρ σ) : Build (App V ρ σ) := do
  let pools ← (some (buildPools crates b.backends) : Option _)
  let mounted ← b.mounted.foldlM (mountCollection crates pools b.policies b.defaultPolicy) ⟨[], []⟩
  return ⟨mounted.router,
    ⟨b.state, b.mapBodyLimit, b.requestTimeout, mounted.routeMetas, b.errorRenderer, b.runtimeObserver⟩,
    b.arcs⟩

end Apigate
