import Apigate.App.Build
import Apigate.Proxy
import Mathlib.Logic.Function.Basic

/-!
# `App.Dispatch` — the request handler

`proxyHandler` is what runs for one request: the generated pipeline, the policy's choice of a backend, the call
to the upstream. The state it shares with the handlers of other requests is the policies; the trace is what
others can see of it.

This is the handler of one request as if it were alone, from its first line to its last. The code is
asynchronous, and what it awaits is given: the pipeline is a function, and the client answers each request after
some time, of which the time limit is a comparison. Who else runs meanwhile is the subject of `App.Gateway`.

What a handler does is judged by what it shows. So every effect is an event in the trace, in the order of the
code: what the observer is given, what the pipeline does, each call of a policy and what it is called with, and
the request that is sent. A panic ends the trace where it is.
-/

namespace Apigate
open Lib

variable {V ρ σ : Type}

/-! ## What a handler shares and shows

The policies are shared through their `Arc`s, and a reference is an index into the application's table. -/

/-- The policies behind the `Arc`s. -/
abbrev Policies (ρ σ : Type) := PolicyRef → Policy ρ σ

/-- The policies of an application before its first request. -/
def App.initialPolicies (app : App V ρ σ) : Policies ρ σ := fun ref => app.policies[ref]?.getD .new

/-- Runtime event kinds. -/
inductive RuntimeEventKind where
  | requestStart (method : Str) (uri : Uri) (hasPipeline : Bool)
  | pipelineFailedFramework (error : ApigateFrameworkError)
  | pipelineFailedCustom (status : StatusCode)
  | dispatchFailed (error : ApigateFrameworkError)
  | backendSelected (backendIndex : Nat)
  | upstreamSucceeded (backendIndex : Nat) (status : StatusCode) (upstreamLatency : Duration)
  | upstreamFailed (backendIndex : Nat) (error : ProxyErrorKind) (upstreamLatency : Duration)

/-- Structured event emitted to the runtime observer. -/
structure RuntimeEvent where
  service : Str
  routePath : Str
  kind : RuntimeEventKind

/-- What others can see of a handler. -/
inductive DispatchEvent (V : Type) where
  | observed (event : RuntimeEvent)
  /-- Something happened in the pipeline. -/
  | pipeline (event : PipelineEvent V)
  /-- The route strategy of a policy was consulted. -/
  | routed (policy : PolicyRef)
  /-- The balancer of a policy was asked for a backend. -/
  | picked (policy : PolicyRef)
  | started (policy : PolicyRef) (event : StartEvent)
  /-- A request was handed to the upstream client. -/
  | sent (request : Request V)
  | reported (policy : PolicyRef) (event : ResultEvent)

/-- A handler panicked. -/
structure Panic where
  deriving DecidableEq

/-- Code of the handler of one request. -/
abbrev Handler (V ρ σ α : Type) := Prog (Policies ρ σ) Panic (DispatchEvent V) α

/-- The upstream client: its answer to a request, and after how long it comes. -/
abbrev Client (V : Type) := Request V → Except Unit Response × Duration

/-! ## Calls to a policy

A policy passes a call on to its strategy or its balancer, and the contexts are made of the route and the
request. -/

section
variable [RouteStrategy ρ] [Balancer σ] [Xxh3]

namespace Policy

def route (p : Policy ρ σ) (ctx : RouteCtx) (pool : BackendPool) : RoutingDecision × Policy ρ σ :=
  (RouteStrategy.route p.router ctx pool).map id ({ p with router := · })

def pick (p : Policy ρ σ) (ctx : BalanceCtx) : Option Nat × Policy ρ σ :=
  (Balancer.pick p.balancer ctx).map id ({ p with balancer := · })

def onStart (p : Policy ρ σ) (event : StartEvent) : Policy ρ σ :=
  { p with balancer := Balancer.onStart p.balancer event }

def onResult (p : Policy ρ σ) (event : ResultEvent) : Policy ρ σ :=
  { p with balancer := Balancer.onResult p.balancer event }

end Policy

/-- The context a route strategy gets. -/
def RouteMeta.routeCtx {Pipeline : Type} (routeMeta : RouteMeta Pipeline) (parts : Parts V) : RouteCtx :=
  ⟨routeMeta.service, routeMeta.servicePrefix, routeMeta.routePath, parts.method, parts.uri, parts.headers⟩

/-- The context a balancer gets. -/
def RouteMeta.balanceCtx {Pipeline : Type} (routeMeta : RouteMeta Pipeline) (routing : RoutingDecision) :
    BalanceCtx :=
  ⟨routeMeta.service, routing.affinity, routeMeta.pool, routing.candidates⟩

/-- The selection that follows from the balancer's answer. -/
def RouteMeta.backendAt {Pipeline : Type} (routeMeta : RouteMeta Pipeline) :
    Option Nat → Except ApigateCoreError (Nat × Backend)
  | none => .error .noBackendsSelectedByBalancer
  | some backendIndex =>
      match routeMeta.pool.get backendIndex with
      | some backend => .ok (backendIndex, backend)
      | none => .error .invalidBackendIndex

/-! ## The handler -/

namespace Dispatch
open Prog

/-- A call to a policy that others may share. -/
def call {α : Type} (ref : PolicyRef) (event : DispatchEvent V) (f : Policy ρ σ → α × Policy ρ σ) :
    Handler V ρ σ α := do
  tell [event]
  lift fun policies => (.ok (f (policies ref)).1, Function.update policies ref (f (policies ref)).2)

def emitRuntimeEvent (inner : Inner V) (routeMeta : RouteMeta (PipelineFn V)) (kind : RuntimeEventKind) :
    Handler V ρ σ Unit :=
  if inner.runtimeObserver then tell [.observed ⟨routeMeta.service, routeMeta.routePath, kind⟩]
  else return ()

def emitPipelineFailure (inner : Inner V) (routeMeta : RouteMeta (PipelineFn V)) (err : ApigateError) :
    Handler V ρ σ Unit :=
  match err.frameworkError with
  | some error => emitRuntimeEvent inner routeMeta (.pipelineFailedFramework error)
  | none => emitRuntimeEvent inner routeMeta (.pipelineFailedCustom err.statusCodeForLog)

/-- What the pipeline of a route does to a request; a route without one passes the body on. -/
def pipelineOutcome (inner : Inner V) (routeMeta : RouteMeta (PipelineFn V)) (parts : Parts V)
    (body : Body) : Outcome (Env V) ApigateError (PipelineEvent V) Body :=
  let env : Env V :=
    ⟨⟨routeMeta.service, routeMeta.routePath, parts⟩, .new inner.state body inner.mapBodyLimit⟩
  match routeMeta.pipeline with
  | none => ⟨.ok body, env, []⟩
  | some pipeline => pipeline env

/-- The result of the pipeline and the request head it leaves. -/
def runPipelineIfNeeded (inner : Inner V) (routeMeta : RouteMeta (PipelineFn V)) (parts : Parts V)
    (body : Body) : Handler V ρ σ (Except ApigateError Body × Parts V) := do
  let outcome := pipelineOutcome inner routeMeta parts body
  tell (outcome.trace.map .pipeline)
  return (outcome.result, outcome.state.ctx.parts)

def selectBackend (routeMeta : RouteMeta (PipelineFn V)) (parts : Parts V) :
    Handler V ρ σ (Except ApigateCoreError (Nat × Backend)) := do
  let routing ← call routeMeta.policy (.routed routeMeta.policy)
    (·.route (routeMeta.routeCtx parts) routeMeta.pool)
  let picked ← call routeMeta.policy (.picked routeMeta.policy) (·.pick (routeMeta.balanceCtx routing))
  return routeMeta.backendAt picked

/-- The result, and after how long it is there. -/
def proxyRequest (crates : Crates V) (client : Client V) (backend : Backend)
    (routeMeta : RouteMeta (PipelineFn V)) (parts : Parts V) (body : Body) :
    Handler V ρ σ (Except ProxyErrorKind Response × Duration) :=
  match upstreamRequest crates backend routeMeta parts body with
  -- rendering the template panicked
  | none => ofExcept (.error {})
  | some (.error e) => return (.error e, 0)
  | some (.ok request) => do
      tell [.sent request]
      match client request with
      | (.ok response, latency) => return (.ok (downstreamResponse response), latency)
      | (.error _, latency) => return (.error .upstreamRequest, latency)

def mapProxyErrorToFramework : ProxyErrorKind → ApigateFrameworkError
  | .noBackends => .core .noBackends
  | .invalidUpstreamUri => .core .invalidUpstreamUri
  | .upstreamRequest => .core .upstreamRequestFailed
  | .timeout => .core .upstreamRequestTimedOut

/-- The event that reports the end of an exchange to the balancer. -/
def resultEvent (routeMeta : RouteMeta (PipelineFn V)) (backendIndex : Nat)
    (result : Except ProxyErrorKind Response) (elapsed : Duration) : ResultEvent :=
  match result with
  | .ok response => ⟨routeMeta.service, backendIndex, some response.status, none, elapsed⟩
  | .error error => ⟨routeMeta.service, backendIndex, none, some error, elapsed⟩

def proxyToBackend (crates : Crates V) (client : Client V) (inner : Inner V)
    (routeMeta : RouteMeta (PipelineFn V)) (backendIndex : Nat) (backend : Backend) (parts : Parts V)
    (body : Body) : Handler V ρ σ Response := do
  let startEvent : StartEvent := ⟨routeMeta.service, backendIndex⟩
  call routeMeta.policy (.started routeMeta.policy startEvent) fun p => ((), p.onStart startEvent)
  let (result, latency) ← proxyRequest crates client backend routeMeta parts body
  -- `tokio::time::timeout` prefers a result that is there in time
  let result := if inner.requestTimeout < latency then .error .timeout else result
  let elapsed := min latency inner.requestTimeout
  let event := resultEvent routeMeta backendIndex result elapsed
  match result with
  | .ok response => do
      emitRuntimeEvent inner routeMeta (.upstreamSucceeded backendIndex response.status elapsed)
      call routeMeta.policy (.reported routeMeta.policy event) fun p => ((), p.onResult event)
      return response
  | .error error => do
      emitRuntimeEvent inner routeMeta (.upstreamFailed backendIndex error elapsed)
      call routeMeta.policy (.reported routeMeta.policy event) fun p => ((), p.onResult event)
      return (ApigateError.framework (mapProxyErrorToFramework error)).intoResponseWith inner.errorRenderer

/-- `proxy_handler` from the point where the pipeline has returned a body. -/
def forward (crates : Crates V) (client : Client V) (inner : Inner V) (routeMeta : RouteMeta (PipelineFn V))
    (parts : Parts V) (body : Body) : Handler V ρ σ Response := do
  match ← selectBackend routeMeta parts with
  | .error coreError =>
      emitRuntimeEvent inner routeMeta (.dispatchFailed (.core coreError))
      return (ApigateError.framework (.core coreError)).intoResponseWith inner.errorRenderer
  | .ok (backendIndex, backend) =>
      emitRuntimeEvent inner routeMeta (.backendSelected backendIndex)
      proxyToBackend crates client inner routeMeta backendIndex backend parts body

/-- The handler of a route for one request. -/
def proxyHandler (crates : Crates V) (client : Client V) (inner : Inner V) (routeIdx : Nat)
    (req : Request V) : Handler V ρ σ Response := do
  match inner.routeMetas[routeIdx]? with
  -- an index out of range panics
  | none => ofExcept (.error {})
  | some routeMeta =>
      emitRuntimeEvent inner routeMeta
        (.requestStart req.parts.method req.parts.uri routeMeta.pipeline.isSome)
      match ← runPipelineIfNeeded inner routeMeta req.parts req.body with
      | (.error err, _) =>
          emitPipelineFailure inner routeMeta err
          return err.intoResponseWith inner.errorRenderer
      | (.ok body, parts) => forward crates client inner routeMeta parts body

end Dispatch
end
end Apigate
