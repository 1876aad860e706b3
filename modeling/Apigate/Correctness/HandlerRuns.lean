import Apigate.App.Watched
import Apigate.Correctness.Handler

/-!
# `Correctness.HandlerRuns` — the runs of a handler, event by event

One equation for each way a handler can go: its response, what it leaves in the policies, and everything it
shows, in order. Results about the observer and the response are read off these.

The handler is a long program with five places where it can end: the pipeline fails, no backend is selected, the
upstream request cannot be built without a panic, the exchange times out, or the exchange ends. Its definition
follows the source statement by statement, which is what makes it checkable and unpleasant to reason about. Here
each of the five is computed once:

* `proxyHandler_of_error` and `proxyHandler_of_ok` split at the end of the pipeline;
* `forward_of_error` and `forward_of_ok` split at the selection of a backend;
* `proxyToBackend_of_panic` and `proxyToBackend_of_exchange` split at the construction of the request.

Everything that happens between `on_start` and `on_result` is in `exchange` and `inTime`: what is sent, what
comes back, and what is left of it when the timer has its say. Later modules speak of these two and not of
`proxy_request`.
-/

namespace Apigate
open Lib Prog

variable {V ρ σ : Type}

namespace Dispatch

/-- The response to a framework error. -/
def rendered (inner : Inner V) (error : ApigateFrameworkError) : Response :=
  (ApigateError.framework error).intoResponseWith inner.errorRenderer

/-- The failure of a pipeline is reported by one call of the observer, whose kind tells framework errors from
    responses that a hook or a map has made up. -/
theorem emitPipelineFailure_run (inner : Inner V) (routeMeta : RouteMeta (PipelineFn V)) (err : ApigateError)
    (policies : Policies ρ σ) :
    emitPipelineFailure inner routeMeta err policies =
      ⟨.ok (), policies, observed inner routeMeta (failureKind err)⟩ := by
  unfold emitPipelineFailure failureKind
  cases err.frameworkError with
  | none => exact emitRuntimeEvent_run _ _ _ _
  | some error => exact emitRuntimeEvent_run _ _ _ _

/-! ## The exchange with a backend

The result of `proxy_request` has one source of errors besides the upstream: the target of the request may not
be a URI. To know the error it is enough to know that rewriting has no other, and that is what the lemmas of
this section establish, one for each function on the way. -/

/-- A result whose only error is a missing URI. -/
def OnlyUriErrors {α : Type} (r : Checked (Except ProxyErrorKind α)) : Prop :=
  ∀ e, r = some (.error e) → e = .invalidUpstreamUri

/-- Every way to build a path and query ends like this: parse, name the one error, wrap the result. -/
theorem onlyUriErrors_mapError_map {ε α β : Type} (r : Except ε α) (f : α → β) :
    OnlyUriErrors (some ((r.mapError fun _ => .invalidUpstreamUri).map f)) := by
  intro e h
  cases r <;> cases h
  rfl

/-- One case for each kind of rewrite; a template whose source does not match has this error as well. -/
theorem rewritePathAndQuery_error (crates : Crates V) (routeMeta : RouteMeta (PipelineFn V)) (uri : Uri) :
    OnlyUriErrors (rewritePathAndQuery crates routeMeta uri) := by
  unfold rewritePathAndQuery makePathAndQuery
  cases routeMeta.rewrite with
  | static fixed =>
      cases uri.query with
      | none =>
          intro e h
          cases h
      | some q => exact onlyUriErrors_mapError_map _ _
  | stripPrefix => cases uri.query <;> exact onlyUriErrors_mapError_map _ _
  | template tpl =>
      dsimp only
      rcases renderTemplate tpl (stripPrefix uri.path routeMeta.servicePrefix) uri.query with _ | _ | rendered
      · intro e h
        cases h
      · intro e h
        cases h
        rfl
      · exact onlyUriErrors_mapError_map _ _

/-- Putting scheme and authority in front adds no error of another kind. -/
theorem rewriteUri_error (crates : Crates V) (base : BaseUri) (routeMeta : RouteMeta (PipelineFn V)) (uri : Uri) :
    OnlyUriErrors (rewriteUri crates base routeMeta uri) := by
  intro e h
  unfold rewriteUri at h
  have hrewrite := rewritePathAndQuery_error crates routeMeta uri
  cases hpq : rewritePathAndQuery crates routeMeta uri with
  | none =>
      rw [hpq] at h
      cases h
  | some result =>
      rw [hpq] at h hrewrite
      cases result with
      | error err =>
          cases h
          exact hrewrite e rfl
      | ok newPq =>
          simp only [Option.bind_eq_bind, Option.bind_some] at h
          split at h <;> cases h
          rfl

/-- Nor does the rest of the request, which is made of what is there already. -/
theorem upstreamRequest_error (crates : Crates V) (backend : Backend) (routeMeta : RouteMeta (PipelineFn V))
    (parts : Parts V) (body : Body) : OnlyUriErrors (upstreamRequest crates backend routeMeta parts body) := by
  intro e h
  unfold upstreamRequest at h
  have hrewrite := rewriteUri_error crates backend.base routeMeta parts.uri
  cases huri : rewriteUri crates backend.base routeMeta parts.uri with
  | none =>
      rw [huri] at h
      cases h
  | some result =>
      rw [huri] at h hrewrite
      cases result with
      | error err =>
          cases h
          exact hrewrite e rfl
      | ok uri => cases h

/-- What `proxy_request` makes of a request: what it sends, its result, and after how long that is there. None
    where building the request panics. A request that cannot be built is not sent, and its error is there at
    once. -/
def exchange (crates : Crates V) (client : Client V) (backend : Backend) (routeMeta : RouteMeta (PipelineFn V))
    (parts : Parts V) (body : Body) :
    Checked (List (Request V) × Except ProxyErrorKind Response × Duration) := do
  match ← upstreamRequest crates backend routeMeta parts body with
  | .error e => some ([], .error e, 0)
  | .ok request =>
      let answer := client request
      some ([request], (answer.1.map downstreamResponse).mapError (fun _ => .upstreamRequest), answer.2)

/-- The result that is there when the timeout is over, and when that is. The clock of the handler stops at the
    response head, so a response that comes in time may still have a body that does not. -/
def inTime (timeout : Duration) (result : Except ProxyErrorKind Response) (latency : Duration) :
    Except ProxyErrorKind Response × Duration :=
  (if timeout < latency then .error .timeout else result, min latency timeout)

/-- What the client gets of an exchange that ended. -/
def settledResponse (inner : Inner V) : Except ProxyErrorKind Response → Response
  | .ok response => response
  | .error error => rendered inner (mapProxyErrorToFramework error)

/-- The program does what `exchange` says, and leaves the policies alone: nobody is told anything between the
    request and its result. -/
theorem proxyRequest_of_exchange (crates : Crates V) (client : Client V) {backend : Backend}
    {routeMeta : RouteMeta (PipelineFn V)} {parts : Parts V} {body : Body} {sent : List (Request V)}
    {result : Except ProxyErrorKind Response} {latency : Duration}
    (h : exchange crates client backend routeMeta parts body = some (sent, result, latency))
    (policies : Policies ρ σ) :
    proxyRequest crates client backend routeMeta parts body policies =
      ⟨.ok (result, latency), policies, sent.map .sent⟩ := by
  unfold exchange at h
  cases hrequest : upstreamRequest crates backend routeMeta parts body with
  | none =>
      rw [hrequest] at h
      cases h
  | some request =>
      unfold proxyRequest
      cases request with
      | error e =>
          rw [hrequest] at h
          cases h
          rw [hrequest]
          rfl
      | ok request =>
          rw [hrequest] at h
          cases h
          simp only [hrequest, Bind.bind, Prog.bind, Prog.tell]
          rcases hclient : client request with ⟨_ | response, latency⟩ <;> rfl

/-- The only panic on the way to the upstream is in building the request. -/
theorem exchange_eq_none {crates : Crates V} {client : Client V} {backend : Backend}
    {routeMeta : RouteMeta (PipelineFn V)} {parts : Parts V} {body : Body} :
    exchange crates client backend routeMeta parts body = none ↔
      upstreamRequest crates backend routeMeta parts body = none := by
  unfold exchange
  cases upstreamRequest crates backend routeMeta parts body with
  | none => exact ⟨fun _ => rfl, fun _ => rfl⟩
  | some request =>
      constructor
      · intro h
        cases request <;> cases h
      · intro h
        cases h

section
variable [Balancer σ] [Xxh3]

/-- **The exchange with a backend, from `on_start` to `on_result`.** The balancer of the route's policy is
    called twice, for the same backend; in between the request is sent, and behind the second call comes the
    last event of the observer. Both reports carry the outcome and the time after the timer has been applied, so
    they never disagree. -/
theorem proxyToBackend_of_exchange (crates : Crates V) (client : Client V) (inner : Inner V)
    {routeMeta : RouteMeta (PipelineFn V)} (i : Nat) {backend : Backend} {parts : Parts V} {body : Body}
    {sent : List (Request V)} {result : Except ProxyErrorKind Response} {latency : Duration}
    (h : exchange crates client backend routeMeta parts body = some (sent, result, latency))
    (policies : Policies ρ σ) :
    proxyToBackend crates client inner routeMeta i backend parts body policies =
      let settled := inTime inner.requestTimeout result latency
      let started : StartEvent := ⟨routeMeta.service, i⟩
      let reported := resultEvent routeMeta i settled.1 settled.2
      let policy := ((policies routeMeta.policy).onStart started).onResult reported
      ⟨.ok (settledResponse inner settled.1), Function.update policies routeMeta.policy policy,
        [.started routeMeta.policy started] ++ (sent.map .sent ++
          (observed inner routeMeta (settledKind i settled.1 settled.2) ++
            [.reported routeMeta.policy reported]))⟩ := by
  have hrun : ∀ policies : Policies ρ σ, proxyRequest crates client backend routeMeta parts body policies =
      ⟨.ok (result, latency), policies, sent.map .sent⟩ := proxyRequest_of_exchange crates client h
  simp only [inTime]
  cases hsettled : (if inner.requestTimeout < latency then .error .timeout else result :
      Except ProxyErrorKind Response) with
  | ok response =>
      simp [proxyToBackend, hrun, hsettled, Bind.bind, Prog.bind, call, Prog.tell, Prog.lift, Pure.pure,
        Prog.pure, emitRuntimeEvent_run, settledKind, settledResponse]
  | error error =>
      simp [proxyToBackend, hrun, hsettled, Bind.bind, Prog.bind, call, Prog.tell, Prog.lift, Pure.pure,
        Prog.pure, emitRuntimeEvent_run, settledKind, settledResponse, rendered]

/-- A handler that panics in the exchange has called `on_start`, and sent nothing. The balancer has been told of
    a start and is never told of a result. -/
theorem proxyToBackend_of_panic (crates : Crates V) (client : Client V) (inner : Inner V)
    {routeMeta : RouteMeta (PipelineFn V)} (i : Nat) {backend : Backend} {parts : Parts V} {body : Body}
    (h : exchange crates client backend routeMeta parts body = none) (policies : Policies ρ σ) :
    proxyToBackend crates client inner routeMeta i backend parts body policies =
      ⟨.error {}, Function.update policies routeMeta.policy
          ((policies routeMeta.policy).onStart ⟨routeMeta.service, i⟩),
        [.started routeMeta.policy ⟨routeMeta.service, i⟩]⟩ := by
  have hnone := exchange_eq_none.mp h
  simp [proxyToBackend, proxyRequest, hnone, Bind.bind, Prog.bind, call, Prog.tell, Prog.lift, Prog.ofExcept]

variable [RouteStrategy ρ]

/-! ## From the end of the pipeline -/

/-- The routing decision and the balancer's answer, with the policy each leaves behind. The source calls the two
    under one reference to the policy; nothing comes between them. -/
def selection (routeMeta : RouteMeta (PipelineFn V)) (parts : Parts V) (policy : Policy ρ σ) :
    (RoutingDecision × Option Nat) × Policy ρ σ :=
  let routed := policy.route (routeMeta.routeCtx parts) routeMeta.pool
  let picked := routed.2.pick (routeMeta.balanceCtx routed.1)
  ((routed.1, picked.1), picked.2)

/-- Selecting a backend writes the state of the route's own policy and of no other, and calls nobody else. -/
theorem selectBackend_selection (routeMeta : RouteMeta (PipelineFn V)) (parts : Parts V)
    (policies : Policies ρ σ) :
    selectBackend routeMeta parts policies =
      let selected := selection routeMeta parts (policies routeMeta.policy)
      ⟨.ok (routeMeta.backendAt selected.1.2), Function.update policies routeMeta.policy selected.2,
        [.routed routeMeta.policy, .picked routeMeta.policy]⟩ := by
  simp [selectBackend, selection, Bind.bind, Prog.bind, call, Prog.tell, Prog.lift, Pure.pure, Prog.pure]

/-- No backend is selected: the request is answered with the error, and the policies keep what routing and
    picking did. -/
theorem forward_of_error (crates : Crates V) (client : Client V) (inner : Inner V)
    {routeMeta : RouteMeta (PipelineFn V)} {parts : Parts V} (body : Body) {policies : Policies ρ σ}
    {coreError : ApigateCoreError}
    (h : routeMeta.backendAt (selection routeMeta parts (policies routeMeta.policy)).1.2 = .error coreError) :
    forward crates client inner routeMeta parts body policies =
      ⟨.ok (rendered inner (.core coreError)),
        Function.update policies routeMeta.policy (selection routeMeta parts (policies routeMeta.policy)).2,
        [.routed routeMeta.policy, .picked routeMeta.policy] ++
          observed inner routeMeta (.dispatchFailed (.core coreError))⟩ := by
  simp [forward, Bind.bind, Prog.bind, selectBackend_selection, h, emitRuntimeEvent_run, Pure.pure, Prog.pure,
    rendered]

/-- A backend is selected: what follows is the exchange with it, in the policies as the selection has left them.
    -/
theorem forward_of_ok (crates : Crates V) (client : Client V) (inner : Inner V)
    {routeMeta : RouteMeta (PipelineFn V)} {parts : Parts V} (body : Body) {policies : Policies ρ σ} {i : Nat}
    {backend : Backend}
    (h : routeMeta.backendAt (selection routeMeta parts (policies routeMeta.policy)).1.2 = .ok (i, backend)) :
    forward crates client inner routeMeta parts body policies =
      let rest := proxyToBackend crates client inner routeMeta i backend parts body
        (Function.update policies routeMeta.policy (selection routeMeta parts (policies routeMeta.policy)).2)
      ⟨rest.result, rest.state, [.routed routeMeta.policy, .picked routeMeta.policy] ++
        (observed inner routeMeta (.backendSelected i) ++ rest.trace)⟩ := by
  simp [forward, Bind.bind, Prog.bind, selectBackend_selection, h, emitRuntimeEvent_run]

/-! ## The whole handler

What the handler shows up to the end of the pipeline is the same list in both cases, and it is put in front of
the rest. -/

/-- What a handler shows up to the end of its pipeline. -/
def shownByPipeline (inner : Inner V) (routeMeta : RouteMeta (PipelineFn V)) (req : Request V) :
    List (DispatchEvent V) :=
  observed inner routeMeta (startKind routeMeta req.parts) ++
    (pipelineOutcome inner routeMeta req.parts req.body).trace.map .pipeline

/-- The pipeline fails. The response is that of the error, the policies have not been touched, and one more
    event closes the report. -/
theorem proxyHandler_of_error (crates : Crates V) (client : Client V) {inner : Inner V} {routeIdx : Nat}
    {routeMeta : RouteMeta (PipelineFn V)} (hmeta : inner.routeMetas[routeIdx]? = some routeMeta)
    {req : Request V} {err : ApigateError}
    (herr : (pipelineOutcome inner routeMeta req.parts req.body).result = .error err)
    (policies : Policies ρ σ) :
    proxyHandler crates client inner routeIdx req policies =
      ⟨.ok (err.intoResponseWith inner.errorRenderer), policies,
        shownByPipeline inner routeMeta req ++ observed inner routeMeta (failureKind err)⟩ := by
  unfold proxyHandler runPipelineIfNeeded
  rw [hmeta]
  simp only [Bind.bind, Prog.bind, Pure.pure, Prog.pure, Prog.tell, emitRuntimeEvent_run, herr,
    emitPipelineFailure_run, List.append_nil, shownByPipeline, startKind, List.append_assoc]

/-- The pipeline succeeds. The rest of the handler sees the head that the pipeline has left and the body it has
    returned. -/
theorem proxyHandler_of_ok (crates : Crates V) (client : Client V) {inner : Inner V} {routeIdx : Nat}
    {routeMeta : RouteMeta (PipelineFn V)} (hmeta : inner.routeMetas[routeIdx]? = some routeMeta)
    {req : Request V} {body : Body}
    (hok : (pipelineOutcome inner routeMeta req.parts req.body).result = .ok body)
    (policies : Policies ρ σ) :
    proxyHandler crates client inner routeIdx req policies =
      let rest := forward crates client inner routeMeta
        (pipelineOutcome inner routeMeta req.parts req.body).state.ctx.parts body policies
      ⟨rest.result, rest.state, shownByPipeline inner routeMeta req ++ rest.trace⟩ := by
  unfold proxyHandler runPipelineIfNeeded
  rw [hmeta]
  simp only [Bind.bind, Prog.bind, Pure.pure, Prog.pure, Prog.tell, emitRuntimeEvent_run, hok,
    List.append_nil, shownByPipeline, startKind, List.append_assoc]

end
end Dispatch
end Apigate
