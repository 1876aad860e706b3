import Apigate.App.Dispatch

/-!
# `Correctness.Handler` — the handler in two parts

What a handler does is the pipeline's part followed, if the pipeline succeeds, by `forward`. Up to the end of
the pipeline no policy and no upstream is called; after it no pipeline stage runs, and what is sent is built
from what the pipeline left.

The handler is a program that emits events, and both statements are about which events it can emit. For the
second part they are proved for any set of events that contains the plain ones and the requests built for a
backend of the pool (`Allows`): a program emits only what its parts emit, so the rules follow the text of
`dispatch.rs` from `proxy_request` outwards. The first part is an equation (`proxyHandler_failed`,
`proxyHandler_passed`), from which its events can be read off.
-/

namespace Apigate
open Lib Prog

variable {V ρ σ : Type}

namespace Dispatch

/-! ## Observer events

A call of the observer is one event or none, and changes nothing. -/

/-- The events of one call of the observer. -/
def observed (inner : Inner V) (routeMeta : RouteMeta (PipelineFn V)) (kind : RuntimeEventKind) :
    List (DispatchEvent V) :=
  if inner.runtimeObserver then [.observed ⟨routeMeta.service, routeMeta.routePath, kind⟩] else []

/-- A call of the observer, as an equation. -/
theorem emitRuntimeEvent_run (inner : Inner V) (routeMeta : RouteMeta (PipelineFn V))
    (kind : RuntimeEventKind) (policies : Policies ρ σ) :
    emitRuntimeEvent inner routeMeta kind policies = ⟨.ok (), policies, observed inner routeMeta kind⟩ := by
  unfold emitRuntimeEvent observed
  split <;> rfl

/-- If it shows an event, it shows this one. -/
theorem eq_of_mem_observed {inner : Inner V} {routeMeta : RouteMeta (PipelineFn V)}
    {kind : RuntimeEventKind} {e : DispatchEvent V} (he : e ∈ observed inner routeMeta kind) :
    e = .observed ⟨routeMeta.service, routeMeta.routePath, kind⟩ := by
  unfold observed at he
  split at he
  · exact List.mem_singleton.mp he
  · cases he

/-! ## After the pipeline

The parts of `forward`, from the request to the upstream outwards. -/

/-- What `forward` may show: anything but pipeline events, and of requests only those made from the parts and
    the body it was given. -/
def Forwards (crates : Crates V) (routeMeta : RouteMeta (PipelineFn V)) (parts : Parts V) (body : Body) :
    DispatchEvent V → Prop
  | .pipeline _ => False
  | .sent request =>
      ∃ backend, upstreamRequest crates backend routeMeta parts body = some (.ok request)
  | .observed _ | .routed _ | .picked _ | .started .. | .reported .. => True

/-- An event that shows neither a stage of the pipeline nor a request. -/
def IsPlain : DispatchEvent V → Prop
  | .pipeline _ | .sent _ => False
  | .observed _ | .routed _ | .picked _ | .started .. | .reported .. => True

/-- `P` holds of the plain events, and of the requests made from the parts and the body for a backend of the
    route's pool. -/
structure Allows (crates : Crates V) (routeMeta : RouteMeta (PipelineFn V)) (parts : Parts V) (body : Body)
    (P : DispatchEvent V → Prop) : Prop where
  plain : ∀ e, IsPlain e → P e
  sent : ∀ backend ∈ routeMeta.pool.backends, ∀ request,
    upstreamRequest crates backend routeMeta parts body = some (.ok request) → P (.sent request)

section
variable {crates : Crates V} {routeMeta : RouteMeta (PipelineFn V)} {parts : Parts V} {body : Body}
  {P : DispatchEvent V → Prop}

/-- A call of the observer is a plain event. -/
theorem Allows.emitRuntimeEvent (h : Allows crates routeMeta parts body P) (inner : Inner V)
    (kind : RuntimeEventKind) : Emits P (emitRuntimeEvent inner routeMeta kind : Handler V ρ σ Unit) := by
  intro policies e he
  rw [emitRuntimeEvent_run] at he
  rw [eq_of_mem_observed he]
  exact h.plain _ trivial

/-- A call to a policy shows itself. -/
theorem emits_call {α : Type} {ref : PolicyRef} {event : DispatchEvent V} {f : Policy ρ σ → α × Policy ρ σ}
    (h : P event) : Emits P (call ref event f) := by
  refine Emits.bind (Emits.tell ?_) fun _ => Emits.lift
  intro e he
  obtain rfl := List.mem_singleton.mp he
  exact h

/-- A request to the upstream is one that was built from the parts and the body, or there is none because
    building it failed or panicked. -/
theorem Allows.proxyRequest (h : Allows crates routeMeta parts body P) (client : Client V) {backend : Backend}
    (hbackend : backend ∈ routeMeta.pool.backends) :
    Emits P (proxyRequest crates client backend routeMeta parts body : Handler V ρ σ _) := by
  unfold Dispatch.proxyRequest
  cases hrequest : upstreamRequest crates backend routeMeta parts body with
  | none => exact Emits.ofExcept
  | some result =>
      cases result with
      | error e => exact Emits.pure
      | ok request =>
          refine Emits.bind (Emits.tell ?_) fun _ => ?_
          · intro e he
            obtain rfl := List.mem_singleton.mp he
            exact h.sent backend hbackend request hrequest
          · split <;> exact Emits.pure

variable [Balancer σ] [Xxh3]

/-- The exchange shows the two calls to the balancer, the request and the observer's event. -/
theorem Allows.proxyToBackend (h : Allows crates routeMeta parts body P) (client : Client V) (inner : Inner V)
    (backendIndex : Nat) {backend : Backend} (hbackend : backend ∈ routeMeta.pool.backends) :
    Emits P (proxyToBackend crates client inner routeMeta backendIndex backend parts body :
      Handler V ρ σ Response) := by
  refine Emits.bind (emits_call (h.plain _ trivial)) fun _ => ?_
  refine Emits.bind (h.proxyRequest client hbackend) ?_
  rintro ⟨result, latency⟩
  dsimp only
  -- whatever the result is: the observer, then the balancer
  split <;> exact Emits.bind (h.emitRuntimeEvent inner _) fun _ =>
    Emits.bind (emits_call (h.plain _ trivial)) fun _ => Emits.pure

variable [RouteStrategy ρ]

/-- What is selected is a backend of the route's pool. -/
theorem selectBackend_mem {policies : Policies ρ σ} {backendIndex : Nat} {backend : Backend}
    (h : (selectBackend routeMeta parts policies).result = .ok (.ok (backendIndex, backend))) :
    backend ∈ routeMeta.pool.backends := by
  have hat : ∃ picked, routeMeta.backendAt picked = .ok (backendIndex, backend) :=
    ⟨_, Except.ok.inj h⟩
  obtain ⟨picked, hat⟩ := hat
  cases picked with
  | none => cases hat
  | some i =>
      unfold RouteMeta.backendAt at hat
      dsimp only at hat
      cases hget : routeMeta.pool.get i with
      | none =>
          rw [hget] at hat
          cases hat
      | some backend' =>
          rw [hget] at hat
          cases hat
          exact List.mem_of_getElem? hget

/-- **What `forward` shows is what is allowed**: the calls that select a backend, and either an error for the
    observer or the exchange with the backend that was selected, which is one of the pool. -/
theorem Allows.forward (h : Allows crates routeMeta parts body P) (client : Client V) (inner : Inner V) :
    Emits P (forward crates client inner routeMeta parts body : Handler V ρ σ Response) := by
  -- the two calls that select a backend
  refine Emits.bind_result (Emits.bind (emits_call (h.plain _ trivial)) fun _ =>
    Emits.bind (emits_call (h.plain _ trivial)) fun _ => Emits.pure) ?_
  intro policies selected hselected
  cases selected with
  | error coreError => exact Emits.bind (h.emitRuntimeEvent inner _) fun _ => Emits.pure
  | ok selected =>
      obtain ⟨backendIndex, backend⟩ := selected
      exact Emits.bind (h.emitRuntimeEvent inner _) fun _ =>
        h.proxyToBackend client inner backendIndex (selectBackend_mem hselected)

/-- In particular `forward` shows no stage of a pipeline. -/
theorem forwards_forward (client : Client V) (inner : Inner V) :
    Emits (Forwards crates routeMeta parts body)
      (Dispatch.forward crates client inner routeMeta parts body : Handler V ρ σ Response) := by
  apply Allows.forward
  constructor
  · intro e he
    cases e <;> trivial
  · intro backend _ request hrequest
    exact ⟨backend, hrequest⟩

end

/-! ## The two parts

By cases on the result of the pipeline. -/

section
variable [RouteStrategy ρ] [Balancer σ] [Xxh3]

/-- **A pipeline that fails ends the handler**: the policies are as they were, and the client gets the error's
    response. -/
theorem proxyHandler_failed (crates : Crates V) (client : Client V) {inner : Inner V} {routeIdx : Nat}
    {routeMeta : RouteMeta (PipelineFn V)} (hmeta : inner.routeMetas[routeIdx]? = some routeMeta)
    {req : Request V} {err : ApigateError}
    (herr : (pipelineOutcome inner routeMeta req.parts req.body).result = .error err)
    (policies : Policies ρ σ) :
    ∃ start failure, proxyHandler crates client inner routeIdx req policies =
      ⟨.ok (err.intoResponseWith inner.errorRenderer), policies, observed inner routeMeta start ++
        ((pipelineOutcome inner routeMeta req.parts req.body).trace.map .pipeline ++
          observed inner routeMeta failure)⟩ := by
  -- a framework error is observed as such, a custom response by its status
  have hfailure : ∃ failure, emitPipelineFailure inner routeMeta err policies =
      ⟨.ok (), policies, observed inner routeMeta failure⟩ := by
    unfold emitPipelineFailure
    cases err.frameworkError with
    | none => exact ⟨_, emitRuntimeEvent_run _ _ _ _⟩
    | some error => exact ⟨_, emitRuntimeEvent_run _ _ _ _⟩
  obtain ⟨failure, hfailure⟩ := hfailure
  refine ⟨.requestStart req.parts.method req.parts.uri routeMeta.pipeline.isSome, failure, ?_⟩
  unfold proxyHandler runPipelineIfNeeded
  rw [hmeta]
  simp only [Bind.bind, Prog.bind, Pure.pure, Prog.pure, Prog.tell, emitRuntimeEvent_run, herr, hfailure,
    List.append_nil]

/-- **A pipeline that succeeds hands over to `forward`.** -/
theorem proxyHandler_passed (crates : Crates V) (client : Client V) {inner : Inner V} {routeIdx : Nat}
    {routeMeta : RouteMeta (PipelineFn V)} (hmeta : inner.routeMetas[routeIdx]? = some routeMeta)
    {req : Request V} {body : Body}
    (hok : (pipelineOutcome inner routeMeta req.parts req.body).result = .ok body)
    (policies : Policies ρ σ) :
    ∃ start, proxyHandler crates client inner routeIdx req policies =
      let outcome := pipelineOutcome inner routeMeta req.parts req.body
      let rest := forward crates client inner routeMeta outcome.state.ctx.parts body policies
      ⟨rest.result, rest.state,
        observed inner routeMeta start ++ (outcome.trace.map .pipeline ++ rest.trace)⟩ := by
  refine ⟨.requestStart req.parts.method req.parts.uri routeMeta.pipeline.isSome, ?_⟩
  unfold proxyHandler runPipelineIfNeeded
  rw [hmeta]
  simp only [Bind.bind, Prog.bind, Pure.pure, Prog.pure, Prog.tell, emitRuntimeEvent_run, hok,
    List.append_nil]

/-- **What is sent is built from what a successful pipeline returned**, for a backend of the route's pool. A
    handler whose pipeline failed shows the events of the pipeline and of the observer only; one whose pipeline
    succeeded has sent what `forward` sends. -/
theorem sent_by_handler {crates : Crates V} {client : Client V} {inner : Inner V} {routeIdx : Nat}
    {routeMeta : RouteMeta (PipelineFn V)} (hmeta : inner.routeMetas[routeIdx]? = some routeMeta)
    {req : Request V} {policies : Policies ρ σ} {request : Request V}
    (hsent : .sent request ∈ (proxyHandler crates client inner routeIdx req policies).trace) :
    let outcome := pipelineOutcome inner routeMeta req.parts req.body
    ∃ body, ∃ backend ∈ routeMeta.pool.backends, outcome.result = .ok body ∧
      upstreamRequest crates backend routeMeta outcome.state.ctx.parts body = some (.ok request) := by
  intro outcome
  -- nothing is sent before the pipeline has ended
  have hstart : ∀ start, DispatchEvent.sent request ∉
      observed inner routeMeta start ++ outcome.trace.map DispatchEvent.pipeline := by
    intro start hmem
    rcases List.mem_append.mp hmem with hmem | hmem
    · cases eq_of_mem_observed hmem
    · obtain ⟨event, -, hevent⟩ := List.mem_map.mp hmem
      cases hevent
  cases hresult : outcome.result with
  | error err =>
      obtain ⟨start, failure, hrun⟩ := proxyHandler_failed crates client hmeta hresult policies
      rw [hrun, ← List.append_assoc] at hsent
      rcases List.mem_append.mp hsent with hsent | hsent
      · exact absurd hsent (hstart start)
      · cases eq_of_mem_observed hsent
  | ok body =>
      obtain ⟨start, hrun⟩ := proxyHandler_passed crates client hmeta hresult policies
      rw [hrun] at hsent
      simp only [← List.append_assoc] at hsent
      rcases List.mem_append.mp hsent with hsent | hsent
      · exact absurd hsent (hstart start)
      · have hallows : Allows crates routeMeta outcome.state.ctx.parts body fun e =>
            ∀ request, e = .sent request → ∃ backend ∈ routeMeta.pool.backends,
              upstreamRequest crates backend routeMeta outcome.state.ctx.parts body = some (.ok request) := by
          constructor
          · rintro e he request rfl
            exact he.elim
          · rintro backend hbackend request hrequest _ ⟨⟩
            exact ⟨backend, hbackend, hrequest⟩
        obtain ⟨backend, hbackend, hrequest⟩ := hallows.forward client inner policies _ hsent request rfl
        exact ⟨body, backend, hbackend, rfl, hrequest⟩

end
end Dispatch

/-! ## Nothing is called before the pipeline has ended

The events in front of `forward` are the observer's and the pipeline's. -/

/-- Calls to a route strategy, to a balancer, or to the upstream client. -/
def DispatchEvent.isBackendCall : DispatchEvent V → Bool
  | .observed _ | .pipeline _ => false
  | .routed _ | .picked _ | .started .. | .sent _ | .reported .. => true

/-- Up to the end of the pipeline no policy and no upstream is called. -/
theorem no_backendCall_in_pipeline {inner : Inner V} {routeMeta : RouteMeta (PipelineFn V)}
    {start : RuntimeEventKind} {tr : List (PipelineEvent V)} {e : DispatchEvent V}
    (he : e ∈ Dispatch.observed inner routeMeta start ++ tr.map .pipeline) : e.isBackendCall = false := by
  rcases List.mem_append.mp he with he | he
  · rw [Dispatch.eq_of_mem_observed he]
    rfl
  · obtain ⟨event, -, rfl⟩ := List.mem_map.mp he
    rfl

end Apigate
