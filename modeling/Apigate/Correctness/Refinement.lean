import Apigate.App.Gateway
import Apigate.Correctness.Handler

/-!
# `Correctness.Refinement` — a handler is a sequence of moves

`proxyHandler` says what one handler does from its first to its last line; `move` cuts the same handler into the
stretches that others can interleave with. Here the stretches are put together again: a handler that is not
interrupted changes its policy, and calls its balancer, as the moves of one request do one after the other, and
these are a run of the gateway.

The cuts stand at every call to the policy, since handlers run on several threads and share their policies, and
at the two awaits. The handler of a client that has gone is dropped at an await; a panic while the request is
rewritten unwinds the handler after `on_start` and before `on_result`, which to the policy is the same as a drop
while the upstream is awaited. Each part of `dispatch.rs` gets its lemma, from the inside out:

* `proxyRequest_run`, `proxyToBackend_run` and `selectBackend_run` are equations: what the part returns, the
  policies it leaves and the events it shows, for every start;
* `proxyToBackend_moves`, `forward_moves` and `proxyHandler_moves` say that the part `DoesMoves`, each from the
  phase in which the request stands when the part begins;
* `run_of_moveAll` carries a list of moves into the gateway, where only the one request and its policy change.

What the two descriptions share is the calls to the balancer: a handler shows more than these (pipeline stages,
records for the observer), and the theorems compare the shown events after `isBalancerCall` has filtered the
others out.
-/

namespace Apigate
open Lib Prog Runs

variable {V ρ σ : Type}

/-- Calls to a balancer, among the events of a handler. -/
def DispatchEvent.isBalancerCall : DispatchEvent V → Bool
  | .picked _ | .started .. | .reported .. => true
  | .observed _ | .pipeline _ | .routed _ | .sent _ => false

/-- What a handler shows of a call to the balancer of policy `p`. -/
def PolicyCall.shown (p : PolicyRef) : PolicyCall → DispatchEvent V
  | .picked _ _ => .picked p
  | .started event => .started p event
  | .reported event => .reported p event

/-- What a handler shows that is not a call to a balancer: the records for the observer are filtered out,
    whether or not there is one. -/
theorem filter_observed (inner : Inner V) (routeMeta : RouteMeta (PipelineFn V)) (kind : RuntimeEventKind) :
    (Dispatch.observed inner routeMeta kind).filter DispatchEvent.isBalancerCall = [] := by
  refine List.filter_eq_nil_iff.mpr fun e he => ?_
  rw [Dispatch.eq_of_mem_observed he]
  exact Bool.false_ne_true

/-- The stages of the pipeline are filtered out as well; no stage of a pipeline calls a balancer. -/
theorem filter_pipeline (tr : List (PipelineEvent V)) :
    (tr.map DispatchEvent.pipeline).filter DispatchEvent.isBalancerCall = [] := by
  refine List.filter_eq_nil_iff.mpr fun e he => ?_
  obtain ⟨event, -, rfl⟩ := List.mem_map.mp he
  exact Bool.false_ne_true

section
variable [RouteStrategy ρ] [Balancer σ] [Xxh3]

/-- The moves of one request, one after the other, with the calls to the balancer in their order. It fails where
    `move` does, that is, where the phase does not allow the next move. -/
def moveAll (routeMeta : RouteMeta (PipelineFn V)) :
    Phase V → Policy ρ σ → List (Move V) → Option (Phase V × Policy ρ σ × List PolicyCall)
  | phase, policy, [] => some (phase, policy, [])
  | phase, policy, m :: ms => do
      let (phase, policy, calls) ← move routeMeta policy phase m
      let (phase, policy, rest) ← moveAll routeMeta phase policy ms
      some (phase, policy, calls ++ rest)

/-- The moves of a list are its first move and then the rest: the form in which the lemmas below build a list of
    moves, the first by evaluation of `move` and the rest from the part that follows. -/
theorem moveAll_cons {routeMeta : RouteMeta (PipelineFn V)} {phase phase₁ phase' : Phase V}
    {policy policy₁ policy' : Policy ρ σ} {m : Move V} {ms : List (Move V)} {calls rest : List PolicyCall}
    (hmove : move routeMeta policy phase m = some (phase₁, policy₁, calls))
    (hrest : moveAll routeMeta phase₁ policy₁ ms = some (phase', policy', rest)) :
    moveAll routeMeta phase policy (m :: ms) = some (phase', policy', calls ++ rest) := by
  simp only [moveAll, hmove, hrest, Option.bind_eq_bind, Option.bind_some]

/-- **The moves of one request are a run of the gateway.** By induction on the list of moves, for any state of
    the gateway and of the request: one step updates the policy at its reference, sets the entry of the request
    and appends the calls to the log, and two such updates in a row are one. -/
theorem run_of_moveAll {routeMetas : List (RouteMeta (PipelineFn V))} {g : Gateway V ρ σ} {id : Nat}
    {r : Live V} (hr : g.requests[id]? = some r) {ms : List (Move V)} {phase : Phase V}
    {policy : Policy ρ σ} {calls : List PolicyCall}
    (h : moveAll r.routeMeta r.phase (g.policies r.routeMeta.policy) ms = some (phase, policy, calls)) :
    run (step routeMetas) g (ms.map (.move id)) =
      some ⟨Function.update g.policies r.routeMeta.policy policy,
        g.requests.set id { r with phase := phase },
        g.log ++ calls.map (LogEntry.mk id r.routeMeta.policy)⟩ := by
  induction ms generalizing g r calls with
  | nil =>
      obtain ⟨rfl, rfl, rfl⟩ : r.phase = phase ∧ g.policies r.routeMeta.policy = policy ∧ [] = calls := by
        simpa [moveAll] using h
      obtain ⟨hlt, hget⟩ := List.getElem?_eq_some_iff.mp hr
      have hset : g.requests.set id { r with phase := r.phase } = g.requests := by
        rw [← hget]
        exact List.set_getElem_self hlt
      rw [hset, Function.update_eq_self, List.map_nil, List.map_nil, List.append_nil]
      rfl
  | cons m ms ih =>
      simp only [moveAll, Option.bind_eq_bind, Option.bind_eq_some_iff] at h
      obtain ⟨⟨phase₁, policy₁, calls₁⟩, hmove, ⟨phase₂, policy₂, rest⟩, hrest, heq⟩ := h
      obtain ⟨rfl, rfl, rfl⟩ : phase₂ = phase ∧ policy₂ = policy ∧ calls₁ ++ rest = calls := by
        simpa using heq
      obtain ⟨hlt, -⟩ := List.getElem?_eq_some_iff.mp hr
      have hnext : (g.requests.set id { r with phase := phase₁ })[id]? = some { r with phase := phase₁ } :=
        List.getElem?_set_self hlt
      have hself : Function.update g.policies r.routeMeta.policy policy₁ r.routeMeta.policy = policy₁ :=
        Function.update_self _ _ _
      have hrun := @ih ⟨Function.update g.policies r.routeMeta.policy policy₁, _,
        g.log ++ calls₁.map (LogEntry.mk id r.routeMeta.policy)⟩ _ hnext rest (by
          dsimp only
          rw [hself]
          exact hrest)
      -- the two updates of the state are one
      refine run_cons.mpr ⟨_, step_of_move hr hmove, ?_⟩
      rw [hrun]
      simp only [Function.update_idem, List.set_set, List.append_assoc, List.map_append]

/-! ## The parts of the handler

From the exchange outwards. An equation for a part is read off its definition, case by case in what the upstream
answers and when; the moves of the part then follow by evaluating `move` at the phase in question and comparing,
since `move` is written with the same functions of the policy. -/

namespace Dispatch

omit [RouteStrategy ρ] [Balancer σ] [Xxh3] in
/-- Unless it panics, a request to the upstream ends with some result after some time. The result does not
    depend on the policies and nothing is asked of them, hence one `result`, one `latency` and one list of
    events for all of them; the case `none` of `upstreamRequest` is the panic that the hypothesis excludes. -/
theorem proxyRequest_run (crates : Crates V) (client : Client V) {routeMeta : RouteMeta (PipelineFn V)}
    {backend : Backend} {parts : Parts V} {body : Body}
    (h : upstreamRequest crates backend routeMeta parts body ≠ none) :
    ∃ result latency sent, sent.filter DispatchEvent.isBalancerCall = [] ∧
      ∀ policies : Policies ρ σ, proxyRequest crates client backend routeMeta parts body policies =
        ⟨.ok (result, latency), policies, sent⟩ := by
  unfold proxyRequest
  cases hrequest : upstreamRequest crates backend routeMeta parts body with
  | none => exact absurd hrequest h
  | some request =>
      cases request with
      | error e => exact ⟨.error e, 0, [], rfl, fun _ => rfl⟩
      | ok request =>
          cases hclient : client request with
          | mk answer latency =>
              cases answer with
              | ok response =>
                  refine ⟨.ok (downstreamResponse response), latency, [.sent request], rfl, fun policies => ?_⟩
                  simp only [hclient]
                  rfl
              | error e =>
                  refine ⟨.error .upstreamRequest, latency, [.sent request], rfl, fun policies => ?_⟩
                  simp only [hclient]
                  rfl

omit [RouteStrategy ρ] in
/-- The exchange with a backend ends with a result in time or with a timeout, and is reported as such. The
    policy is called twice, `on_start` before the request is made and `on_result` with the result and the time,
    and `response` and the other events depend on no policy. -/
theorem proxyToBackend_run (crates : Crates V) (client : Client V) (inner : Inner V)
    (routeMeta : RouteMeta (PipelineFn V)) (i : Nat) (backend : Backend) {parts : Parts V} {body : Body}
    (h : upstreamRequest crates backend routeMeta parts body ≠ none) (policies : Policies ρ σ) :
    ∃ result elapsed response shown, shown.filter DispatchEvent.isBalancerCall = [] ∧
      proxyToBackend crates client inner routeMeta i backend parts body policies =
        let started : StartEvent := ⟨routeMeta.service, i⟩
        let reported := resultEvent routeMeta i result elapsed
        let policy := ((policies routeMeta.policy).onStart started).onResult reported
        ⟨.ok response, Function.update policies routeMeta.policy policy,
          [.started routeMeta.policy started] ++ (shown ++ [.reported routeMeta.policy reported])⟩ := by
  obtain ⟨result, latency, sent, hsent, hrun⟩ := @proxyRequest_run V ρ σ crates client _ _ _ _ h
  have hshown : ∀ kind, (sent ++ observed inner routeMeta kind).filter DispatchEvent.isBalancerCall = [] := by
    intro kind
    rw [List.filter_append, hsent, filter_observed]
    rfl
  -- what the timeout makes of the result
  cases hresult : (if inner.requestTimeout < latency then .error .timeout else result :
      Except ProxyErrorKind Response) with
  | ok response =>
      refine ⟨.ok response, min latency inner.requestTimeout, response, _,
        hshown (.upstreamSucceeded i response.status (min latency inner.requestTimeout)), ?_⟩
      simp [proxyToBackend, hrun, hresult, Bind.bind, Prog.bind, call, Prog.tell, Prog.lift, Pure.pure,
        Prog.pure, emitRuntimeEvent_run]
  | error error =>
      refine ⟨.error error, min latency inner.requestTimeout,
        (ApigateError.framework (mapProxyErrorToFramework error)).intoResponseWith inner.errorRenderer, _,
        hshown (.upstreamFailed i error (min latency inner.requestTimeout)), ?_⟩
      simp [proxyToBackend, hrun, hresult, Bind.bind, Prog.bind, call, Prog.tell, Prog.lift, Pure.pure,
        Prog.pure, emitRuntimeEvent_run]

/-- A program of the handler does to one policy, and shows of its calls to the balancer, what the moves of a
    request do. -/
def DoesMoves {α : Type} (routeMeta : RouteMeta (PipelineFn V)) (phase : Phase V) (p : Handler V ρ σ α) : Prop :=
  ∀ policies, ∃ ms policy calls,
    moveAll routeMeta phase (policies routeMeta.policy) ms = some (.over, policy, calls) ∧
    (p policies).state = Function.update policies routeMeta.policy policy ∧
    (p policies).trace.filter DispatchEvent.isBalancerCall = calls.map (PolicyCall.shown routeMeta.policy)

/-- **The exchange with a backend**: start, settle and report; or, if the handler panics, start and drop. The
    two lists of moves correspond to the two cases of `upstreamRequest`. In the first `proxyToBackend_run` gives
    the state and the events; in the second the program stops inside the exchange and leaves the policy that
    `on_start` left. -/
theorem proxyToBackend_moves (crates : Crates V) (client : Client V) (inner : Inner V)
    (routeMeta : RouteMeta (PipelineFn V)) (i : Nat) (backend : Backend) (parts : Parts V) (body : Body) :
    DoesMoves routeMeta (.selected i)
      (proxyToBackend crates client inner routeMeta i backend parts body : Handler V ρ σ Response) := by
  intro policies
  by_cases hrequest : upstreamRequest crates backend routeMeta parts body = none
  · -- the panic unwinds the handler between `on_start` and `on_result`
    refine ⟨[.start, .drop], _, [.started ⟨routeMeta.service, i⟩], rfl, ?_, ?_⟩ <;>
      simp [proxyToBackend, proxyRequest, hrequest, Bind.bind, Prog.bind, call, Prog.tell, Prog.lift,
        Prog.ofExcept, DispatchEvent.isBalancerCall, PolicyCall.shown]
  · obtain ⟨result, elapsed, response, shown, hshown, hrun⟩ :=
      proxyToBackend_run crates client inner routeMeta i backend hrequest policies
    refine ⟨[.start, .settle result elapsed, .report], _,
      [.started ⟨routeMeta.service, i⟩, .reported (resultEvent routeMeta i result elapsed)], rfl, ?_, ?_⟩
    · rw [hrun]
    · rw [hrun]
      show List.filter _ (_ ++ (shown ++ _)) = _
      rw [List.filter_append, List.filter_append, hshown]
      rfl

/-- The calls that select a backend: the route strategy sees the request and the pool, the balancer picks from
    the candidates it is given, and the policy keeps what both have changed. This holds of every policy and for
    every list of candidates, also the empty one, where the pick is `none`. -/
theorem selectBackend_run (routeMeta : RouteMeta (PipelineFn V)) (parts : Parts V) (policies : Policies ρ σ) :
    let routed := (policies routeMeta.policy).route (routeMeta.routeCtx parts) routeMeta.pool
    let picked := routed.2.pick (routeMeta.balanceCtx routed.1)
    selectBackend routeMeta parts policies =
      ⟨.ok (routeMeta.backendAt picked.1), Function.update policies routeMeta.policy picked.2,
        [.routed routeMeta.policy, .picked routeMeta.policy]⟩ := by
  simp [selectBackend, Bind.bind, Prog.bind, call, Prog.tell, Prog.lift, Pure.pure, Prog.pure]

/-- **From the end of the pipeline**: route and pick, and the exchange with the backend if there is one. By
    cases on the pick. Where there is none, or its index is not one of the pool, the handler answers without an
    exchange and the pick is the move that ends the request; otherwise the moves of `proxyToBackend_moves`
    follow, and the updates of the same policy are one. -/
theorem forward_moves (crates : Crates V) (client : Client V) (inner : Inner V)
    (routeMeta : RouteMeta (PipelineFn V)) (parts : Parts V) (body : Body) :
    DoesMoves routeMeta (.routing parts)
      (forward crates client inner routeMeta parts body : Handler V ρ σ Response) := by
  intro policies
  have hselect := selectBackend_run routeMeta parts policies
  have hroute : move routeMeta (policies routeMeta.policy) (.routing parts) .route =
      some (.picking ((policies routeMeta.policy).route (routeMeta.routeCtx parts) routeMeta.pool).1,
        ((policies routeMeta.policy).route (routeMeta.routeCtx parts) routeMeta.pool).2, []) := rfl
  generalize (policies routeMeta.policy).route (routeMeta.routeCtx parts) routeMeta.pool = routed at hselect hroute
  obtain ⟨routing, policy₁⟩ := routed
  dsimp only at hselect hroute
  generalize hpicked : policy₁.pick (routeMeta.balanceCtx routing) = picked at hselect
  obtain ⟨index, policy₂⟩ := picked
  dsimp only at hselect
  cases hbackend : routeMeta.backendAt index with
  | error coreError =>
      rw [hbackend] at hselect
      have hmove : move routeMeta policy₁ (.picking routing) .pick =
          some (.over, policy₂, [.picked (routeMeta.balanceCtx routing) index]) := by
        simp only [move, hpicked, hbackend]
      have hforward : forward crates client inner routeMeta parts body policies =
          ⟨.ok ((ApigateError.framework (.core coreError)).intoResponseWith inner.errorRenderer),
            Function.update policies routeMeta.policy policy₂,
            [.routed routeMeta.policy, .picked routeMeta.policy] ++
              observed inner routeMeta (.dispatchFailed (.core coreError))⟩ := by
        simp [forward, Bind.bind, Prog.bind, hselect, emitRuntimeEvent_run, Pure.pure, Prog.pure]
      refine ⟨[.route, .pick], policy₂, _, moveAll_cons hroute (moveAll_cons hmove rfl), ?_, ?_⟩
      · rw [hforward]
      · rw [hforward, List.filter_append, filter_observed]
        rfl
  | ok selected =>
      obtain ⟨i, backend⟩ := selected
      rw [hbackend] at hselect
      have hmove : move routeMeta policy₁ (.picking routing) .pick =
          some (.selected i, policy₂, [.picked (routeMeta.balanceCtx routing) index]) := by
        simp only [move, hpicked, hbackend]
      obtain ⟨ms, policy, calls, hmoves, hstate, htrace⟩ :=
        proxyToBackend_moves crates client inner routeMeta i backend parts body
          (Function.update policies routeMeta.policy policy₂)
      rw [Function.update_self] at hmoves
      rw [Function.update_idem] at hstate
      have hforward : forward crates client inner routeMeta parts body policies =
          let rest := proxyToBackend crates client inner routeMeta i backend parts body
            (Function.update policies routeMeta.policy policy₂)
          ⟨rest.result, rest.state, [.routed routeMeta.policy, .picked routeMeta.policy] ++
            (observed inner routeMeta (.backendSelected i) ++ rest.trace)⟩ := by
        simp [forward, Bind.bind, Prog.bind, hselect, emitRuntimeEvent_run]
      refine ⟨.route :: .pick :: ms, policy, _, moveAll_cons hroute (moveAll_cons hmove hmoves), ?_, ?_⟩
      · rw [hforward, ← hstate]
      · rw [hforward, List.filter_append, List.filter_append, filter_observed, htrace]
        rfl

/-! ## The whole handler

The pipeline comes first and touches no policy, so a handler whose pipeline fails makes the one move that ends
its request; otherwise it continues as `forward_moves` says. -/

/-- **A handler does what the moves of one request do.** By cases on the result of the pipeline: an error ends
    the request in one move that calls nothing, and a success hands the parts and the body on to `forward`,
    whose moves follow the one that leaves the pipeline. -/
theorem proxyHandler_moves (crates : Crates V) (client : Client V) {inner : Inner V} {routeIdx : Nat}
    {routeMeta : RouteMeta (PipelineFn V)} (hmeta : inner.routeMetas[routeIdx]? = some routeMeta)
    (req : Request V) :
    DoesMoves routeMeta .pipeline (proxyHandler crates client inner routeIdx req : Handler V ρ σ Response) := by
  intro policies
  cases hresult : (pipelineOutcome inner routeMeta req.parts req.body).result with
  | error err =>
      -- one move, which calls nothing
      obtain ⟨start, failure, hrun⟩ := proxyHandler_failed crates client hmeta hresult policies
      refine ⟨[.returns none], policies routeMeta.policy, [], rfl, ?_, ?_⟩
      · rw [hrun, Function.update_eq_self]
      · rw [hrun, List.filter_append, List.filter_append, filter_observed, filter_pipeline, filter_observed]
        rfl
  | ok body =>
      obtain ⟨start, hrun⟩ := proxyHandler_passed crates client hmeta hresult policies
      obtain ⟨ms, policy, calls, hmoves, hstate, htrace⟩ := forward_moves crates client inner routeMeta
        (pipelineOutcome inner routeMeta req.parts req.body).state.ctx.parts body policies
      have hreturns : move routeMeta (policies routeMeta.policy) .pipeline
          (.returns (some (pipelineOutcome inner routeMeta req.parts req.body).state.ctx.parts)) =
          some (.routing (pipelineOutcome inner routeMeta req.parts req.body).state.ctx.parts,
            policies routeMeta.policy, []) := rfl
      refine ⟨_ :: ms, policy, calls, moveAll_cons hreturns hmoves, ?_, ?_⟩
      · rw [hrun]
        exact hstate
      · rw [hrun]
        show List.filter _ (_ ++ (_ ++ _)) = _
        rw [List.filter_append, List.filter_append, filter_observed, filter_pipeline, htrace]
        rfl

/-- **A handler that nothing interrupts is a run of the gateway.** The request arrives and makes its moves;
    afterwards the policies are as the handler leaves them, and the calls in the log are those it made. The
    actions are the arrival and the moves that `proxyHandler_moves` gives, at the index that the new request
    takes in the gateway; no other request moves in between, so its own entry is the only one that changes. -/
theorem proxyHandler_is_run (crates : Crates V) (client : Client V) {inner : Inner V} {routeIdx : Nat}
    {routeMeta : RouteMeta (PipelineFn V)} (hmeta : inner.routeMetas[routeIdx]? = some routeMeta)
    (req : Request V) (g : Gateway V ρ σ) :
    let outcome := proxyHandler crates client inner routeIdx req g.policies
    ∃ acts, ∃ calls : List PolicyCall, run (step inner.routeMetas) g acts =
        some ⟨outcome.state, g.requests ++ [⟨routeMeta, .over⟩],
          g.log ++ calls.map (LogEntry.mk g.requests.length routeMeta.policy)⟩ ∧
      outcome.trace.filter DispatchEvent.isBalancerCall = calls.map (PolicyCall.shown routeMeta.policy) := by
  intro outcome
  obtain ⟨ms, policy, calls, hmoves, hstate, htrace⟩ := proxyHandler_moves crates client hmeta req g.policies
  refine ⟨.arrive routeIdx :: ms.map (.move g.requests.length), calls, ?_, htrace⟩
  have hnew : (g.requests ++ [Live.mk routeMeta .pipeline])[g.requests.length]? = some ⟨routeMeta, .pipeline⟩ :=
    List.getElem?_concat_length
  refine run_cons.mpr ⟨_, step_of_arrive g hmeta, ?_⟩
  rw [run_of_moveAll (g := ⟨g.policies, _, g.log⟩) hnew hmoves]
  simp only [outcome, hstate]
  rw [List.set_append_right _ _ (Nat.le_refl _), Nat.sub_self]
  rfl

end Dispatch
end
end Apigate
