import Apigate.Correctness.Footprints
import Apigate.Correctness.Framing
import Apigate.Correctness.Observer

/-!
# `Correctness.Validation` — a route that only validates is the plain route behind a guard

Hooks without `&mut PartsCtx` and a map that returns `()` can let a request through or stop it, and nothing
else: what they let through is proxied as by a route that has no pipeline.

Two handlers are compared on one request, and their difference is the pipeline. There are three steps. The
pipeline of a validating route hands on the head as it came and a body with the same bytes
(`ValidatesOnly.passes`): the head by its signatures (`Correctness.Footprints`), as no replacement is shown, and
the body by the specification of pipelines. What follows the pipeline does not look at it
(`forward_without_pipeline`), so both handlers run the same code from there. And this code does the same with
two bodies of the same bytes (`forward_same`), provided that the upstream does.

The bodies are not equal: a pipeline that has read a body hands on the bytes in one piece, where the client may
have sent several. So the requests that are sent are compared by `Request.Same`, and the response and the
policies by equality.
-/

namespace Apigate
open Lib Prog Dispatch

variable {V ρ σ : Type}

/-! ## Functions that only validate

What their maps return and what their pipelines show. That the hooks return nothing but a verdict is a matter of
their type. -/

/-- No function has a `&mut PartsCtx`, and the map, if there is one, returns `()`. -/
structure ValidatesOnly {special : SpecialTypePaths} {types : Types} (hooks : List (HookFn V special types))
    (mapFn : Option (MapFunction V special types)) : Prop where
  noCtx : NoneBinds .ctx hooks mapFn
  unit : ∀ m ∈ mapFn, ∀ input values output, (m.body input values).2 = .ok output → output = .unit

/-- The output of a generated function is one of its body; a function whose bindings fail has none. -/
theorem BoundFn.call_ok {special : SpecialTypePaths} {types : Types} {mode : ExpansionMode} {ι ο : Type}
    {f : BoundFn V special types mode ι ο} {input : ι} {env : Env V} {output : ο}
    (h : (f.call input env).2 = .ok output) : ∃ values, (f.body input values).2 = .ok output := by
  unfold call at h
  split at h
  · cases h
  · rename_i values _
    exact ⟨values, h⟩

section
variable {special : SpecialTypePaths} {types : Types} {serializers : Serializers V} {crates : Crates V}
  {args : RouteArgs V} {bodyInQuery : Bool} {hooks : List (HookFn V special types)}
  {mapFn : Option (MapFunction V special types)} {pipeline : PipelineFn V}

/-- A map that returns `()` keeps the body in every format: the code around it turns `()` into `keep` before
    anything is serialized. -/
theorem MapFunction.toMap_keep {m : MapFunction V special types}
    (hunit : ∀ input values output, (m.body input values).2 = .ok output → output = .unit) {f : Format}
    {input : f.In V}
    {env : Env V} {outcome : BodyOutcome f.Out} (h : (m.toMap serializers f input env).2 = .ok outcome) :
    outcome = .keep := by
  have h : ((m.call (f.input input) env).2.bind fun output => (apigateFinish serializers f output).map .ofOption) =
    .ok outcome := h
  cases hcall : (m.call (f.input input) env).2 with
  | error err =>
      rw [hcall] at h
      cases h
  | ok output =>
      rw [hcall] at h
      obtain ⟨values, hbody⟩ := BoundFn.call_ok hcall
      obtain rfl := hunit _ _ _ hbody
      cases f <;> exact (Except.ok.inj h).symm

/-- The pipeline shows no replacement. Every event of a pipeline is one of the generated code or comes from a
    function, and the outcome of this map is `keep`. -/
theorem ValidatesOnly.no_replacement (hvalid : ValidatesOnly hooks mapFn)
    (hwritten : args.WrittenAs serializers hooks mapFn)
    (hgen : generatePipelineWrapper crates args bodyInQuery = some pipeline) (env : Env V) (f : Format) (p : f.Out) :
    ⟨f, .replace p⟩ ∉ outcomesOf (pipeline env).trace := by
  have hemits : Emits (fun e : PipelineEvent V => ∀ f p, e ≠ .mapped f (.replace p)) pipeline := by
    refine emits_pipeline (fun _ _ _ h => nomatch h) (fun _ _ _ _ h => nomatch h) ?_ hgen
    rintro m hm f input env outcome hreturned f' p ⟨⟩
    rw [hwritten.map] at hm
    obtain ⟨written, hwritten, rfl⟩ := Option.map_eq_some_iff.mp hm
    cases MapFunction.toMap_keep (hvalid.unit written hwritten) hreturned
  intro hmem
  obtain ⟨e, he, houtcome⟩ := List.mem_filterMap.mp hmem
  cases e with
  | op o => cases houtcome
  | stage s err => cases houtcome
  | mapped f' outcome =>
      cases houtcome
      exact hemits env _ he f p rfl

/-- **What a validating pipeline lets through it leaves as it is**: the head always, and the bytes of the body. -/
theorem ValidatesOnly.passes (hvalid : ValidatesOnly hooks mapFn) (hwritten : args.WrittenAs serializers hooks mapFn)
    (hgen : generatePipelineWrapper crates args bodyInQuery = some pipeline) (hread : crates.ReadsFaithfully)
    {env : Env V} {incoming body : Body} (hbody : env.scope.body = some incoming)
    (hok : (pipeline env).result = .ok body) :
    (pipeline env).state.ctx = env.ctx ∧ body.Same incoming := by
  have hkeep := hvalid.no_replacement hwritten hgen env
  constructor
  · exact (headAfter_pipeline (hwritten.off_ctx hvalid.noCtx) hgen env).eq_of_kept hkeep
  · have hspec : After crates (fun _ _ => True) incoming (args.data.inQuery bodyInQuery) body (pipeline env).state
        (pipeline env).trace := generated_spec (fun _ _ _ _ => trivial) hgen hbody trivial hok
    obtain ⟨_, -, ⟨-, hsame, -⟩ | ⟨-, f, p, houtcomes, -⟩⟩ := hspec
    · exact hsame hread
    · exact absurd (by rw [houtcomes]; exact List.mem_singleton_self _) (hkeep f p)

end

/-! ## Requests that differ in nothing an upstream sees

What follows the pipeline, on two bodies of the same bytes. Nothing in the gateway reads a body there. -/

/-- The same head, and bodies with the same bytes and the same end. -/
def Request.Same (r r' : Request V) : Prop := r.parts = r'.parts ∧ r.body.Same r'.body

/-- The upstream sees the bytes of a body, not the pieces they come in. -/
def Client.SeesBytes (client : Client V) : Prop := ∀ r r' : Request V, r.Same r' → client r = client r'

/-- The request for the upstream: the rewriting depends on the head only, and so does whether it succeeds. -/
theorem upstreamRequest_same (crates : Crates V) (backend : Backend) (routeMeta : RouteMeta (PipelineFn V))
    (head : Parts V) {body body' : Body} (h : body.Same body') :
    (upstreamRequest crates backend routeMeta head body = none ∧
        upstreamRequest crates backend routeMeta head body' = none) ∨
      (∃ e, upstreamRequest crates backend routeMeta head body = some (.error e) ∧
        upstreamRequest crates backend routeMeta head body' = some (.error e)) ∨
      ∃ r r', upstreamRequest crates backend routeMeta head body = some (.ok r) ∧
        upstreamRequest crates backend routeMeta head body' = some (.ok r') ∧ r.Same r' := by
  unfold upstreamRequest
  cases rewriteUri crates backend.base routeMeta head.uri with
  | none => exact .inl ⟨rfl, rfl⟩
  | some uri =>
      cases uri with
      | error e => exact .inr (.inl ⟨e, rfl, rfl⟩)
      | ok uri => exact .inr (.inr ⟨_, _, rfl, rfl, rfl, h⟩)

/-- The exchange: with an upstream that sees bytes, the same result after the same time. -/
theorem exchange_same (crates : Crates V) {client : Client V} (hclient : client.SeesBytes) (backend : Backend)
    (routeMeta : RouteMeta (PipelineFn V)) (head : Parts V) {body body' : Body} (h : body.Same body') :
    (exchange crates client backend routeMeta head body = none ∧
        exchange crates client backend routeMeta head body' = none) ∨
      ∃ sent sent' result latency, exchange crates client backend routeMeta head body = some (sent, result, latency) ∧
        exchange crates client backend routeMeta head body' = some (sent', result, latency) := by
  unfold exchange
  rcases upstreamRequest_same crates backend routeMeta head h with ⟨hn, hn'⟩ | ⟨e, he, he'⟩ | ⟨r, r', hr, hr', hsame⟩
  · rw [hn, hn']
    exact .inl ⟨rfl, rfl⟩
  · rw [he, he']
    exact .inr ⟨[], [], _, _, rfl, rfl⟩
  · rw [hr, hr']
    refine .inr ⟨[r], [r'], _, _, rfl, ?_⟩
    simp only [hclient r r' hsame]
    rfl

section
variable [RouteStrategy ρ] [Balancer σ] [Xxh3]

/-- Two runs of handlers that differ in nothing outside of the gateway. -/
structure SameOutside (o o' : Outcome (Policies ρ σ) Panic (DispatchEvent V) Response) : Prop where
  result : o.result = o'.result
  policies : o.state = o'.state
  sent : List.Forall₂ Request.Same (o.trace.filterMap DispatchEvent.sent?) (o'.trace.filterMap DispatchEvent.sent?)

/-- Bodies with the same bytes are proxied in the same way. By cases on the selected backend, which is chosen
    without the body, and then on the exchange. -/
theorem forward_same (crates : Crates V) {client : Client V} (hclient : client.SeesBytes) (inner : Inner V)
    (routeMeta : RouteMeta (PipelineFn V)) (head : Parts V) {body body' : Body} (h : body.Same body')
    (policies : Policies ρ σ) :
    SameOutside (forward crates client inner routeMeta head body policies)
      (forward crates client inner routeMeta head body' policies) := by
  have hsent : List.Forall₂ Request.Same
      ((forward crates client inner routeMeta head body policies).trace.filterMap DispatchEvent.sent?)
      ((forward crates client inner routeMeta head body' policies).trace.filterMap DispatchEvent.sent?) := by
    rw [sent?_forward, sent?_forward]
    cases selectedBackend routeMeta policies head with
    | error coreError => exact .nil
    | ok selected =>
        show List.Forall₂ Request.Same (sentUpstream crates selected.2 routeMeta head body)
          (sentUpstream crates selected.2 routeMeta head body')
        unfold sentUpstream
        rcases upstreamRequest_same crates selected.2 routeMeta head h with
          ⟨hn, hn'⟩ | ⟨e, he, he'⟩ | ⟨r, r', hr, hr', hsame⟩
        · rw [hn, hn']
          exact .nil
        · rw [he, he']
          exact .nil
        · rw [hr, hr']
          exact .cons hsame .nil
  cases hbackend : selectedBackend routeMeta policies head with
  | error coreError =>
      refine ⟨?_, ?_, hsent⟩
      all_goals
        rw [forward_of_error crates client inner body hbackend, forward_of_error crates client inner body' hbackend]
  | ok selected =>
      obtain ⟨i, backend⟩ := selected
      have hrest : ∀ policies : Policies ρ σ,
          (proxyToBackend crates client inner routeMeta i backend head body policies).result =
            (proxyToBackend crates client inner routeMeta i backend head body' policies).result ∧
          (proxyToBackend crates client inner routeMeta i backend head body policies).state =
            (proxyToBackend crates client inner routeMeta i backend head body' policies).state := by
        intro policies
        rcases exchange_same crates hclient backend routeMeta head h with
          ⟨hn, hn'⟩ | ⟨sent, sent', result, latency, hsome, hsome'⟩
        · rw [proxyToBackend_of_panic crates client inner i hn, proxyToBackend_of_panic crates client inner i hn']
          exact ⟨rfl, rfl⟩
        · rw [proxyToBackend_of_exchange crates client inner i hsome,
            proxyToBackend_of_exchange crates client inner i hsome']
          exact ⟨rfl, rfl⟩
      refine ⟨?_, ?_, hsent⟩
      · rw [forward_of_ok crates client inner body hbackend, forward_of_ok crates client inner body' hbackend]
        exact (hrest _).1
      · rw [forward_of_ok crates client inner body hbackend, forward_of_ok crates client inner body' hbackend]
        exact (hrest _).2

/-- Nothing behind the pipeline looks at it. -/
theorem forward_without_pipeline (crates : Crates V) (client : Client V) (inner : Inner V)
    (routeMeta : RouteMeta (PipelineFn V)) (head : Parts V) (body : Body) (policies : Policies ρ σ) :
    forward crates client inner { routeMeta with pipeline := none } head body policies =
      forward crates client inner routeMeta head body policies := rfl

/-- The handler answers with the error of its pipeline: nothing is sent, and no policy is consulted. -/
structure Rejects (inner : Inner V) (policies : Policies ρ σ) (err : ApigateError)
    (o : Outcome (Policies ρ σ) Panic (DispatchEvent V) Response) : Prop where
  result : o.result = .ok (err.intoResponseWith inner.errorRenderer)
  policies : o.state = policies
  sent : o.trace.filterMap DispatchEvent.sent? = []
  told : o.trace.filterMap DispatchEvent.told? = []

/-- A pipeline that fails ends the handler with its error. -/
theorem rejects_of_error (crates : Crates V) (client : Client V) {inner : Inner V} {routeIdx : Nat}
    {routeMeta : RouteMeta (PipelineFn V)} (hmeta : inner.routeMetas[routeIdx]? = some routeMeta) {req : Request V}
    {err : ApigateError} (herr : (pipelineOutcome inner routeMeta req.parts req.body).result = .error err)
    (policies : Policies ρ σ) :
    Rejects inner policies err (proxyHandler crates client inner routeIdx req policies) := by
  rw [proxyHandler_of_error crates client hmeta herr]
  refine ⟨rfl, rfl, ?_, ?_⟩
  · rw [List.filterMap_append, sent?_shownByPipeline, sent?_observed, List.append_nil]
  · rw [List.filterMap_append, told?_shownByPipeline, told?_observed, List.append_nil]

/-- A handler does with a request what that of the route without a pipeline does with what the pipeline passes
    on: the second handler hands on what it gets, and from there the two run the same code on the same head. -/
theorem sameOutside_plain {crates : Crates V} {client : Client V} (hclient : client.SeesBytes) {inner : Inner V}
    {routeIdx plainIdx : Nat} {routeMeta : RouteMeta (PipelineFn V)}
    (hmeta : inner.routeMetas[routeIdx]? = some routeMeta)
    (hplain : inner.routeMetas[plainIdx]? = some { routeMeta with pipeline := none }) {req passed : Request V}
    {body : Body} (hok : (pipelineOutcome inner routeMeta req.parts req.body).result = .ok body)
    (hhead : (pipelineOutcome inner routeMeta req.parts req.body).state.ctx.parts = passed.parts)
    (hbody : body.Same passed.body) (policies : Policies ρ σ) :
    SameOutside (proxyHandler crates client inner routeIdx req policies)
      (proxyHandler crates client inner plainIdx passed policies) := by
  have hplainOk : (pipelineOutcome inner { routeMeta with pipeline := none } passed.parts passed.body).result =
      .ok passed.body := rfl
  have hrun := proxyHandler_of_ok crates client hmeta hok policies
  rw [hhead] at hrun
  have hplainRun := proxyHandler_of_ok crates client hplain hplainOk policies
  rw [forward_without_pipeline] at hplainRun
  obtain ⟨hresults, hpolicies, hsent⟩ := forward_same crates hclient inner routeMeta passed.parts hbody policies
  rw [hrun, hplainRun]
  refine ⟨hresults, hpolicies, ?_⟩
  simp only [List.filterMap_append, sent?_shownByPipeline, List.nil_append]
  exact hsent

/-- **A route that only validates is the plain route behind a guard.** Take two routes that differ in their
    pipelines only: one has none, and the pipeline of the other is generated for functions that only validate.
    On every request, with any policies and an upstream that sees the bytes of a body, the handler of the second
    route either answers with the error of its pipeline, and then nothing is sent and no policy is consulted; or
    it does what the handler of the first does: the same response, the same policies afterwards, the same
    requests to the same backends. -/
theorem validation_is_transparent {crates : Crates V} (hread : crates.ReadsFaithfully) {client : Client V}
    (hclient : client.SeesBytes) {inner : Inner V} {routeIdx plainIdx : Nat} {routeMeta : RouteMeta (PipelineFn V)}
    (hmeta : inner.routeMetas[routeIdx]? = some routeMeta)
    (hplain : inner.routeMetas[plainIdx]? = some { routeMeta with pipeline := none })
    {special : SpecialTypePaths} {types : Types} {serializers : Serializers V} {args : RouteArgs V}
    {hooks : List (HookFn V special types)} {mapFn : Option (MapFunction V special types)}
    (hwritten : args.WrittenAs serializers hooks mapFn) (hvalid : ValidatesOnly hooks mapFn) {bodyInQuery : Bool}
    (hpipeline : routeMeta.pipeline = generatePipelineWrapper crates args bodyInQuery) (req : Request V)
    (policies : Policies ρ σ) :
    let guarded := proxyHandler crates client inner routeIdx req policies
    (∃ err, (pipelineOutcome inner routeMeta req.parts req.body).result = .error err ∧
      guarded.result = .ok (err.intoResponseWith inner.errorRenderer) ∧ guarded.state = policies ∧
      guarded.trace.filterMap DispatchEvent.sent? = []) ∨
    SameOutside guarded (proxyHandler crates client inner plainIdx req policies) := by
  intro guarded
  cases hresult : (pipelineOutcome inner routeMeta req.parts req.body).result with
  | error err =>
      have hrejects := rejects_of_error crates client hmeta hresult policies
      exact .inl ⟨err, rfl, hrejects.result, hrejects.policies, hrejects.sent⟩
  | ok body =>
      have hpassed : (pipelineOutcome inner routeMeta req.parts req.body).state.ctx.parts = req.parts ∧
          body.Same req.body := by
        unfold pipelineOutcome at hresult ⊢
        cases hgen : routeMeta.pipeline with
        | none =>
            rw [hgen] at hresult
            obtain rfl := Except.ok.inj hresult
            exact ⟨rfl, rfl, rfl⟩
        | some pipeline =>
            rw [hgen] at hresult hpipeline
            obtain ⟨hctx, hbody⟩ := hvalid.passes hwritten hpipeline.symm hread rfl hresult
            exact ⟨congrArg PartsCtx.parts hctx, hbody⟩
      exact .inr (sameOutside_plain hclient hmeta hplain hresult hpassed.1 hpassed.2 policies)

end

/-! ## A route behind a token -/

/-- The route of the hook that looks at a token. -/
def tokenMeta : RouteMeta (PipelineFn Str) :=
  ⟨str "sales", str "/items", str "/sales", .stripPrefix, ⟨[⟨⟨str "http", str "up", str "http://up", str "up"⟩⟩]⟩, 0,
    generatePipelineWrapper .plain tokenArgs false⟩

/-- The same route with its pipeline and without. -/
def tokenInner : Inner Str := { soloInner with routeMetas := [tokenMeta, { tokenMeta with pipeline := none }] }

/-- A request without a path, and with that without a token. -/
def tokenlessRequest : Request Str :=
  ⟨{ quotedRequest.parts with uri := ⟨none, some (str "up"), none⟩ }, quotedRequest.body⟩

/-- The theorem at a request with a token, which passes, and at one without, which is stopped. -/
theorem validation_is_transparent_token :
    let handler := fun (routeIdx : Nat) (req : Request Str) =>
      @proxyHandler Str NoRouteKey RoundRobin _ _ .length .plain soloClient tokenInner routeIdx req fun _ => .new
    SameOutside (handler 0 quotedRequest) (handler 1 quotedRequest) ∧
      (handler 0 tokenlessRequest).result = .ok (defaultErrorRenderer (.http 401 (str "no token"))) ∧
      (handler 0 tokenlessRequest).state = (fun _ => .new) ∧
      (handler 0 tokenlessRequest).trace.filterMap DispatchEvent.sent? = [] := by
  intro handler
  have hvalid : ValidatesOnly [checkToken] none := ⟨tokenArgs_binds (by decide), fun _ hm => nomatch hm⟩
  have h := fun req : Request Str => @validation_is_transparent Str NoRouteKey RoundRobin _ _ .length .plain
    plain_readsFaithfully soloClient (fun _ _ _ => rfl) tokenInner 0 1 tokenMeta rfl rfl _ _ _ tokenArgs _ _
    tokenArgs_written hvalid false rfl req fun _ => .new
  constructor
  · refine (h quotedRequest).resolve_left ?_
    rintro ⟨err, herr, -⟩
    cases herr
  · rcases h tokenlessRequest with ⟨err, herr, hresult, hpolicies, hsent⟩ | hsame
    · cases herr
      exact ⟨hresult, hpolicies, hsent⟩
    · -- the plain route answers with a 200
      cases hsame.result

end Apigate
