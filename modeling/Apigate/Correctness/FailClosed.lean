import Apigate.Correctness.Handler
import Apigate.Correctness.PipelineRules

/-!
# `Correctness.FailClosed` — a request whose pipeline fails goes nowhere

A route attribute asks for checks: parameters that parse, hooks that agree, a body in the declared format. That
none of them can be skipped has two halves.

The generated code goes through the stages of its configuration in order and stops at the first that fails. The
assertion for this names the stages that are still to come (`ToCome`); each piece of the pipeline takes its own
stages off the front of that list, or stops with the mark of the one that failed (`stageRules`), and the rule
for pipelines puts the pieces in the order of `RouteArgs.stages`.

The handler does nothing with backends before the pipeline has returned `Ok`: what it shows is the observer's
first event, then the events of the pipeline, and only then what dispatch does. So whatever stands before a call
of a policy or of the upstream contains all the marks of the pipeline, and if one of them is an error there is
no such call.
-/

namespace Apigate
open Lib Prog

variable {V ρ σ : Type}

/-- The stage an event marks, and the error the stage ended with. -/
def PipelineEvent.stage? : PipelineEvent V → Option (Stage V × Option ApigateError)
  | .stage s error => some (s, error)
  | .op _ | .mapped .. => none

/-! ## Every pipeline goes through its stages

A stage marks its end in the trace, and only stages do. So code without marks leaves the list of what is to come
(`Quiet`), and a stage takes its own name off it or stops everything. -/

namespace Pipe

variable {crates : Crates V} {stages rest : List (Stage V)}

/-- Code between the stages. -/
abbrev Quiet {α : Type} (p : Pipe V α) : Prop := Emits (PipelineEvent.stage? · = none) p

/-- These stages of the pipeline are still to come, and none so far has failed. -/
abbrev ToCome (stages rest : List (Stage V)) : EnvAssertion V := Progress PipelineEvent.stage? stages rest

/-- Code that gets past the stages `done`, or stops at the first of them that fails. -/
abbrev GetsPast {α : Type} (stages done rest : List (Stage V)) (p : Pipe V α) : Prop :=
  Ends (ToCome stages (done ++ rest)) p (fun _ => ToCome stages rest) (StoppedAt PipelineEvent.stage? stages)

/-- A stage, around code that marks nothing. -/
theorem getsPast_stage {α : Type} {s : Stage V} {p : Pipe V α} (h : Quiet p) :
    GetsPast stages [s] rest (stage s p) :=
  Ends.progress (fun _ => rfl) h

/-- Edits of the headers are no stages. -/
theorem getsPast_headersMut (headers : HeaderMap → HeaderMap) : GetsPast stages [] rest (headersMut headers) :=
  Ends.modify fun _ _ h => h

/-- Operations are no marks, -/
theorem quiet_ops (ops : List (UserOp V)) :
    ∀ e ∈ ops.map (PipelineEvent.op (V := V)), e.stage? = none := by
  intro e he
  obtain ⟨o, -, rfl⟩ := List.mem_map.mp he
  rfl

/-- so a hook has none, -/
theorem quiet_runHook (h : Hook V) : Quiet (runHook crates h) := by
  refine Emits.bind Emits.gets fun ⟨ops, result⟩ => ?_
  refine Emits.bind (Emits.tell (quiet_ops ops)) fun _ => ?_
  exact Emits.bind Emits.modify fun _ => Emits.ofExcept

/-- and neither has a map. -/
theorem quiet_runMap (m : MapFn V) (f : Format) (input : f.In V) : Quiet (runMap crates m f input) := by
  refine Emits.bind Emits.gets fun ⟨ops, result⟩ => ?_
  refine Emits.bind (Emits.tell (quiet_ops ops)) fun _ => ?_
  refine Emits.bind Emits.modify fun _ => ?_
  refine Emits.bind Emits.ofExcept fun outcome => ?_
  exact Emits.bind (Emits.tell (by simp [PipelineEvent.stage?])) fun _ => Emits.pure

/-- The map's stage is over when the map has returned; what follows for its outcome cannot fail. -/
theorem getsPast_mapReplaceOrKeep (m : MapFn V) (f : Format) (input : f.In V)
    (contentType : Option Str) (bytes : Str) :
    GetsPast stages [.map m] rest (mapReplaceOrKeep crates m f input contentType bytes) := by
  refine Ends.bind (getsPast_stage (quiet_runMap m f input)) fun outcome => ?_
  cases outcome with
  | keep => exact Ends.pure fun _ _ h => h
  | replace newBody =>
      cases contentType with
      | none => exact Ends.bind (getsPast_headersMut _) fun _ => Ends.pure fun _ _ h => h
      | some contentType =>
          exact Ends.bind (getsPast_headersMut _) fun _ => Ends.bind (getsPast_headersMut _) fun _ =>
            Ends.pure fun _ _ h => h

/-- A replacement of the query belongs to the map's stage. -/
theorem getsPast_mapQueryExpr (m : MapFn V) (input : V) :
    GetsPast stages [.map m] rest (mapQueryExpr crates m input) := by
  refine getsPast_stage (Emits.bind (quiet_runMap m .form input) fun outcome => ?_)
  cases outcome with
  | keep => exact Emits.pure
  | replace encoded => exact Emits.lift

/-- Each piece takes its own stages off the front. -/
theorem stageRules (args : RouteArgs V) (bodyInQuery : Bool) (stages : List (Stage V)) :
    PhaseRules (.ends (StoppedAt PipelineEvent.stage? stages)) crates crates args args bodyInQuery
      ⟨ToCome stages, fun _ => ToCome stages, fun _ _ _ => ToCome stages, fun _ => ToCome stages []⟩ := by
  constructor
  case pathType | queryType | data => rfl
  case path => exact fun ty _ => getsPast_stage Emits.lift
  case query => exact fun ty _ => getsPast_stage Emits.lift
  case insert => exact fun ty value _ => Ends.modify fun _ _ h => h
  case hooks => exact List.forall₂_same.mpr fun h _ _ => getsPast_stage (quiet_runHook h)
  case body =>
    constructor
    case maps => rfl
    case contentType => exact fun _ _ _ _ => getsPast_stage Emits.lift
    case take => exact fun _ => getsPast_stage Emits.lift
    case read => exact fun _ _ => getsPast_stage Emits.lift
    case rawBody => exact fun _ _ _ => getsPast_stage Emits.lift
    case parseJson => exact fun _ _ _ _ => getsPast_stage Emits.ofExcept
    case parseForm => exact fun _ _ _ _ _ => getsPast_stage Emits.ofExcept
    case unmapped => exact fun _ _ _ _ _ => Ends.pure fun _ _ h => h
    case mapped => exact fun m _ _ _ _ f input bytes => getsPast_mapReplaceOrKeep m f input _ bytes
    case rawQuery => exact fun _ _ => Ends.gets fun _ _ h => h
    case parseFormQuery => exact fun _ _ _ _ _ => getsPast_stage Emits.ofExcept
    case unmappedQuery => exact fun _ _ _ _ => getsPast_stage Emits.lift
    case mappedQuery =>
      exact fun m _ _ _ _ input _ => Ends.bind (getsPast_mapQueryExpr m input) fun _ => getsPast_stage Emits.lift

/-- **Every generated pipeline goes through the stages of its configuration.** -/
theorem staged_generated {args : RouteArgs V} {bodyInQuery : Bool} {pipeline : PipelineFn V}
    (h : generatePipelineWrapper crates args bodyInQuery = some pipeline) (env : Env V) :
    Staged PipelineEvent.stage? (args.stages bodyInQuery) (pipeline env) :=
  staged_of_ends ((stageRules args bodyInQuery _).one_run h) env

end Pipe

/-! ## Stage marks of a handler

The marks of the pipeline, with those of others filtered out, of which there are none. -/

/-- The stage mark a handler shows, if it is one. -/
def DispatchEvent.stage? : DispatchEvent V → Option (Stage V × Option ApigateError)
  | .pipeline event => event.stage?
  | _ => none

open Dispatch

/-- The observer's events are no marks. -/
theorem filterMap_observed (inner : Inner V) (routeMeta : RouteMeta (PipelineFn V))
    (kind : RuntimeEventKind) : (observed inner routeMeta kind).filterMap DispatchEvent.stage? = [] := by
  refine List.filterMap_eq_nil_iff.mpr fun e he => ?_
  rw [eq_of_mem_observed he]
  rfl

/-- The stage marks up to the end of the pipeline are those of the pipeline. -/
theorem marks_of_pipeline (inner : Inner V) (routeMeta : RouteMeta (PipelineFn V))
    (start : RuntimeEventKind) (tr : List (PipelineEvent V)) :
    (observed inner routeMeta start ++ tr.map DispatchEvent.pipeline).filterMap DispatchEvent.stage? =
      tr.filterMap PipelineEvent.stage? := by
  rw [List.filterMap_append, filterMap_observed, List.filterMap_map, List.nil_append]
  rfl

/-! ## The main result -/

/-- An element that is not in the first part lies in the second. -/
theorem split_second {α : Type} {l₁ l₂ before after : List α} {x : α}
    (h : l₁ ++ l₂ = before ++ x :: after) (hx : x ∉ l₁) :
    ∃ mid, before = l₁ ++ mid ∧ l₂ = mid ++ x :: after := by
  rcases List.append_eq_append_iff.mp h with ⟨mid, hbefore, hrest⟩ | ⟨mid, hfirst, hrest⟩
  · exact ⟨mid, hbefore, hrest⟩
  · -- a cut inside the first part is at its end
    cases mid with
    | nil => exact ⟨[], by rw [hfirst, List.append_nil, List.append_nil], hrest.symm⟩
    | cons y mid =>
        have hxy : x = y := (List.cons.inj hrest).1
        have hmem : x ∈ l₁ := by
          rw [hfirst, hxy]
          simp
        exact absurd hmem hx

/-- A run of a handler fails closed: before any policy or the upstream is called, all `stages` have ended
    without an error, each once, in order; and either they all do, or they end at the first error, with no call,
    the policies unchanged, and the response of that error. -/
def FailsClosed (stages : List (Stage V)) (policies : Policies ρ σ) (renderer : ErrorRenderer)
    (run : Outcome (Policies ρ σ) Panic (DispatchEvent V) Response) : Prop :=
  (∀ before e after, run.trace = before ++ e :: after → e.isBackendCall = true →
    before.filterMap DispatchEvent.stage? = stages.map (·, none)) ∧
  (run.trace.filterMap DispatchEvent.stage? = stages.map (·, none) ∨
    ∃ done failed err rest, stages = done ++ failed :: rest ∧
      run.trace.filterMap DispatchEvent.stage? = done.map (·, none) ++ [(failed, some err)] ∧
      (∀ e ∈ run.trace, e.isBackendCall = false) ∧ run.state = policies ∧
      run.result = .ok (err.intoResponseWith renderer))

section
variable [RouteStrategy ρ] [Balancer σ] [Xxh3]

/-- **Pipelines fail closed.** For every route configuration with a generated pipeline, every request and every
    behaviour of its hooks and map. -/
theorem pipelines_fail_closed (crates : Crates V) (client : Client V) {inner : Inner V} {routeIdx : Nat}
    {routeMeta : RouteMeta (PipelineFn V)} {args : RouteArgs V} {kind : Method} {pipeline : PipelineFn V}
    (hgen : generatePipelineWrapper crates args kind.bodyInQuery = some pipeline)
    (hmeta : inner.routeMetas[routeIdx]? = some routeMeta) (hpipe : routeMeta.pipeline = some pipeline)
    (req : Request V) (policies : Policies ρ σ) :
    FailsClosed (args.stages kind.bodyInQuery) policies inner.errorRenderer
      (proxyHandler crates client inner routeIdx req policies) := by
  generalize hrun' : proxyHandler crates client inner routeIdx req policies = run
  -- what the pipeline did
  have houtcome : pipelineOutcome inner routeMeta req.parts req.body = pipeline
      ⟨⟨routeMeta.service, routeMeta.routePath, req.parts⟩,
        .new inner.state req.body inner.mapBodyLimit⟩ := by
    unfold pipelineOutcome
    rw [hpipe]
  have hstaged : Staged PipelineEvent.stage? (args.stages kind.bodyInQuery)
      (pipelineOutcome inner routeMeta req.parts req.body) := by
    rw [houtcome]
    exact Pipe.staged_generated hgen _
  unfold Staged at hstaged
  cases hresult : (pipelineOutcome inner routeMeta req.parts req.body).result with
  | error err =>
      -- the handler ends with the pipeline: it shows observer and pipeline events only
      rw [hresult] at hstaged
      obtain ⟨done, failed, rest, hstages, hmarks⟩ := hstaged
      obtain ⟨start, failure, hrun⟩ := proxyHandler_failed crates client hmeta hresult policies
      rw [hrun'] at hrun
      have htrace : run.trace = _ := congrArg Outcome.trace hrun
      have hcalls : ∀ e ∈ run.trace, e.isBackendCall = false := by
        intro e he
        rw [htrace, ← List.append_assoc] at he
        rcases List.mem_append.mp he with he | he
        · exact no_backendCall_in_pipeline he
        · rw [eq_of_mem_observed he]
          rfl
      refine ⟨?_, Or.inr ⟨done, failed, err, rest, hstages, ?_, hcalls, ?_, ?_⟩⟩
      · intro before e after hsplit hcall
        have hmem : e ∈ run.trace := by
          rw [hsplit]
          simp
        rw [hcalls e hmem] at hcall
        cases hcall
      · rw [htrace, ← List.append_assoc, List.filterMap_append, marks_of_pipeline, filterMap_observed,
          hmarks, List.append_nil]
      · exact congrArg Outcome.state hrun
      · exact congrArg Outcome.result hrun
  | ok body =>
      -- the pipeline's events come first, and what follows marks no stage
      rw [hresult] at hstaged
      obtain ⟨start, hrun⟩ := proxyHandler_passed crates client hmeta hresult policies
      rw [hrun'] at hrun
      have htrace : run.trace = _ := congrArg Outcome.trace hrun
      simp only [← List.append_assoc] at htrace
      have hrest : ∀ e ∈ (forward crates client inner routeMeta
          (pipelineOutcome inner routeMeta req.parts req.body).state.ctx.parts body policies).trace,
          DispatchEvent.stage? e = none := by
        intro e he
        have hforwards := forwards_forward client inner policies e he
        cases e with
        | pipeline event => exact hforwards.elim
        | _ => rfl
      refine ⟨?_, Or.inl ?_⟩
      · intro before e after hsplit hcall
        rw [htrace] at hsplit
        have hlate : e ∉ observed inner routeMeta start ++
            (pipelineOutcome inner routeMeta req.parts req.body).trace.map .pipeline := by
          intro hmem
          rw [no_backendCall_in_pipeline hmem] at hcall
          cases hcall
        obtain ⟨mid, hbefore, hmid⟩ := split_second hsplit hlate
        have hquiet : mid.filterMap DispatchEvent.stage? = [] := by
          refine List.filterMap_eq_nil_iff.mpr fun e' he' => hrest e' ?_
          rw [hmid]
          exact List.mem_append_left _ he'
        rw [hbefore, List.filterMap_append, marks_of_pipeline, hquiet, hstaged, List.append_nil]
      · rw [htrace, List.filterMap_append, marks_of_pipeline, List.filterMap_eq_nil_iff.mpr hrest, hstaged,
          List.append_nil]

end

/-! ## An example -/

def unauthorized : Response := ⟨401, .empty, .ofBytes (str "unauthorized")⟩

/-- A route with one hook that rejects every request. -/
def guardedRoute : RouteArgs Str :=
  ⟨str "/items", none, none, [fun _ => ([], .error (.custom unauthorized))], none, none, .none, none⟩

def guardedInner : Inner Str :=
  ⟨.empty, 1024, 1000, [⟨str "sales", str "/items", str "/sales", .stripPrefix, ⟨[]⟩, 0,
    generatePipelineWrapper .plain guardedRoute false⟩], defaultErrorRenderer, true⟩

def itemsRequest : Request Str :=
  ⟨⟨str "GET", ⟨none, none, some ⟨str "/sales/items", none⟩⟩, str "HTTP/1.1", .empty, .empty⟩, .ofBytes []⟩

/-- The theorem at that route. -/
theorem pipelines_fail_closed_guarded :
    FailsClosed (guardedRoute.stages false) (fun _ => Policy.new) defaultErrorRenderer
      (@proxyHandler Str NoRouteKey RoundRobin _ _ .length .plain (fun _ => (.error (), 0)) guardedInner 0
        itemsRequest fun _ => .new) :=
  @pipelines_fail_closed Str NoRouteKey RoundRobin _ _ .length .plain (fun _ => (.error (), 0))
    guardedInner 0 _ guardedRoute .get _ rfl rfl rfl itemsRequest fun _ => .new

end Apigate
