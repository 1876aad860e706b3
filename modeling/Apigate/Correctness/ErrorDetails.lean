import Apigate.App.Tracing
import Apigate.Correctness.HandlerRuns
import Apigate.Correctness.PipelineRules
import Apigate.Lib.Machine

/-!
# `Correctness.ErrorDetails` — the details of an error stay in the debug log

Errors carry two texts: a message for the client, and details, most of them written by the parsers of other
crates, that may quote the request body or name internal types. Two gateways that agree up to the details cannot
be told apart by their clients, by their upstreams, or by a log without `DEBUG`.

"Up to the details" is a map, `withoutDetails`, on everything that may carry an error: the errors themselves,
events, hooks, maps, the arguments of a route and the crates. Two things agree if they have the same image. The
theorem compares two runs, and goes up through the layers of the program in its order:

* operations on the request leave the same state and the same result up to details (`SameUpToDetails`), as no
  operation branches on a text;
* each piece of generated code does (`agrees_*`), and `agreeRules` hands the pieces to the rules of
  `PipelineRules`, for two programs that end likewise and leave equal states;
* what follows the pipeline is equal outright (`forward_agree`), because a handler looks at an error only to
  turn it into a response and into a record;
* the response depends on the status, the message and the code, if the renderer is `Discreet`, and the records
  of the built-in observer on no more than that, below `DEBUG`.

For a sequence of requests the policies are the state that is carried over, and they are equal after each one,
so the two gateways are one `Machine` and give the same answers.

That a hook's operations do not depend on details is part of the assumption, not of the result: hooks and maps
are compared by what they do and by whether they fail, and only the texts of their errors are set apart.
-/

namespace Apigate
open Lib Prog

variable {V ρ σ : Type}

/-! ## What is left without the details

One map for each type, which erases the text and keeps the kind of the error. Errors without such a text are
their own image. -/

def ApigatePipelineError.withoutDetails : ApigatePipelineError → ApigatePipelineError
  | missingFromScope _ => missingFromScope []
  | requestBodyTooLarge _ => requestBodyTooLarge []
  | invalidJsonBody _ => invalidJsonBody []
  | failedSerializeMappedJson _ => failedSerializeMappedJson []
  | invalidQuery _ => invalidQuery []
  | failedSerializeMappedQuery _ => failedSerializeMappedQuery []
  | failedRebuildUri _ => failedRebuildUri []
  | invalidFormQuery _ => invalidFormQuery []
  | failedSerializeMappedForm _ => failedSerializeMappedForm []
  | invalidFormBody _ => invalidFormBody []
  | err => err

def ApigateFrameworkError.withoutDetails : ApigateFrameworkError → ApigateFrameworkError
  | pipeline err => pipeline err.withoutDetails
  | err => err

def ApigateError.withoutDetails : ApigateError → ApigateError
  | framework err => framework err.withoutDetails
  | err => err

section
variable (err : ApigateFrameworkError)

/-- What the client may see of an error: the status code is a matter of its kind. -/
@[simp] theorem statusCode_withoutDetails : err.withoutDetails.statusCode = err.statusCode := by
  cases err with
  | pipeline e => cases e <;> rfl
  | _ => rfl

/-- So is the message, which is fixed for each kind and quotes nothing. -/
@[simp] theorem userMessage_withoutDetails : err.withoutDetails.userMessage = err.userMessage := by
  cases err with
  | pipeline e => cases e <;> rfl
  | _ => rfl

/-- And the code, by which clients tell the kinds apart. -/
@[simp] theorem code_withoutDetails : err.withoutDetails.code = err.code := by
  cases err with
  | pipeline e => cases e <;> rfl
  | _ => rfl

end

def RuntimeEventKind.withoutDetails : RuntimeEventKind → RuntimeEventKind
  | pipelineFailedFramework error => pipelineFailedFramework error.withoutDetails
  | dispatchFailed error => dispatchFailed error.withoutDetails
  | kind => kind

def RuntimeEvent.withoutDetails (event : RuntimeEvent) : RuntimeEvent :=
  { event with kind := event.kind.withoutDetails }

def Hook.withoutDetails (h : Hook V) : Hook V := fun env =>
  ((h env).1, (h env).2.mapError ApigateError.withoutDetails)

def MapFn.withoutDetails (m : MapFn V) : MapFn V := fun f input env =>
  ((m f input env).1, (m f input env).2.mapError ApigateError.withoutDetails)

def Stage.withoutDetails : Stage V → Stage V
  | hook h => hook (Hook.withoutDetails h)
  | map m => map (MapFn.withoutDetails m)
  | s => s

def PipelineEvent.withoutDetails : PipelineEvent V → PipelineEvent V
  | stage s error => stage s.withoutDetails (error.map ApigateError.withoutDetails)
  | event => event

def DispatchEvent.withoutDetails : DispatchEvent V → DispatchEvent V
  | observed event => observed event.withoutDetails
  | pipeline event => pipeline event.withoutDetails
  | event => event

def RouteArgs.withoutDetails (args : RouteArgs V) : RouteArgs V :=
  { args with
    before := args.before.map Hook.withoutDetails
    map := args.map.map MapFn.withoutDetails }

/-- A result without the text of its error. -/
def withoutText {α : Type} (r : Except Str α) : Except Str α := r.mapError fun _ => []

/-- The crates, with nothing left of the texts of their errors. -/
def Crates.withoutDetails (crates : Crates V) : Crates V :=
  { crates with
    parseUri := fun s => withoutText (crates.parseUri s)
    pathAndQuery := fun s => withoutText (crates.pathAndQuery s)
    fromStatic_ok := fun s pq h => congrArg withoutText (crates.fromStatic_ok s pq h)
    uriPartsError := []
    toBytes := fun body limit => withoutText (crates.toBytes body limit)
    queryFromStr := fun ty s => withoutText (crates.queryFromStr ty s)
    jsonFromSlice := fun ty s => withoutText (crates.jsonFromSlice ty s)
    formFromBytes := fun ty s => withoutText (crates.formFromBytes ty s)
    formFromStr := fun ty s => withoutText (crates.formFromStr ty s) }

/-- The two agree up to the texts of errors. -/
def Crates.Agree (crates crates' : Crates V) : Prop := crates.withoutDetails = crates'.withoutDetails

/-- The same, for the pipeline error a text goes into: two results that agree but for their texts agree up to
    details after `mk` has wrapped the text, if the details of `mk` are its text. -/
theorem mapError_of_withoutText {α : Type} {r r' : Except Str α} (h : withoutText r = withoutText r')
    {mk : Str → ApigatePipelineError} (hmk : ∀ s t, (mk s).withoutDetails = (mk t).withoutDetails) :
    (r.mapError fun details => ApigateError.ofPipeline (mk details)).mapError ApigateError.withoutDetails =
      (r'.mapError fun details => ApigateError.ofPipeline (mk details)).mapError
        ApigateError.withoutDetails := by
  rcases mapError_cases h with ⟨a, rfl, rfl⟩ | ⟨s, t, rfl, rfl, -⟩
  · rfl
  · exact congrArg (fun e => Except.error (ApigateError.framework (.pipeline e))) (hmk s t)

/-! ## Operations on the request

What the methods of `PartsCtx` and `RequestScope` call in other crates, and the methods themselves. On the
request they have one effect; an error that they return may have other details. -/

section
variable {crates crates' : Crates V}

/-- The crates of two gateways that agree parse alike, but for the texts of their errors. -/
theorem Crates.Agree.pathAndQuery (h : crates.Agree crates') (s : Str) :
    withoutText (crates.pathAndQuery s) = withoutText (crates'.pathAndQuery s) :=
  congrFun (congrArg Crates.pathAndQuery h) s

theorem Crates.Agree.extractPath (h : crates.Agree crates') : crates.extractPath = crates'.extractPath := by
  have hpath := congrArg Crates.extractPath (Eq.trans rfl h)
  exact hpath

theorem Crates.Agree.toBytes (h : crates.Agree crates') (body : Body) (limit : Nat) :
    withoutText (crates.toBytes body limit) = withoutText (crates'.toBytes body limit) :=
  congrFun (congrFun (congrArg Crates.toBytes h) body) limit

/-- Results and what they leave behind, up to details. -/
def SameUpToDetails {α S : Type} (r r' : Except ApigateError α × S) : Prop :=
  r.1.mapError ApigateError.withoutDetails = r'.1.mapError ApigateError.withoutDetails ∧ r.2 = r'.2

/-- By cases on the form of the URI. The one text that may differ is that of the error for parts that do not
    make a URI, and it is erased. -/
theorem replacePathAndQuery_agree (ctx : PartsCtx V) (pq : PathAndQuery) :
    SameUpToDetails (ctx.replacePathAndQuery crates pq) (ctx.replacePathAndQuery crates' pq) := by
  unfold PartsCtx.replacePathAndQuery
  split
  · exact ⟨rfl, rfl⟩
  · exact ⟨rfl, rfl⟩
  all_goals split <;> exact ⟨rfl, rfl⟩

/-- By cases on whether there is anything to do, and then on what the parser of the new target answers, which is
    the same in both. -/
theorem Crates.Agree.setEncodedQuery (h : crates.Agree crates') (ctx : PartsCtx V) (encoded : Str) :
    SameUpToDetails (ctx.setEncodedQuery crates encoded) (ctx.setEncodedQuery crates' encoded) := by
  simp only [PartsCtx.setEncodedQuery]
  by_cases hsame : ((encoded.isEmpty && ctx.parts.uri.query.isNone) ||
      (!encoded.isEmpty && ctx.parts.uri.query == some encoded)) = true
  · rw [if_pos hsame, if_pos hsame]
    exact ⟨rfl, rfl⟩
  · rw [if_neg hsame, if_neg hsame]
    by_cases hroot : (encoded.isEmpty && ctx.parts.uri.path == str "/") = true
    · rw [if_pos hroot, if_pos hroot]
      exact replacePathAndQuery_agree ctx _
    · rw [if_neg hroot, if_neg hroot]
      generalize (if encoded.isEmpty = true then ctx.parts.uri.path
        else ctx.parts.uri.path ++ str "?" ++ encoded) = text
      rcases mapError_cases (h.pathAndQuery text) with ⟨pq, hpq, hpq'⟩ | ⟨e, e', he, he', -⟩
      · rw [hpq, hpq']
        exact replacePathAndQuery_agree ctx pq
      · rw [he, he']
        exact ⟨rfl, rfl⟩

/-- By cases on whether the body is still there, and then on whether it can be read within the limit. -/
theorem Crates.Agree.readBodyBytes (h : crates.Agree crates') (scope : RequestScope V) :
    SameUpToDetails (scope.readBodyBytes crates) (scope.readBodyBytes crates') := by
  unfold RequestScope.readBodyBytes
  cases scope.body with
  | none => exact ⟨rfl, rfl⟩
  | some body =>
      dsimp only
      rcases mapError_cases (h.toBytes body scope.bodyLimit) with ⟨bytes, hok, hok'⟩ | ⟨e, e', he, he', -⟩
      · rw [hok, hok']
        exact ⟨rfl, rfl⟩
      · rw [he, he']
        exact ⟨rfl, rfl⟩

/-- The operations of a hook have one effect: their results are dropped, and what they leave is equal one by
    one. -/
theorem Crates.Agree.applyOps (h : crates.Agree crates') (env : Env V) (ops : List (UserOp V)) :
    applyOps crates env ops = applyOps crates' env ops := by
  unfold Apigate.applyOps
  congr 1
  funext env op
  cases op with
  | setEncodedQuery encoded =>
      simp only [UserOp.apply, (h.setEncodedQuery env.ctx encoded).2]
  | readBodyBytes => simp only [UserOp.apply, (h.readBodyBytes env.scope).2]
  | _ => rfl

/-- The request that goes upstream. The error of a target that cannot be parsed has no details here, so the two
    are equal. -/
theorem Crates.Agree.upstreamRequest {Pipeline Pipeline' : Type} (h : crates.Agree crates') (backend : Backend)
    {m : RouteMeta Pipeline} {m' : RouteMeta Pipeline'} (hrewrite : m.rewrite = m'.rewrite)
    (hservicePath : m.servicePrefix = m'.servicePrefix) (parts : Parts V) (body : Body) :
    Apigate.upstreamRequest crates backend m parts body =
      Apigate.upstreamRequest crates' backend m' parts body := by
  have hpq : ∀ s, (crates.pathAndQuery s).mapError (fun _ => ProxyErrorKind.invalidUpstreamUri) =
      (crates'.pathAndQuery s).mapError fun _ => .invalidUpstreamUri := by
    intro s
    rcases mapError_cases (h.pathAndQuery s) with ⟨pq, hok, hok'⟩ | ⟨e, e', he, he', -⟩
    · rw [hok, hok']
    · rw [he, he']
      rfl
  unfold Apigate.upstreamRequest rewriteUri rewritePathAndQuery makePathAndQuery
  simp only [hrewrite, hservicePath, hpq]

end

/-! ## Pipelines

The pieces of generated code, each compared with itself over the other crates. The relation is `Alike` with
equal states: if the two end with a value it is the same one, if they end with an error the errors agree up to
details, and so do the events. Rules for `bind`, `lift` and the like are those of `Lib.Alike`. -/

namespace Pipe

/-- Generated code that agrees up to details. -/
abbrev AgreesWith {α : Type} (p q : Pipe V α) : Prop :=
  Alike Eq ApigateError.withoutDetails PipelineEvent.withoutDetails p q

section
variable {crates crates' : Crates V}

/-- A stage shows the error it ends with, so the events agree where the errors do. -/
theorem agrees_stage {α : Type} {s s' : Stage V} {p q : Pipe V α} (hs : s.withoutDetails = s'.withoutDetails)
    (hp : AgreesWith p q) : AgreesWith (stage s p) (stage s' q) := by
  apply Alike.stage hp
  · simp only [PipelineEvent.withoutDetails, hs, Option.map_none]
  · intro e e' he
    simp only [PipelineEvent.withoutDetails, hs, Option.map_some, he]

/-- A hook's operations are applied before its error is returned, and they have one effect. -/
theorem agrees_runHook (hc : crates.Agree crates') {h h' : Hook V} (hh : h.withoutDetails = h'.withoutDetails) :
    AgreesWith (runHook crates h) (runHook crates' h') := by
  refine alike_eq_iff.mpr fun env => ?_
  have henv := congrFun hh env
  simp only [Hook.withoutDetails, Prod.mk.injEq] at henv
  obtain ⟨hops, hresult⟩ := henv
  simp only [runHook_run, Outcome.relabel, hops, hresult, hc.applyOps]

/-- So are those of a map, whose output is the same value. -/
theorem agrees_runMap (hc : crates.Agree crates') {m m' : MapFn V} (hm : m.withoutDetails = m'.withoutDetails)
    (f : Format) (input : f.In V) : AgreesWith (runMap crates m f input) (runMap crates' m' f input) := by
  refine alike_eq_iff.mpr fun env => ?_
  have henv := congrFun (congrFun (congrFun hm f) input) env
  simp only [MapFn.withoutDetails, Prod.mk.injEq] at henv
  obtain ⟨hops, hresult⟩ := henv
  simp only [runMap_run, Outcome.relabel, hops, hresult, hc.applyOps]
  rcases mapError_cases hresult with ⟨a, ha, ha'⟩ | ⟨e, e', he, he', -⟩
  · simp only [ha, ha']
  · simp only [he, he']

/-- The states are equal to begin with, and reading leaves equal ones. -/
theorem agrees_readBodyBytes (hc : crates.Agree crates') :
    AgreesWith (readBodyBytes crates) (readBodyBytes crates' : Pipe V Str) := by
  refine Alike.lift fun env _ heq => ?_
  subst heq
  obtain ⟨hresult, hscope⟩ := hc.readBodyBytes env.scope
  exact ⟨hresult, by dsimp only; rw [hscope]⟩

theorem agrees_extractPath (hc : crates.Agree crates') (ty : TypeId) :
    AgreesWith (lift fun env => (env.ctx.extractPath crates ty, env))
      (lift fun env => (env.ctx.extractPath crates' ty, env)) := by
  refine Alike.lift fun env _ heq => ⟨?_, heq⟩
  subst heq
  simp only [PartsCtx.extractPath, hc.extractPath]

theorem agrees_extractQuery (hc : crates.Agree crates') (ty : TypeId) :
    AgreesWith (lift fun env => (env.ctx.extractQuery crates ty, env))
      (lift fun env => (env.ctx.extractQuery crates' ty, env)) := by
  refine Alike.lift fun env _ heq => ⟨?_, heq⟩
  subst heq
  exact mapError_of_withoutText (congrFun (congrFun (congrArg Crates.queryFromStr hc) ty) _) fun _ _ => rfl

theorem agrees_parseJson (hc : crates.Agree crates') (ty : TypeId) (bytes : Str) :
    AgreesWith (parseJson crates ty bytes) (parseJson crates' ty bytes) :=
  agrees_stage rfl (Alike.ofExcept (mapError_of_withoutText
    (congrFun (congrFun (congrArg Crates.jsonFromSlice hc) ty) bytes) fun _ _ => rfl))

theorem agrees_parseForm (hc : crates.Agree crates') (ty : TypeId) (bytes : Str) :
    AgreesWith (parseForm crates ty bytes) (parseForm crates' ty bytes) :=
  agrees_stage rfl (Alike.ofExcept (mapError_of_withoutText
    (congrFun (congrFun (congrArg Crates.formFromBytes hc) ty) bytes) fun _ _ => rfl))

theorem agrees_parseFormQuery (hc : crates.Agree crates') (ty : TypeId) (raw : Str) :
    AgreesWith (parseFormQuery crates ty raw) (parseFormQuery crates' ty raw) :=
  agrees_stage rfl (Alike.ofExcept (mapError_of_withoutText
    (congrFun (congrFun (congrArg Crates.formFromStr hc) ty) raw) fun _ _ => rfl))

/-- A stage of a map, whatever it does inside. -/
theorem agrees_mapStage {α : Type} {m m' : MapFn V} (hm : m.withoutDetails = m'.withoutDetails) {p q : Pipe V α}
    (hp : AgreesWith p q) : AgreesWith (stage (.map m) p) (stage (.map m') q) :=
  agrees_stage (congrArg Stage.map hm) hp

/-- A map and what replaces the body; what follows the map does not look at the crates. -/
theorem agrees_mapReplaceOrKeep (hc : crates.Agree crates') {m m' : MapFn V}
    (hm : m.withoutDetails = m'.withoutDetails) (f : Format) (input : f.In V) (contentType : Option Str)
    (bytes : Str) : AgreesWith (mapReplaceOrKeep crates m f input contentType bytes)
      (mapReplaceOrKeep crates' m' f input contentType bytes) :=
  -- what follows the map does not look at the crates
  Alike.bind (agrees_mapStage hm (agrees_runMap hc hm f input)) fun _ => .refl _

/-- A map and what replaces the query; the setter may fail, and then the details are those of the crates. -/
theorem agrees_mapQueryExpr (hc : crates.Agree crates') {m m' : MapFn V}
    (hm : m.withoutDetails = m'.withoutDetails) (input : V) :
    AgreesWith (mapQueryExpr crates m input) (mapQueryExpr crates' m' input) := by
  refine agrees_mapStage hm (Alike.bind (agrees_runMap hc hm .form input) fun outcome => ?_)
  cases outcome with
  | keep => exact .refl _
  | replace encoded =>
      refine Alike.lift fun env _ heq => ?_
      subst heq
      obtain ⟨hresult, hctx⟩ := hc.setEncodedQuery env.ctx encoded
      exact ⟨hresult, by dsimp only; rw [hctx]⟩

/-- Piece by piece: where a piece does not look at the crates it is the same program twice. The arguments of the
    two routes agree up to details, so they have the same types and the same kinds of data, and hook by hook and
    map by map the same functions but for the texts of errors. -/
theorem agreeRules (hc : crates.Agree crates') {args args' : RouteArgs V}
    (hargs : args.withoutDetails = args'.withoutDetails) (bodyInQuery : Bool) :
    PhaseRules (.coupled (StoppedLikewise Eq ApigateError.withoutDetails PipelineEvent.withoutDetails)) crates crates'
      args args' bodyInQuery (.constant (Likewise Eq PipelineEvent.withoutDetails)) := by
  simp only [RouteArgs.withoutDetails, RouteArgs.mk.injEq] at hargs
  obtain ⟨-, -, -, hbefore, hmap, hquery, hdata, hpath⟩ := hargs
  have hmaps : ∀ m m', args.map = some m → args'.map = some m' → m.withoutDetails = m'.withoutDetails := by
    intro m m' hm hm'
    rw [hm, hm'] at hmap
    exact Option.some.inj hmap
  constructor
  case pathType => exact hpath.symm
  case queryType => exact hquery.symm
  case data => exact hdata.symm
  case path => exact fun ty _ => agrees_stage rfl (agrees_extractPath hc ty)
  case query => exact fun ty _ => agrees_stage rfl (agrees_extractQuery hc ty)
  case insert => exact fun _ _ _ => Alike.refl _
  case hooks =>
    -- hook by hook
    have hhooks : List.Forall₂ (fun h h' => Hook.withoutDetails h = Hook.withoutDetails h') args.before
        args'.before := List.forall₂_map_left_iff.mp (List.forall₂_map_right_iff.mp
          (List.forall₂_eq_eq_eq ▸ hbefore))
    refine hhooks.imp fun h h' hh _ => ?_
    have hstage : (Stage.hook h).withoutDetails = (Stage.hook h').withoutDetails := congrArg Stage.hook hh
    exact agrees_stage hstage (agrees_runHook hc hh)
  case body =>
    constructor
    case maps =>
      have := congrArg Option.isSome hmap
      rw [Option.isSome_map, Option.isSome_map] at this
      exact this.symm
    case contentType => exact fun _ _ _ _ => Alike.refl _
    case take => exact fun _ => Alike.refl _
    case read => exact fun _ _ => agrees_stage rfl (agrees_readBodyBytes hc)
    case rawBody => exact fun _ _ _ => Alike.refl _
    case parseJson => exact fun ty _ bytes _ => agrees_parseJson hc ty bytes
    case parseForm => exact fun ty _ _ bytes _ => agrees_parseForm hc ty bytes
    case unmapped => exact fun _ _ _ _ _ => Alike.refl _
    case mapped =>
      exact fun m m' hm hm' _ f input bytes => agrees_mapReplaceOrKeep hc (hmaps m m' hm hm') f input _ bytes
    case rawQuery => exact fun _ _ => Alike.refl _
    case parseFormQuery => exact fun ty _ _ raw _ => agrees_parseFormQuery hc ty raw
    case unmappedQuery => exact fun _ _ _ _ => Alike.refl _
    case mappedQuery =>
      exact fun m m' hm hm' _ input _ =>
        Alike.bind (agrees_mapQueryExpr hc (hmaps m m' hm hm') input) fun _ => Alike.refl _

/-- **Pipelines generated from arguments that agree up to details do, too**: both or neither exist, and they
    differ in nothing but details. -/
theorem agrees_generated (hc : crates.Agree crates') {args args' : RouteArgs V}
    (hargs : args.withoutDetails = args'.withoutDetails) (bodyInQuery : Bool) :
    Option.Rel AgreesWith (generatePipelineWrapper crates args bodyInQuery)
      (generatePipelineWrapper crates' args' bodyInQuery) := (agreeRules hc hargs bodyInQuery).generated

end
end Pipe

/-! ## Handlers

The routes of the two gateways are compared field by field, and their pipelines through the arguments from which
they were generated. Everything else in them is equal. -/

def RouteMeta.withoutPipeline {Pipeline : Type} (m : RouteMeta Pipeline) : RouteMeta Pipeline :=
  { m with pipeline := none }

def Inner.withoutRoutes (inner : Inner V) : Inner V := { inner with routeMetas := [] }

/-- Two routes that differ in nothing but the details of errors in their generated pipelines. -/
structure RouteMeta.Agree (crates crates' : Crates V) (m m' : RouteMeta (PipelineFn V)) : Prop where
  same : m.withoutPipeline = m'.withoutPipeline
  generated : ∃ args args' : RouteArgs V, ∃ bodyInQuery, args.withoutDetails = args'.withoutDetails ∧
    m.pipeline = generatePipelineWrapper crates args bodyInQuery ∧
    m'.pipeline = generatePipelineWrapper crates' args' bodyInQuery

/-- Two gateways with such routes. -/
structure Inner.Agree (crates crates' : Crates V) (inner inner' : Inner V) : Prop where
  same : inner.withoutRoutes = inner'.withoutRoutes
  routes : List.Forall₂ (RouteMeta.Agree crates crates') inner.routeMetas inner'.routeMetas

/-- Two such routes have the same fields, apart from the pipeline. -/
theorem RouteMeta.Agree.fields {crates crates' : Crates V} {m m' : RouteMeta (PipelineFn V)}
    (h : m.Agree crates crates' m') : m.service = m'.service ∧ m.routePath = m'.routePath ∧
      m.servicePrefix = m'.servicePrefix ∧ m.rewrite = m'.rewrite ∧ m.pool = m'.pool ∧ m.policy = m'.policy := by
  have hsame := h.same
  simp only [withoutPipeline, RouteMeta.mk.injEq, and_true] at hsame
  exact hsame

/-- Two such gateways have the same settings. -/
theorem Inner.Agree.fields {crates crates' : Crates V} {inner inner' : Inner V}
    (h : inner.Agree crates crates' inner') : inner.state = inner'.state ∧
      inner.mapBodyLimit = inner'.mapBodyLimit ∧ inner.requestTimeout = inner'.requestTimeout ∧
      inner.errorRenderer = inner'.errorRenderer ∧ inner.runtimeObserver = inner'.runtimeObserver := by
  have hsame := h.same
  simp only [withoutRoutes, Inner.mk.injEq, true_and] at hsame
  exact hsame

/-- A renderer that shows of an error what is meant for clients. -/
def Discreet (renderer : ErrorRenderer) : Prop :=
  ∀ e e' : ApigateFrameworkError, e.statusCode = e'.statusCode → e.code = e'.code →
    e.userMessage = e'.userMessage → renderer e = renderer e'

/-- The built-in renderer shows the status and the message. -/
theorem discreet_default : Discreet defaultErrorRenderer := by
  intro e e' hstatus _ hmessage
  unfold defaultErrorRenderer
  rw [hstatus, hmessage]

/-- Errors that differ in details only get the same response. A custom error is a response already and has no
    details; a framework error is rendered from what is the same in both. -/
theorem Discreet.intoResponseWith {renderer : ErrorRenderer} (h : Discreet renderer) {err err' : ApigateError}
    (herr : err.withoutDetails = err'.withoutDetails) :
    err.intoResponseWith renderer = err'.intoResponseWith renderer := by
  cases err with
  | custom response =>
      cases err' with
      | custom response' =>
          cases herr
          rfl
      | framework e' => cases herr
  | framework e =>
      cases err' with
      | custom response' => cases herr
      | framework e' =>
          have he : e.withoutDetails = e'.withoutDetails := ApigateError.framework.inj herr
          refine h e e' ?_ ?_ ?_
          · rw [← statusCode_withoutDetails e, he, statusCode_withoutDetails]
          · rw [← code_withoutDetails e, he, code_withoutDetails]
          · rw [← userMessage_withoutDetails e, he, userMessage_withoutDetails]

namespace Dispatch

/-- Pipeline events as a handler shows them. -/
theorem map_pipeline (tr : List (PipelineEvent V)) :
    (tr.map DispatchEvent.pipeline).map DispatchEvent.withoutDetails =
      (tr.map PipelineEvent.withoutDetails).map .pipeline := by
  rw [List.map_map, List.map_map]
  rfl

/-- The event of a failed pipeline carries the error, or for a custom error its status only. -/
theorem failureKind_withoutDetails {err err' : ApigateError} (h : err.withoutDetails = err'.withoutDetails) :
    (failureKind err).withoutDetails = (failureKind err').withoutDetails := by
  cases err with
  | custom response =>
      cases err' with
      | custom response' =>
          cases h
          rfl
      | framework e' => cases h
  | framework e =>
      cases err' with
      | custom response' => cases h
      | framework e' => exact congrArg RuntimeEventKind.pipelineFailedFramework (ApigateError.framework.inj h)

section
variable {crates crates' : Crates V} {inner inner' : Inner V} {m m' : RouteMeta (PipelineFn V)}

/-- A call of the observer, which is there in both gateways or in neither. -/
theorem observed_agree (hinner : inner.Agree crates crates' inner') (hm : m.Agree crates crates' m')
    {kind kind' : RuntimeEventKind} (hkind : kind.withoutDetails = kind'.withoutDetails) :
    (observed inner m kind).map DispatchEvent.withoutDetails =
      (observed inner' m' kind').map DispatchEvent.withoutDetails := by
  obtain ⟨-, -, -, -, hobserver⟩ := hinner.fields
  obtain ⟨hservice, hpath, -⟩ := hm.fields
  unfold observed
  rw [hobserver]
  split
  · simp only [List.map_cons, List.map_nil, DispatchEvent.withoutDetails, RuntimeEvent.withoutDetails, hservice,
      hpath, hkind]
  · rfl

/-- The pipelines of two such routes: both are generated, and then `agrees_generated` applies, or both are
    missing and the request passes as it is. -/
theorem pipelineOutcome_agree (hc : crates.Agree crates') (hinner : inner.Agree crates crates' inner')
    (hm : m.Agree crates crates' m') (parts : Parts V) (body : Body) :
    (pipelineOutcome inner m parts body).relabel ApigateError.withoutDetails PipelineEvent.withoutDetails =
      (pipelineOutcome inner' m' parts body).relabel ApigateError.withoutDetails
        PipelineEvent.withoutDetails := by
  obtain ⟨hservice, hpath, -⟩ := hm.fields
  obtain ⟨hstate, hlimit, -⟩ := hinner.fields
  obtain ⟨args, args', bodyInQuery, hargs, hpipeline, hpipeline'⟩ := hm.generated
  have hrel := Pipe.agrees_generated hc hargs bodyInQuery
  rw [← hpipeline, ← hpipeline'] at hrel
  unfold pipelineOutcome
  rw [hservice, hpath, hstate, hlimit]
  revert hrel
  rcases m.pipeline with _ | pipeline <;> rcases m'.pipeline with _ | pipeline'
  · exact fun _ => rfl
  · exact fun h => by cases h
  · exact fun h => by cases h
  · rintro ⟨⟩
    rename_i h
    exact alike_eq_iff.mp h _

variable [RouteStrategy ρ] [Balancer σ] [Xxh3]

/-- What follows the pipeline does not look at details at all. -/
theorem forward_agree (hc : crates.Agree crates') (client : Client V) (hinner : inner.Agree crates crates' inner')
    (hm : m.Agree crates crates' m') (parts : Parts V) (body : Body) :
    (forward crates client inner m parts body : Handler V ρ σ Response) =
      forward crates' client inner' m' parts body := by
  obtain ⟨-, -, htimeout, hrenderer, hobserver⟩ := hinner.fields
  obtain ⟨hservice, hpath, hprefix, hrewrite, hpool, hpolicy⟩ := hm.fields
  have hbackendAt : m.backendAt = m'.backendAt := by
    funext picked
    cases picked <;> simp only [RouteMeta.backendAt, hpool]
  have hrequest := fun backend => hc.upstreamRequest backend hrewrite hprefix parts body
  unfold forward selectBackend proxyToBackend proxyRequest emitRuntimeEvent resultEvent
  simp only [RouteMeta.routeCtx, RouteMeta.balanceCtx, htimeout, hrenderer, hobserver, hservice, hpath, hprefix,
    hpool, hpolicy, hbackendAt, hrequest]

/-- **Handlers of gateways that agree up to details** answer alike, leave the same policies, and show the same
    but for details. By cases on the route, which exists in both or in neither, and on the result of its
    pipeline: an error becomes a response and an event, and after a success the two handlers are the same
    program on the same state. -/
theorem proxyHandler_agree (hc : crates.Agree crates') (client : Client V)
    (hinner : inner.Agree crates crates' inner') (hrenderer : Discreet inner.errorRenderer) (routeIdx : Nat)
    (req : Request V) :
    Alike Eq id DispatchEvent.withoutDetails (proxyHandler crates client inner routeIdx req : Handler V ρ σ Response)
      (proxyHandler crates' client inner' routeIdx req) := by
  refine alike_eq_iff.mpr fun policies => ?_
  have hlength := hinner.routes.length_eq
  cases hm : inner.routeMetas[routeIdx]? with
  | none =>
      have hm' : inner'.routeMetas[routeIdx]? = none := by
        rw [List.getElem?_eq_none_iff] at hm ⊢
        omega
      simp only [proxyHandler, hm, hm']
  | some m =>
      obtain ⟨hlt, hget⟩ := List.getElem?_eq_some_iff.mp hm
      have hlt' : routeIdx < inner'.routeMetas.length := hlength ▸ hlt
      have hm' : inner'.routeMetas[routeIdx]? = some inner'.routeMetas[routeIdx] := List.getElem?_eq_getElem hlt'
      have hagree : m.Agree crates crates' inner'.routeMetas[routeIdx] := by
        have h := hinner.routes.get hlt hlt'
        rwa [List.get_eq_getElem, List.get_eq_getElem, hget] at h
      generalize inner'.routeMetas[routeIdx] = m' at hm' hagree
      have houtcome := pipelineOutcome_agree hc hinner hagree req.parts req.body
      simp only [Outcome.relabel, Outcome.mk.injEq] at houtcome
      obtain ⟨hresult, hstate, htrace⟩ := houtcome
      have hstart : startKind m req.parts = startKind m' req.parts := by
        obtain ⟨args, args', bodyInQuery, hargs, hpipeline, hpipeline'⟩ := hagree.generated
        have hrel := Pipe.agrees_generated hc hargs bodyInQuery
        rw [← hpipeline, ← hpipeline'] at hrel
        unfold startKind
        revert hrel
        rcases m.pipeline with _ | pipeline <;> rcases m'.pipeline with _ | pipeline'
        · exact fun _ => rfl
        · exact fun h => by cases h
        · exact fun h => by cases h
        · exact fun _ => rfl
      have hshown : (shownByPipeline inner m req).map DispatchEvent.withoutDetails =
          (shownByPipeline inner' m' req).map DispatchEvent.withoutDetails := by
        unfold shownByPipeline
        rw [List.map_append, List.map_append, map_pipeline, map_pipeline, htrace, hstart]
        congr 1
        exact observed_agree hinner hagree rfl
      rcases mapError_cases hresult with ⟨body, hok, hok'⟩ | ⟨err, err', herr, herr', hdetails⟩
      · rw [proxyHandler_of_ok crates client hm hok, proxyHandler_of_ok crates' client hm' hok',
          forward_agree hc client hinner hagree, hstate]
        simp only [Outcome.relabel, List.map_append, hshown]
      · have hresponse := hrenderer.intoResponseWith hdetails
        obtain ⟨-, -, -, hsame, -⟩ := hinner.fields
        rw [proxyHandler_of_error crates client hm herr, proxyHandler_of_error crates' client hm' herr']
        simp only [Outcome.relabel, List.map_append, hshown, hresponse, ← hsame,
          observed_agree hinner hagree (failureKind_withoutDetails hdetails)]

end
end Dispatch

/-! ## What clients, upstreams and the log see

Three views of the events of a handler, none of which is changed by erasing details: what is sent upstream holds
no error, and the log is made of records that the subscriber asked for. -/

/-- A subscriber that does not ask for the details of errors. -/
structure Subscriber.WithoutDetails (sub : Subscriber) : Prop where
  pipeline : sub.enabled pipelineTarget .debug = false
  dispatch : sub.enabled dispatchTarget .debug = false

/-- A subscriber at `INFO` is one of these. -/
theorem Subscriber.info_withoutDetails : Subscriber.info.WithoutDetails := ⟨rfl, rfl⟩

/-- Its records do not depend on the details. By cases on the event: two of them carry an error, and of that the
    records show the code, the message and the status, unless `DEBUG` is enabled for their target. -/
theorem defaultTracingObserver_withoutDetails {sub : Subscriber} (h : sub.WithoutDetails) (event : RuntimeEvent) :
    defaultTracingObserver sub event.withoutDetails = defaultTracingObserver sub event := by
  obtain ⟨service, routePath, kind⟩ := event
  cases kind with
  | pipelineFailedFramework error =>
      simp [defaultTracingObserver, RuntimeEvent.withoutDetails, RuntimeEventKind.withoutDetails,
        logPipelineFrameworkFailure, logFrameworkFailure, logPipelineDebugDetails, logDebugDetails, h.pipeline,
        RuntimeEvent.fields]
  | dispatchFailed error =>
      simp [defaultTracingObserver, RuntimeEvent.withoutDetails, RuntimeEventKind.withoutDetails,
        logDispatchFrameworkFailure, logFrameworkFailure, logDispatchDebugDetails, logDebugDetails, h.dispatch,
        RuntimeEvent.fields]
  | _ => rfl

/-- The request that an event hands to the upstream. -/
def DispatchEvent.sent? : DispatchEvent V → Option (Request V)
  | sent request => some request
  | _ => none

/-- The records of an event, with the built-in observer. -/
def DispatchEvent.logged (sub : Subscriber) : DispatchEvent V → List Record
  | observed event => defaultTracingObserver sub event
  | _ => []

/-- What others see of a request: the client its response, the upstreams what is sent to them, and the operator
    the log. -/
structure Seen (V : Type) where
  response : Except Panic Response
  sent : List (Request V)
  log : List Record

def Seen.of (sub : Subscriber) (o : Outcome (Policies ρ σ) Panic (DispatchEvent V) Response) : Seen V :=
  ⟨o.result, o.trace.filterMap DispatchEvent.sent?, o.trace.flatMap (DispatchEvent.logged sub)⟩

/-- Details make no difference to it: neither to the result, nor to what each event sends, nor to what it logs.
    -/
theorem Seen.of_eq {sub : Subscriber} (hsub : sub.WithoutDetails)
    {o o' : Outcome (Policies ρ σ) Panic (DispatchEvent V) Response}
    (h : o.relabel id DispatchEvent.withoutDetails = o'.relabel id DispatchEvent.withoutDetails) :
    Seen.of sub o = Seen.of sub o' := by
  simp only [Outcome.relabel, Outcome.mk.injEq] at h
  obtain ⟨hresult, -, htrace⟩ := h
  have hsent : ∀ tr : List (DispatchEvent V), tr.filterMap DispatchEvent.sent? =
      (tr.map DispatchEvent.withoutDetails).filterMap DispatchEvent.sent? := by
    intro tr
    rw [List.filterMap_map]
    congr 1
    funext e
    cases e <;> rfl
  have hlog : ∀ tr : List (DispatchEvent V), tr.flatMap (DispatchEvent.logged sub) =
      (tr.map DispatchEvent.withoutDetails).flatMap (DispatchEvent.logged sub) := by
    intro tr
    rw [List.flatMap_map]
    congr 1
    funext e
    cases e with
    | observed event => exact (defaultTracingObserver_withoutDetails hsub event).symm
    | _ => rfl
  rw [mapError_id, mapError_id] at hresult
  unfold Seen.of
  rw [hresult, hsent o.trace, hsent o'.trace, hlog o.trace, hlog o'.trace, htrace]

section
variable [RouteStrategy ρ] [Balancer σ] [Xxh3]

/-- A gateway that serves one request after another, each on the route with the given index. -/
def serveOne (sub : Subscriber) (crates : Crates V) (client : Client V) (inner : Inner V) (policies : Policies ρ σ)
    (req : Nat × Request V) : Seen V × Policies ρ σ :=
  let o := Dispatch.proxyHandler crates client inner req.1 req.2 policies
  (Seen.of sub o, o.state)

/-- **The details of an error stay in the debug log.** Take two gateways that agree up to the texts of errors:
    those that parsers return, and those in the errors of hooks and maps. No sequence of requests tells them
    apart, neither by the responses, nor by what is sent upstream, nor by the log without `DEBUG`. -/
theorem error_details_stay_in_debug_log {crates crates' : Crates V} (hc : crates.Agree crates')
    {inner inner' : Inner V} (hinner : inner.Agree crates crates' inner') (hrenderer : Discreet inner.errorRenderer)
    {sub : Subscriber} (hsub : sub.WithoutDetails) (client : Client V) (policies : Policies ρ σ)
    (reqs : List (Nat × Request V)) :
    Machine.answers (serveOne sub crates client inner) policies reqs =
      Machine.answers (serveOne sub crates' client inner') policies reqs := by
  have hserveOne : (serveOne sub crates client inner : Policies ρ σ → _) = serveOne sub crates' client inner' := by
    funext policies req
    have h := alike_eq_iff.mp (Dispatch.proxyHandler_agree hc client hinner hrenderer req.1 req.2) policies
    have hstate := congrArg Outcome.state h
    exact Prod.ext (Seen.of_eq hsub h) hstate
  rw [hserveOne]

end

/-! ## Two parsers -/

/-- The crates with a JSON parser that rejects everything, always with the same text. -/
def Crates.rejecting (text : Str) : Crates Str := { Crates.plain with jsonFromSlice := fun _ _ => .error text }

theorem agree_rejecting (text text' : Str) : (Crates.rejecting text).Agree (.rejecting text') := rfl

def quotedRoute : RouteArgs Str := ⟨str "/items", none, none, [], none, none, .json 0, none⟩

/-- A route that expects a JSON body. -/
def quotedMeta (crates : Crates Str) : RouteMeta (PipelineFn Str) :=
  ⟨str "sales", str "/items", str "/sales", .stripPrefix, ⟨[]⟩, 0, generatePipelineWrapper crates quotedRoute false⟩

/-- A gateway with this route. -/
def quotingInner (crates : Crates Str) : Inner Str :=
  ⟨.empty, 1024, 1000, [quotedMeta crates], defaultErrorRenderer, true⟩

theorem agree_quotingInner (crates crates' : Crates Str) :
    (quotingInner crates).Agree crates crates' (quotingInner crates') :=
  ⟨rfl, .cons ⟨rfl, quotedRoute, quotedRoute, false, rfl, rfl, rfl⟩ .nil⟩

def quotedRequest : Request Str :=
  ⟨⟨str "POST", ⟨none, none, some ⟨str "/sales/items", none⟩⟩, str "HTTP/1.1", .empty, .empty⟩,
    .ofBytes (str "hunter2")⟩

/-- The theorem at two parsers, one of which quotes the body. -/
theorem error_details_stay_in_debug_log_json :
    let quoting := Crates.rejecting (str "expected value: hunter2")
    let silent := Crates.rejecting (str "expected value")
    Machine.answers (@serveOne Str NoRouteKey RoundRobin _ _ .length .info quoting (fun _ => (.error (), 0))
        (quotingInner quoting)) (fun _ => .new) [(0, quotedRequest)] =
      Machine.answers (@serveOne Str NoRouteKey RoundRobin _ _ .length .info silent (fun _ => (.error (), 0))
        (quotingInner silent)) (fun _ => .new) [(0, quotedRequest)] :=
  @error_details_stay_in_debug_log Str NoRouteKey RoundRobin _ _ .length _ _ (agree_rejecting _ _) _ _
    (agree_quotingInner _ _) discreet_default _ Subscriber.info_withoutDetails _ _ _

end Apigate
