import Apigate.Correctness.EncodedQuery
import Apigate.Correctness.QueryKept
import Apigate.Correctness.Validation
import Apigate.Lib.Fold

/-!
# `Correctness.Mapping` — a mapped route is the plain route on the mapped request

A map gets the data of a request, parsed, and what it returns takes the place of that data: of the body, or of
the query where the method has no body. If nobody else touches the head, that is all: the handler of the route
does with a request what the handler of the same route without a pipeline does with the mapped one.

The mapped request has to be described without the pipeline. `MapInput` says what the data of a request is, for
each kind of data and by what the parsers of other crates make of it; `Carries` says what request the output
makes, by what the serializers write. Between the two stands one call of the user's function, with its hooks
long done.

The walk through the generated code is that of `PipelineRules`, in the logic of triples. Its assertion says more
and more on the way (`mapAssertions`): first that the head is untouched and the body untouched or consumed; then
what the text of the data is; then that the input of the map is parsed from this text; and in the end that the
map has run on it and what is passed on for its outcome (`PassesOn`). `PassesOn.carries` turns the last into the
request with the output in it, which is where the two conditions on other crates are needed: reading gives the
bytes that were sent, and what is written into a query has no `#`.

From there the argument is that of `Correctness.Validation`: what follows the pipeline looks at the head and the
bytes of the body, and both handlers run it on the same.
-/

namespace Apigate
open Lib Text Syn Prog Fold Dispatch

variable {V ρ σ : Type}

/-! ## What a map is given

Input and outcome as relations, so that each says for one kind of data what holds, and the cases of a route are
those of its constructors. -/

/-- The data of a request as the map of a route gets it: parsed from the body or the query, or the body's bytes. -/
inductive MapInput (crates : Crates V) (bodyInQuery : Bool) (limit : Nat) (req : Request V) :
    DataKind → (f : Format) → f.In V → Prop
  | bytes {bytes : Str} (hread : crates.toBytes req.body limit = .ok bytes) :
      MapInput crates bodyInQuery limit req .none .raw bytes
  | multipart {bytes : Str} (hread : crates.toBytes req.body limit = .ok bytes) :
      MapInput crates bodyInQuery limit req .multipart .raw bytes
  | json {ty : TypeId} {bytes : Str} {value : V} (hread : crates.toBytes req.body limit = .ok bytes)
      (hparse : crates.jsonFromSlice ty bytes = .ok value) :
      MapInput crates bodyInQuery limit req (.json ty) .json value
  | form {ty : TypeId} {bytes : Str} {value : V} (hquery : bodyInQuery = false)
      (hread : crates.toBytes req.body limit = .ok bytes) (hparse : crates.formFromBytes ty bytes = .ok value) :
      MapInput crates bodyInQuery limit req (.form ty) .form value
  | query {ty : TypeId} {value : V} (hquery : bodyInQuery = true)
      (hparse : crates.formFromStr ty (req.parts.uri.query.getD []) = .ok value) :
      MapInput crates bodyInQuery limit req (.form ty) .form value

/-- What the generated code passes on for an outcome of the map: the head and the body. -/
inductive PassesOn (crates : Crates V) (inQuery : Bool) (ctx : PartsCtx V) (incoming : Body) :
    (f : Format) → BodyOutcome f.Out → PartsCtx V → Body → Prop
  | kept {f : Format} {body : Body} (hsame : crates.ReadsFaithfully → body.Same incoming) :
      PassesOn crates inQuery ctx incoming f .keep ctx body
  | body {f : Format} {payload : f.Out} (hquery : inQuery = false) :
      PassesOn crates inQuery ctx incoming f (.replace payload)
        (ctx.setHeaders (f.replacedHeaders ctx.parts.headers)) (f.toBody payload)
  | query {encoded : Str} {after : PartsCtx V} (hquery : inQuery = true)
      (hset : ctx.setEncodedQuery crates encoded = (.ok (), after)) :
      PassesOn crates inQuery ctx incoming .form (.replace encoded) after incoming

/-- The map leaves the head alone. -/
abbrev MapFn.OffCtx (m : MapFn V) : Prop := ∀ f input env, ∀ op ∈ (m f input env).1, op.onCtx = false

/-- The map returned this for this input, when the head was this one. -/
def MapFn.Gives (m : MapFn V) (ctx : PartsCtx V) (f : Format) (input : f.In V) (outcome : BodyOutcome f.Out) : Prop :=
  ∃ env, env.ctx = ctx ∧ (m f input env).2 = .ok outcome

/-! ## Through the pipeline

`Untouched` is kept by everything that is not an operation on the head. The body may be consumed by a hook, and
then the stage that needs it fails, so that nothing has to be said of what follows. -/

/-- The head is as it was, and so is the body, unless somebody has consumed it. -/
structure Untouched (ctx : PartsCtx V) (incoming : Body) (limit : Nat) (env : Env V) : Prop where
  head : env.ctx = ctx
  body : env.scope.body = some incoming ∨ env.scope.body = none
  bodyLimit : env.scope.bodyLimit = limit

section
variable {crates : Crates V} {ctx : PartsCtx V} {incoming : Body} {limit : Nat}

/-- An operation that is not on the head leaves it, and leaves the body or consumes it. -/
theorem Untouched.apply {env : Env V} {op : UserOp V} (h : Untouched ctx incoming limit env)
    (hop : op.onCtx = false) : Untouched ctx incoming limit (op.apply crates env) := by
  refine ⟨(op.apply_ctx crates env hop).trans h.head, ?_, (op.apply_bodyLimit crates env).trans h.bodyLimit⟩
  rcases op.apply_body crates env with hbody | hbody
  · rw [hbody]
    exact h.body
  · exact .inr hbody

/-- So does a list of them. -/
theorem Untouched.applyOps {env : Env V} {ops : List (UserOp V)} (h : Untouched ctx incoming limit env)
    (hops : ∀ op ∈ ops, op.onCtx = false) : Untouched ctx incoming limit (applyOps crates env ops) :=
  applyOps_keeps (R := Untouched ctx incoming limit) (fun _ _ hop h => h.apply hop) hops h

namespace Pipe

/-- Code that leaves the head, and the body or nothing of it. -/
abbrev LeavesRequest {α : Type} (p : Pipe V α) (ctx : PartsCtx V) (incoming : Body) (limit : Nat) : Prop :=
  Triple (fun env _ => Untouched ctx incoming limit env) p fun _ env _ => Untouched ctx incoming limit env

theorem triple_stage {α : Type} {s : Stage V} {p : Pipe V α} {P : Env V → Prop} {Q : α → Env V → Prop}
    (h : Triple (fun env _ => P env) p fun a env _ => Q a env) :
    Triple (fun env _ => P env) (stage s p) fun a env _ => Q a env :=
  Triple.stage h fun _ _ _ hq => hq

/-- Code that only looks. -/
theorem leavesRequest_look {α : Type} {f : Env V → Except ApigateError α × Env V} (h : ∀ env, (f env).2 = env) :
    LeavesRequest (lift f) ctx incoming limit := by
  refine Triple.lift fun env tr a huntouched _ => ?_
  rw [h]
  exact huntouched

/-- A hook without operations on the head. -/
theorem leavesRequest_runHook {h : Hook V} (hops : ∀ env, ∀ op ∈ (h env).1, op.onCtx = false) :
    LeavesRequest (runHook crates h) ctx incoming limit :=
  (ends_runHook fun env _ huntouched => huntouched.applyOps (hops env)).triple

/-- The check of the content type only looks. -/
theorem leavesRequest_contentTypeGuard (typePrefix : Str) (needle : Option Str) (error : ApigatePipelineError) :
    LeavesRequest (contentTypeGuard (V := V) typePrefix needle error) ctx incoming limit := by
  refine triple_stage (leavesRequest_look fun env => ?_)
  dsimp only
  split <;> rfl

/-- Reading gives the bytes of the incoming body, and remembers them. -/
theorem reads_body : Triple (fun env _ => Untouched ctx incoming limit env) (stage .readBody (readBodyBytes crates))
    fun bytes env _ => Untouched ctx incoming limit env ∧ env.scope.rawBody = some bytes ∧
      crates.toBytes incoming limit = .ok bytes := by
  refine triple_stage (Triple.lift ?_)
  intro env tr bytes h hok
  simp only [RequestScope.readBodyBytes] at hok ⊢
  rcases h.body with hbody | hbody
  · simp only [hbody, h.bodyLimit] at hok ⊢
    cases hread : crates.toBytes incoming limit with
    | error err =>
        rw [hread] at hok
        cases hok
    | ok bytes' =>
        rw [hread] at hok
        obtain rfl := Except.ok.inj hok
        exact ⟨⟨h.head, .inr rfl, rfl⟩, rfl, rfl⟩
  · rw [hbody] at hok
    cases hok

/-- The raw bytes are those that were read. -/
theorem clones_rawBody {bytes : Str} :
    Triple (fun env _ => Untouched ctx incoming limit env ∧ env.scope.rawBody = some bytes) rawBodyExpr
      fun raw env _ => Untouched ctx incoming limit env ∧ raw = bytes := by
  refine triple_stage (Triple.lift ?_)
  rintro env tr raw ⟨huntouched, hcached⟩ hok
  simp only [RequestScope.rawBodyCloned, hcached, Except.ok.injEq] at hok ⊢
  exact ⟨huntouched, hok.symm⟩

/-- Taking gives the incoming body, and leaves the head, of which anything may be known. -/
theorem takes_body {C : PartsCtx V → Prop} :
    Triple (fun env _ => (env.scope.body = some incoming ∨ env.scope.body = none) ∧ C env.ctx) takeBodyExpr
      fun body env _ => body = incoming ∧ C env.ctx := by
  refine triple_stage (Triple.lift ?_)
  rintro env tr body ⟨hbody, hctx⟩ hok
  rcases hbody with hbody | hbody
  · simp only [RequestScope.takeBody, hbody, Except.ok.injEq] at hok ⊢
    exact ⟨hok.symm, hctx⟩
  · simp only [RequestScope.takeBody, hbody] at hok
    cases hok

/-- The map has been called on an untouched request, and has returned the outcome. -/
theorem gives_runMap {m : MapFn V} (hops : m.OffCtx) {f : Format} (input : f.In V) :
    Triple (fun env _ => Untouched ctx incoming limit env) (runMap crates m f input) fun outcome env _ =>
      Untouched ctx incoming limit env ∧ m.Gives ctx f input outcome :=
  (ends_runMap (fun env _ huntouched => huntouched.applyOps (hops f input env))
    fun env₀ _ _ hcalled hreturned _ _ huntouched => ⟨huntouched, env₀, hcalled.head, hreturned⟩).triple

/-! ## The map and what follows it

Two forms, for data in the body and in the query. In the second the body is taken afterwards, by another piece
of code. -/

/-- The map has run on data of this request, and its outcome is passed on. -/
def MapPasses (crates : Crates V) (m : MapFn V) (data : DataKind) (bodyInQuery : Bool) (limit : Nat)
    (ctx : PartsCtx V) (incoming : Body) (body : Body) (env : Env V) : Prop :=
  ∃ f input outcome, MapInput crates bodyInQuery limit ⟨ctx.parts, incoming⟩ data f input ∧
    m.Gives ctx f input outcome ∧ PassesOn crates (data.inQuery bodyInQuery) ctx incoming f outcome env.ctx body

variable {m : MapFn V} {data : DataKind} {bodyInQuery : Bool}

/-- The map of a route with its data in the body. By cases on the outcome: kept, the bytes that were read are
    passed on; replaced, the payload with the headers of its format. -/
theorem passes_mapReplaceOrKeep (hops : m.OffCtx) {f : Format}
    {input : f.In V} {bytes : Str} (hquery : data.inQuery bodyInQuery = false)
    (hread : crates.toBytes incoming limit = .ok bytes)
    (hinput : MapInput crates bodyInQuery limit ⟨ctx.parts, incoming⟩ data f input) :
    Triple (fun env _ => Untouched ctx incoming limit env) (mapReplaceOrKeep crates m f input f.contentType bytes)
      fun body env _ => MapPasses crates m data bodyInQuery limit ctx incoming body env := by
  refine Triple.bind (triple_stage (gives_runMap hops input)) fun outcome => ?_
  cases outcome with
  | keep =>
      refine Triple.pure ?_
      rintro env tr ⟨huntouched, hgives⟩
      refine ⟨f, input, _, hinput, hgives, ?_⟩
      rw [huntouched.head]
      exact .kept fun hfaithful => same_ofBytes (hfaithful _ _ _ hread)
  | replace payload =>
      -- the headers that go with the new body, one edit after the other
      have hfinish : ∀ headers : HeaderMap → HeaderMap,
          Triple (fun env _ => (∃ kept, env.ctx = ctx.setHeaders kept ∧
                headers kept = f.replacedHeaders ctx.parts.headers) ∧ m.Gives ctx f input (.replace payload))
            (headersMut headers >>= fun _ => (pure (f.toBody payload) : Pipe V Body))
            fun body env _ => MapPasses crates m data bodyInQuery limit ctx incoming body env := by
        intro headers
        refine Triple.bind (Q := fun _ env _ => env.ctx = ctx.setHeaders (f.replacedHeaders ctx.parts.headers) ∧
          m.Gives ctx f input (.replace payload)) (Triple.modify ?_) fun _ => Triple.pure ?_
        · rintro env tr ⟨⟨kept, hctx, hheaders⟩, hgives⟩
          refine ⟨?_, hgives⟩
          rw [hctx, ← hheaders]
          rfl
        · rintro env tr ⟨hctx, hgives⟩
          refine ⟨f, input, _, hinput, hgives, ?_⟩
          rw [hctx]
          exact .body hquery
      cases hct : f.contentType with
      | none =>
          refine Triple.weaken (hfinish (·.remove .contentLength)) ?_ fun _ _ _ h => h
          rintro env tr ⟨huntouched, hgives⟩
          refine ⟨⟨ctx.parts.headers, huntouched.head, ?_⟩, hgives⟩
          simp [Format.replacedHeaders, hct]
      | some contentType =>
          refine Triple.bind (Triple.modify ?_) fun _ => hfinish (·.remove .contentLength)
          rintro env tr ⟨huntouched, hgives⟩
          refine ⟨⟨ctx.parts.headers.insert .contentType contentType, ?_, ?_⟩, hgives⟩
          · rw [huntouched.head]
          · simp [Format.replacedHeaders, hct]

/-- The map changes the query, or it does not. A query that cannot be set ends the pipeline, and then nothing is
    passed on. -/
theorem passes_mapQueryExpr (hops : m.OffCtx) (input : V) :
    Triple (fun env _ => Untouched ctx incoming limit env) (mapQueryExpr crates m input) fun _ env _ =>
      (env.scope.body = some incoming ∨ env.scope.body = none) ∧
        ∃ outcome, m.Gives ctx .form input outcome ∧
          PassesOn crates true ctx incoming .form outcome env.ctx incoming := by
  refine triple_stage (Triple.bind (gives_runMap (f := .form) hops input) fun outcome => ?_)
  cases outcome with
  | keep =>
      refine Triple.pure ?_
      rintro env tr ⟨huntouched, hgives⟩
      refine ⟨huntouched.body, _, hgives, ?_⟩
      rw [huntouched.head]
      exact .kept fun _ => ⟨rfl, rfl⟩
  | replace encoded =>
      refine Triple.lift ?_
      rintro env tr u ⟨huntouched, hgives⟩ hset
      have hset : (env.ctx.setEncodedQuery crates encoded).1 = .ok () := hset
      rw [huntouched.head] at hset
      refine ⟨huntouched.body, _, hgives, .query rfl ?_⟩
      show _ = (Except.ok (), (env.ctx.setEncodedQuery crates encoded).2)
      rw [huntouched.head, ← hset]

end Pipe

open Pipe

/-! ## Piece by piece

The assertions at the four places, and the facts for the pieces between them. -/

/-- The text of the data is the query of the request, or the bytes of its body, which the scope has remembered. -/
def TextThere (crates : Crates V) (ctx : PartsCtx V) (incoming : Body) (limit : Nat) (inQuery : Bool) (text : Str)
    (env : Env V) : Prop :=
  match inQuery with
  | true => text = ctx.parts.uri.query.getD []
  | false => env.scope.rawBody = some text ∧ crates.toBytes incoming limit = .ok text

/-- What holds where the pieces of a pipeline with the map `m` meet. -/
def mapAssertions (crates : Crates V) (m : MapFn V) (data : DataKind) (bodyInQuery : Bool) (limit : Nat)
    (ctx : PartsCtx V) (incoming : Body) : PhaseAssertions V (EnvAssertion V) where
  start _ env _ := Untouched ctx incoming limit env
  text text _ env _ := Untouched ctx incoming limit env ∧
    TextThere crates ctx incoming limit (data.inQuery bodyInQuery) text env
  input f input text _ env _ := Untouched ctx incoming limit env ∧
    MapInput crates bodyInQuery limit ⟨ctx.parts, incoming⟩ data f input ∧
    (data.inQuery bodyInQuery = false → crates.toBytes incoming limit = .ok text)
  done body env _ := MapPasses crates m data bodyInQuery limit ctx incoming body env

/-- A parse gives the map its input, if what it parses is the text of the data. -/
theorem parses_text {ty : TypeId} {f : Format} {r : Except ApigateError (f.In V)} {data : DataKind}
    {bodyInQuery : Bool} {text : Str}
    (hinput : ∀ env, TextThere crates ctx incoming limit (data.inQuery bodyInQuery) text env →
      ∀ input, r = .ok input → MapInput crates bodyInQuery limit ⟨ctx.parts, incoming⟩ data f input) :
    Triple
      (fun env _ => Untouched ctx incoming limit env ∧
        TextThere crates ctx incoming limit (data.inQuery bodyInQuery) text env)
      (Pipe.stage (.parse ty) (ofExcept r)) fun input env _ => Untouched ctx incoming limit env ∧
        MapInput crates bodyInQuery limit ⟨ctx.parts, incoming⟩ data f input ∧
        (data.inQuery bodyInQuery = false → crates.toBytes incoming limit = .ok text) := by
  refine triple_stage (Triple.ofExcept fun env _ input h hok => ⟨h.1, hinput env h.2 input hok, fun hquery => ?_⟩)
  have hthere := h.2
  rw [hquery] at hthere
  exact hthere.2

/-- The rules for a route with a map, piece by piece. Pieces that are for routes without a map cannot occur. -/
theorem mapRules {args : RouteArgs V} (hperforms : args.Performs (·.onCtx = false)) {m : MapFn V}
    (hmap : args.map = some m) (bodyInQuery : Bool) :
    PhaseRules .triple crates crates args args bodyInQuery
      (mapAssertions crates m args.data bodyInQuery limit ctx incoming) := by
  have hops : m.OffCtx := hperforms.map m hmap
  constructor
  case pathType | queryType | data => rfl
  case path => exact fun ty _ => triple_stage (leavesRequest_look fun _ => rfl)
  case query => exact fun ty _ => triple_stage (leavesRequest_look fun _ => rfl)
  case insert => exact fun ty value _ => Triple.modify fun env _ h => ⟨h.head, h.body, h.bodyLimit⟩
  case hooks =>
    exact List.forall₂_same.mpr fun h hmem _ => triple_stage (leavesRequest_runHook (hperforms.hooks h hmem))
  case body =>
    constructor
    case maps => rfl
    case contentType => exact fun typePrefix needle error _ => leavesRequest_contentTypeGuard typePrefix needle error
    case take | unmapped | unmappedQuery =>
      -- there is a map
      intro hnone
      rw [hmap] at hnone
      cases hnone
    case read =>
      intro hquery _
      refine Triple.weaken reads_body (fun _ _ h => h) fun bytes env tr h => ⟨h.1, ?_⟩
      rw [hquery]
      exact h.2
    case rawBody =>
      intro hdata bytes _
      have hquery : args.data.inQuery bodyInQuery = false := by rcases hdata with h | h <;> rw [h] <;> rfl
      have hraw : Triple
          (fun env _ => (Untouched ctx incoming limit env ∧ env.scope.rawBody = some bytes) ∧
            crates.toBytes incoming limit = .ok bytes)
          (rawBodyExpr : Pipe V Str)
          fun raw env _ => (Untouched ctx incoming limit env ∧ raw = bytes) ∧
            crates.toBytes incoming limit = .ok bytes := Triple.and_pure clones_rawBody
      refine Triple.weaken hraw ?_ ?_
      · rintro env tr ⟨huntouched, hthere⟩
        rw [hquery] at hthere
        exact ⟨⟨huntouched, hthere.1⟩, hthere.2⟩
      · rintro raw env tr ⟨⟨huntouched, rfl⟩, hread⟩
        refine ⟨huntouched, ?_, fun _ => hread⟩
        rcases hdata with hdata | hdata
        · rw [hdata]
          exact .bytes hread
        · rw [hdata]
          exact .multipart hread
    case parseJson =>
      intro ty hdata bytes _
      rw [hdata]
      exact parses_text fun env hthere input hparse => .json hthere.2 (mapError_eq_ok.mp hparse)
    case parseForm =>
      rintro ty hdata rfl bytes _
      rw [hdata]
      exact parses_text fun env hthere input hparse => .form rfl hthere.2 (mapError_eq_ok.mp hparse)
    case mapped =>
      intro m₀ _ hmap₀ _ hquery f input bytes
      obtain rfl := Option.some.inj (hmap.symm.trans hmap₀)
      intro env tr h
      exact passes_mapReplaceOrKeep hops hquery (h.2.2 hquery) h.2.1 env tr h.1
    case rawQuery =>
      intro hquery _
      refine Triple.gets fun env tr h => ⟨h, ?_⟩
      rw [hquery]
      exact congrArg (fun ctx : PartsCtx V => ctx.parts.uri.query.getD []) h.head
    case parseFormQuery =>
      rintro ty hdata rfl raw _
      rw [hdata]
      refine parses_text fun env hthere input hparse => .query rfl ?_
      obtain rfl : raw = ctx.parts.uri.query.getD [] := hthere
      exact mapError_eq_ok.mp hparse
    case mappedQuery =>
      intro m₀ _ hmap₀ _ hquery input raw
      obtain rfl := Option.some.inj (hmap.symm.trans hmap₀)
      -- the map leaves the query, and then the body is taken
      intro env tr h
      let mapped : PartsCtx V → Prop := fun after => ∃ outcome, m.Gives ctx .form input outcome ∧
        PassesOn crates true ctx incoming .form outcome after incoming
      refine (Triple.bind (passes_mapQueryExpr hops input) fun _ =>
        Triple.weaken (takes_body (C := mapped)) (fun _ _ h => h) ?_) env tr h.1
      rintro body after tr' ⟨rfl, outcome, hgives, hpasses⟩
      refine ⟨.form, input, outcome, h.2.1, hgives, ?_⟩
      rw [hquery]
      exact hpasses

/-- **What a pipeline with a map passes on**, when its functions leave the head alone. -/
theorem mapPasses_pipeline {args : RouteArgs V} (hperforms : args.Performs (·.onCtx = false)) {m : MapFn V}
    (hmap : args.map = some m) {bodyInQuery : Bool} {pipeline : PipelineFn V}
    (hgen : generatePipelineWrapper crates args bodyInQuery = some pipeline) {env : Env V}
    (hbody : env.scope.body = some incoming) {body : Body} (hok : (pipeline env).result = .ok body) :
    MapPasses crates m args.data bodyInQuery env.scope.bodyLimit env.ctx incoming body (pipeline env).state :=
  (mapRules hperforms hmap bodyInQuery).one_run hgen env [] ⟨rfl, .inl hbody, rfl⟩ body hok

end

/-! ## The mapped request

Outcomes are about payloads, which have been serialized, while a request with an output in it is about values.
The code that the macro puts around the function is in between (`apigateFinish`). -/

/-- The same URI with this query, and none if it is empty. -/
structure Uri.WithQuery (uri : Uri) (encoded : Str) (after : Uri) : Prop where
  query : after.query = encodedQuery encoded
  scheme : after.scheme = uri.scheme
  authority : after.authority = uri.authority
  path : after.path = uri.path

/-- The function returned this for this input, when the request had this head. -/
def MapFunction.Returns {special : SpecialTypePaths} {types : Types} (m : MapFunction V special types)
    (parts : Parts V) (input : Bound V) (output : MapOutput V) : Prop :=
  ∃ env, env.ctx.parts = parts ∧ (m.call input env).2 = .ok output

/-- The request with the output of a map in the place of its data: nothing is left as it is, and a value is
    serialized into the body, with the headers that go with it, or into the query. -/
inductive Carries (serializers : Serializers V) (inQuery : Bool) (req : Request V) :
    Format → MapOutput V → Request V → Prop
  | unit {f : Format} : Carries serializers inQuery req f .unit req
  | body {f : Format} {value : V} {payload : f.Out} (hquery : inQuery = false)
      (hfinish : apigateFinish serializers f (.value value) = .ok (some payload)) :
      Carries serializers inQuery req f (.value value)
        ⟨{ req.parts with headers := f.replacedHeaders req.parts.headers }, f.toBody payload⟩
  | query {value : V} {encoded : Str} {uri : Uri} (hquery : inQuery = true)
      (hfinish : serializers.formToString value = .ok encoded) (huri : req.parts.uri.WithQuery encoded uri) :
      Carries serializers inQuery req .form (.value value) ⟨{ req.parts with uri := uri }, req.body⟩

/-- What `serde_urlencoded` writes can stand in a query. -/
def Serializers.WritesQueries (serializers : Serializers V) : Prop :=
  ∀ value encoded, serializers.formToString value = .ok encoded → hash ∉ encoded

section
variable {special : SpecialTypePaths} {types : Types} {serializers : Serializers V} {crates : Crates V}

/-- An outcome of the generated function is the output of the function its author wrote, finished. -/
theorem MapFunction.returns_of_gives {m : MapFunction V special types} {ctx : PartsCtx V} {f : Format}
    {input : f.In V} {outcome : BodyOutcome f.Out} (h : MapFn.Gives (m.toMap serializers) ctx f input outcome) :
    ∃ output, m.Returns ctx.parts (f.input input) output ∧
      (apigateFinish serializers f output).map .ofOption = .ok outcome := by
  obtain ⟨env, rfl, h⟩ := h
  have h : ((m.call (f.input input) env).2.bind fun output => (apigateFinish serializers f output).map .ofOption) =
    .ok outcome := h
  cases hcall : (m.call (f.input input) env).2 with
  | error err =>
      rw [hcall] at h
      cases h
  | ok output =>
      rw [hcall] at h
      exact ⟨output, ⟨env, rfl, hcall⟩, h⟩

/-- A value is never finished into nothing. -/
theorem apigateFinish_value (serializers : Serializers V) (f : Format) (value : V) :
    ∃ r : Except ApigateError f.Out, apigateFinish serializers f (.value value) = r.map some := by
  have hswap : ∀ {ε ε' α : Type} (r : Except ε α) (g : ε → ε'),
      (r.map some).mapError g = (r.mapError g).map some := by
    intro ε ε' α r g
    cases r <;> rfl
  cases f with
  | json => exact ⟨_, hswap (serializers.jsonToString value) _⟩
  | form => exact ⟨_, hswap (serializers.formToString value) _⟩
  | raw => exact ⟨.ok (serializers.intoBody value), rfl⟩

/-- The payload of a value that a serializer finishes is what the serializer writes. -/
theorem ok_of_finish {ε ε' α : Type} {r : Except ε α} {g : ε → ε'} {payload : α}
    (h : (r.map some).mapError g = .ok (some payload)) : r = .ok payload := by
  cases r with
  | error err => cases h
  | ok written => rw [Option.some.inj (Except.ok.inj h)]

/-- A function keeps the body by returning nothing, and replaces it by returning a value. -/
theorem outcome_of_finish {f : Format} {output : MapOutput V} {outcome : BodyOutcome f.Out}
    (h : (apigateFinish serializers f output).map .ofOption = .ok outcome) :
    (output = .unit ∧ outcome = .keep) ∨
      ∃ value payload, output = .value value ∧ outcome = .replace payload ∧
        apigateFinish serializers f (.value value) = .ok (some payload) := by
  cases output with
  | unit =>
      refine .inl ⟨rfl, ?_⟩
      cases f <;> exact (Except.ok.inj h).symm
  | value value =>
      obtain ⟨r, hr⟩ := apigateFinish_value serializers f value
      rw [hr] at h
      cases r with
      | error err => cases h
      | ok payload => exact .inr ⟨value, payload, rfl, (Except.ok.inj h).symm, hr⟩

/-- What is passed on is the request with the output in it. By cases on what the function returned: with
    nothing, head and body are as they were; with a value, the payload is in the body or the setter has put it
    into the query. -/
theorem PassesOn.carries (hread : crates.ReadsFaithfully) (hkeeps : crates.KeepsText)
    (hwrites : serializers.WritesQueries) {inQuery : Bool} {ctx after : PartsCtx V} {incoming body : Body}
    {f : Format} {outcome : BodyOutcome f.Out} (h : PassesOn crates inQuery ctx incoming f outcome after body)
    (hform : ctx.parts.uri.InForm) (huri : ctx.parts.uri.WellFormed) {output : MapOutput V}
    (hfinish : (apigateFinish serializers f output).map .ofOption = .ok outcome) :
    ∃ passed, Carries serializers inQuery ⟨ctx.parts, incoming⟩ f output passed ∧ after.parts = passed.parts ∧
      body.Same passed.body := by
  rcases outcome_of_finish hfinish with ⟨rfl, rfl⟩ | ⟨value, payload, rfl, rfl, hvalue⟩
  · obtain ⟨hafter, hsame⟩ : after = ctx ∧ body.Same incoming := by
      cases h with
      | kept hsame => exact ⟨rfl, hsame hread⟩
    exact ⟨_, .unit, by rw [hafter], hsame⟩
  · cases h with
    | body hquery => exact ⟨_, .body hquery hvalue, rfl, rfl, rfl⟩
    | @query encoded after hquery hset =>
        have hencoded : serializers.formToString value = .ok encoded := ok_of_finish hvalue
        have hsets := setEncodedQuery_setsQuery hkeeps hform huri (hwrites _ _ hencoded)
        rw [hset] at hsets
        obtain ⟨hq, hscheme, hauthority, hpath⟩ := hsets.ok rfl
        refine ⟨_, .query hquery hencoded ⟨hq, hscheme, hauthority, hpath⟩, ?_, rfl, rfl⟩
        exact congrArg PartsCtx.parts hsets.frame

/-- The pipeline of a mapped route passes on the request with the output of its map in it. -/
theorem pipelineOutcome_carries {crates : Crates V} (hread : crates.ReadsFaithfully) (hkeeps : crates.KeepsText)
    {inner : Inner V} {routeMeta : RouteMeta (PipelineFn V)} {special : SpecialTypePaths} {types : Types}
    {serializers : Serializers V} (hwrites : serializers.WritesQueries) {args : RouteArgs V}
    {hooks : List (HookFn V special types)} {m : MapFunction V special types}
    (hwritten : args.WrittenAs serializers hooks (some m)) (hnoCtx : NoneBinds .ctx hooks (some m))
    {bodyInQuery : Bool} (hpipeline : routeMeta.pipeline = generatePipelineWrapper crates args bodyInQuery)
    {req : Request V}
    (hform : req.parts.uri.InForm) (huri : req.parts.uri.WellFormed) {body : Body}
    (hok : (pipelineOutcome inner routeMeta req.parts req.body).result = .ok body) :
    ∃ f input output passed, MapInput crates bodyInQuery inner.mapBodyLimit req args.data f input ∧
      m.Returns req.parts (f.input input) output ∧
      Carries serializers (args.data.inQuery bodyInQuery) req f output passed ∧
      (pipelineOutcome inner routeMeta req.parts req.body).state.ctx.parts = passed.parts ∧
      body.Same passed.body := by
  have hmap : args.map = some (m.toMap serializers) := hwritten.map
  unfold pipelineOutcome at hok ⊢
  cases hgen : generatePipelineWrapper crates args bodyInQuery with
  | none =>
      -- a route with a map has a pipeline
      simp [generatePipelineWrapper, hmap] at hgen
  | some pipeline =>
      rw [hpipeline, hgen] at hok ⊢
      obtain ⟨f, input, outcome, hinput, hgives, hpasses⟩ :=
        mapPasses_pipeline (hwritten.off_ctx hnoCtx) hmap hgen rfl hok
      obtain ⟨output, hreturns, hfinish⟩ := MapFunction.returns_of_gives hgives
      obtain ⟨passed, hcarries, hhead, hbody⟩ := hpasses.carries hread hkeeps hwrites hform huri hfinish
      exact ⟨f, input, output, passed, hinput, hreturns, hcarries, hhead, hbody⟩

end

section
variable [RouteStrategy ρ] [Balancer σ] [Xxh3]

/-- **A mapped route is the plain route on the mapped request.** Take two routes that differ in their pipelines
    only: one has none, and that of the other is generated for a map and any hooks of which none has a `&mut
    PartsCtx`. On every request, with any policies and an upstream that sees the bytes of a body, the handler of
    the second route either rejects the request with the error of its pipeline; or the map has been called with
    the data of the request, has returned something, and the handler does what that of the first route does with
    the request that carries this output in the place of the data: the same response, the same policies
    afterwards, the same requests to the same backends. -/
theorem mapped_route_is_plain_route {crates : Crates V} (hread : crates.ReadsFaithfully) (hkeeps : crates.KeepsText)
    {client : Client V} (hclient : client.SeesBytes) {inner : Inner V} {routeIdx plainIdx : Nat}
    {routeMeta : RouteMeta (PipelineFn V)} (hmeta : inner.routeMetas[routeIdx]? = some routeMeta)
    (hplain : inner.routeMetas[plainIdx]? = some { routeMeta with pipeline := none }) {special : SpecialTypePaths}
    {types : Types} {serializers : Serializers V} (hwrites : serializers.WritesQueries) {args : RouteArgs V}
    {hooks : List (HookFn V special types)} {m : MapFunction V special types}
    (hwritten : args.WrittenAs serializers hooks (some m)) (hnoCtx : NoneBinds .ctx hooks (some m))
    {bodyInQuery : Bool} (hpipeline : routeMeta.pipeline = generatePipelineWrapper crates args bodyInQuery)
    (req : Request V)
    (hform : req.parts.uri.InForm) (huri : req.parts.uri.WellFormed) (policies : Policies ρ σ) :
    let mapped := proxyHandler crates client inner routeIdx req policies
    (∃ err, (pipelineOutcome inner routeMeta req.parts req.body).result = .error err ∧
      Rejects inner policies err mapped) ∨
    ∃ f input output passed, MapInput crates bodyInQuery inner.mapBodyLimit req args.data f input ∧
      m.Returns req.parts (f.input input) output ∧
      Carries serializers (args.data.inQuery bodyInQuery) req f output passed ∧
      SameOutside mapped (proxyHandler crates client inner plainIdx passed policies) := by
  intro mapped
  cases hresult : (pipelineOutcome inner routeMeta req.parts req.body).result with
  | error err => exact .inl ⟨err, rfl, rejects_of_error crates client hmeta hresult policies⟩
  | ok body =>
      obtain ⟨f, input, output, passed, hinput, hreturns, hcarries, hhead, hbody⟩ :=
        pipelineOutcome_carries hread hkeeps hwrites hwritten hnoCtx hpipeline hform huri hresult
      exact .inr ⟨f, input, output, passed, hinput, hreturns, hcarries,
        sameOutside_plain hclient hmeta hplain hresult hhead hbody policies⟩

end

/-! ## A map that asks for the second page -/

/-- `query: Query` -/
def pagedParam : FnArg := .typed (str "query") (bareTy (str "Query"))

/-- `async fn paged(query: Query) -> MapResult<Query>` adds a parameter to the query. -/
def paged : MapFunction Str apigatePaths .plain where
  inputs := [pagedParam]
  expansion := ⟨some pagedParam, str "_", str "_", []⟩
  expands := rfl
  body input _ := ([], .ok (match input with
    | .owned query => .value (query ++ str "&page=2")
    | _ => .unit))
  permitted := fun _ _ _ hop => nomatch hop

/-- Queries are written with `#` encoded. -/
def pagedSerializers : Serializers Str :=
  ⟨.ok, fun text => .ok (text.flatMap fun b => if b == hash then str "%23" else [b]), .ofBytes⟩

theorem pagedSerializers_writesQueries : pagedSerializers.WritesQueries := by
  rintro value encoded ⟨⟩ hmem
  obtain ⟨b, -, hb⟩ := List.mem_flatMap.mp hmem
  split at hb
  · revert hb
    decide
  · rename_i hne
    rw [← List.mem_singleton.mp hb] at hne
    exact hne rfl

/-- A route of this map, with its data in the query. -/
def pagedArgs : RouteArgs Str :=
  ⟨str "/items", none, none, [], some (paged.toMap pagedSerializers), none, .form 0, none⟩

def pagedMeta : RouteMeta (PipelineFn Str) :=
  ⟨str "sales", str "/items", str "/sales", .stripPrefix, ⟨[⟨⟨str "http", str "up", str "http://up", str "up"⟩⟩]⟩, 0,
    generatePipelineWrapper .cutting pagedArgs true⟩

theorem paged_noCtx : NoneBinds .ctx [] (some paged) where
  hooks := fun _ hf => nomatch hf
  map := by
    rintro m hm ⟨stmt, hstmt, -⟩
    obtain rfl := Option.some.inj hm
    cases hstmt

/-- The route with its pipeline and without. -/
def pagedInner : Inner Str := { soloInner with routeMetas := [pagedMeta, { pagedMeta with pipeline := none }] }

def pagedRequest : Request Str := ⟨⟨str "GET", itemsUri, str "HTTP/1.1", .empty, .empty⟩, .ofBytes []⟩

/-- The theorem at these routes and a request for `/sales/items?q=1`: the handler does what that of the plain
    route does with `/sales/items?q=1&page=2`. -/
theorem mapped_route_is_plain_route_paged :
    let handler := fun (routeIdx : Nat) (req : Request Str) =>
      @proxyHandler Str NoRouteKey RoundRobin _ _ .length .cutting soloClient pagedInner routeIdx req fun _ => .new
    ∃ passed, Carries pagedSerializers true pagedRequest .form (.value (str "q=1&page=2")) passed ∧
      SameOutside (handler 0 pagedRequest) (handler 1 passed) := by
  intro handler
  have h := @mapped_route_is_plain_route Str NoRouteKey RoundRobin _ _ .length .cutting plain_readsFaithfully
    cutting_keepsText soloClient (fun _ _ _ => rfl) pagedInner 0 1 pagedMeta rfl rfl _ _ _
    pagedSerializers_writesQueries pagedArgs [] paged ⟨rfl, rfl⟩ paged_noCtx true rfl pagedRequest
    (.origin (str "sales/items") (some (str "q=1"))) itemsUri_wellFormed fun _ => .new
  rcases h with ⟨err, herr, -⟩ | ⟨f, input, output, passed, hinput, ⟨env, -, hreturns⟩, hcarries, hsame⟩
  · cases herr
  · -- the map was given the query of the request
    cases hinput with
    | form hquery hread hparse => cases hquery
    | query hquery hparse =>
        cases hparse
        cases hreturns
        exact ⟨passed, hcarries, hsame⟩

end Apigate
