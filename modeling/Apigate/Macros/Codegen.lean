import Apigate.Pipeline
import Apigate.Route
import Apigate.Macros.Template
import Apigate.Lib.Prog

/-!
# `Macros.Codegen` — the request pipeline generated for a route

One function per code template of the route macro; the body of each is the code it emits. A pipeline is a
program over what hooks and maps can see: `?` stops it, and it leaves a trace of the operations that hooks
and maps performed, of the outcome of the map, and of the stages it went through.
-/

namespace Apigate
open Lib Text

variable {V : Type}

/-- Which request body extractor the route uses, if any. -/
inductive DataKind where
  | none
  | json (ty : TypeId)
  | form (ty : TypeId)
  | multipart
  deriving DecidableEq

/-- A stage of a generated pipeline: something that can stop it. -/
inductive Stage (V : Type) where
  | path (ty : TypeId)
  | query (ty : TypeId)
  | hook (h : Hook V)
  | contentType
  | readBody
  | rawBody
  | parse (ty : TypeId)
  | map (m : MapFn V)
  | takeBody

inductive PipelineEvent (V : Type) where
  /-- A hook or map performed an operation. -/
  | op (o : UserOp V)
  /-- A map returned normally. -/
  | mapped (f : Format) (outcome : BodyOutcome f.Out)
  /-- A stage ended, with an error or without. -/
  | stage (s : Stage V) (error : Option ApigateError)

/-- Generated code. -/
abbrev Pipe (V α : Type) := Prog (Env V) ApigateError (PipelineEvent V) α

/-- A generated pipeline function. -/
abbrev PipelineFn (V : Type) := Pipe V Body

namespace Pipe
open Prog

variable (crates : Crates V)

/-- Run a stage and record its end. -/
def stage {α : Type} (s : Stage V) (p : Pipe V α) : Pipe V α := Prog.stage (.stage s) p

/-- Call a hook: `#h(&mut ctx, &mut scope).await?` -/
def runHook (h : Hook V) : Pipe V Unit := do
  let (ops, result) ← gets h
  tell (ops.map .op)
  modify (applyOps crates · ops)
  ofExcept result

/-- Call a map: `#map_fn::<#format>(input, &mut ctx, &mut scope).await?` -/
def runMap (m : MapFn V) (f : Format) (input : f.In V) : Pipe V (BodyOutcome f.Out) := do
  let (ops, result) ← gets (m f input)
  tell (ops.map .op)
  modify (applyOps crates · ops)
  let outcome ← ofExcept result
  tell [.mapped f outcome]
  return outcome

/-- `ctx.headers_mut()` in generated code. -/
def headersMut (f : HeaderMap → HeaderMap) : Pipe V Unit :=
  modify fun env => { env with ctx := env.ctx.setHeaders (f env.ctx.parts.headers) }

/-- `scope.insert(value)` in generated code. -/
def scopeInsert (ty : TypeId) (value : V) : Pipe V Unit :=
  modify fun env => { env with scope := env.scope.insert ty value }

/-- `scope.read_body_bytes().await?` -/
def readBodyBytes : Pipe V Str :=
  lift fun env => let (result, scope) := env.scope.readBodyBytes crates; (result, { env with scope := scope })

/-! ## Path and query phases -/

def pathPhase : Option TypeId → Pipe V Unit
  | some ty => do
      let value ← stage (.path ty) (lift fun env => (env.ctx.extractPath crates ty, env))
      scopeInsert ty value
  | none => return ()

def queryPhase : Option TypeId → Pipe V Unit
  | some ty => do
      let value ← stage (.query ty) (lift fun env => (env.ctx.extractQuery crates ty, env))
      scopeInsert ty value
  | none => return ()

/-! ## Helpers -/

/-- `scope.take_body().ok_or_else(...)` -/
def takeBodyExpr : Pipe V Body := stage .takeBody <| lift fun env =>
  let (body, scope) := env.scope.takeBody
  match body with
  | some body => (.ok body, { env with scope := scope })
  | none => (.error (.ofPipeline .requestBodyAlreadyConsumed), { env with scope := scope })

/-- The tail of every mapped phase that has read the body into `bytes`. -/
def mapReplaceOrKeep (m : MapFn V) (f : Format) (input : f.In V) (contentType : Option Str) (bytes : Str) :
    Pipe V Body := do
  match ← stage (.map m) (runMap crates m f input) with
  | .replace newBody =>
      match contentType with
      | some contentType => headersMut (·.insert .contentType contentType)
      | none => pure ()
      headersMut (·.remove .contentLength)
      return f.toBody newBody
  | .keep => return Body.ofBytes bytes

/-- A `Content-Type` precondition: stops with `error`. -/
def contentTypeGuard (typePrefix : Str) (needle : Option Str) (error : ApigatePipelineError) : Pipe V Unit :=
  stage .contentType <| lift fun env =>
    let contentType := ((env.ctx.parts.headers.get? .contentType).bind HeaderValue.toStr).getD []
    if !startsWith contentType typePrefix || needle.any (fun needle => !contains contentType needle) then
      (.error (.ofPipeline error), env)
    else (.ok (), env)

def parseJson (ty : TypeId) (bytes : Str) : Pipe V V :=
  stage (.parse ty) <| ofExcept <| (crates.jsonFromSlice ty bytes).mapError
    (fun details => .ofPipeline (.invalidJsonBody details))

def parseForm (ty : TypeId) (bytes : Str) : Pipe V V :=
  stage (.parse ty) <| ofExcept <| (crates.formFromBytes ty bytes).mapError
    (fun details => .ofPipeline (.invalidFormBody details))

def parseFormQuery (ty : TypeId) (raw : Str) : Pipe V V :=
  stage (.parse ty) <| ofExcept <| (crates.formFromStr ty raw).mapError
    (fun details => .ofPipeline (.invalidFormQuery details))

/-! ## Body phases -/

/-- Raw body map phase (no `json`/`form` data). -/
def noneMapPhase (m : MapFn V) (expectMultipart : Bool) : Pipe V Body := do
  if expectMultipart then
    contentTypeGuard (str "multipart/form-data") (some (str "boundary=")) .expectedMultipartFormData
  let bytes ← stage .readBody (readBodyBytes crates)
  let raw ← stage .rawBody (lift fun env =>
    match env.scope.rawBodyCloned with
    | some raw => (.ok raw, env)
    | none => (.error (.ofPipeline (.missingFromScope (str "RawBody"))), env))
  mapReplaceOrKeep crates m .raw raw none bytes

def jsonPhase (ty : TypeId) : Option (MapFn V) → Pipe V Body
  | some m => do
      let bytes ← stage .readBody (readBodyBytes crates)
      let input ← parseJson crates ty bytes
      mapReplaceOrKeep crates m .json input (some (str "application/json")) bytes
  | none => do
      let bytes ← stage .readBody (readBodyBytes crates)
      let _ ← parseJson crates ty bytes
      return Body.ofBytes bytes

/-- Form data in the query string: a replacement becomes the query. -/
def formGetBranch (ty : TypeId) : Option (MapFn V) → Pipe V Body
  | some m => do
      let raw ← gets fun env => env.ctx.parts.uri.query.getD []
      let input ← parseFormQuery crates ty raw
      stage (.map m) do
        match ← runMap crates m .form input with
        | .replace encoded => lift fun env =>
            let (result, ctx) := env.ctx.setEncodedQuery crates encoded
            (result, { env with ctx := ctx })
        | .keep => return ()
      takeBodyExpr
  | none => do
      let raw ← gets fun env => env.ctx.parts.uri.query.getD []
      let _ ← parseFormQuery crates ty raw
      takeBodyExpr

def formPostBranch (ty : TypeId) : Option (MapFn V) → Pipe V Body
  | some m => do
      let bytes ← stage .readBody (readBodyBytes crates)
      let input ← parseForm crates ty bytes
      mapReplaceOrKeep crates m .form input (some (str "application/x-www-form-urlencoded")) bytes
  | none => do
      let bytes ← stage .readBody (readBodyBytes crates)
      let _ ← parseForm crates ty bytes
      return Body.ofBytes bytes

def formPhase (ty : TypeId) (mapFn : Option (MapFn V)) (bodyInQuery : Bool) : Pipe V Body :=
  if bodyInQuery then formGetBranch crates ty mapFn
  else do
    contentTypeGuard (str "application/x-www-form-urlencoded") none .expectedFormUrlEncoded
    formPostBranch crates ty mapFn

def bodyPhase (data : DataKind) (mapFn : Option (MapFn V)) (bodyInQuery : Bool) : Pipe V Body :=
  match mapFn, data with
  -- nothing looks at the body: it is passed on as a stream
  | none, .none | none, .multipart => takeBodyExpr
  | some m, .none => noneMapPhase crates m false
  | some m, .multipart => noneMapPhase crates m true
  | m, .json ty => jsonPhase crates ty m
  | m, .form ty => formPhase crates ty m bodyInQuery

/-- The body of the generated function: parse path and query parameters, before-hooks, body and map. -/
def phases (pathType queryType : Option TypeId) (before : List (Hook V)) (data : DataKind)
    (mapFn : Option (MapFn V)) (bodyInQuery : Bool) : Pipe V Body := do
  pathPhase crates pathType
  queryPhase crates queryType
  runAll (before.map fun h => stage (.hook h) (runHook crates h))
  bodyPhase crates data mapFn bodyInQuery

end Pipe

/-! ## Routes -/

/-- Parsed arguments of a route attribute. Hooks and maps stand for the functions they name. -/
structure RouteArgs (V : Type) where
  path : Str
  target : Option Str
  policy : Option Str
  before : List (Hook V)
  map : Option (MapFn V)
  queryType : Option TypeId
  data : DataKind
  pathType : Option TypeId

/-- Whether requests for this method carry their data in the query string. -/
def Method.bodyInQuery : Method → Bool
  | .get | .head => true
  | _ => false

/-- The pipeline generated for a route; none when there is nothing to do. -/
def generatePipelineWrapper (crates : Crates V) (args : RouteArgs V) (bodyInQuery : Bool) :
    Option (PipelineFn V) :=
  let hasHooks := !args.before.isEmpty
  -- `multipart` alone needs no pipeline
  let hasBody := match args.data with
    | .json _ | .form _ => true
    | _ => false
  if !hasHooks && !hasBody && args.map.isNone && args.pathType.isNone && args.queryType.isNone then none
  else some (Pipe.phases crates args.pathType args.queryType args.before args.data args.map bodyInQuery)

/-- The route definition a route attribute expands to. -/
def expandRoute (crates : Crates V) (kind : Method) (args : RouteArgs V) :
    Checked (Except RewriteTemplateError (RouteDef (PipelineFn V))) := do
  match ← buildRewriteSpec args.path args.target with
  | .error e => some (.error e)
  | .ok rewrite =>
      some (.ok ⟨kind, args.path, rewrite, args.policy,
        generatePipelineWrapper crates args kind.bodyInQuery⟩)

end Apigate
