import Apigate.Macros.Codegen
import Apigate.Lib.Logic

/-!
# `Correctness.PipelineRules` — one rule for all generated pipelines

The macro assembles a pipeline from a few pieces of code: it parses path and query parameters, calls the hooks
as listed, gets the text of the route's data, from the body or from the query, parses it, and hands it to the
map. Which pieces there are depends on the arguments of the route attribute, and there are many combinations. An
assertion about every pipeline is therefore proved piece by piece:

* `PhaseAssertions` says what is to hold at the four places where pieces meet;
* `PhaseRules` and `BodyRules` have one fact for each piece, from one such place to the next;
* `PhaseRules.generated` goes through the assembly and composes them, in any program logic (`Lib.Logic`).

So the assembly is gone through once. In the logics of one run the rule gives what a pipeline returns and leaves
behind (`Correctness.PipelineSpec`), that it stops at the first stage that fails (`Correctness.FailClosed`),
what it may touch (`Correctness.Footprints`) and what a map is given (`Correctness.Mapping`). In the logic of
two runs it gives that a pipeline does not depend on the texts of errors (`Correctness.ErrorDetails`), nor on
the order in which values came into the scope (`Correctness.HookOrder`).

An assertion may name the stages that are still to come. Where it does, the rule says in which order they come;
where it does not, the argument is ignored.

The facts of `BodyRules` carry the condition under which their piece is there at all, such as that the data is
in the query. Without it one would have to prove each piece for configurations in which it never runs, and for
some that is false: what is asserted of a body that has been read need not hold of a query.

Whatever calls the code of users is left to the facts as well. What is common to those is below the assembly: a
hook and a map are a list of operations and a result (`runHook_run`, `runMap_run`), so an assertion that the
operations keep is kept by the call.
-/

namespace Apigate
open Lib Text Prog

variable {V : Type}

/-! ## What a route configuration consists of

The stages of a pipeline as a list, computed from the arguments without looking at the generated code. That the
code goes through these stages and in this order is a result, not a definition. -/

/-- Whether the route's data is carried in the query. -/
def DataKind.inQuery (data : DataKind) (bodyInQuery : Bool) : Bool :=
  match data with
  | .form _ => bodyInQuery
  | .none | .json _ | .multipart => false

/-- The content type that goes with a replaced body of a format. -/
def Format.contentType : Format → Option Str
  | .json => some (str "application/json")
  | .form => some (str "application/x-www-form-urlencoded")
  | .raw => none

/-- The map, if there is one. -/
def mapStage (mapFn : Option (MapFn V)) : List (Stage V) := (mapFn.map Stage.map).toList

/-- Content type, read, parse, map: as far as the configuration has them. Without anything to do with it, the
    body is taken as it is. -/
def bodyStages (data : DataKind) (mapFn : Option (MapFn V)) (bodyInQuery : Bool) : List (Stage V) :=
  match data, mapFn with
  | .none, none | .multipart, none => [.takeBody]
  | .none, some m => [.readBody, .rawBody, .map m]
  | .multipart, some m => [.contentType, .readBody, .rawBody, .map m]
  | .json ty, mapFn => [.readBody, .parse ty] ++ mapStage mapFn
  | .form ty, mapFn =>
      if bodyInQuery then [.parse ty] ++ mapStage mapFn ++ [.takeBody]
      else [.contentType, .readBody, .parse ty] ++ mapStage mapFn

/-- Path, query, the hooks as listed, body and map. -/
def RouteArgs.stages (args : RouteArgs V) (bodyInQuery : Bool) : List (Stage V) :=
  (args.pathType.map Stage.path).toList ++ ((args.queryType.map Stage.query).toList ++
    (args.before.map Stage.hook ++ bodyStages args.data args.map bodyInQuery))

/-! ## The pieces

Two of them have no name of their own in the generated code. -/

namespace Pipe

/-- `scope.raw_body_cloned().ok_or_else(...)?` -/
def rawBodyExpr : Pipe V Str := stage .rawBody (lift fun env =>
  match env.scope.rawBodyCloned with
  | some raw => (.ok raw, env)
  | none => (.error (.ofPipeline (.missingFromScope (str "RawBody"))), env))

/-- The map of a form route with its data in the query: a replacement becomes the query. -/
def mapQueryExpr (crates : Crates V) (m : MapFn V) (input : V) : Pipe V Unit := stage (.map m) do
  match ← runMap crates m .form input with
  | .replace encoded => lift fun env =>
      let (result, ctx) := env.ctx.setEncodedQuery crates encoded
      (result, { env with ctx := ctx })
  | .keep => return ()

end Pipe

open Pipe

/-- What is asserted where the pieces meet. The lists are the stages still to come. -/
structure PhaseAssertions (V A : Type) where
  /-- Nothing has looked at the data yet. -/
  start : List (Stage V) → A
  /-- The text of the data is there: the bytes of the body, or the query. -/
  text : Str → List (Stage V) → A
  /-- The input of the map is there, in its format, with the text it comes from. -/
  input : (f : Format) → f.In V → Str → List (Stage V) → A
  /-- The pipeline returns this body. -/
  done : Body → A

/-- The same assertion everywhere. -/
abbrev PhaseAssertions.constant {A : Type} (K : A) : PhaseAssertions V A where
  start _ := K
  text _ _ := K
  input _ _ _ _ := K
  done _ := K

section
variable {A : Type} (L : Logic (Env V) ApigateError (PipelineEvent V) A) (crates crates' : Crates V)

/-- A fact about each piece from the data on. The second program is that of the other run. -/
structure BodyRules (data : DataKind) (mapFn mapFn' : Option (MapFn V)) (bodyInQuery : Bool)
    (a : PhaseAssertions V A) : Prop where
  maps : mapFn'.isSome = mapFn.isSome
  contentType : ∀ typePrefix needle error rest, L.Holds (a.start (.contentType :: rest))
    (contentTypeGuard typePrefix needle error) (contentTypeGuard typePrefix needle error) fun _ => a.start rest
  take : mapFn = none → L.Holds (a.start [.takeBody]) takeBodyExpr takeBodyExpr a.done
  read : data.inQuery bodyInQuery = false → ∀ rest, L.Holds (a.start (.readBody :: rest))
    (stage .readBody (readBodyBytes crates)) (stage .readBody (readBodyBytes crates')) fun bytes => a.text bytes rest
  rawBody : data = .none ∨ data = .multipart → ∀ bytes rest, L.Holds (a.text bytes (.rawBody :: rest))
    rawBodyExpr rawBodyExpr fun raw => a.input .raw raw bytes rest
  parseJson : ∀ ty, data = .json ty → ∀ bytes rest, L.Holds (a.text bytes (.parse ty :: rest))
    (parseJson crates ty bytes) (parseJson crates' ty bytes) fun value => a.input .json value bytes rest
  parseForm : ∀ ty, data = .form ty → bodyInQuery = false → ∀ bytes rest, L.Holds (a.text bytes (.parse ty :: rest))
    (parseForm crates ty bytes) (parseForm crates' ty bytes) fun value => a.input .form value bytes rest
  unmapped : mapFn = none → data.inQuery bodyInQuery = false → ∀ f input bytes,
    L.Holds (a.input f input bytes []) (pure (.ofBytes bytes)) (pure (.ofBytes bytes)) a.done
  mapped : ∀ m m', mapFn = some m → mapFn' = some m' → data.inQuery bodyInQuery = false → ∀ f input bytes,
    L.Holds (a.input f input bytes [.map m]) (mapReplaceOrKeep crates m f input f.contentType bytes)
      (mapReplaceOrKeep crates' m' f input f.contentType bytes) a.done
  rawQuery : data.inQuery bodyInQuery = true → ∀ rest, L.Holds (a.start rest)
    (gets fun env => env.ctx.parts.uri.query.getD []) (gets fun env => env.ctx.parts.uri.query.getD [])
    fun raw => a.text raw rest
  parseFormQuery : ∀ ty, data = .form ty → bodyInQuery = true → ∀ raw rest, L.Holds (a.text raw (.parse ty :: rest))
    (parseFormQuery crates ty raw) (parseFormQuery crates' ty raw) fun value => a.input .form value raw rest
  unmappedQuery : mapFn = none → data.inQuery bodyInQuery = true → ∀ input raw,
    L.Holds (a.input .form input raw [.takeBody]) takeBodyExpr takeBodyExpr a.done
  mappedQuery : ∀ m m', mapFn = some m → mapFn' = some m' → data.inQuery bodyInQuery = true → ∀ input raw,
    L.Holds (a.input .form input raw [.map m, .takeBody]) (mapQueryExpr crates m input >>= fun _ => takeBodyExpr)
      (mapQueryExpr crates' m' input >>= fun _ => takeBodyExpr) a.done

/-- A fact about each piece of a pipeline. -/
structure PhaseRules (args args' : RouteArgs V) (bodyInQuery : Bool) (a : PhaseAssertions V A) : Prop where
  pathType : args'.pathType = args.pathType
  queryType : args'.queryType = args.queryType
  data : args'.data = args.data
  path : ∀ ty rest, L.Holds (a.start (.path ty :: rest))
    (stage (.path ty) (lift fun env => (env.ctx.extractPath crates ty, env)))
    (stage (.path ty) (lift fun env => (env.ctx.extractPath crates' ty, env))) fun _ => a.start rest
  query : ∀ ty rest, L.Holds (a.start (.query ty :: rest))
    (stage (.query ty) (lift fun env => (env.ctx.extractQuery crates ty, env)))
    (stage (.query ty) (lift fun env => (env.ctx.extractQuery crates' ty, env))) fun _ => a.start rest
  insert : ∀ ty value rest, L.Holds (a.start rest) (scopeInsert ty value) (scopeInsert ty value) fun _ => a.start rest
  hooks : List.Forall₂ (fun h h' => ∀ rest, L.Holds (a.start (.hook h :: rest)) (stage (.hook h) (runHook crates h))
    (stage (.hook h') (runHook crates' h')) fun _ => a.start rest) args.before args'.before
  body : BodyRules L crates crates' args.data args.map args'.map bodyInQuery a

end

/-! ## The assembly

The case analysis follows the definitions of the phases, and in each case the facts are composed in the order of the
code. -/

section
variable {A : Type} {L : Logic (Env V) ApigateError (PipelineEvent V) A} {crates crates' : Crates V}
  {a : PhaseAssertions V A} {bodyInQuery : Bool}

namespace BodyRules
variable {data : DataKind} {mapFn mapFn' : Option (MapFn V)}

/-- Both runs have no map, or each has one. -/
theorem maps_cases (rules : BodyRules L crates crates' data mapFn mapFn' bodyInQuery a) :
    (mapFn = none ∧ mapFn' = none) ∨ ∃ m m', mapFn = some m ∧ mapFn' = some m' := by
  have hmaps := rules.maps
  cases mapFn with
  | none => exact .inl ⟨rfl, by simpa using hmaps⟩
  | some m =>
      obtain ⟨m', hm'⟩ := Option.isSome_iff_exists.mp (hmaps.trans rfl)
      exact .inr ⟨m, m', rfl, hm'⟩

/-- Raw data with a map; for multipart data after a check of the content type. -/
theorem noneMapPhase (rules : BodyRules L crates crates' data mapFn mapFn' bodyInQuery a)
    (hdata : data = .none ∨ data = .multipart) {m m' : MapFn V} (hm : mapFn = some m) (hm' : mapFn' = some m')
    (expectMultipart : Bool) :
    L.Holds (a.start ((if expectMultipart then [.contentType] else []) ++ [.readBody, .rawBody, .map m]))
      (Pipe.noneMapPhase crates m expectMultipart) (Pipe.noneMapPhase crates' m' expectMultipart) a.done := by
  have hquery : data.inQuery bodyInQuery = false := by rcases hdata with rfl | rfl <;> rfl
  have hread : L.Holds (a.start [.readBody, .rawBody, .map m])
      (do
        let bytes ← stage .readBody (readBodyBytes crates)
        let raw ← rawBodyExpr
        mapReplaceOrKeep crates m .raw raw none bytes)
      (do
        let bytes ← stage .readBody (readBodyBytes crates')
        let raw ← rawBodyExpr
        mapReplaceOrKeep crates' m' .raw raw none bytes) a.done :=
    L.bind (rules.read hquery _) fun bytes => L.bind (rules.rawBody hdata bytes _) fun raw =>
      rules.mapped m m' hm hm' hquery .raw raw bytes
  cases expectMultipart with
  | false => exact hread
  | true => exact L.bind (rules.contentType _ _ _ _) fun _ => hread

/-- JSON, with a map or without. -/
theorem jsonPhase {ty : TypeId} (rules : BodyRules L crates crates' (.json ty) mapFn mapFn' bodyInQuery a) :
    L.Holds (a.start ([.readBody, .parse ty] ++ mapStage mapFn)) (Pipe.jsonPhase crates ty mapFn)
      (Pipe.jsonPhase crates' ty mapFn') a.done := by
  rcases rules.maps_cases with ⟨rfl, rfl⟩ | ⟨m, m', rfl, rfl⟩
  · exact L.bind (rules.read rfl _) fun bytes => L.bind (rules.parseJson ty rfl bytes _) fun input =>
      rules.unmapped rfl rfl .json input bytes
  · exact L.bind (rules.read rfl _) fun bytes => L.bind (rules.parseJson ty rfl bytes _) fun input =>
      rules.mapped m m' rfl rfl rfl .json input bytes

/-- A form in the body, behind the check of its content type. -/
theorem formPostBranch {ty : TypeId} (rules : BodyRules L crates crates' (.form ty) mapFn mapFn' false a) :
    L.Holds (a.start ([.readBody, .parse ty] ++ mapStage mapFn)) (Pipe.formPostBranch crates ty mapFn)
      (Pipe.formPostBranch crates' ty mapFn') a.done := by
  rcases rules.maps_cases with ⟨rfl, rfl⟩ | ⟨m, m', rfl, rfl⟩
  · exact L.bind (rules.read rfl _) fun bytes => L.bind (rules.parseForm ty rfl rfl bytes _) fun input =>
      rules.unmapped rfl rfl .form input bytes
  · exact L.bind (rules.read rfl _) fun bytes => L.bind (rules.parseForm ty rfl rfl bytes _) fun input =>
      rules.mapped m m' rfl rfl rfl .form input bytes

/-- A form in the query. The body is taken afterwards, by the map's code or by itself. -/
theorem formGetBranch {ty : TypeId} (rules : BodyRules L crates crates' (.form ty) mapFn mapFn' true a) :
    L.Holds (a.start ([.parse ty] ++ mapStage mapFn ++ [.takeBody])) (Pipe.formGetBranch crates ty mapFn)
      (Pipe.formGetBranch crates' ty mapFn') a.done := by
  rcases rules.maps_cases with ⟨rfl, rfl⟩ | ⟨m, m', rfl, rfl⟩
  · exact L.bind (rules.rawQuery rfl _) fun raw => L.bind (rules.parseFormQuery ty rfl rfl raw _) fun input =>
      rules.unmappedQuery rfl rfl input raw
  · exact L.bind (rules.rawQuery rfl _) fun raw => L.bind (rules.parseFormQuery ty rfl rfl raw _) fun input =>
      rules.mappedQuery m m' rfl rfl rfl input raw

/-- A form, wherever the method has it. -/
theorem formPhase {ty : TypeId} (rules : BodyRules L crates crates' (.form ty) mapFn mapFn' bodyInQuery a) :
    L.Holds (a.start (bodyStages (.form ty) mapFn bodyInQuery)) (Pipe.formPhase crates ty mapFn bodyInQuery)
      (Pipe.formPhase crates' ty mapFn' bodyInQuery) a.done := by
  cases bodyInQuery with
  | true => exact rules.formGetBranch
  | false => exact L.bind (rules.contentType _ _ _ _) fun _ => rules.formPostBranch

/-- **From the data on.** -/
theorem bodyPhase (rules : BodyRules L crates crates' data mapFn mapFn' bodyInQuery a) :
    L.Holds (a.start (bodyStages data mapFn bodyInQuery)) (Pipe.bodyPhase crates data mapFn bodyInQuery)
      (Pipe.bodyPhase crates' data mapFn' bodyInQuery) a.done := by
  rcases rules.maps_cases with ⟨hm, hm'⟩ | ⟨m, m', hm, hm'⟩
  · cases data with
    | none =>
        have htake := rules.take hm
        rw [hm, hm']
        exact htake
    | multipart =>
        have htake := rules.take hm
        rw [hm, hm']
        exact htake
    | json ty =>
        have hjson := rules.jsonPhase
        rw [hm, hm'] at hjson ⊢
        exact hjson
    | form ty =>
        have hform := rules.formPhase
        rw [hm, hm'] at hform ⊢
        exact hform
  · cases data with
    | none =>
        have hnone := rules.noneMapPhase (.inl rfl) hm hm' false
        rw [hm, hm']
        exact hnone
    | multipart =>
        have hmultipart := rules.noneMapPhase (.inr rfl) hm hm' true
        rw [hm, hm']
        exact hmultipart
    | json ty =>
        have hjson := rules.jsonPhase
        rw [hm, hm'] at hjson ⊢
        exact hjson
    | form ty =>
        have hform := rules.formPhase
        rw [hm, hm'] at hform ⊢
        exact hform

end BodyRules

namespace PhaseRules
variable {args args' : RouteArgs V}

/-- The path parameters, if they are asked for. -/
theorem pathPhase (rules : PhaseRules L crates crates' args args' bodyInQuery a) (rest : List (Stage V)) :
    L.Holds (a.start ((args.pathType.map Stage.path).toList ++ rest)) (Pipe.pathPhase crates args.pathType)
      (Pipe.pathPhase crates' args.pathType) fun _ => a.start rest := by
  cases args.pathType with
  | none => exact L.pure (Q := fun _ => a.start rest) ()
  | some ty => exact L.bind (rules.path ty rest) fun value => rules.insert ty value rest

/-- The query parameters, likewise. -/
theorem queryPhase (rules : PhaseRules L crates crates' args args' bodyInQuery a) (rest : List (Stage V)) :
    L.Holds (a.start ((args.queryType.map Stage.query).toList ++ rest)) (Pipe.queryPhase crates args.queryType)
      (Pipe.queryPhase crates' args.queryType) fun _ => a.start rest := by
  cases args.queryType with
  | none => exact L.pure (Q := fun _ => a.start rest) ()
  | some ty => exact L.bind (rules.query ty rest) fun value => rules.insert ty value rest

/-- The whole pipeline: parameters, hooks, data. -/
theorem phases (rules : PhaseRules L crates crates' args args' bodyInQuery a) :
    L.Holds (a.start (args.stages bodyInQuery))
      (Pipe.phases crates args.pathType args.queryType args.before args.data args.map bodyInQuery)
      (Pipe.phases crates' args'.pathType args'.queryType args'.before args'.data args'.map bodyInQuery) a.done := by
  rw [rules.pathType, rules.queryType, rules.data]
  exact L.bind (rules.pathPhase _) fun _ => L.bind (rules.queryPhase _) fun _ =>
    L.bind (L.runAll rules.hooks _) fun _ => rules.body.bodyPhase

/-- **The rule for generated pipelines.** Both runs have a pipeline or neither has one, and where they have,
    what holds of the pieces holds of the whole. -/
theorem generated (rules : PhaseRules L crates crates' args args' bodyInQuery a) :
    Option.Rel (fun pipeline pipeline' => L.Holds (a.start (args.stages bodyInQuery)) pipeline pipeline' a.done)
      (generatePipelineWrapper crates args bodyInQuery) (generatePipelineWrapper crates' args' bodyInQuery) := by
  have hphases := rules.phases
  have hempty : args'.before.isEmpty = args.before.isEmpty := by
    rw [Bool.eq_iff_iff, List.isEmpty_iff_length_eq_zero, List.isEmpty_iff_length_eq_zero, rules.hooks.length_eq]
  have hnone : args'.map.isNone = args.map.isNone := by
    rw [← Option.not_isSome, ← Option.not_isSome, rules.body.maps]
  rw [rules.pathType, rules.queryType, rules.data] at hphases
  simp only [generatePipelineWrapper, hempty, hnone, rules.pathType, rules.queryType, rules.data]
  -- the arguments that decide whether there is a pipeline are the same
  split_ifs
  all_goals first | exact .none | exact .some hphases

/-- **One run of a generated pipeline.** -/
theorem one_run (rules : PhaseRules L crates crates args args bodyInQuery a) {pipeline : PipelineFn V}
    (hgen : generatePipelineWrapper crates args bodyInQuery = some pipeline) :
    L.Holds (a.start (args.stages bodyInQuery)) pipeline pipeline a.done := by
  have hrel := rules.generated
  rw [hgen] at hrel
  cases hrel with
  | some hholds => exact hholds

end PhaseRules
end

/-! ## Code that users wrote

A hook and a map perform operations and return. What is kept by the operations is kept by the call. -/

/-- What one asserts between the pieces of a pipeline. -/
abbrev EnvAssertion (V : Type) := Env V → List (PipelineEvent V) → Prop

namespace Pipe
variable {crates : Crates V} {K : EnvAssertion V}

/-- The call of a hook, in one equation. -/
theorem runHook_run (crates : Crates V) (h : Hook V) (env : Env V) :
    runHook crates h env = ⟨(h env).2, applyOps crates env (h env).1, (h env).1.map .op⟩ := by
  cases hresult : (h env).2 <;>
    simp [runHook, Bind.bind, Prog.bind, Prog.gets, Prog.tell, Prog.modify, Prog.ofExcept, hresult]

/-- What the operations of a hook keep, the hook keeps. -/
theorem ends_runHook {h : Hook V}
    (hops : ∀ env tr, K env tr → K (applyOps crates env (h env).1) (tr ++ (h env).1.map .op)) :
    Ends K (runHook crates h) (fun _ => K) fun _ => K := by
  intro env tr hK
  rw [runHook_run]
  exact ⟨fun _ _ => hops env tr hK, fun _ _ => hops env tr hK⟩

/-- The events of a map: its operations, and its outcome if it returns one. -/
theorem runMap_run (crates : Crates V) (m : MapFn V) (f : Format) (input : f.In V) (env : Env V) :
    runMap crates m f input env = ⟨(m f input env).2, applyOps crates env (m f input env).1,
      (m f input env).1.map .op ++ match (m f input env).2 with
        | .ok outcome => [.mapped f outcome]
        | .error _ => []⟩ := by
  cases hresult : (m f input env).2 <;>
    simp [runMap, Bind.bind, Prog.bind, Prog.gets, Prog.tell, Prog.modify, Prog.ofExcept, Pure.pure, Prog.pure,
      hresult]

/-- A map keeps what its operations keep, and returns what it returned in a state where that held. -/
theorem ends_runMap {m : MapFn V} {f : Format} {input : f.In V} {Q : BodyOutcome f.Out → EnvAssertion V}
    (hops : ∀ env tr, K env tr → K (applyOps crates env (m f input env).1) (tr ++ (m f input env).1.map .op))
    (hmapped : ∀ env₀ tr₀ outcome, K env₀ tr₀ → (m f input env₀).2 = .ok outcome → ∀ env tr, K env tr →
      Q outcome env (tr ++ [.mapped f outcome])) :
    Ends K (runMap crates m f input) Q fun _ => K := by
  intro env tr hK
  have hdone := hops env tr hK
  rw [runMap_run]
  constructor
  · intro outcome hreturned
    have hreturned : (m f input env).2 = .ok outcome := hreturned
    rw [hreturned, ← List.append_assoc]
    exact hmapped env tr outcome hK hreturned _ _ hdone
  · intro err hfailed
    have hfailed : (m f input env).2 = .error err := hfailed
    rw [hfailed, List.append_nil]
    exact hdone

end Pipe

/-! ## What a pipeline shows -/

/-- So far every event is of this kind. -/
def AllEvents (P : PipelineEvent V → Prop) : EnvAssertion V := fun _ tr => ∀ e ∈ tr, P e

section
variable {crates : Crates V} {args : RouteArgs V} {P : PipelineEvent V → Prop}

theorem AllEvents.append {env env' : Env V} {tr events : List (PipelineEvent V)} (h : AllEvents P env tr)
    (hevents : ∀ e ∈ events, P e) : AllEvents P env' (tr ++ events) := by
  intro e he
  rcases List.mem_append.mp he with he | he
  · exact h e he
  · exact hevents e he

theorem AllEvents.ops (hop : ∀ o, P (.op o)) {env env' : Env V} {tr : List (PipelineEvent V)} (h : AllEvents P env tr)
    (ops : List (UserOp V)) : AllEvents P env' (tr ++ ops.map .op) := by
  refine h.append fun e he => ?_
  obtain ⟨o, -, rfl⟩ := List.mem_map.mp he
  exact hop o

namespace Pipe

theorem allEvents_stage (hstage : ∀ s err, P (.stage s err)) {α : Type} {s : Stage V} {p : Pipe V α}
    (h : Ends (AllEvents P) p (fun _ => AllEvents P) fun _ => AllEvents P) :
    Ends (AllEvents P) (stage s p) (fun _ => AllEvents P) fun _ => AllEvents P := by
  refine Ends.stage h (fun _ _ _ hall => hall.append fun e he => ?_) fun _ _ _ hall => hall.append fun e he => ?_
  · obtain rfl := List.mem_singleton.mp he
    exact hstage s none
  · obtain rfl := List.mem_singleton.mp he
    exact hstage s _

theorem allEvents_lift {α : Type} {f : Env V → Except ApigateError α × Env V} :
    Ends (AllEvents P) (lift f) (fun _ => AllEvents P) fun _ => AllEvents P :=
  Ends.lift (fun _ _ _ hall _ => hall) fun _ _ _ hall _ => hall

theorem allEvents_runMap (hop : ∀ o, P (.op o)) {m : MapFn V} {f : Format} {input : f.In V}
    (hmapped : ∀ env outcome, (m f input env).2 = .ok outcome → P (.mapped f outcome)) :
    Ends (AllEvents P) (runMap crates m f input) (fun _ => AllEvents P) fun _ => AllEvents P := by
  refine ends_runMap (fun _ _ hall => hall.ops hop _) fun env₀ _ outcome _ hreturned _ _ hall =>
    hall.append fun e he => ?_
  obtain rfl := List.mem_singleton.mp he
  exact hmapped env₀ outcome hreturned

end Pipe

/-- **Every event of a pipeline** is an operation, a mark, or an outcome that the map has returned somewhere. -/
theorem emits_pipeline (hop : ∀ o, P (.op o)) (hstage : ∀ s err, P (.stage s err))
    (hmapped : ∀ m, args.map = some m → ∀ f input env outcome, (m f input env).2 = .ok outcome →
      P (.mapped f outcome))
    {bodyInQuery : Bool} {pipeline : PipelineFn V}
    (hgen : generatePipelineWrapper crates args bodyInQuery = some pipeline) : Emits P pipeline := by
  have hofExcept : ∀ {α : Type} (r : Except ApigateError α),
      Ends (AllEvents P) (ofExcept r) (fun _ => AllEvents P) fun _ => AllEvents P := fun r =>
    Ends.ofExcept (fun _ _ _ hall _ => hall) fun _ _ _ hall _ => hall
  have hedit : ∀ headers, Ends (AllEvents P) (headersMut headers) (fun _ => AllEvents P) fun _ => AllEvents P :=
    fun headers => Ends.modify fun _ _ hall => hall
  have hrules : PhaseRules (Logic.ends fun _ => AllEvents P) crates crates args args bodyInQuery
      (.constant (AllEvents P)) := by
    constructor
    case pathType | queryType | data => rfl
    case path => exact fun _ _ => allEvents_stage hstage allEvents_lift
    case query => exact fun _ _ => allEvents_stage hstage allEvents_lift
    case insert => exact fun _ _ _ => Ends.modify fun _ _ hall => hall
    case hooks =>
      exact List.forall₂_same.mpr fun h _ _ => allEvents_stage hstage (ends_runHook fun _ _ hall => hall.ops hop _)
    case body =>
      constructor
      case maps => rfl
      case contentType => exact fun _ _ _ _ => allEvents_stage hstage allEvents_lift
      case take => exact fun _ => allEvents_stage hstage allEvents_lift
      case read => exact fun _ _ => allEvents_stage hstage allEvents_lift
      case rawBody => exact fun _ _ _ => allEvents_stage hstage allEvents_lift
      case parseJson => exact fun _ _ _ _ => allEvents_stage hstage (hofExcept _)
      case parseForm => exact fun _ _ _ _ _ => allEvents_stage hstage (hofExcept _)
      case unmapped => exact fun _ _ _ _ _ => Ends.pure fun _ _ hall => hall
      case mapped =>
        intro m _ hmap _ _ f input bytes
        refine Ends.bind (allEvents_stage hstage (allEvents_runMap hop (hmapped m hmap f input))) fun outcome => ?_
        cases outcome with
        | keep => exact Ends.pure fun _ _ hall => hall
        | replace newBody =>
            cases f.contentType with
            | none => exact Ends.bind (hedit _) fun _ => Ends.pure fun _ _ hall => hall
            | some contentType =>
                exact Ends.bind (hedit _) fun _ => Ends.bind (hedit _) fun _ => Ends.pure fun _ _ hall => hall
      case rawQuery => exact fun _ _ => Ends.gets fun _ _ hall => hall
      case parseFormQuery => exact fun _ _ _ _ _ => allEvents_stage hstage (hofExcept _)
      case unmappedQuery => exact fun _ _ _ _ => allEvents_stage hstage allEvents_lift
      case mappedQuery =>
        intro m _ hmap _ _ input _
        refine Ends.bind (allEvents_stage hstage (Ends.bind (allEvents_runMap hop (hmapped m hmap .form input))
          fun outcome => ?_)) fun _ => allEvents_stage hstage allEvents_lift
        cases outcome with
        | keep => exact Ends.pure fun _ _ hall => hall
        | replace encoded => exact allEvents_lift
  intro env e he
  obtain ⟨hok, herr⟩ := hrules.one_run hgen env [] fun _ hnil => nomatch hnil
  cases hresult : (pipeline env).result with
  | ok body => exact hok body hresult e he
  | error err => exact herr err hresult e he

end
end Apigate
