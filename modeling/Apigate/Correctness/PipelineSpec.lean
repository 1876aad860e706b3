import Apigate.Correctness.PipelineRules

/-!
# `Correctness.PipelineSpec` — what a generated pipeline returns and leaves behind

One specification for every route configuration. Headers change only through the operations of hooks and maps,
so any property `J` of "headers after these operations" that every operation keeps is an invariant of the run;
the generated code itself edits headers at one place, when it replaces a body. The body that is returned is the
incoming one or the map's replacement.

`J` is a parameter because its users differ: for framing it says that content headers were not touched, for
injected headers that a header has the value last set. Whatever it is, the specification says of a successful
run that there are headers with `J`, after all operations that were shown, and that the request leaves with them
or with what a replacement makes of them (`After`).

Up to the map the assertion is `Before`: the body is untouched or gone, `J` holds of the headers, no map has
run. That the body may be gone is the work of hooks, which can take it; the stages that need it then fail, and
of failures nothing is claimed here. The text that a data phase hands to its parser is the incoming body where
the data is in the body (`TextOfBody`), if reading is faithful at all, which is an assumption about another
crate.

The rules are for `PipelineRules` in the logic of triples, so what a stage does when it fails is not looked at.
-/

namespace Apigate
open Lib Prog

variable {V : Type}

/-! ## Reading a trace

What hooks and maps have done is read off the events: the operations one by one, and the outcome of a map once
it has returned. Both are lists, and appending events appends to them. -/

/-- The operations that hooks and maps performed, in order. -/
def opsOf (tr : List (PipelineEvent V)) : List (UserOp V) :=
  tr.filterMap fun
    | .op o => some o
    | .mapped .. | .stage .. => none

/-- The outcomes of maps, in order. -/
def outcomesOf (tr : List (PipelineEvent V)) : List (Σ f : Format, BodyOutcome f.Out) :=
  tr.filterMap fun
    | .mapped f outcome => some ⟨f, outcome⟩
    | .op _ | .stage .. => none

/-- Operations of one stretch of events after those of another. -/
@[simp] theorem opsOf_append (tr tr' : List (PipelineEvent V)) : opsOf (tr ++ tr') = opsOf tr ++ opsOf tr' :=
  List.filterMap_append

@[simp] theorem outcomesOf_append (tr tr' : List (PipelineEvent V)) :
    outcomesOf (tr ++ tr') = outcomesOf tr ++ outcomesOf tr' :=
  List.filterMap_append

/-- Events that are operations are these operations. -/
@[simp] theorem opsOf_ops (ops : List (UserOp V)) : opsOf (ops.map .op) = ops := by
  induction ops with
  | nil => rfl
  | cons o ops ih => exact congrArg (o :: ·) ih

@[simp] theorem outcomesOf_ops (ops : List (UserOp V)) :
    outcomesOf (ops.map (PipelineEvent.op (V := V))) = [] := by
  induction ops with
  | nil => rfl
  | cons o ops ih => exact ih

@[simp] theorem opsOf_stage (s : Stage V) (error : Option ApigateError) :
    opsOf [.stage s error] = [] := rfl

@[simp] theorem outcomesOf_stage (s : Stage V) (error : Option ApigateError) :
    outcomesOf [PipelineEvent.stage s error] = [] := rfl

@[simp] theorem opsOf_mapped (f : Format) (outcome : BodyOutcome f.Out) :
    opsOf (V := V) [.mapped f outcome] = [] := rfl

@[simp] theorem outcomesOf_mapped (f : Format) (outcome : BodyOutcome f.Out) :
    outcomesOf (V := V) [.mapped f outcome] = [⟨f, outcome⟩] := rfl

/-! ## Invariants

The assertions at the places where pieces meet, and what operations do to them. A list of operations is a fold,
so what each of them keeps is kept by induction. -/

/-- The bytes that `to_bytes` returns are those of the stream, and the stream has not failed. -/
def Crates.ReadsFaithfully (crates : Crates V) : Prop :=
  ∀ body limit bytes, crates.toBytes body limit = .ok bytes → bytes = body.bytes ∧ body.failed = false

/-- Every operation keeps `J`, a property of the headers after the operations so far. -/
def KeptByOps (crates : Crates V) (J : HeaderMap → List (UserOp V) → Prop) : Prop :=
  ∀ env ops op, J env.ctx.parts.headers ops → J (op.apply crates env).ctx.parts.headers (ops ++ [op])

/-- Two bodies with the same bytes and the same end. -/
def Body.Same (b incoming : Body) : Prop := b.bytes = incoming.bytes ∧ b.failed = incoming.failed

theorem same_ofBytes {bytes : Str} {incoming : Body}
    (h : bytes = incoming.bytes ∧ incoming.failed = false) : (Body.ofBytes bytes).Same incoming := by
  constructor
  · rw [Body.bytes_ofBytes, h.1]
  · rw [h.2]
    rfl

/-- Where the data is in the body, its text is what the client sent. -/
def TextOfBody (crates : Crates V) (incoming : Body) (inQuery : Bool) (text : Str) : Prop :=
  inQuery = false → crates.ReadsFaithfully → text = incoming.bytes ∧ incoming.failed = false

/-- Before the map has run: the body is untouched or gone. -/
structure Before (J : HeaderMap → List (UserOp V) → Prop) (incoming : Body) (env : Env V)
    (tr : List (PipelineEvent V)) : Prop where
  body : env.scope.body = some incoming ∨ env.scope.body = none
  headers : J env.ctx.parts.headers (opsOf tr)
  outcomes : outcomesOf tr = []

/-- The headers the generated code leaves after a replacement. -/
def Format.replacedHeaders (f : Format) (headers : HeaderMap) : HeaderMap :=
  (match f.contentType with
    | some contentType => headers.insert .contentType contentType
    | none => headers).remove .contentLength

/-- After the pipeline: the incoming body and the headers as the operations left them, or the map's replacement
    and the headers that go with it. -/
def After (crates : Crates V) (J : HeaderMap → List (UserOp V) → Prop) (incoming : Body) (inQuery : Bool)
    (body : Body) (env : Env V) (tr : List (PipelineEvent V)) : Prop :=
  ∃ headers, J headers (opsOf tr) ∧
    ((env.ctx.parts.headers = headers ∧ (crates.ReadsFaithfully → body.Same incoming) ∧
        (inQuery = true ∨ ∀ f p, ⟨f, .replace p⟩ ∉ outcomesOf tr)) ∨
      (inQuery = false ∧ ∃ f p, outcomesOf tr = [⟨f, .replace p⟩] ∧ body = f.toBody p ∧
        env.ctx.parts.headers = f.replacedHeaders headers))

section
variable {crates : Crates V} {J : HeaderMap → List (UserOp V) → Prop} {incoming : Body}

/-- What every operation keeps, a list of them keeps, by induction on the list. -/
theorem KeptByOps.applyOps (hJ : KeptByOps crates J) {env : Env V} {done : List (UserOp V)}
    (h : J env.ctx.parts.headers done) (ops : List (UserOp V)) :
    J (applyOps crates env ops).ctx.parts.headers (done ++ ops) := by
  induction ops generalizing env done with
  | nil => simpa [Apigate.applyOps] using h
  | cons op ops ih =>
      have hnext := ih (hJ env done op h)
      rwa [List.append_assoc] at hnext

/-- Operations leave the body or consume it; none puts another one there. -/
theorem applyOps_body (env : Env V) (ops : List (UserOp V)) :
    (applyOps crates env ops).scope.body = env.scope.body ∨
      (applyOps crates env ops).scope.body = none := by
  induction ops generalizing env with
  | nil => exact Or.inl rfl
  | cons op ops ih =>
      rcases ih (op.apply crates env) with h | h
      · rcases op.apply_body crates env with hop | hop
        · exact Or.inl (h.trans hop)
        · exact Or.inr (h.trans hop)
      · exact Or.inr h

/-- Operations keep the state before the map. -/
theorem Before.applyOps (hJ : KeptByOps crates J) {env : Env V} {tr : List (PipelineEvent V)}
    (h : Before J incoming env tr) (ops : List (UserOp V)) :
    Before J incoming (applyOps crates env ops) (tr ++ ops.map .op) := by
  constructor
  · rcases applyOps_body env ops with hb | hb
    · rw [hb]
      exact h.body
    · exact Or.inr hb
  · rw [opsOf_append, opsOf_ops]
    exact hJ.applyOps h.headers ops
  · rw [outcomesOf_append, outcomesOf_ops, h.outcomes, List.append_nil]

/-- So does the end of a stage. -/
theorem Before.stage {env : Env V} {tr : List (PipelineEvent V)} (h : Before J incoming env tr)
    (s : Stage V) : Before J incoming env (tr ++ [.stage s none]) :=
  ⟨h.body, by simpa using h.headers, by simpa using h.outcomes⟩

namespace Pipe

/-! ## Before the body

Pieces of code that only look at the request, or add a value to the scope, and hooks. -/

/-- A stage that changes nothing. -/
theorem before_stage {α : Type} {s : Stage V} {p : Pipe V α}
    (h : Triple (Before J incoming) p fun _ => Before J incoming) :
    Triple (Before J incoming) (stage s p) fun _ => Before J incoming :=
  Triple.stage h fun _ _ _ hb => hb.stage s

/-- Code that looks at the state and leaves it. -/
theorem before_readOnly {α : Type} {r : Env V → Except ApigateError α} :
    Triple (Before J incoming) (lift fun env => (r env, env)) fun _ => Before J incoming :=
  Triple.lift fun _ _ _ h _ => h

/-- A value that has been computed already. -/
theorem before_ofExcept {α : Type} {r : Except ApigateError α} :
    Triple (Before J incoming) (Prog.ofExcept r) fun _ => Before J incoming :=
  Triple.ofExcept fun _ _ _ h _ => h

/-- A value put into the scope. -/
theorem before_scopeInsert (ty : TypeId) (value : V) :
    Triple (Before J incoming) (scopeInsert ty value) fun _ => Before J incoming :=
  Triple.modify fun _ _ h => ⟨h.body, h.headers, h.outcomes⟩

/-- A hook: its operations keep what they keep, whatever it decides. -/
theorem before_runHook (hJ : KeptByOps crates J) (h : Hook V) :
    Triple (Before J incoming) (runHook crates h) fun _ => Before J incoming :=
  (ends_runHook fun _ _ hb => hb.applyOps hJ _).triple

/-! ## The body

The pieces that touch the body, and the map. Here `Before` ends and `After` begins. -/

/-- Taking the body gives the incoming one, whatever a map with its data in the query has decided. -/
theorem after_takeBodyExpr (inQuery : Bool) :
    Triple (fun env tr => (env.scope.body = some incoming ∨ env.scope.body = none) ∧
        J env.ctx.parts.headers (opsOf tr) ∧
        (inQuery = true ∨ ∀ f p, ⟨f, .replace p⟩ ∉ outcomesOf tr))
      takeBodyExpr (After crates J incoming inQuery) := by
  refine @Triple.stage _ _ _ _ _ _ (After crates J incoming inQuery) _ _ (Triple.lift ?_) ?_
  · rintro env tr body ⟨hbody, hheaders, houtcomes⟩ hok
    -- a body that is gone is an error
    rcases hbody with hbody | hbody
    · simp only [RequestScope.takeBody, hbody, Except.ok.injEq] at hok ⊢
      subst hok
      exact ⟨_, hheaders, Or.inl ⟨rfl, fun _ => ⟨rfl, rfl⟩, houtcomes⟩⟩
    · simp only [RequestScope.takeBody, hbody] at hok
      cases hok
  · intro body env tr h
    simpa [After] using h

/-- Reading the body gives the incoming bytes. -/
theorem before_readBody {inQuery : Bool} :
    Triple (Before J incoming) (stage .readBody (readBodyBytes crates)) fun bytes env tr =>
      Before J incoming env tr ∧ TextOfBody crates incoming inQuery bytes := by
  have hlift : Triple (Before J incoming) (readBodyBytes crates) fun bytes env tr =>
      Before J incoming env tr ∧ TextOfBody crates incoming inQuery bytes := by
    apply Triple.lift
    intro env tr bytes h hok
    simp only [RequestScope.readBodyBytes] at hok ⊢
    -- a body that an operation has taken cannot be read any more
    rcases h.body with hbody | hbody
    · simp only [hbody] at hok ⊢
      cases hbytes : crates.toBytes incoming env.scope.bodyLimit with
      | error err =>
          rw [hbytes] at hok
          cases hok
      | ok bytes' =>
          rw [hbytes] at hok
          cases hok
          exact ⟨⟨Or.inr rfl, h.headers, h.outcomes⟩, fun _ hread => hread _ _ _ hbytes⟩
    · rw [hbody] at hok
      cases hok
  exact Triple.stage hlift fun _ _ _ h => ⟨h.1.stage _, h.2⟩

/-- What holds once the map has returned. -/
structure Mapped (J : HeaderMap → List (UserOp V) → Prop) (incoming : Body) (f : Format)
    (outcome : BodyOutcome f.Out) (env : Env V) (tr : List (PipelineEvent V)) : Prop where
  body : env.scope.body = some incoming ∨ env.scope.body = none
  headers : J env.ctx.parts.headers (opsOf tr)
  outcomes : outcomesOf tr = [⟨f, outcome⟩]

/-- A map that has returned: its operations are done, and its outcome is shown. -/
theorem mapped_runMap (hJ : KeptByOps crates J) (m : MapFn V) (f : Format) (input : f.In V) :
    Triple (Before J incoming) (runMap crates m f input) (Mapped J incoming f) :=
  (ends_runMap (fun _ _ hb => hb.applyOps hJ _) fun _ _ _ _ _ _ _ hb =>
    ⟨hb.body, by simpa using hb.headers, by simp [hb.outcomes]⟩).triple

/-- The map's stage adds its mark only. -/
theorem mapped_stage {m : MapFn V} {f : Format} {p : Pipe V (BodyOutcome f.Out)}
    (h : Triple (Before J incoming) p (Mapped J incoming f)) :
    Triple (Before J incoming) (stage (.map m) p) (Mapped J incoming f) :=
  Triple.stage h fun _ _ _ hm => ⟨hm.body, by simpa using hm.headers, by simpa using hm.outcomes⟩

/-- **The tail of every mapped phase**: the bytes that were read, or the replacement with its headers. By cases
    on the outcome. A kept body is built from the bytes that were read; a replaced one gets the content type of
    its format and loses the old length, and the edits in a row are `replacedHeaders`. -/
theorem after_mapReplaceOrKeep (hJ : KeptByOps crates J) {m : MapFn V} {f : Format} {input : f.In V}
    {bytes : Str} (hbytes : TextOfBody crates incoming false bytes) :
    Triple (Before J incoming) (mapReplaceOrKeep crates m f input f.contentType bytes)
      (After crates J incoming false) := by
  refine Triple.bind (mapped_stage (mapped_runMap hJ m f input)) fun outcome => ?_
  cases outcome with
  | keep =>
      refine Triple.pure fun env tr h => ⟨_, h.headers, Or.inl ⟨rfl, ?_, Or.inr ?_⟩⟩
      · exact fun hread => same_ofBytes (hbytes rfl hread)
      · intro f' p hmem
        rw [h.outcomes] at hmem
        cases List.mem_singleton.mp hmem
  | replace newBody =>
      -- the headers after the replacement, one edit after the other
      have hfinish : ∀ (headers : HeaderMap → HeaderMap),
          Triple (fun env tr => ∃ kept, J kept (opsOf tr) ∧ outcomesOf tr = [⟨f, .replace newBody⟩] ∧
              headers env.ctx.parts.headers = f.replacedHeaders kept)
            (headersMut headers >>= fun _ => (pure (f.toBody newBody) : Pipe V Body))
            (After crates J incoming false) := by
        intro headers
        refine Triple.bind (Q := fun _ env tr => ∃ kept, J kept (opsOf tr) ∧
            outcomesOf tr = [⟨f, .replace newBody⟩] ∧
            env.ctx.parts.headers = f.replacedHeaders kept) (Triple.modify fun _ _ h => h) fun _ => ?_
        apply Triple.pure
        rintro env tr ⟨kept, hkept, houtcomes, hheaders⟩
        exact ⟨kept, hkept, Or.inr ⟨rfl, f, newBody, houtcomes, rfl, hheaders⟩⟩
      cases hct : f.contentType with
      | none =>
          refine Triple.weaken (hfinish (·.remove .contentLength)) ?_ fun _ _ _ h => h
          intro env tr h
          exact ⟨env.ctx.parts.headers, h.headers, h.outcomes, by simp [Format.replacedHeaders, hct]⟩
      | some contentType =>
          refine Triple.bind (Triple.modify ?_) fun _ => hfinish (·.remove .contentLength)
          intro env tr h
          exact ⟨env.ctx.parts.headers, h.headers, h.outcomes, by simp [Format.replacedHeaders, hct]⟩

/-- Without a map, the bytes that were read. -/
theorem after_unmapped {bytes : Str} (hbytes : TextOfBody crates incoming false bytes) :
    Triple (Before J incoming) (pure (Body.ofBytes bytes) : Pipe V Body) (After crates J incoming false) := by
  refine Triple.pure fun env tr h => ⟨_, h.headers, Or.inl ⟨rfl, ?_, Or.inr ?_⟩⟩
  · exact fun hread => same_ofBytes (hbytes rfl hread)
  · intro f p hmem
    rw [h.outcomes] at hmem
    cases hmem

/-- The check of the content type looks at a header, and passes or fails. -/
theorem before_contentTypeGuard (typePrefix : Str) (needle : Option Str) (error : ApigatePipelineError) :
    Triple (Before J incoming) (contentTypeGuard (V := V) typePrefix needle error) fun _ =>
      Before J incoming := by
  refine before_stage (Triple.lift ?_)
  intro env tr u h hok
  dsimp only at hok ⊢
  split at hok
  · cases hok
  · rename_i hpass
    rw [if_neg hpass]
    exact h

/-- The bytes that have been read are got from the scope, which keeps them. -/
theorem before_rawBodyExpr :
    Triple (Before J incoming) (rawBodyExpr : Pipe V Str) fun _ => Before J incoming := by
  refine before_stage (Triple.lift ?_)
  intro env tr raw h hok
  cases hclone : env.scope.rawBodyCloned with
  | none =>
      simp only [hclone] at hok
      cases hok
  | some raw' => exact h

/-- A replacement of the query leaves the body and the headers as they are. -/
theorem after_queryReplacement (outcome : BodyOutcome Format.form.Out) :
    Triple (Mapped J incoming .form outcome)
      (match outcome with
        | .replace encoded => lift fun env =>
            let (result, ctx) := env.ctx.setEncodedQuery crates encoded
            (result, { env with ctx := ctx })
        | .keep => return ())
      fun _ env tr => (env.scope.body = some incoming ∨ env.scope.body = none) ∧
        J env.ctx.parts.headers (opsOf tr) := by
  cases outcome with
  | keep => exact Triple.pure fun env tr h => ⟨h.body, h.headers⟩
  | replace encoded =>
      apply Triple.lift
      intro env tr u h _
      have hheaders : (env.ctx.setEncodedQuery crates encoded).2.parts.headers =
          env.ctx.parts.headers := PartsCtx.setEncodedQuery_headers crates env.ctx encoded
      refine ⟨h.body, ?_⟩
      show J (env.ctx.setEncodedQuery crates encoded).2.parts.headers (opsOf tr)
      rw [hheaders]
      exact h.headers

/-- The map of a form in the query: the body is still there for the end. -/
theorem after_mapQueryExpr (hJ : KeptByOps crates J) (m : MapFn V) (input : V) :
    Triple (Before J incoming) (mapQueryExpr crates m input) fun _ env tr =>
      (env.scope.body = some incoming ∨ env.scope.body = none) ∧ J env.ctx.parts.headers (opsOf tr) :=
  Triple.stage (Triple.bind (mapped_runMap hJ m .form input) after_queryReplacement) fun _ _ _ h =>
    ⟨h.1, by simpa using h.2⟩

end Pipe

/-! ## The whole pipeline

The assertions at the four places, and one fact for each piece of code. -/

/-- What holds where the pieces of a pipeline meet. -/
def specAssertions (crates : Crates V) (J : HeaderMap → List (UserOp V) → Prop) (incoming : Body) (inQuery : Bool) :
    PhaseAssertions V (EnvAssertion V) where
  start _ := Before J incoming
  text text _ env tr := Before J incoming env tr ∧ TextOfBody crates incoming inQuery text
  input _ _ text _ env tr := Before J incoming env tr ∧ TextOfBody crates incoming inQuery text
  done := After crates J incoming inQuery

open Pipe in
/-- The rules, piece by piece. Without a map no replacement is shown, and with one there is exactly its own. -/
theorem specRules (hJ : KeptByOps crates J) (args : RouteArgs V) (bodyInQuery : Bool) :
    PhaseRules .triple crates crates args args bodyInQuery
      (specAssertions crates J incoming (args.data.inQuery bodyInQuery)) := by
  constructor
  case pathType | queryType | data => rfl
  case path => exact fun ty _ => before_stage before_readOnly
  case query => exact fun ty _ => before_stage before_readOnly
  case insert => exact fun ty value _ => before_scopeInsert ty value
  case hooks => exact List.forall₂_same.mpr fun h _ _ => before_stage (before_runHook hJ h)
  case body =>
    constructor
    case maps => rfl
    case contentType => exact fun typePrefix needle error _ => before_contentTypeGuard typePrefix needle error
    case take =>
      -- no map has run, whatever the data
      intro _
      refine Triple.weaken (after_takeBodyExpr _) (fun env tr h => ⟨h.body, h.headers, Or.inr ?_⟩) fun _ _ _ h => h
      intro f p hmem
      rw [h.outcomes] at hmem
      cases hmem
    case read => exact fun _ _ => before_readBody
    case rawBody => exact fun _ bytes _ => Triple.and_pure before_rawBodyExpr
    case parseJson => exact fun ty _ bytes _ => Triple.and_pure (before_stage before_ofExcept)
    case parseForm => exact fun ty _ _ bytes _ => Triple.and_pure (before_stage before_ofExcept)
    case unmapped =>
      intro _ hquery f input bytes
      rw [hquery]
      exact Triple.of_pure after_unmapped
    case mapped =>
      intro m _ _ _ hquery f input bytes
      rw [hquery]
      exact Triple.of_pure (after_mapReplaceOrKeep hJ)
    case rawQuery =>
      intro hquery _
      refine Triple.gets fun env tr h => ⟨h, fun hbody => ?_⟩
      rw [hquery] at hbody
      cases hbody
    case parseFormQuery => exact fun ty _ _ raw _ => Triple.and_pure (before_stage before_ofExcept)
    case unmappedQuery =>
      intro _ hquery input raw
      exact Triple.weaken (after_takeBodyExpr _) (fun env tr h => ⟨h.1.body, h.1.headers, Or.inl hquery⟩)
        fun _ _ _ h => h
    case mappedQuery =>
      intro m _ _ _ hquery input raw
      refine Triple.of_pure fun _ => Triple.bind (after_mapQueryExpr hJ m input) fun _ => ?_
      exact Triple.weaken (after_takeBodyExpr _) (fun env tr h => ⟨h.1, h.2, Or.inl hquery⟩) fun _ _ _ h => h

/-- **What a generated pipeline returns and leaves behind**, for every route configuration. -/
theorem generated_spec (hJ : KeptByOps crates J) {args : RouteArgs V}
    {bodyInQuery : Bool} {pipeline : PipelineFn V}
    (hgen : generatePipelineWrapper crates args bodyInQuery = some pipeline) {env : Env V}
    (hbody : env.scope.body = some incoming) (hheaders : J env.ctx.parts.headers []) {body : Body}
    (hok : (pipeline env).result = .ok body) :
    After crates J incoming (args.data.inQuery bodyInQuery) body (pipeline env).state (pipeline env).trace :=
  (specRules hJ args bodyInQuery).one_run hgen env [] ⟨Or.inl hbody, hheaders, rfl⟩ body hok

end
end Apigate
