import Apigate.Correctness.PipelineSpec
import Apigate.Correctness.Signatures
import Apigate.Macros.Functions

/-!
# `Correctness.Footprints` — what a route's hooks and maps can do is in their signatures

A body reaches the request through its parameters. So a route none of whose functions has a `&mut PartsCtx`
keeps the request head, but for what the generated code itself does with the output of a map; and where none has
a `&mut RequestScope`, the generated code finds the body where it looks for it.

What a function does is a list of operations, and `BoundFn` carries the proof that each of them is permitted by
one of its bindings. `mem_call` turns that around: an operation of a call comes from a binding that is there, so
that a kind of operation which only `&mut PartsCtx` permits cannot come from a function without one
(`call_off_ctx`), and likewise for the scope (`call_off_body`).

The two halves of the result are then the same walk over the generated code, with different assertions for
`PipelineRules`:

* for the head (`headRules`), it is the one of the request until the map has returned (`HeadKept`), and in the
  end it is what the map's outcome makes of it (`HeadAfter`): unchanged, or with the content headers of a
  replaced body, or with a replaced query. Since the events show the outcome of the map, the assertion is about
  state and trace together;
* for the body (`bodyRules`), nobody has consumed it until the generated code reads it (`BodyKept`), and from
  then on its bytes are in the scope. The assertion about failures (`BodyFound`) is about the whole trace: no
  stage has failed in a way in which it cannot fail when the body is there.

Both are proved for every way in which a pipeline can end, since a hook that rejects must not have done anything
forbidden either.
-/

namespace Apigate
open Lib Text Syn Prog

variable {V : Type}

/-! ## Operations

What one operation leaves alone, by cases on the operation, and what a list of them leaves alone. -/

/-- The operation is one that consumes the body. -/
def UserOp.onBody : UserOp V → Bool
  | takeBody | readBodyBytes => true
  | setHeader .. | setHeaderIfAbsent .. | removeHeader _ | headersMut _ | uriMut _ | setEncodedQuery _
  | extensionsMut _ | extract _ | insert .. | take _ | getMut .. => false

/-- An operation that is not of the head keeps it. -/
theorem UserOp.apply_ctx (crates : Crates V) (env : Env V) {op : UserOp V} (h : op.onCtx = false) :
    (op.apply crates env).ctx = env.ctx := by
  cases op <;> first | rfl | cases h

/-- No operation changes the limit for the body. -/
theorem UserOp.apply_bodyLimit (crates : Crates V) (env : Env V) (op : UserOp V) :
    (op.apply crates env).scope.bodyLimit = env.scope.bodyLimit := by
  cases op with
  | readBodyBytes =>
      simp only [UserOp.apply, RequestScope.readBodyBytes]
      split
      · rfl
      · split <;> rfl
  | take ty => simp only [UserOp.apply, RequestScope.take_eq]
  | getMut ty f =>
      obtain ⟨extensions, hscope⟩ := env.scope.getMut_eq ty f
      simp only [UserOp.apply, hscope]
  | _ => rfl

/-- An operation that does not consume the body leaves it where it is. -/
theorem UserOp.apply_keeps_body (crates : Crates V) (env : Env V) {op : UserOp V} (h : op.onBody = false) :
    (op.apply crates env).scope.body = env.scope.body := by
  cases op with
  | takeBody => cases h
  | readBodyBytes => cases h
  | take ty => simp only [UserOp.apply, RequestScope.take_eq]
  | getMut ty f =>
      obtain ⟨extensions, hscope⟩ := env.scope.getMut_eq ty f
      simp only [UserOp.apply, hscope]
  | _ => rfl

/-- What every operation of a list keeps, the list keeps. -/
theorem applyOps_keeps {crates : Crates V} {P : UserOp V → Prop} {R : Env V → Prop}
    (hstep : ∀ env op, P op → R env → R (op.apply crates env)) {ops : List (UserOp V)} (hops : ∀ op ∈ ops, P op)
    {env : Env V} (h : R env) : R (applyOps crates env ops) := by
  induction ops generalizing env with
  | nil => exact h
  | cons op ops ih =>
      exact ih (fun op' h' => hops op' (List.mem_cons_of_mem _ h')) (hstep env op (hops op List.mem_cons_self) h)

/-! ## Functions

The operations of a call are those of its bindings, which take values out of the scope, and those of the body,
each of which a binding permits. The second half is a field of `BoundFn`: no such function can be written down
without it. -/

/-- A binding performs an operation only where it takes a value. -/
theorem LetStmt.mem_taken {types : Types} {stmt : LetStmt} {op : UserOp V} (h : op ∈ stmt.taken types) :
    ∃ ty missing, stmt.init = .orMissing (.take ty) missing ∧ op = .take (types.resolve ty) := by
  unfold LetStmt.taken at h
  split at h
  · rename_i ty missing hinit
    exact ⟨ty, missing, hinit, List.mem_singleton.mp h⟩
  · cases h
  · cases h
  · cases h

/-- The bindings change what they take, and nothing else. By induction on the bindings; those behind one that
    fails do nothing. -/
theorem mem_bindParams {types : Types} {stmts : List LetStmt} {env : Env V} {op : UserOp V}
    (h : op ∈ (bindParams types stmts env).1) : ∃ stmt ∈ stmts, op ∈ stmt.taken types := by
  induction stmts generalizing env with
  | nil => cases h
  | cons stmt stmts ih =>
      unfold bindParams at h
      split at h
      · exact ⟨stmt, List.mem_cons_self, h⟩
      · rcases List.mem_append.mp h with h | h
        · exact ⟨stmt, List.mem_cons_self, h⟩
        · obtain ⟨stmt', hstmt', htaken⟩ := ih h
          exact ⟨stmt', List.mem_cons_of_mem _ hstmt', htaken⟩

namespace BoundFn
variable {special : SpecialTypePaths} {types : Types} {mode : ExpansionMode} {ι ο : Type}
  {f : BoundFn V special types mode ι ο} {input : ι} {env : Env V} {op : UserOp V}

/-- An operation of a call is one of the bindings or one that a binding permits. -/
theorem mem_call (h : op ∈ (f.call input env).1) :
    ∃ stmt ∈ f.expansion.bindings, op ∈ stmt.taken types ∨ stmt.permits types op := by
  have hbound : ∀ op ∈ (bindParams types f.expansion.bindings env).1, ∃ stmt ∈ f.expansion.bindings,
      op ∈ stmt.taken types ∨ stmt.permits types op := by
    intro op hop
    obtain ⟨stmt, hstmt, htaken⟩ := mem_bindParams hop
    exact ⟨stmt, hstmt, .inl htaken⟩
  unfold call at h
  split at h
  · rename_i hrun
    rw [hrun] at hbound
    exact hbound op h
  · rename_i values hrun
    rw [hrun] at hbound
    rcases List.mem_append.mp h with h | h
    · exact hbound op h
    · obtain ⟨stmt, hstmt, hpermits⟩ := f.permitted input values op h
      exact ⟨stmt, hstmt, .inr hpermits⟩

/-- Without `&mut PartsCtx` a call leaves the request context alone: taking a value is not an operation of the
    head, and the operations of the head are permitted by that parameter only. -/
theorem call_off_ctx (hctx : ¬ f.Binds .ctx) (h : op ∈ (f.call input env).1) : op.onCtx = false := by
  obtain ⟨stmt, hstmt, htaken | hpermits⟩ := mem_call h
  · obtain ⟨ty, missing, -, rfl⟩ := LetStmt.mem_taken htaken
    rfl
  · unfold LetStmt.permits at hpermits
    split at hpermits
    · rename_i hinit
      exact absurd ⟨stmt, hstmt, hinit⟩ hctx
    · exact hpermits
    · obtain ⟨g, rfl⟩ := hpermits
      rfl
    · exact hpermits.elim

/-- Without `&mut RequestScope` a call leaves the body alone, for the same reason. -/
theorem call_off_body (hscope : ¬ f.Binds .scope) (h : op ∈ (f.call input env).1) : op.onBody = false := by
  obtain ⟨stmt, hstmt, htaken | hpermits⟩ := mem_call h
  · obtain ⟨ty, missing, -, rfl⟩ := LetStmt.mem_taken htaken
    rfl
  · unfold LetStmt.permits at hpermits
    split at hpermits
    · cases op <;> first | rfl | cases hpermits
    · rename_i hinit
      exact absurd ⟨stmt, hstmt, hinit⟩ hscope
    · obtain ⟨g, rfl⟩ := hpermits
      rfl
    · exact hpermits.elim

end BoundFn

/-! ## Routes

From functions to the arguments of a route, which hold hooks and a map as the generated code calls them. A map
has its output serialized on the way; that is no operation. -/

/-- Every operation that a hook or the map of the route performs is one of these. -/
structure RouteArgs.Performs (args : RouteArgs V) (P : UserOp V → Prop) : Prop where
  hooks : ∀ h ∈ args.before, ∀ env, ∀ op ∈ (h env).1, P op
  map : ∀ m, args.map = some m → ∀ f input env, ∀ op ∈ (m f input env).1, P op

/-- The hooks and the map of the route are these functions, after macro expansion. -/
structure RouteArgs.WrittenAs {special : SpecialTypePaths} {types : Types} (args : RouteArgs V)
    (serializers : Serializers V) (hooks : List (HookFn V special types))
    (mapFn : Option (MapFunction V special types)) : Prop where
  before : args.before = hooks.map HookFn.toHook
  map : args.map = mapFn.map (MapFunction.toMap serializers)

/-- None of the functions has such a parameter. -/
structure NoneBinds {special : SpecialTypePaths} {types : Types} (init : Init) (hooks : List (HookFn V special types))
    (mapFn : Option (MapFunction V special types)) : Prop where
  hooks : ∀ f ∈ hooks, ¬ f.Binds init
  map : ∀ m ∈ mapFn, ¬ m.Binds init

section
variable {special : SpecialTypePaths} {types : Types} {args : RouteArgs V} {serializers : Serializers V}
  {hooks : List (HookFn V special types)} {mapFn : Option (MapFunction V special types)}

/-- What the calls of all functions perform, the route performs. -/
theorem RouteArgs.WrittenAs.performs {P : UserOp V → Prop} (h : args.WrittenAs serializers hooks mapFn)
    (hhooks : ∀ f ∈ hooks, ∀ env, ∀ op ∈ (f.call () env).1, P op)
    (hmap : ∀ m ∈ mapFn, ∀ input env, ∀ op ∈ (m.call input env).1, P op) : args.Performs P := by
  constructor
  · intro hook hmem env op hop
    rw [h.before] at hmem
    obtain ⟨f, hf, rfl⟩ := List.mem_map.mp hmem
    exact hhooks f hf env op hop
  · intro m hm f input env op hop
    rw [h.map] at hm
    obtain ⟨written, hwritten, rfl⟩ := Option.map_eq_some_iff.mp hm
    exact hmap written hwritten _ env op hop

/-- A route without `&mut PartsCtx` performs no operation of the head. -/
theorem RouteArgs.WrittenAs.off_ctx (h : args.WrittenAs serializers hooks mapFn) (hctx : NoneBinds .ctx hooks mapFn) :
    args.Performs (·.onCtx = false) :=
  h.performs (fun f hf _ _ hop => BoundFn.call_off_ctx (hctx.hooks f hf) hop)
    fun m hm _ _ _ hop => BoundFn.call_off_ctx (hctx.map m hm) hop

/-- A route without `&mut RequestScope` performs none that consumes the body. -/
theorem RouteArgs.WrittenAs.off_body (h : args.WrittenAs serializers hooks mapFn)
    (hscope : NoneBinds .scope hooks mapFn) : args.Performs (·.onBody = false) :=
  h.performs (fun f hf _ _ hop => BoundFn.call_off_body (hscope.hooks f hf) hop)
    fun m hm _ _ _ hop => BoundFn.call_off_body (hscope.map m hm) hop

end

/-! ## The request head

`KeepsHead` is for the pieces in front of the map and `LeavesHead` for those behind it. A piece that keeps the
head also leaves it, with no outcome of a map to account for. -/

/-- The head after a pipeline whose functions leave it alone: as it was, or changed by the generated code
    because of what the map has returned. -/
inductive HeadAfter (crates : Crates V) (inQuery : Bool) (ctx : PartsCtx V) (tr : List (PipelineEvent V)) :
    PartsCtx V → Prop
  | same (h : ∀ f p, ⟨f, .replace p⟩ ∉ outcomesOf tr) : HeadAfter crates inQuery ctx tr ctx
  | body {f : Format} {p : f.Out} (hquery : inQuery = false) (h : outcomesOf tr = [⟨f, .replace p⟩]) :
      HeadAfter crates inQuery ctx tr (ctx.setHeaders (f.replacedHeaders ctx.parts.headers))
  | query {encoded : Str} (hquery : inQuery = true) (h : outcomesOf tr = [⟨.form, .replace encoded⟩]) :
      HeadAfter crates inQuery ctx tr (ctx.setEncodedQuery crates encoded).2

/-- What the head has become depends on the outcomes shown, and not on the other events. -/
theorem HeadAfter.congr {crates : Crates V} {inQuery : Bool} {ctx ctx' : PartsCtx V}
    {tr tr' : List (PipelineEvent V)} (h : HeadAfter crates inQuery ctx tr ctx')
    (htr : outcomesOf tr = outcomesOf tr') : HeadAfter crates inQuery ctx tr' ctx' := by
  cases h with
  | same h => exact .same (htr ▸ h)
  | body hquery h => exact .body hquery (htr ▸ h)
  | query hquery h => exact .query hquery (htr ▸ h)

/-- Without a replacement, the head is as it was. -/
theorem HeadAfter.eq_of_kept {crates : Crates V} {inQuery : Bool} {ctx ctx' : PartsCtx V}
    {tr : List (PipelineEvent V)} (h : HeadAfter crates inQuery ctx tr ctx')
    (hkeep : ∀ f p, ⟨f, .replace p⟩ ∉ outcomesOf tr) : ctx' = ctx := by
  cases h with
  | same _ => rfl
  | body _ h =>
      rw [h] at hkeep
      exact absurd (List.mem_singleton_self _) (hkeep _ _)
  | query _ h =>
      rw [h] at hkeep
      exact absurd (List.mem_singleton_self _) (hkeep _ _)

/-- Before the map has returned. -/
def HeadKept (ctx : PartsCtx V) (env : Env V) (tr : List (PipelineEvent V)) : Prop :=
  env.ctx = ctx ∧ outcomesOf tr = []

/-- Once the map has returned. -/
def HeadMapped (ctx : PartsCtx V) (f : Format) (outcome : BodyOutcome f.Out) (env : Env V)
    (tr : List (PipelineEvent V)) : Prop :=
  env.ctx = ctx ∧ outcomesOf tr = [⟨f, outcome⟩]

/-- As long as no map has returned, the head is the one of the request. -/
theorem HeadKept.after {ctx : PartsCtx V} {env : Env V} {tr : List (PipelineEvent V)} (h : HeadKept ctx env tr)
    (crates : Crates V) (inQuery : Bool) : HeadAfter crates inQuery ctx tr env.ctx := by
  obtain ⟨rfl, houtcomes⟩ := h
  refine .same fun f p hmem => ?_
  rw [houtcomes] at hmem
  cases hmem

/-- Operations that are not of the head keep it. -/
theorem HeadKept.applyOps {crates : Crates V} {ctx : PartsCtx V} {env : Env V} {tr : List (PipelineEvent V)}
    (h : HeadKept ctx env tr) {ops : List (UserOp V)} (hops : ∀ op ∈ ops, op.onCtx = false) :
    HeadKept ctx (applyOps crates env ops) (tr ++ ops.map .op) := by
  refine ⟨?_, by simp [h.2]⟩
  exact applyOps_keeps (R := fun env => env.ctx = ctx)
    (fun env _ hop hctx => (UserOp.apply_ctx crates env hop).trans hctx) hops h.1

namespace Pipe
variable {crates : Crates V} {ctx : PartsCtx V} {inQuery : Bool}

/-- Generated code that keeps the head however it ends. -/
abbrev KeepsHead {α : Type} (p : Pipe V α) (ctx : PartsCtx V) : Prop :=
  Ends (HeadKept ctx) p (fun _ => HeadKept ctx) fun _ => HeadKept ctx

/-- A stage adds an event, which is no outcome of a map. -/
theorem keepsHead_stage {α : Type} {s : Stage V} {p : Pipe V α} (h : KeepsHead p ctx) :
    KeepsHead (stage s p) ctx := by
  refine Ends.stage h (fun a env tr hkept => ?_) fun e env tr hkept => ?_
  · exact ⟨hkept.1, by simp [hkept.2]⟩
  · exact ⟨hkept.1, by simp [hkept.2]⟩

/-- Code that does not write the head. -/
theorem keepsHead_lift {α : Type} {f : Env V → Except ApigateError α × Env V} (h : ∀ env, (f env).2.ctx = env.ctx) :
    KeepsHead (lift f) ctx :=
  Ends.lift (fun env _ _ hkept _ => ⟨(h env).trans hkept.1, hkept.2⟩)
    fun env _ _ hkept _ => ⟨(h env).trans hkept.1, hkept.2⟩

/-- A parsed value changes nothing. -/
theorem keepsHead_ofExcept {α : Type} {r : Except ApigateError α} : KeepsHead (Prog.ofExcept r) ctx :=
  Ends.ofExcept (fun _ _ _ hkept _ => hkept) fun _ _ _ hkept _ => hkept

/-- A hook that performs no operation of the head, whether or not it rejects. -/
theorem keepsHead_runHook {h : Hook V} (hops : ∀ env, ∀ op ∈ (h env).1, op.onCtx = false) :
    KeepsHead (runHook crates h) ctx := ends_runHook fun env _ hkept => hkept.applyOps (hops env)

/-- A map that performs no operation of the head, and has returned. -/
theorem headMapped_runMap {m : MapFn V} {f : Format}
    (hops : ∀ f input env, ∀ op ∈ (m f input env).1, op.onCtx = false)
    (input : f.In V) :
    Ends (HeadKept ctx) (runMap crates m f input) (HeadMapped ctx f) fun _ => HeadKept ctx :=
  ends_runMap (fun env _ hkept => hkept.applyOps (hops f input env))
    fun _ _ _ _ _ _ _ hkept => ⟨hkept.1, by simp [hkept.2]⟩

/-- Generated code that leaves the head as it was, or changes it because of what the map has returned. -/
abbrev LeavesHead {α : Type} (crates : Crates V) (inQuery : Bool) (p : Pipe V α) (ctx : PartsCtx V) : Prop :=
  Ends (HeadKept ctx) p (fun _ env tr => HeadAfter crates inQuery ctx tr env.ctx)
    fun _ env tr => HeadAfter crates inQuery ctx tr env.ctx

theorem KeepsHead.leaves {α : Type} {p : Pipe V α} (h : KeepsHead p ctx) : LeavesHead crates inQuery p ctx :=
  Ends.weaken h (fun _ _ hkept => hkept) (fun _ _ _ hkept => hkept.after crates inQuery)
    fun _ _ _ hkept => hkept.after crates inQuery

/-- A stage that ends with the head after the map. -/
theorem headAfter_stage {α : Type} {s : Stage V} {p : Pipe V α} {P : EnvAssertion V}
    (h : Ends P p (fun _ env tr => HeadAfter crates inQuery ctx tr env.ctx)
      fun _ env tr => HeadAfter crates inQuery ctx tr env.ctx) :
    Ends P (stage s p) (fun _ env tr => HeadAfter crates inQuery ctx tr env.ctx)
      fun _ env tr => HeadAfter crates inQuery ctx tr env.ctx :=
  Ends.stage h (fun _ _ _ hafter => hafter.congr (by simp)) fun _ _ _ hafter => hafter.congr (by simp)

/-- The map of a route whose data is the body. By cases on the outcome: a kept body leaves the head, and a
    replaced one gets the content headers of its format, set one after the other, which are together
    `replacedHeaders`. -/
theorem leavesHead_mapReplaceOrKeep {m : MapFn V} {f : Format}
    (hops : ∀ f input env, ∀ op ∈ (m f input env).1, op.onCtx = false) (input : f.In V) (bytes : Str) :
    LeavesHead crates false (mapReplaceOrKeep crates m f input f.contentType bytes) ctx := by
  refine Ends.bind (Q := HeadMapped ctx f) (Ends.stage (headMapped_runMap hops input) ?_ ?_) fun outcome => ?_
  · intro outcome env tr hmapped
    exact ⟨hmapped.1, by simp [hmapped.2]⟩
  · intro e env tr hkept
    exact (hkept.after crates false).congr (by simp)
  · cases outcome with
    | keep =>
        refine Ends.pure fun env tr hmapped => ?_
        rw [hmapped.1]
        refine .same fun f' p hmem => ?_
        rw [hmapped.2] at hmem
        cases List.mem_singleton.mp hmem
    | replace newBody =>
        -- the headers that go with the new body, one edit after the other
        have hfinish : ∀ headers : HeaderMap → HeaderMap,
            Ends (fun env tr => ∃ kept, env.ctx = ctx.setHeaders kept ∧ outcomesOf tr = [⟨f, .replace newBody⟩] ∧
                headers kept = f.replacedHeaders ctx.parts.headers)
              (headersMut headers >>= fun _ => (pure (f.toBody newBody) : Pipe V Body))
              (fun _ env tr => HeadAfter crates false ctx tr env.ctx)
              fun _ env tr => HeadAfter crates false ctx tr env.ctx := by
          intro headers
          refine Ends.bind (Q := fun _ env tr => HeadAfter crates false ctx tr env.ctx) (Ends.modify ?_) fun _ =>
            Ends.pure fun _ _ h => h
          rintro env tr ⟨kept, hctx, houtcomes, hheaders⟩
          have hafter : HeadAfter crates false ctx tr (ctx.setHeaders (f.replacedHeaders ctx.parts.headers)) :=
            .body rfl houtcomes
          rw [← hheaders] at hafter
          rw [hctx]
          exact hafter
        cases hct : f.contentType with
        | none =>
            refine Ends.weaken (hfinish (·.remove .contentLength)) ?_ (fun _ _ _ h => h) fun _ _ _ h => h
            rintro env tr ⟨rfl, houtcomes⟩
            exact ⟨env.ctx.parts.headers, rfl, houtcomes, by simp [Format.replacedHeaders, hct]⟩
        | some contentType =>
            refine Ends.bind (Ends.modify ?_) fun _ => hfinish (·.remove .contentLength)
            rintro env tr ⟨rfl, houtcomes⟩
            exact ⟨_, rfl, houtcomes, by simp [Format.replacedHeaders, hct]⟩

/-- The check of the content type reads a header. -/
theorem keepsHead_contentTypeGuard (typePrefix : Str) (needle : Option Str) (error : ApigatePipelineError) :
    KeepsHead (contentTypeGuard (V := V) typePrefix needle error) ctx := by
  refine keepsHead_stage (keepsHead_lift fun env => ?_)
  dsimp only
  split <;> rfl

/-- Reading the body concerns the scope. -/
theorem keepsHead_readBody : KeepsHead (stage .readBody (readBodyBytes crates)) ctx :=
  keepsHead_stage (keepsHead_lift fun _ => rfl)

/-- So does taking it. -/
theorem keepsHead_takeBodyExpr : KeepsHead (takeBodyExpr : Pipe V Body) ctx := by
  refine keepsHead_stage (keepsHead_lift fun env => ?_)
  dsimp only
  split <;> rfl

/-- And so does getting the bytes that have been read. -/
theorem keepsHead_rawBodyExpr : KeepsHead (rawBodyExpr : Pipe V Str) ctx := by
  refine keepsHead_stage (keepsHead_lift fun env => ?_)
  split <;> rfl

/-- The map of a form route with its data in the query. A replacement is handed to the setter, which either
    replaces the query or leaves the head as it is; both are what the setter does. -/
theorem leavesHead_mapQueryExpr {m : MapFn V} (hops : ∀ f input env, ∀ op ∈ (m f input env).1, op.onCtx = false)
    (input : V) : LeavesHead crates true (mapQueryExpr crates m input) ctx := by
  refine headAfter_stage ?_
  refine Ends.bind (Ends.weaken (headMapped_runMap (f := .form) hops input) (fun _ _ h => h) (fun _ _ _ h => h)
    fun _ _ _ h => h.after crates true) fun outcome => ?_
  cases outcome with
  | keep =>
      refine Ends.pure fun env tr hmapped => ?_
      rw [hmapped.1]
      refine .same fun f' p hmem => ?_
      rw [hmapped.2] at hmem
      cases List.mem_singleton.mp hmem
  | replace encoded =>
      -- whether or not the query can be replaced
      refine Ends.lift ?_ ?_
      · rintro env tr _ ⟨rfl, houtcomes⟩ -
        exact .query rfl houtcomes
      · rintro env tr _ ⟨rfl, houtcomes⟩ -
        exact .query rfl houtcomes

end Pipe

open Pipe

section
variable {crates : Crates V} {args : RouteArgs V} {bodyInQuery : Bool}

/-- Until the map runs the head is the one of the request. -/
abbrev headAssertions (crates : Crates V) (inQuery : Bool) (ctx : PartsCtx V) :
    PhaseAssertions V (EnvAssertion V) where
  start _ := HeadKept ctx
  text _ _ := HeadKept ctx
  input _ _ _ _ := HeadKept ctx
  done _ env tr := HeadAfter crates inQuery ctx tr env.ctx

/-- The rules for the head, piece by piece. All pieces but the map keep it, and the two pieces with a map leave
    it. That a piece stops is no reason to say less: both assertions hold at either end. -/
theorem headRules (hperforms : args.Performs (·.onCtx = false)) (ctx : PartsCtx V) :
    PhaseRules (.ends fun _ env tr => HeadAfter crates (args.data.inQuery bodyInQuery) ctx tr env.ctx) crates crates
      args args bodyInQuery (headAssertions crates (args.data.inQuery bodyInQuery) ctx) := by
  have hstops : ∀ {α : Type} {p : Pipe V α}, KeepsHead p ctx → Ends (HeadKept ctx) p (fun _ => HeadKept ctx)
      fun _ env tr => HeadAfter crates (args.data.inQuery bodyInQuery) ctx tr env.ctx := fun h =>
    Ends.weaken h (fun _ _ hkept => hkept) (fun _ _ _ hkept => hkept) fun _ _ _ hkept => hkept.after crates _
  constructor
  case pathType | queryType | data => rfl
  case path => exact fun ty _ => hstops (keepsHead_stage (keepsHead_lift fun _ => rfl))
  case query => exact fun ty _ => hstops (keepsHead_stage (keepsHead_lift fun _ => rfl))
  case insert => exact fun ty value _ => hstops (Ends.modify fun _ _ hkept => hkept)
  case hooks =>
    exact List.forall₂_same.mpr fun h hmem _ =>
      hstops (keepsHead_stage (keepsHead_runHook (hperforms.hooks h hmem)))
  case body =>
    constructor
    case maps => rfl
    case contentType =>
      exact fun typePrefix needle error _ => hstops (keepsHead_contentTypeGuard typePrefix needle error)
    case take => exact fun _ => KeepsHead.leaves keepsHead_takeBodyExpr
    case read => exact fun _ _ => hstops keepsHead_readBody
    case rawBody => exact fun _ bytes _ => hstops keepsHead_rawBodyExpr
    case parseJson => exact fun ty _ bytes _ => hstops (keepsHead_stage keepsHead_ofExcept)
    case parseForm => exact fun ty _ _ bytes _ => hstops (keepsHead_stage keepsHead_ofExcept)
    case unmapped => exact fun _ _ f input bytes => KeepsHead.leaves (Ends.pure fun _ _ hkept => hkept)
    case mapped =>
      intro m _ hmap _ hquery f input bytes
      rw [hquery]
      exact leavesHead_mapReplaceOrKeep (hperforms.map m hmap) input bytes
    case rawQuery => exact fun _ _ => hstops (Ends.gets fun _ _ hkept => hkept)
    case parseFormQuery => exact fun ty _ _ raw _ => hstops (keepsHead_stage keepsHead_ofExcept)
    case unmappedQuery => exact fun _ _ input raw => KeepsHead.leaves keepsHead_takeBodyExpr
    case mappedQuery =>
      intro m _ hmap _ hquery input raw
      rw [hquery]
      refine Ends.bind (leavesHead_mapQueryExpr (hperforms.map m hmap) input) fun _ =>
        headAfter_stage (Ends.lift ?_ ?_)
      · intro env tr body h hok
        dsimp only at hok ⊢
        split at hok <;> exact h
      · intro env tr err h herr
        dsimp only at herr ⊢
        split at herr <;> exact h

/-- **The head after a pipeline whose functions leave it alone**, however the pipeline ends. -/
theorem headAfter_pipeline (hperforms : args.Performs (·.onCtx = false)) {pipeline : PipelineFn V}
    (hgen : generatePipelineWrapper crates args bodyInQuery = some pipeline) (env : Env V) :
    HeadAfter crates (args.data.inQuery bodyInQuery) env.ctx (pipeline env).trace (pipeline env).state.ctx := by
  obtain ⟨hok, herr⟩ := (headRules hperforms env.ctx).one_run hgen env [] ⟨rfl, rfl⟩
  cases hresult : (pipeline env).result with
  | ok body => exact hok body hresult
  | error err => exact herr err hresult

end

/-! ## The request body

Three stages of the generated code need the body: reading it, taking it, and getting its bytes. `BodyFailure`
says how each may fail when nobody has consumed it, and is empty for two of them. The other stages may fail as
they like. -/

/-- How a stage may fail when the body is where the generated code looks for it. -/
def BodyFailure (crates : Crates V) (incoming : Body) (limit : Nat) (s : Stage V) (err : ApigateError) : Prop :=
  match s with
  | .takeBody | .rawBody => False
  | .readBody => ∃ details, crates.toBytes incoming limit = .error details ∧
      err = .ofPipeline (.requestBodyTooLarge details)
  | .path _ | .query _ | .hook _ | .contentType | .parse _ | .map _ => True

/-- So far no stage has failed in another way. -/
def BodyFound (crates : Crates V) (incoming : Body) (limit : Nat) (tr : List (PipelineEvent V)) : Prop :=
  ∀ s err, .stage s (some err) ∈ tr → BodyFailure crates incoming limit s err

/-- Nobody has consumed the body. -/
structure BodyKept (crates : Crates V) (incoming : Body) (limit : Nat) (env : Env V) (tr : List (PipelineEvent V)) :
    Prop where
  body : env.scope.body = some incoming
  bodyLimit : env.scope.bodyLimit = limit
  found : BodyFound crates incoming limit tr

/-- Where the text of the data comes from the query the body is kept, and where it is the body it has been read. -/
def BodyThere (crates : Crates V) (incoming : Body) (limit : Nat) : Bool → EnvAssertion V
  | true => BodyKept crates incoming limit
  | false => fun env tr => env.scope.rawBody ≠ none ∧ BodyFound crates incoming limit tr

section
variable {crates : Crates V} {incoming : Body} {limit : Nat} {tr : List (PipelineEvent V)} {env : Env V}

/-- What holds of two stretches of a trace holds of both together. -/
theorem BodyFound.append (h : BodyFound crates incoming limit tr) {events : List (PipelineEvent V)}
    (hevents : BodyFound crates incoming limit events) : BodyFound crates incoming limit (tr ++ events) := by
  intro s err hmem
  rcases List.mem_append.mp hmem with hmem | hmem
  · exact h s err hmem
  · exact hevents s err hmem

/-- Operations are no failures. -/
theorem bodyFound_ops (ops : List (UserOp V)) : BodyFound crates incoming limit (ops.map .op) := by
  intro s err hmem
  obtain ⟨op, -, hop⟩ := List.mem_map.mp hmem
  cases hop

/-- Nor is the outcome of a map. -/
theorem bodyFound_mapped (f : Format) (outcome : BodyOutcome f.Out) :
    BodyFound (V := V) crates incoming limit [.mapped f outcome] := by
  intro s err hmem
  cases List.mem_singleton.mp hmem

/-- Nor is a stage that passes. -/
theorem bodyFound_passed (s : Stage V) : BodyFound crates incoming limit [.stage s none] := by
  intro s err hmem
  cases List.mem_singleton.mp hmem

/-- A stage that fails in a way that is allowed. -/
theorem bodyFound_failed {s : Stage V} {err : ApigateError} (h : BodyFailure crates incoming limit s err) :
    BodyFound crates incoming limit [.stage s (some err)] := by
  intro s err hmem
  cases List.mem_singleton.mp hmem
  exact h

/-- Operations that do not consume the body keep it. -/
theorem BodyKept.applyOps (h : BodyKept crates incoming limit env tr) {ops : List (UserOp V)}
    (hops : ∀ op ∈ ops, op.onBody = false) :
    BodyKept crates incoming limit (applyOps crates env ops) (tr ++ ops.map .op) := by
  have hbody : (Apigate.applyOps crates env ops).scope.body = some incoming ∧
      (Apigate.applyOps crates env ops).scope.bodyLimit = limit :=
    applyOps_keeps (R := fun env => env.scope.body = some incoming ∧ env.scope.bodyLimit = limit)
      (fun env op hop hkept => ⟨(UserOp.apply_keeps_body crates env hop).trans hkept.1,
        (op.apply_bodyLimit crates env).trans hkept.2⟩) hops ⟨h.body, h.bodyLimit⟩
  exact ⟨hbody.1, hbody.2, h.found.append (bodyFound_ops ops)⟩

/-- A stage that passes changes nothing. -/
theorem BodyKept.passed (h : BodyKept crates incoming limit env tr) (s : Stage V) :
    BodyKept crates incoming limit env (tr ++ [.stage s none]) :=
  ⟨h.body, h.bodyLimit, h.found.append (bodyFound_passed s)⟩

namespace Pipe

/-- However it ends, no stage has failed in another way. -/
abbrev FindsBody {α : Type} (P : EnvAssertion V) (p : Pipe V α) (Q : α → EnvAssertion V) (crates : Crates V)
    (incoming : Body) (limit : Nat) : Prop :=
  Ends P p Q fun _ _ tr => BodyFound crates incoming limit tr

/-- A stage that may fail in any way. -/
theorem findsBody_stage {α : Type} {s : Stage V} {p : Pipe V α} {P : EnvAssertion V} {Q : α → EnvAssertion V}
    (hs : ∀ err, BodyFailure crates incoming limit s err) (h : FindsBody P p Q crates incoming limit)
    (hQ : ∀ a env tr, Q a env tr → Q a env (tr ++ [.stage s none])) :
    FindsBody P (stage s p) Q crates incoming limit :=
  Ends.stage h hQ fun err _ _ hfound => hfound.append (bodyFound_failed (hs err))

/-- Reading a body that is there: it succeeds, and then its bytes are kept; or it is over the limit or cannot be
    read, which is the failure that is allowed. -/
theorem findsBody_readBody :
    FindsBody (BodyKept crates incoming limit) (stage .readBody (readBodyBytes crates))
      (fun _ env tr => env.scope.rawBody ≠ none ∧ BodyFound crates incoming limit tr) crates incoming limit := by
  refine Ends.stage (A := fun _ env tr => env.scope.rawBody ≠ none ∧ BodyFound crates incoming limit tr)
    (B := fun err _ tr => BodyFailure crates incoming limit (.readBody : Stage V) err ∧
      BodyFound crates incoming limit tr) (Ends.lift ?_ ?_) ?_ ?_
  · intro env tr bytes hkept hok
    simp only [RequestScope.readBodyBytes, hkept.body, hkept.bodyLimit] at hok ⊢
    cases hread : crates.toBytes incoming limit with
    | error details =>
        rw [hread] at hok
        cases hok
    | ok bytes' => exact ⟨Option.some_ne_none _, hkept.found⟩
  · intro env tr err hkept herr
    simp only [RequestScope.readBodyBytes, hkept.body, hkept.bodyLimit] at herr ⊢
    cases hread : crates.toBytes incoming limit with
    | error details =>
        rw [hread] at herr
        cases herr
        exact ⟨⟨details, hread, rfl⟩, hkept.found⟩
    | ok bytes =>
        rw [hread] at herr
        cases herr
  · rintro bytes env tr ⟨hraw, hfound⟩
    exact ⟨hraw, hfound.append (bodyFound_passed _)⟩
  · rintro err env tr ⟨hfailure, hfound⟩
    exact hfound.append (bodyFound_failed hfailure)

/-- What has been read is there. -/
theorem findsBody_rawBodyExpr :
    FindsBody (fun env tr => env.scope.rawBody ≠ none ∧ BodyFound crates incoming limit tr) rawBodyExpr
      (fun _ env tr => env.scope.rawBody ≠ none ∧ BodyFound crates incoming limit tr) crates incoming limit := by
  refine Ends.stage (A := fun _ env tr => env.scope.rawBody ≠ none ∧ BodyFound crates incoming limit tr)
    (B := fun _ _ _ => False) (Ends.lift ?_ ?_) ?_ fun _ _ _ h => h.elim
  · intro env tr raw h hok
    obtain ⟨raw', hraw⟩ := Option.ne_none_iff_exists'.mp h.1
    simp only [RequestScope.rawBodyCloned, hraw] at hok ⊢
    exact ⟨Option.some_ne_none _, h.2⟩
  · intro env tr err h herr
    obtain ⟨raw, hraw⟩ := Option.ne_none_iff_exists'.mp h.1
    simp only [RequestScope.rawBodyCloned, hraw] at herr
    cases herr
  · rintro raw env tr ⟨hraw, hfound⟩
    exact ⟨hraw, hfound.append (bodyFound_passed _)⟩

/-- A body that nobody has consumed can be taken. -/
theorem findsBody_takeBodyExpr :
    FindsBody (BodyKept crates incoming limit) (takeBodyExpr : Pipe V Body)
      (fun _ _ tr => BodyFound crates incoming limit tr) crates incoming limit := by
  refine Ends.stage (A := fun _ _ tr => BodyFound crates incoming limit tr) (B := fun _ _ _ => False)
    (Ends.lift ?_ ?_) (fun _ _ _ hfound => hfound.append (bodyFound_passed _)) fun _ _ _ h => h.elim
  · exact fun _ _ _ hkept _ => hkept.found
  · intro env tr err hkept herr
    simp only [RequestScope.takeBody, hkept.body] at herr
    cases herr

/-- A hook that does not consume the body, whether or not it rejects. -/
theorem findsBody_runHook {h : Hook V} (hops : ∀ env, ∀ op ∈ (h env).1, op.onBody = false) :
    FindsBody (BodyKept crates incoming limit) (runHook crates h) (fun _ => BodyKept crates incoming limit) crates
      incoming limit :=
  Ends.weaken (ends_runHook fun env _ hkept => hkept.applyOps (hops env)) (fun _ _ hkept => hkept)
    (fun _ _ _ hkept => hkept) fun _ _ _ hkept => hkept.found

/-- After the body has been read a map may do what it likes with the scope. -/
theorem findsBody_mapReplaceOrKeep (m : MapFn V) (f : Format) (input : f.In V) (contentType : Option Str)
    (bytes : Str) :
    FindsBody (fun _ tr => BodyFound crates incoming limit tr) (mapReplaceOrKeep crates m f input contentType bytes)
      (fun _ _ tr => BodyFound crates incoming limit tr) crates incoming limit := by
  have hmap : FindsBody (fun _ tr => BodyFound crates incoming limit tr) (runMap crates m f input)
      (fun _ _ tr => BodyFound crates incoming limit tr) crates incoming limit :=
    ends_runMap (fun env tr hfound => hfound.append (bodyFound_ops _))
      fun _ _ outcome _ _ _ _ hfound => hfound.append (bodyFound_mapped f outcome)
  refine Ends.bind (findsBody_stage (fun _ => trivial) hmap fun _ _ _ hfound => hfound.append (bodyFound_passed _))
    fun outcome => ?_
  cases outcome with
  | keep => exact Ends.pure fun _ _ hfound => hfound
  | replace newBody =>
      have hedit : ∀ headers : HeaderMap → HeaderMap, FindsBody (fun _ tr => BodyFound crates incoming limit tr)
          (headersMut headers : Pipe V Unit) (fun _ _ tr => BodyFound crates incoming limit tr) crates incoming
          limit :=
        fun headers => Ends.modify fun _ _ hfound => hfound
      cases contentType with
      | none => exact Ends.bind (hedit _) fun _ => Ends.pure fun _ _ hfound => hfound
      | some contentType =>
          exact Ends.bind (hedit _) fun _ => Ends.bind (hedit _) fun _ => Ends.pure fun _ _ hfound => hfound

end Pipe
end

section
variable {crates : Crates V} {args : RouteArgs V} {bodyInQuery : Bool}

/-- The body is kept until it is read, and from then on its bytes are there. -/
abbrev bodyAssertions (crates : Crates V) (incoming : Body) (limit : Nat) (inQuery : Bool) :
    PhaseAssertions V (EnvAssertion V) where
  start _ := BodyKept crates incoming limit
  text _ _ := BodyThere crates incoming limit inQuery
  input _ _ _ _ := BodyThere crates incoming limit inQuery
  done _ _ tr := BodyFound crates incoming limit tr

/-- The rules for the body. Up to the read every piece keeps it. Where the data comes from the query the body
    stays for the end, where it is taken; otherwise it is read, and the map and what follows work on bytes that
    are there. -/
theorem bodyRules (hperforms : args.Performs (·.onBody = false)) (incoming : Body) (limit : Nat) :
    PhaseRules (.ends fun _ _ tr => BodyFound crates incoming limit tr) crates crates args args bodyInQuery
      (bodyAssertions crates incoming limit (args.data.inQuery bodyInQuery)) := by
  have hparse : ∀ {P : EnvAssertion V} {s : Stage V} {r : Except ApigateError V},
      (∀ env tr, P env tr → BodyFound crates incoming limit tr) → (∀ err, BodyFailure crates incoming limit s err) →
      (∀ env tr, P env tr → P env (tr ++ [.stage s none])) →
      FindsBody P (stage s (ofExcept r)) (fun _ => P) crates incoming limit := fun hfound hfails hmark =>
    findsBody_stage hfails (Ends.ofExcept (fun _ _ _ h _ => h) fun env tr _ h _ => hfound env tr h) fun _ => hmark
  constructor
  case pathType | queryType | data => rfl
  case path =>
    exact fun ty _ => findsBody_stage (fun _ => trivial) (Ends.lift (fun _ _ _ hkept _ => hkept)
      fun _ _ _ hkept _ => hkept.found) fun _ _ _ hkept => hkept.passed _
  case query =>
    exact fun ty _ => findsBody_stage (fun _ => trivial) (Ends.lift (fun _ _ _ hkept _ => hkept)
      fun _ _ _ hkept _ => hkept.found) fun _ _ _ hkept => hkept.passed _
  case insert =>
    intro ty value _
    show FindsBody (BodyKept crates incoming limit) (scopeInsert ty value) _ crates incoming limit
    exact Ends.modify fun _ _ hkept => ⟨hkept.body, hkept.bodyLimit, hkept.found⟩
  case hooks =>
    exact List.forall₂_same.mpr fun h hmem _ => findsBody_stage (fun _ => trivial)
      (findsBody_runHook (hperforms.hooks h hmem)) fun _ _ _ hkept => hkept.passed _
  case body =>
    constructor
    case maps => rfl
    case contentType =>
      intro typePrefix needle error _
      refine findsBody_stage (fun _ => trivial) (Ends.lift ?_ ?_) fun _ _ _ hkept => hkept.passed _
      · intro env tr u hkept hok
        dsimp only at hok ⊢
        split <;> exact hkept
      · intro env tr err hkept herr
        exact hkept.found
    case take => exact fun _ => findsBody_takeBodyExpr
    case read =>
      intro hquery _
      rw [hquery]
      exact findsBody_readBody
    case rawBody =>
      intro hdata bytes _
      have hquery : args.data.inQuery bodyInQuery = false := by rcases hdata with h | h <;> rw [h] <;> rfl
      rw [hquery]
      exact findsBody_rawBodyExpr
    case parseJson =>
      intro ty hdata bytes _
      rw [hdata]
      exact hparse (fun _ _ h => h.2) (fun _ => trivial) fun _ _ h => ⟨h.1, h.2.append (bodyFound_passed _)⟩
    case parseForm =>
      rintro ty hdata rfl bytes _
      rw [hdata]
      exact hparse (fun _ _ h => h.2) (fun _ => trivial) fun _ _ h => ⟨h.1, h.2.append (bodyFound_passed _)⟩
    case unmapped =>
      intro _ hquery f input bytes
      rw [hquery]
      show FindsBody (BodyThere crates incoming limit false) (pure (Body.ofBytes bytes)) _ crates incoming limit
      exact Ends.pure fun _ _ h => h.2
    case mapped =>
      intro m _ _ _ hquery f input bytes
      rw [hquery]
      exact Ends.weaken (findsBody_mapReplaceOrKeep m f input _ bytes) (fun _ _ h => h.2) (fun _ _ _ h => h)
        fun _ _ _ h => h
    case rawQuery =>
      intro hquery _
      rw [hquery]
      show FindsBody (BodyKept crates incoming limit) (gets _) (fun _ => BodyThere crates incoming limit true) crates
        incoming limit
      exact Ends.gets fun _ _ hkept => hkept
    case parseFormQuery =>
      rintro ty hdata rfl raw _
      rw [hdata]
      exact hparse (fun _ _ h => h.found) (fun _ => trivial) fun _ _ h => h.passed _
    case unmappedQuery =>
      intro _ hquery input raw
      rw [hquery]
      exact findsBody_takeBodyExpr
    case mappedQuery =>
      intro m _ hmap _ hquery input raw
      rw [hquery]
      refine Ends.bind (Q := fun _ => BodyKept crates incoming limit) ?_ fun _ => findsBody_takeBodyExpr
      refine findsBody_stage (fun _ => trivial) ?_ fun _ _ _ hkept => hkept.passed _
      refine Ends.bind (Q := fun _ => BodyKept crates incoming limit) (Ends.weaken (ends_runMap
        (Q := fun _ => BodyKept crates incoming limit)
        (fun env _ hkept => hkept.applyOps (hperforms.map m hmap .form input env))
        fun _ _ outcome _ _ _ _ h => ⟨h.body, h.bodyLimit, h.found.append (bodyFound_mapped .form outcome)⟩)
        (fun _ _ hkept => hkept) (fun _ _ _ hkept => hkept) fun _ _ _ hkept => hkept.found) fun outcome => ?_
      cases outcome with
      | keep => exact Ends.pure fun _ _ hkept => hkept
      | replace encoded =>
          exact Ends.lift (fun _ _ _ hkept _ => ⟨hkept.body, hkept.bodyLimit, hkept.found⟩)
            fun _ _ _ hkept _ => hkept.found

/-- **The body is where a pipeline whose functions leave it alone looks for it**: the rules from the state of a
    handler, in which nobody has consumed it yet. -/
theorem bodyFound_pipeline (hperforms : args.Performs (·.onBody = false)) {pipeline : PipelineFn V}
    (hgen : generatePipelineWrapper crates args bodyInQuery = some pipeline) {env : Env V} {incoming : Body}
    (hbody : env.scope.body = some incoming) :
    BodyFound crates incoming env.scope.bodyLimit (pipeline env).trace := by
  have hkept : BodyKept crates incoming env.scope.bodyLimit env [] := ⟨hbody, rfl, fun _ _ hmem => nomatch hmem⟩
  obtain ⟨hok, herr⟩ := (bodyRules hperforms incoming env.scope.bodyLimit).one_run hgen env [] hkept
  cases hresult : (pipeline env).result with
  | ok body => exact hok body hresult
  | error err => exact herr err hresult

/-! ## Signatures

The two halves for a route whose functions have gone through the macros. -/

/-- **A signature bounds what a function can do.** Take any route whose hooks and map are functions that the
    macros have gone through, any request and whatever the functions do and return; and let the pipeline end
    either way. If none of the functions has a `&mut PartsCtx`, the head is the one of the request, except that
    the generated code has put the content headers of a replaced body, or the replaced query, there. If none has
    a `&mut RequestScope`, the body is there for the generated code: taking it and getting its raw bytes do not
    fail, and reading it fails only where the body itself cannot be read within the limit. -/
theorem signatures_bound_pipeline {special : SpecialTypePaths} {types : Types} {serializers : Serializers V}
    {hooks : List (HookFn V special types)} {mapFn : Option (MapFunction V special types)}
    (hwritten : args.WrittenAs serializers hooks mapFn) {pipeline : PipelineFn V}
    (hgen : generatePipelineWrapper crates args bodyInQuery = some pipeline) {env : Env V} {incoming : Body}
    (hbody : env.scope.body = some incoming) :
    (NoneBinds .ctx hooks mapFn →
      HeadAfter crates (args.data.inQuery bodyInQuery) env.ctx (pipeline env).trace (pipeline env).state.ctx) ∧
    (NoneBinds .scope hooks mapFn → ∀ s err, .stage s (some err) ∈ (pipeline env).trace →
      BodyFailure crates incoming env.scope.bodyLimit s err) :=
  ⟨fun hctx => headAfter_pipeline (hwritten.off_ctx hctx) hgen env,
    fun hscope => bodyFound_pipeline (hwritten.off_body hscope) hgen hbody⟩

end

/-! ## A hook that looks at a token

A hook with one parameter, a reference to a value of the scope; it permits no operation at all. -/

def apigatePaths : SpecialTypePaths := .new ⟨true, [⟨str "apigate", .none⟩], List.cons_ne_nil _ _⟩

/-- `token: &Token` -/
def tokenParam : FnArg := .typed (str "token") (.reference none false (bareTy (str "Token")))

/-- `async fn check(token: &Token) -> HookResult` stops requests whose token is empty. -/
def checkToken : HookFn Str apigatePaths .plain where
  inputs := [tokenParam]
  expansion := ⟨none, str "_", scopeIdent, [⟨str "token", .reference none false (bareTy (str "Token")),
    .orMissing (.get (bareTy (str "Token"))) (bareTy (str "Token"))⟩]⟩
  expands := rfl
  body _ values := ([], if values.any fun | .ref token => token.isEmpty | _ => false
    then .error (.framework (.http 401 (str "no token"))) else .ok ())
  permitted := fun _ _ _ hop => nomatch hop

/-- A route of this hook, with the token in the path. -/
def tokenArgs : RouteArgs Str :=
  ⟨str "/items", none, none, [checkToken.toHook], none, none, .json 0,
    some (Types.plain.resolve (bareTy (str "Token")))⟩

def tokenSerializers : Serializers Str := ⟨.ok, .ok, .ofBytes⟩

theorem tokenArgs_written : tokenArgs.WrittenAs tokenSerializers [checkToken] none := ⟨rfl, rfl⟩

theorem checkToken_binds {init : Init} (h : checkToken.Binds init) :
    init = .orMissing (.get (bareTy (str "Token"))) (bareTy (str "Token")) := by
  obtain ⟨stmt, hstmt, rfl⟩ := h
  obtain rfl := List.mem_singleton.mp hstmt
  rfl

theorem tokenArgs_binds {init : Init} (h : init ≠ .orMissing (.get (bareTy (str "Token"))) (bareTy (str "Token"))) :
    NoneBinds init [checkToken] none where
  hooks := by
    intro f hf hbinds
    obtain rfl := List.mem_singleton.mp hf
    exact h (checkToken_binds hbinds)
  map := fun _ hm => nomatch hm

def tokenEnv : Env Str :=
  ⟨⟨str "sales", str "/items", ⟨str "POST", ⟨none, none, some ⟨str "/items", none⟩⟩, str "HTTP/1.1", .empty, .empty⟩⟩,
    .new .empty (.ofBytes (str "1")) 1024⟩

/-- The theorem at this route. -/
theorem signatures_bound_pipeline_token :
    ∃ pipeline, generatePipelineWrapper .plain tokenArgs false = some pipeline ∧
      HeadAfter .plain false tokenEnv.ctx (pipeline tokenEnv).trace (pipeline tokenEnv).state.ctx ∧
      ∀ s err, .stage s (some err) ∈ (pipeline tokenEnv).trace →
        BodyFailure .plain (.ofBytes (str "1")) 1024 s err := by
  obtain ⟨pipeline, hgen⟩ : ∃ pipeline, generatePipelineWrapper .plain tokenArgs false = some pipeline := ⟨_, rfl⟩
  have hbody : tokenEnv.scope.body = some (.ofBytes (str "1")) := rfl
  obtain ⟨hctx, hscope⟩ := signatures_bound_pipeline tokenArgs_written hgen hbody
  exact ⟨pipeline, hgen, hctx (tokenArgs_binds (by decide)), hscope (tokenArgs_binds (by decide))⟩

end Apigate
