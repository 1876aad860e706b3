import Apigate.Correctness.Footprints
import Apigate.Correctness.Observer
import Apigate.Correctness.Validation
import Apigate.Lib.Tasks

/-!
# `Correctness.HookOrder` — hooks that share nothing can be given in any order

The parameters of a hook say what it reaches: the request head, a value, the whole scope. A hook decides on what
it reaches, and changes nothing else. So hooks of which none changes what another reaches decide as on the
request before the first of them, and what they do commutes.

The general part is `Lib.Tasks`: independent tasks can be done in any order, up to a relation between states.
Three things have to be shown of hooks to use it.

* What a hook does stays off what another one reaches. Its operations come from its bindings and its body, and
  each is permitted by a parameter (`LetStmt.Does.off`); an operation leaves alone what it does not reach
  (`UserOp.sameAt_apply`).
* A hook decides on what its parameters reach (`BoundFn.call_congr`), so a hook that is apart from another one
  ignores what that one does.
* Operations that reach different things commute (`UserOp.apply_comm`). They do so up to `Env.Same` only: two
  values that are put back in another order leave the local extensions in another order. No function can see
  that order, since it is given single values.

The rest of the pipeline must then not see it either. `Blind` says that generated code goes the same way from
two such states; the rules of `PipelineRules` give it for everything behind the hooks, provided that the map
takes no `&mut RequestScope`, which is the one parameter that would show it the order.

Independence does not save a request that two hooks reject: the first hook of the list decides which error is
returned, and that depends on the order. The theorem says that both handlers then reject the request, each with
the error of one of the hooks.
-/

namespace Apigate
open Lib Text Syn Prog Tasks Dispatch

variable {V : Type}

/-! ## What a parameter reaches

Read off the expansion of the parameter, and so known to the macro: whether it is the head, the scope, one value
or the raw body, and whether it gives the right to change it. -/

inductive Reach where
  | ctx
  | scope
  /-- The value of one type. -/
  | value (ty : TypeId)
  | rawBody
  deriving DecidableEq

/-- The two have something in common: the scope holds the values and the raw body. -/
def Reach.overlaps : Reach → Reach → Bool
  | ctx, ctx | scope, scope | scope, value _ | scope, rawBody | value _, scope | rawBody, scope
  | rawBody, rawBody => true
  | value ty, value ty' => ty = ty'
  | ctx, scope | ctx, value _ | ctx, rawBody | scope, ctx | value _, ctx | value _, rawBody | rawBody, ctx
  | rawBody, value _ => false

/-- Having something in common goes both ways. -/
theorem Reach.overlaps_comm (r r' : Reach) : r.overlaps r' = r'.overlaps r := by
  cases r with
  | value ty =>
      cases r' with
      | value ty' => exact decide_eq_decide.mpr eq_comm
      | ctx => rfl
      | scope => rfl
      | rawBody => rfl
  | ctx => cases r' <;> rfl
  | scope => cases r' <;> rfl
  | rawBody => cases r' <;> rfl

/-- What the parameter gives access to. -/
def LetStmt.reach (types : Types) (stmt : LetStmt) : Reach :=
  match stmt.init with
  | .ctx => .ctx
  | .scope => .scope
  | .orMissing (.take ty) _ | .orMissing (.get ty) _ | .orMissing (.getMut ty) _ => .value (types.resolve ty)
  | .orMissing .rawBodyCloned _ => .rawBody

/-- Binding the parameter, or what the body can do with it, may change what it reaches. -/
def LetStmt.changes (stmt : LetStmt) : Bool :=
  match stmt.init with
  | .ctx | .scope | .orMissing (.take _) _ | .orMissing (.getMut _) _ => true
  | .orMissing (.get _) _ | .orMissing .rawBodyCloned _ => false

/-- One of the two parameters may change what the other reaches. -/
def LetStmt.Clash (types : Types) (a b : LetStmt) : Prop :=
  (a.reach types).overlaps (b.reach types) = true ∧ (a.changes = true ∨ b.changes = true)

instance (types : Types) (a b : LetStmt) : Decidable (LetStmt.Clash types a b) :=
  inferInstanceAs (Decidable (_ ∧ _))

/-- The two functions share nothing that one of them may change. -/
def BoundFn.Apart {special : SpecialTypePaths} {types : Types} {mode mode' : ExpansionMode} {ι ι' ο ο' : Type}
    (f : BoundFn V special types mode ι ο) (g : BoundFn V special types mode' ι' ο') : Prop :=
  ∀ a ∈ f.expansion.bindings, ∀ b ∈ g.expansion.bindings, ¬ a.Clash types b

instance {special : SpecialTypePaths} {types : Types} {mode mode' : ExpansionMode} {ι ι' ο ο' : Type}
    (f : BoundFn V special types mode ι ο) (g : BoundFn V special types mode' ι' ο') : Decidable (f.Apart g) :=
  inferInstanceAs (Decidable (∀ a ∈ f.expansion.bindings, ∀ b ∈ g.expansion.bindings, ¬ a.Clash types b))

/-! ## Operations

What an operation may change, as a function of the operation alone. `LetStmt.Does` ties it to the parameter that
permits it: either the binding itself takes the value out of the scope, or the body uses what was bound. -/

/-- What the operation may change. -/
def UserOp.reach : UserOp V → Reach
  | setHeader .. | setHeaderIfAbsent .. | removeHeader _ | headersMut _ | uriMut _ | setEncodedQuery _
  | extensionsMut _ | extract _ => .ctx
  | takeBody | readBodyBytes | insert .. => .scope
  | take ty | getMut ty _ => .value ty

/-- An operation of a binding, or of a body that the binding permits. -/
def LetStmt.Does (types : Types) (stmt : LetStmt) (op : UserOp V) : Prop :=
  op ∈ stmt.taken types ∨ stmt.permits types op

/-- A parameter that permits an operation at all is one that may change what it reaches. -/
theorem LetStmt.Does.changes {types : Types} {stmt : LetStmt} {op : UserOp V} (h : stmt.Does types op) :
    stmt.changes = true := by
  obtain ⟨pat, ty, init⟩ := stmt
  cases init with
  | ctx => rfl
  | scope => rfl
  | orMissing call missing =>
      cases call with
      | take ty => rfl
      | getMut ty => rfl
      | get ty => rcases h with h | h <;> cases h
      | rawBodyCloned => rcases h with h | h <;> cases h

/-- The operations stay within what the binding reaches. By cases on the kind of the binding, and for each on
    what it permits. -/
theorem LetStmt.Does.off {types : Types} {stmt : LetStmt} {op : UserOp V} (h : stmt.Does types op) {r : Reach}
    (hr : (stmt.reach types).overlaps r = false) : op.reach.overlaps r = false := by
  obtain ⟨pat, ty, init⟩ := stmt
  cases init with
  | ctx =>
      rcases h with h | h
      · cases h
      · cases op <;> first | exact hr | cases h
  | scope =>
      -- whatever is not of the scope is of the head
      cases r with
      | ctx =>
          rcases h with h | h
          · cases h
          · cases op <;> first | rfl | cases h
      | scope => cases hr
      | value ty => cases hr
      | rawBody => cases hr
  | orMissing call missing =>
      cases call with
      | take ty =>
          rcases h with h | h
          · obtain rfl := List.mem_singleton.mp h
            exact hr
          · cases h
      | getMut ty =>
          rcases h with h | h
          · cases h
          · obtain ⟨f, rfl⟩ := h
            exact hr
      | get ty => rcases h with h | h <;> cases h
      | rawBodyCloned => rcases h with h | h <;> cases h

/-- An operation works on the two parts separately. -/
theorem UserOp.apply_parts (crates : Crates V) (op : UserOp V) (env env' : Env V) :
    op.apply crates ⟨env.ctx, env'.scope⟩ = ⟨(op.apply crates env).ctx, (op.apply crates env').scope⟩ := by
  cases op <;> rfl

/-- An operation on the head leaves the scope alone. -/
theorem UserOp.apply_scope (crates : Crates V) (env : Env V) {op : UserOp V} (h : op.reach = .ctx) :
    (op.apply crates env).scope = env.scope := by
  cases op <;> first | rfl | cases h

/-- An operation that is off the head is not one on the head. -/
theorem UserOp.onCtx_eq_false {op : UserOp V} (h : op.reach.overlaps .ctx = false) : op.onCtx = false := by
  cases op <;> first | rfl | cases h

/-! ## What is the same for a function

`SameAt r` compares two states at one thing that can be reached. For a value this includes the shared
extensions, which `get` falls back to; nothing changes those. -/

/-- The two are the same at what is reached. -/
def Env.SameAt (env env' : Env V) : Reach → Prop
  | .ctx => env.ctx = env'.ctx
  | .scope => env.scope = env'.scope
  | .value ty => env.scope.local_.get? ty = env'.scope.local_.get? ty ∧ env.scope.shared = env'.scope.shared
  | .rawBody => env.scope.rawBody = env'.scope.rawBody

/-- Every state is the same as itself at whatever is reached. -/
theorem Env.SameAt.refl (env : Env V) (r : Reach) : env.SameAt env r := by
  cases r with
  | value ty => exact ⟨rfl, rfl⟩
  | ctx => rfl
  | scope => rfl
  | rawBody => rfl

theorem Env.SameAt.trans {env₁ env₂ env₃ : Env V} {r : Reach} (h : env₁.SameAt env₂ r) (h' : env₂.SameAt env₃ r) :
    env₁.SameAt env₃ r := by
  cases r with
  | value ty => exact ⟨h.1.trans h'.1, h.2.trans h'.2⟩
  | ctx => exact Eq.trans h h'
  | scope => exact Eq.trans h h'
  | rawBody => exact Eq.trans h h'

/-- Where the scope is the same, everything but the head is. -/
theorem Env.SameAt.of_scope {env env' : Env V} (h : env.scope = env'.scope) {r : Reach} (hr : r ≠ .ctx) :
    env.SameAt env' r := by
  cases r with
  | ctx => exact absurd rfl hr
  | scope => exact h
  | value ty => exact ⟨by rw [h], by rw [h]⟩
  | rawBody => exact congrArg RequestScope.rawBody h

/-- What an operation on the value of one type does: it changes that value, and nothing else. -/
theorem UserOp.apply_value (crates : Crates V) {op : UserOp V} {ty : TypeId} (h : op.reach = .value ty) :
    ∃ change : Option V → Option V, ∀ env, ∃ extensions,
      op.apply crates env = { env with scope := { env.scope with local_ := extensions } } ∧
        ∀ ty', extensions.get? ty' =
          if ty = ty' then change (env.scope.local_.get? ty) else env.scope.local_.get? ty' := by
  cases op with
  | take ty' =>
      cases h
      refine ⟨fun _ => none, fun env => ⟨_, congrArg (Env.mk env.ctx) (congrArg Prod.snd (env.scope.take_eq ty)), ?_⟩⟩
      exact fun ty' => MultiMap.get?_remove _ _ _
  | getMut ty' f =>
      cases h
      refine ⟨Option.map f, fun env => ?_⟩
      simp only [UserOp.apply, RequestScope.getMut]
      cases hvalue : env.scope.local_.get? ty with
      | some value => exact ⟨_, rfl, fun ty' => MultiMap.get?_insert _ _ _ _⟩
      | none =>
          refine ⟨_, rfl, fun ty' => ?_⟩
          by_cases heq : ty = ty'
          · rw [if_pos heq, ← heq, hvalue]
            rfl
          · rw [if_neg heq]
  | _ => cases h

/-- **The frame of an operation**: what it does not reach is as it was. By cases on what the operation reaches:
    the head, the scope, or one value, where `apply_value` says that the other values are as before. -/
theorem UserOp.sameAt_apply (crates : Crates V) (env : Env V) {op : UserOp V} {r : Reach}
    (h : op.reach.overlaps r = false) : (op.apply crates env).SameAt env r := by
  cases hreach : op.reach with
  | ctx =>
      refine .of_scope (op.apply_scope crates env hreach) ?_
      rintro rfl
      rw [hreach] at h
      cases h
  | scope =>
      rw [hreach] at h
      cases r with
      | ctx => exact op.apply_ctx crates env (UserOp.onCtx_eq_false (by rw [hreach]; rfl))
      | scope => cases h
      | value ty => cases h
      | rawBody => cases h
  | value ty =>
      obtain ⟨change, hchange⟩ := op.apply_value crates hreach
      obtain ⟨extensions, happly, hget⟩ := hchange env
      rw [hreach] at h
      rw [happly]
      cases r with
      | ctx => rfl
      | scope => cases h
      | value ty' => exact ⟨(hget ty').trans (if_neg (of_decide_eq_false h)), rfl⟩
      | rawBody => rfl
  | rawBody => cases op <;> cases hreach

/-! ## Functions decide on what they reach

The bindings run one after the other on the state that the ones before them leave, and so the second part of
`run_congr` is needed as well: what was the same before a binding is the same behind it. -/

/-- A binding finds the same where what it reaches is the same, and leaves what was the same as such. By cases
    on the binding. All but `take` leave the state as it is (`hkept`); `take` removes the value that it returns,
    in both states the same one. -/
theorem LetStmt.run_congr {types : Types} {stmt : LetStmt} {env env' : Env V}
    (h : env.SameAt env' (stmt.reach types)) :
    (∃ err, stmt.run types env = .error err ∧ stmt.run types env' = .error err) ∨
      ∃ value after after', stmt.run types env = .ok (value, after) ∧ stmt.run types env' = .ok (value, after') ∧
        ∀ r, env.SameAt env' r → after.SameAt after' r := by
  have hkept : ∀ call missing (found : Option (Bound V)), call.run types env.scope = (found, env.scope) →
      call.run types env'.scope = (found, env'.scope) → stmt.init = .orMissing call missing →
      (∃ err, stmt.run types env = .error err ∧ stmt.run types env' = .error err) ∨
      ∃ value after after', stmt.run types env = .ok (value, after) ∧ stmt.run types env' = .ok (value, after') ∧
        ∀ r, env.SameAt env' r → after.SameAt after' r := by
    intro call missing found hrun hrun' hinit
    unfold LetStmt.run
    rw [hinit]
    simp only [hrun, hrun']
    cases found with
    | none => exact .inl ⟨_, rfl, rfl⟩
    | some value => exact .inr ⟨value, _, _, rfl, rfl, fun _ hr => hr⟩
  obtain ⟨pat, ty, init⟩ := stmt
  cases init with
  | ctx =>
      have h : env.ctx = env'.ctx := h
      exact .inr ⟨.ctx env.ctx, env, env', rfl, by rw [h]; rfl, fun _ hr => hr⟩
  | scope =>
      have h : env.scope = env'.scope := h
      exact .inr ⟨.scope env.scope, env, env', rfl, by rw [h]; rfl, fun _ hr => hr⟩
  | orMissing call missing =>
      cases call with
      | get ty =>
          obtain ⟨hlocal, hshared⟩ := h
          refine hkept (.get ty) missing _ rfl ?_ rfl
          simp only [ScopeCall.run, RequestScope.get, hlocal, hshared]
      | getMut ty =>
          obtain ⟨hlocal, hshared⟩ := h
          refine hkept (.getMut ty) missing _ rfl ?_ rfl
          simp only [ScopeCall.run, hlocal]
      | rawBodyCloned =>
          have h : env.scope.rawBody = env'.scope.rawBody := h
          refine hkept .rawBodyCloned missing _ rfl ?_ rfl
          simp only [ScopeCall.run, RequestScope.rawBodyCloned, h]
      | take ty =>
          obtain ⟨hlocal, hshared⟩ := h
          simp only [LetStmt.run, ScopeCall.run, RequestScope.take_eq, hlocal, ← hshared]
          cases (env'.scope.local_.get? (types.resolve ty)).or (env.scope.shared.get? (types.resolve ty)) with
          | none => exact .inl ⟨_, rfl, rfl⟩
          | some value =>
              refine .inr ⟨.owned value, _, _, rfl, rfl, fun r hr => ?_⟩
              cases r with
              | ctx => exact hr
              | scope =>
                  have hr : env.scope = env'.scope := hr
                  simp only [Env.SameAt, hr]
              | rawBody => exact hr
              | value ty' =>
                  refine ⟨?_, rfl⟩
                  simp only [MultiMap.get?_remove, hr.1]

/-- All bindings of a function, by induction on their list: they fail alike, or bind the same values. -/
theorem bindParams_congr {types : Types} {stmts : List LetStmt} {env env' : Env V}
    (h : ∀ stmt ∈ stmts, env.SameAt env' (stmt.reach types)) :
    bindParams types stmts env = bindParams types stmts env' := by
  induction stmts generalizing env env' with
  | nil => rfl
  | cons stmt stmts ih =>
      unfold bindParams
      rcases LetStmt.run_congr (h stmt List.mem_cons_self) with
        ⟨err, hrun, hrun'⟩ | ⟨value, after, after', hrun, hrun', hafter⟩
      · rw [hrun, hrun']
      · rw [hrun, hrun']
        simp only
        rw [ih fun stmt' hstmt' => hafter _ (h stmt' (List.mem_cons_of_mem _ hstmt'))]

/-- **A function decides on what its parameters reach.** -/
theorem BoundFn.call_congr {special : SpecialTypePaths} {types : Types} {mode : ExpansionMode} {ι ο : Type}
    (f : BoundFn V special types mode ι ο) (input : ι) {env env' : Env V}
    (h : ∀ stmt ∈ f.expansion.bindings, env.SameAt env' (stmt.reach types)) :
    f.call input env = f.call input env' := by
  unfold call
  rw [bindParams_congr h]

/-! ## States that no function tells apart

Equality is too much to ask of two orders of operations, because the local extensions are modelled as a list.
What a program can do with them is look up a type, and `Env.Same` asks for no more. -/

/-- The same but for the order in which the local extensions hold their values. -/
structure Env.Same (env env' : Env V) : Prop where
  ctx : env.ctx = env'.ctx
  shared : env.scope.shared = env'.scope.shared
  values : ∀ ty, env.scope.local_.get? ty = env'.scope.local_.get? ty
  body : env.scope.body = env'.scope.body
  rawBody : env.scope.rawBody = env'.scope.rawBody
  bodyLimit : env.scope.bodyLimit = env'.scope.bodyLimit

/-- It is an equivalence, as each of its fields is an equation. -/
theorem Env.Same.equivalence : Equivalence (Env.Same (V := V)) where
  refl _ := ⟨rfl, rfl, fun _ => rfl, rfl, rfl, rfl⟩
  symm h := ⟨h.ctx.symm, h.shared.symm, fun ty => (h.values ty).symm, h.body.symm, h.rawBody.symm, h.bodyLimit.symm⟩
  trans h h' := ⟨h.ctx.trans h'.ctx, h.shared.trans h'.shared, fun ty => (h.values ty).trans (h'.values ty),
    h.body.trans h'.body, h.rawBody.trans h'.rawBody, h.bodyLimit.trans h'.bodyLimit⟩

/-- Equal parts are the same. -/
theorem Env.Same.of_parts {env env' : Env V} (hctx : env.ctx = env'.ctx) (hscope : env.scope = env'.scope) :
    env.Same env' := ⟨hctx, by rw [hscope], fun _ => by rw [hscope], by rw [hscope], by rw [hscope], by rw [hscope]⟩

/-- What becomes of the head depends on the head. -/
theorem UserOp.apply_ctx_congr (crates : Crates V) (op : UserOp V) {env env' : Env V} (h : env.ctx = env'.ctx) :
    (op.apply crates env).ctx = (op.apply crates env').ctx := by
  have hparts := op.apply_parts crates env env'
  rw [h] at hparts
  exact (congrArg Env.ctx hparts).symm

/-- What becomes of the scope depends on the scope. -/
theorem UserOp.apply_scope_congr (crates : Crates V) (op : UserOp V) {env env' : Env V} (h : env.scope = env'.scope) :
    (op.apply crates env).scope = (op.apply crates env').scope := by
  have hparts := op.apply_parts crates env' env
  rw [h] at hparts
  exact (congrArg Env.scope hparts).symm

/-- A read of the body does not look at the values. -/
theorem RequestScope.readBodyBytes_congr (crates : Crates V) {scope scope' : RequestScope V}
    (hbody : scope.body = scope'.body) (hraw : scope.rawBody = scope'.rawBody)
    (hlimit : scope.bodyLimit = scope'.bodyLimit) :
    (scope.readBodyBytes crates).1 = (scope'.readBodyBytes crates).1 ∧
      ∃ body raw, (scope.readBodyBytes crates).2 = { scope with body := body, rawBody := raw } ∧
        (scope'.readBodyBytes crates).2 = { scope' with body := body, rawBody := raw } := by
  obtain ⟨shared, extensions, body, raw, limit⟩ := scope
  obtain ⟨shared', extensions', body', raw', limit'⟩ := scope'
  obtain rfl : body = body' := hbody
  obtain rfl : raw = raw' := hraw
  obtain rfl : limit = limit' := hlimit
  unfold readBodyBytes
  cases body with
  | none => exact ⟨rfl, none, raw, rfl, rfl⟩
  | some body =>
      simp only
      cases crates.toBytes body limit with
      | error err => exact ⟨rfl, none, raw, rfl, rfl⟩
      | ok bytes => exact ⟨rfl, none, some bytes, rfl, rfl⟩

/-- Operations keep states the same. By cases on the operation; those on values change a value of one type in
    both states alike. -/
theorem UserOp.apply_same (crates : Crates V) {env env' : Env V} (h : env.Same env') (op : UserOp V) :
    (op.apply crates env).Same (op.apply crates env') := by
  have hctx := op.apply_ctx_congr crates h.ctx
  have hvalue : ∀ {ty}, op.reach = .value ty → (op.apply crates env).Same (op.apply crates env') := by
    intro ty hreach
    obtain ⟨change, hchange⟩ := op.apply_value crates hreach
    obtain ⟨extensions, happly, hget⟩ := hchange env
    obtain ⟨extensions', happly', hget'⟩ := hchange env'
    rw [happly, happly']
    refine { h with values := fun ty' => (hget ty').trans ?_ }
    rw [h.values, h.values, ← hget']
  cases op with
  | takeBody => exact { h with body := rfl }
  | readBodyBytes =>
      obtain ⟨-, body, raw, hrun, hrun'⟩ := env.scope.readBodyBytes_congr crates h.body h.rawBody h.bodyLimit
      simp only [UserOp.apply, hrun, hrun']
      exact { h with body := rfl, rawBody := rfl }
  | insert ty value =>
      refine { h with values := fun ty' => ?_ }
      simp only [UserOp.apply, RequestScope.insert, MultiMap.get?_insert, h.values]
  | take ty => exact hvalue rfl
  | getMut ty f => exact hvalue rfl
  | _ => exact { h with ctx := hctx }

/-- An operation of the head and one that is not: they work on separate parts of the state, so the results are
    equal in each part. -/
theorem UserOp.apply_comm_of_ctx (crates : Crates V) {op op' : UserOp V} (h : op.reach = .ctx)
    (h' : op'.onCtx = false)
    (env : Env V) : (op'.apply crates (op.apply crates env)).Same (op.apply crates (op'.apply crates env)) := by
  apply Env.Same.of_parts
  · calc (op'.apply crates (op.apply crates env)).ctx
      _ = (op.apply crates env).ctx := op'.apply_ctx crates _ h'
      _ = (op.apply crates (op'.apply crates env)).ctx := op.apply_ctx_congr crates (op'.apply_ctx crates env h').symm
  · calc (op'.apply crates (op.apply crates env)).scope
      _ = (op'.apply crates env).scope := op'.apply_scope_congr crates (op.apply_scope crates env h)
      _ = (op.apply crates (op'.apply crates env)).scope := (op.apply_scope crates _ h).symm

/-- **Operations that reach different things commute.** By cases on what the two reach. Where one is on the head
    they work on separate parts; the scope overlaps with everything else, which the hypothesis excludes; and two
    operations on values of different types leave at every type what the one that is for it makes of it. -/
theorem UserOp.apply_comm (crates : Crates V) {op op' : UserOp V} (h : op.reach.overlaps op'.reach = false)
    (env : Env V) :
    (op'.apply crates (op.apply crates env)).Same (op.apply crates (op'.apply crates env)) := by
  cases hreach : op.reach with
  | ctx =>
      rw [hreach, Reach.overlaps_comm] at h
      exact op.apply_comm_of_ctx crates hreach (UserOp.onCtx_eq_false h) env
  | rawBody => cases op <;> cases hreach
  | scope =>
      cases hreach' : op'.reach with
      | ctx =>
          rw [hreach'] at h
          exact Env.Same.equivalence.symm (op'.apply_comm_of_ctx crates hreach' (UserOp.onCtx_eq_false h) env)
      | scope => rw [hreach, hreach'] at h; cases h
      | value ty => rw [hreach, hreach'] at h; cases h
      | rawBody => cases op' <;> cases hreach'
  | value ty =>
      cases hreach' : op'.reach with
      | ctx =>
          rw [hreach'] at h
          exact Env.Same.equivalence.symm (op'.apply_comm_of_ctx crates hreach' (UserOp.onCtx_eq_false h) env)
      | scope => rw [hreach, hreach'] at h; cases h
      | rawBody => cases op' <;> cases hreach'
      | value ty' =>
          rw [hreach, hreach'] at h
          have hne : ty ≠ ty' := of_decide_eq_false h
          obtain ⟨change, hchange⟩ := op.apply_value crates hreach
          obtain ⟨change', hchange'⟩ := op'.apply_value crates hreach'
          obtain ⟨one, hone, hgetOne⟩ := hchange env
          obtain ⟨two, htwo, hgetTwo⟩ := hchange' env
          obtain ⟨left, hleft, hgetLeft⟩ := hchange' (op.apply crates env)
          obtain ⟨right, hright, hgetRight⟩ := hchange (op'.apply crates env)
          rw [hleft, hright, hone, htwo]
          refine ⟨rfl, rfl, fun s => ?_, rfl, rfl, rfl⟩
          rw [hone] at hgetLeft
          rw [htwo] at hgetRight
          show left.get? s = right.get? s
          simp only [hgetLeft, hgetRight, hgetOne, hgetTwo]
          grind

/-! ## Hooks that are apart are independent

The three conditions of `Lib.Tasks`. Being apart is decided from the signatures of the two hooks, by comparing
every parameter of the one with every parameter of the other. -/

section
variable {special : SpecialTypePaths} {types : Types} {crates : Crates V} {f g : HookFn V special types}

/-- Being apart goes both ways. -/
theorem BoundFn.Apart.symm (h : f.Apart g) : g.Apart f := by
  intro b hb a ha hclash
  refine h a ha b hb ⟨?_, hclash.2.symm⟩
  rw [Reach.overlaps_comm]
  exact hclash.1

/-- What the one does is off what the other reaches: if it were not, the parameter that permits it would clash
    with that of the other. -/
theorem BoundFn.Apart.off (h : f.Apart g) {env : Env V} {op : UserOp V} (hop : op ∈ (f.call () env).1)
    {stmt : LetStmt}
    (hstmt : stmt ∈ g.expansion.bindings) : op.reach.overlaps (stmt.reach types) = false := by
  obtain ⟨a, ha, hdoes⟩ := BoundFn.mem_call hop
  have hdoes : a.Does types op := hdoes
  refine hdoes.off (Bool.eq_false_iff.mpr fun htrue => ?_)
  exact h a ha stmt hstmt ⟨htrue, .inl hdoes.changes⟩

/-- So the other one decides as if nothing had been done: its parameters reach the same in both states. -/
theorem BoundFn.Apart.ignores (h : f.Apart g) : Ignores (UserOp.apply crates) g.toHook f.toHook := by
  intro env env'
  refine g.call_congr () fun stmt hstmt => ?_
  refine applyOps_keeps (P := fun op => op.reach.overlaps (stmt.reach types) = false)
    (R := fun after => after.SameAt env' (stmt.reach types)) ?_ (fun op hop => h.off hop hstmt) (.refl env' _)
  exact fun after op hoff hsame => (op.sameAt_apply crates after hoff).trans hsame

/-- And no operation of the one overlaps with one of the other, from whatever states they were decided. -/
theorem BoundFn.Apart.off_ops (h : f.Apart g) {env env' : Env V} {op op' : UserOp V} (hop : op ∈ (f.call () env).1)
    (hop' : op' ∈ (g.call () env').1) : op.reach.overlaps op'.reach = false := by
  obtain ⟨b, hb, hdoes⟩ := BoundFn.mem_call hop'
  have hdoes : b.Does types op' := hdoes
  have hoff := h.off hop hb
  rw [Reach.overlaps_comm] at hoff ⊢
  exact hdoes.off hoff

/-- **Hooks that share nothing are independent.** -/
theorem BoundFn.Apart.independent (h : f.Apart g) :
    Independent (UserOp.apply crates) Env.Same f.toHook g.toHook where
  left := h.symm.ignores
  right := h.ignores
  commute := by
    intro env env' after
    refine foldl_comm (fun _ _ op hsame => op.apply_same crates hsame) Env.Same.equivalence ?_ after
    exact fun op hop op' hop' env => op.apply_comm crates (h.off_ops hop hop') env

end

/-! ## Code that does not tell the states apart

Each piece of generated code behind the hooks, compared with itself on two states that are the same. The pieces
look at the head, the body, the raw body and the limit, all of which are equal in the two; the one that could
see more is the map of the user. -/

/-- A map does not see in which order a scope holds its values. -/
def MapFn.Extensional (m : MapFn V) : Prop := ∀ f input env env', Env.Same env env' → m f input env = m f input env'

/-- Without a `&mut RequestScope` a map sees single values. By cases on what its parameters bind: each of them
    finds the same in two states that are the same. -/
theorem MapFunction.toMap_extensional {special : SpecialTypePaths} {types : Types} (serializers : Serializers V)
    {m : MapFunction V special types} (hscope : ¬ m.Binds .scope) : (m.toMap serializers).Extensional := by
  intro f input env env' hsame
  have hcall : m.call (f.input input) env = m.call (f.input input) env' := by
    refine m.call_congr _ fun stmt hstmt => ?_
    unfold LetStmt.reach
    split
    · exact hsame.ctx
    · rename_i hinit
      exact absurd ⟨stmt, hstmt, hinit⟩ hscope
    · exact ⟨hsame.values _, hsame.shared⟩
    · exact ⟨hsame.values _, hsame.shared⟩
    · exact ⟨hsame.values _, hsame.shared⟩
    · exact hsame.rawBody
  unfold toMap
  rw [hcall]

namespace Pipe
variable {crates : Crates V}

/-- Generated code that goes the same way from states that no function tells apart. -/
abbrev Blind {α : Type} (p : Pipe V α) : Prop := Alike Env.Same id id p p

theorem blind_stage {α : Type} {s : Stage V} {p : Pipe V α} (h : Blind p) : Blind (stage s p) :=
  Alike.stage h rfl fun _ _ he => congrArg (fun e => PipelineEvent.stage s (some e)) he

/-- A step that does not tell the states apart and leaves states that cannot be told apart. -/
theorem blind_lift {α : Type} {f : Env V → Except ApigateError α × Env V}
    (h : ∀ env env', Env.Same env env' → (f env).1 = (f env').1 ∧ Env.Same (f env).2 (f env').2) : Blind (lift f) :=
  Alike.lift fun env env' hsame => ⟨congrArg _ (h env env' hsame).1, (h env env' hsame).2⟩

theorem blind_ofExcept {α : Type} {r : Except ApigateError α} : Blind (ofExcept r : Pipe V α) := Alike.ofExcept rfl

theorem blind_headersMut (headers : HeaderMap → HeaderMap) : Blind (headersMut headers : Pipe V Unit) :=
  Alike.modify fun env env' h => { h with ctx := by simp only [h.ctx] }

/-- A read finds the same body, and leaves the same body and raw body. -/
theorem blind_readBodyBytes : Blind (readBodyBytes crates) := by
  refine blind_lift fun env env' h => ?_
  obtain ⟨hresult, body, raw, hrun, hrun'⟩ := env.scope.readBodyBytes_congr crates h.body h.rawBody h.bodyLimit
  refine ⟨hresult, ?_⟩
  simp only [hrun, hrun']
  exact { h with body := rfl, rawBody := rfl }

theorem blind_rawBodyExpr : Blind (rawBodyExpr : Pipe V Str) := by
  refine blind_stage (blind_lift fun env env' h => ?_)
  simp only [RequestScope.rawBodyCloned, h.rawBody]
  cases env'.scope.rawBody with
  | none => exact ⟨rfl, h⟩
  | some raw => exact ⟨rfl, h⟩

theorem blind_takeBodyExpr : Blind (takeBodyExpr : Pipe V Body) := by
  refine blind_stage (blind_lift fun env env' h => ?_)
  simp only [RequestScope.takeBody, h.body]
  cases env'.scope.body with
  | none => exact ⟨rfl, { h with body := rfl }⟩
  | some body => exact ⟨rfl, { h with body := rfl }⟩

theorem blind_contentTypeGuard (typePrefix : Str) (needle : Option Str) (error : ApigatePipelineError) :
    Blind (contentTypeGuard typePrefix needle error : Pipe V Unit) := by
  refine blind_stage (blind_lift fun env env' h => ?_)
  simp only [h.ctx]
  split
  · exact ⟨rfl, h⟩
  · exact ⟨rfl, h⟩

theorem blind_runMap {m : MapFn V} (hm : m.Extensional) (f : Format) (input : f.In V) :
    Blind (runMap crates m f input) := by
  refine alike_iff.mpr fun env env' h => ?_
  -- the map decides alike, and its operations keep the relation
  rw [runMap_run, runMap_run, hm f input env env' h]
  exact ⟨rfl, foldl_respects (fun _ _ op hsame => op.apply_same crates hsame) h _, rfl⟩

theorem blind_mapReplaceOrKeep {m : MapFn V} (hm : m.Extensional) (f : Format) (input : f.In V)
    (contentType : Option Str) (bytes : Str) : Blind (mapReplaceOrKeep crates m f input contentType bytes) := by
  refine Alike.bind (blind_stage (blind_runMap hm f input)) fun outcome => ?_
  cases outcome with
  | keep => exact Alike.pure
  | replace newBody =>
      cases contentType with
      | none => exact Alike.bind (blind_headersMut _) fun _ => Alike.pure
      | some contentType =>
          exact Alike.bind (blind_headersMut _) fun _ => Alike.bind (blind_headersMut _) fun _ => Alike.pure

/-- A map of the query, and the setter, which looks at the head only. -/
theorem blind_mapQueryExpr {m : MapFn V} (hm : m.Extensional) (input : V) : Blind (mapQueryExpr crates m input) := by
  refine blind_stage (Alike.bind (blind_runMap hm .form input) fun outcome => ?_)
  cases outcome with
  | keep => exact Alike.pure
  | replace encoded =>
      exact blind_lift fun env env' h => ⟨by simp only [h.ctx], { h with ctx := by simp only [h.ctx] }⟩

/-- From the data on no piece tells the states apart: the pieces above, for the arguments of one route on both
    sides. -/
theorem blindRules {mapFn : Option (MapFn V)} (hm : ∀ m ∈ mapFn, m.Extensional) (data : DataKind)
    (bodyInQuery : Bool) :
    BodyRules (.coupled (StoppedLikewise Env.Same id id)) crates crates data mapFn mapFn bodyInQuery
      (.constant (Likewise Env.Same id)) := by
  constructor
  case maps => rfl
  case contentType => exact fun typePrefix needle error _ => blind_contentTypeGuard typePrefix needle error
  case take => exact fun _ => blind_takeBodyExpr
  case read => exact fun _ _ => blind_stage blind_readBodyBytes
  case rawBody => exact fun _ _ _ => blind_rawBodyExpr
  case parseJson => exact fun _ _ _ _ => blind_stage blind_ofExcept
  case parseForm => exact fun _ _ _ _ _ => blind_stage blind_ofExcept
  case unmapped => exact fun _ _ _ _ _ => Alike.pure
  case mapped =>
    intro m m' hmap hmap' _ f input bytes
    obtain rfl := Option.some.inj (hmap.symm.trans hmap')
    exact blind_mapReplaceOrKeep (hm m hmap) f input _ bytes
  case rawQuery => exact fun _ _ => Alike.gets fun env env' h => by simp only [h.ctx]
  case parseFormQuery => exact fun _ _ _ _ _ => blind_stage blind_ofExcept
  case unmappedQuery => exact fun _ _ _ _ => blind_takeBodyExpr
  case mappedQuery =>
    intro m m' hmap hmap' _ input _
    obtain rfl := Option.some.inj (hmap.symm.trans hmap')
    exact Alike.bind (blind_mapQueryExpr (hm m hmap) input) fun _ => blind_takeBodyExpr

/-! ## The hooks of a route -/

/-- The calls of the hooks, one after the other. -/
def hooksPhase (crates : Crates V) (before : List (Hook V)) : Pipe V Unit :=
  runAll (before.map fun h => stage (.hook h) (runHook crates h))

/-- Hooks run as a list of tasks: the operations of a hook are applied before its error is looked at, and a hook
    that fails is the last. By induction on the list of hooks. -/
theorem hooksPhase_run (crates : Crates V) (before : List (Hook V)) (env : Env V) :
    (hooksPhase crates before env).result = (runTasks (UserOp.apply crates) before env).2 ∧
      (hooksPhase crates before env).state =
        (runTasks (UserOp.apply crates) before env).1.foldl (UserOp.apply crates) env := by
  induction before generalizing env with
  | nil => exact ⟨rfl, rfl⟩
  | cons h before ih =>
      rcases hrun : h env with ⟨ops, result⟩
      have hcall := runHook_run crates h env
      rw [hrun] at hcall
      unfold hooksPhase
      rw [List.map_cons, runAll, runTasks, hrun]
      cases result with
      | error err =>
          have hstop : (stage (.hook h) (runHook crates h) env).result = .error err := congrArg Outcome.result hcall
          rw [bind_of_error hstop]
          exact ⟨rfl, congrArg Outcome.state hcall⟩
      | ok done =>
          have hgo : (stage (.hook h) (runHook crates h) env).result = .ok () := congrArg Outcome.result hcall
          have hstate : (stage (.hook h) (runHook crates h) env).state = ops.foldl (UserOp.apply crates) env :=
            congrArg Outcome.state hcall
          obtain ⟨hrestResult, hrestState⟩ := ih (ops.foldl (UserOp.apply crates) env)
          rw [bind_of_ok hgo, hstate, List.foldl_append]
          exact ⟨hrestResult, hrestState⟩

end Pipe

/-! ## Routes whose hooks are in another order

The phases in their order. Before the hooks the two pipelines are the same program; the hooks end in states that
are the same, or with errors; and behind them the code is blind to what is left of the difference. Of the state
that a pipeline leaves, only the head is looked at by the handler. -/

/-- The result and the head that a pipeline hands on. -/
def HandsOn (o o' : Outcome (Env V) ApigateError (PipelineEvent V) Body) : Prop :=
  o.result = o'.result ∧ o.state.ctx = o'.state.ctx

section
variable {special : SpecialTypePaths} {types : Types} {crates : Crates V}
  {hooks hooks' : List (HookFn V special types)}

/-- From the hooks on. If all hooks succeed, the body phase is run on two states that are the same, and
    `blindRules` gives the same result and the same head. If one fails, both lists do, and the rest is not run.
    -/
theorem hooks_reordered (hperm : hooks.Perm hooks') (hapart : hooks.Pairwise BoundFn.Apart)
    {mapFn : Option (MapFn V)} (hmap : ∀ m ∈ mapFn, m.Extensional) (data : DataKind) (bodyInQuery : Bool)
    (env : Env V) :
    let run := fun hooks : List (HookFn V special types) =>
      (Pipe.hooksPhase crates (hooks.map HookFn.toHook) >>= fun _ => Pipe.bodyPhase crates data mapFn bodyInQuery) env
    HandsOn (run hooks) (run hooks') ∨
      ∃ f ∈ hooks, ∃ g ∈ hooks, ∃ err err', (f.call () env).2 = .error err ∧ (g.call () env).2 = .error err' ∧
        (run hooks).result = .error err ∧ (run hooks').result = .error err' := by
  intro run
  have hindependent : (hooks.map HookFn.toHook).Pairwise (Independent (UserOp.apply crates) Env.Same) :=
    List.pairwise_map.mpr (hapart.imp fun h => h.independent)
  obtain ⟨hresult, hstate⟩ := Pipe.hooksPhase_run crates (hooks.map HookFn.toHook) env
  obtain ⟨hresult', hstate'⟩ := Pipe.hooksPhase_run crates (hooks'.map HookFn.toHook) env
  rcases runTasks_perm (fun _ _ op hsame => op.apply_same crates hsame) Env.Same.equivalence
      (hperm.map HookFn.toHook) hindependent env with
    ⟨hok, hok', hsame⟩ | ⟨f, hf, g, hg, err, err', hferr, hgerr, hend, hend'⟩
  · have hblind : Pipe.Blind (Pipe.bodyPhase crates data mapFn bodyInQuery) :=
      (Pipe.blindRules hmap data bodyInQuery).bodyPhase
    obtain ⟨hbody, hleft, -⟩ := alike_iff.mp hblind _ _ hsame
    rw [mapError_id, mapError_id] at hbody
    refine .inl ⟨?_, ?_⟩
    · simp only [run]
      rw [bind_of_ok (hresult.trans hok), bind_of_ok (hresult'.trans hok'), hstate, hstate']
      exact hbody
    · simp only [run]
      rw [bind_of_ok (hresult.trans hok), bind_of_ok (hresult'.trans hok'), hstate, hstate']
      exact hleft.ctx
  · obtain ⟨f, hmem, rfl⟩ := List.mem_map.mp hf
    obtain ⟨g, hmem', rfl⟩ := List.mem_map.mp hg
    refine .inr ⟨f, hmem, g, hmem', err, err', hferr, hgerr, ?_, ?_⟩
    · simp only [run]
      rw [bind_of_error (hresult.trans hend)]
    · simp only [run]
      rw [bind_of_error (hresult'.trans hend')]

/-- The state that the hooks of a route start in. -/
def hooksStart (crates : Crates V) (args : RouteArgs V) (env : Env V) : Env V :=
  (Pipe.queryPhase crates args.queryType (Pipe.pathPhase crates args.pathType env).state).state

/-- The path and the query come before the hooks. If one of them is rejected, it is rejected in both routes,
    with the same error. -/
theorem phases_reordered (crates : Crates V) (hperm : hooks.Perm hooks')
    (hapart : hooks.Pairwise BoundFn.Apart) {args : RouteArgs V}
    (hmap : ∀ m ∈ args.map, m.Extensional) (bodyInQuery : Bool) (env : Env V) :
    let run := fun hooks : List (HookFn V special types) => Pipe.phases crates args.pathType args.queryType
      (hooks.map HookFn.toHook) args.data args.map bodyInQuery env
    HandsOn (run hooks) (run hooks') ∨
      ∃ f ∈ hooks, ∃ g ∈ hooks, ∃ err err', (f.call () (hooksStart crates args env)).2 = .error err ∧
        (g.call () (hooksStart crates args env)).2 = .error err' ∧ (run hooks).result = .error err ∧
        (run hooks').result = .error err' := by
  intro run
  simp only [run, Pipe.phases]
  cases hpath : (Pipe.pathPhase crates args.pathType env).result with
  | error err =>
      rw [bind_of_error hpath, bind_of_error hpath]
      exact .inl ⟨rfl, rfl⟩
  | ok found =>
      rw [bind_of_ok hpath, bind_of_ok hpath]
      cases hquery : (Pipe.queryPhase crates args.queryType
          (Pipe.pathPhase crates args.pathType env).state).result with
      | error err =>
          rw [bind_of_error hquery, bind_of_error hquery]
          exact .inl ⟨rfl, rfl⟩
      | ok found =>
          rw [bind_of_ok hquery, bind_of_ok hquery]
          exact hooks_reordered hperm hapart hmap args.data bodyInQuery _

end

/-- There is a pipeline in every order or in none: what decides this is whether there are hooks, not which comes
    first. -/
theorem generate_reordered (crates : Crates V) (hperm : hooks.Perm hooks') (args : RouteArgs V) (bodyInQuery : Bool) :
    let generated := fun hooks : List (HookFn V special types) =>
      generatePipelineWrapper crates { args with before := hooks.map HookFn.toHook } bodyInQuery
    let phases := fun hooks : List (HookFn V special types) => Pipe.phases crates args.pathType args.queryType
      (hooks.map HookFn.toHook) args.data args.map bodyInQuery
    (generated hooks = none ∧ generated hooks' = none) ∨
      generated hooks = some (phases hooks) ∧ generated hooks' = some (phases hooks') := by
  intro generated phases
  have hempty : (hooks.map HookFn.toHook).isEmpty = (hooks'.map HookFn.toHook).isEmpty :=
    (hperm.map HookFn.toHook).isEmpty_eq
  have hsplit : ∀ (idle : Bool) (p q : PipelineFn V),
      ((if idle then none else some p) = none ∧ (if idle then none else some q) = none) ∨
        (if idle then none else some p) = some p ∧ (if idle then none else some q) = some q := by
    intro idle p q
    cases idle with
    | true => exact .inl ⟨rfl, rfl⟩
    | false => exact .inr ⟨rfl, rfl⟩
  simp only [generated, phases, generatePipelineWrapper, hempty]
  exact hsplit _ _ _

/-- The state that the pipeline of a route starts in. -/
def pipelineStart (inner : Inner V) (routeMeta : RouteMeta (PipelineFn V)) (req : Request V) : Env V :=
  ⟨⟨routeMeta.service, routeMeta.routePath, req.parts⟩, .new inner.state req.body inner.mapBodyLimit⟩

/-- A route without a pipeline hands on the request as it came. -/
theorem pipelineOutcome_of_none (inner : Inner V) {routeMeta : RouteMeta (PipelineFn V)}
    (h : routeMeta.pipeline = none)
    (req : Request V) :
    pipelineOutcome inner routeMeta req.parts req.body = ⟨.ok req.body, pipelineStart inner routeMeta req, []⟩ := by
  unfold pipelineOutcome
  rw [h]
  rfl

/-- A route with one runs it on the state that the handler builds. -/
theorem pipelineOutcome_of_some (inner : Inner V) {routeMeta : RouteMeta (PipelineFn V)} {pipeline : PipelineFn V}
    (h : routeMeta.pipeline = some pipeline) (req : Request V) :
    pipelineOutcome inner routeMeta req.parts req.body = pipeline (pipelineStart inner routeMeta req) := by
  unfold pipelineOutcome
  rw [h]
  rfl

section
variable {ρ σ : Type} [RouteStrategy ρ] [Balancer σ] [Xxh3]

/-- What two handlers do alike: everything but the pipeline. -/
structure SameButPipeline (inner : Inner V) (routeMeta routeMeta' : RouteMeta (PipelineFn V)) (req : Request V)
    (o o' : Outcome (Policies ρ σ) Panic (DispatchEvent V) Response) : Prop where
  result : o.result = o'.result
  policies : o.state = o'.state
  trace : ∃ rest, o.trace = shownByPipeline inner routeMeta req ++ rest ∧
    o'.trace = shownByPipeline inner routeMeta' req ++ rest

/-- Behind the pipeline, only its result and the head it leaves matter. By cases on the result: an error is
    rendered, and a body goes upstream with the head. -/
theorem sameButPipeline_of_handsOn {crates : Crates V} {client : Client V} {inner : Inner V}
    {routeIdx routeIdx' : Nat}
    {routeMeta : RouteMeta (PipelineFn V)} {pipeline : Option (PipelineFn V)}
    (hmeta : inner.routeMetas[routeIdx]? = some routeMeta)
    (hmeta' : inner.routeMetas[routeIdx']? = some { routeMeta with pipeline := pipeline }) {req : Request V}
    (h : HandsOn (pipelineOutcome inner routeMeta req.parts req.body)
      (pipelineOutcome inner { routeMeta with pipeline := pipeline } req.parts req.body)) (policies : Policies ρ σ) :
    SameButPipeline inner routeMeta { routeMeta with pipeline := pipeline } req
      (proxyHandler crates client inner routeIdx req policies)
      (proxyHandler crates client inner routeIdx' req policies) := by
  obtain ⟨hresult, hctx⟩ := h
  cases hrun : (pipelineOutcome inner routeMeta req.parts req.body).result with
  | error err =>
      rw [proxyHandler_of_error crates client hmeta hrun,
        proxyHandler_of_error crates client hmeta' (hresult.symm.trans hrun)]
      exact ⟨rfl, rfl, _, rfl, rfl⟩
  | ok body =>
      rw [proxyHandler_of_ok crates client hmeta hrun,
        proxyHandler_of_ok crates client hmeta' (hresult.symm.trans hrun), hctx]
      exact ⟨rfl, rfl, _, rfl, rfl⟩

/-- **Hooks that share nothing can be given in any order.** Take two routes that differ in the order of their
    hooks only; of no two of these hooks can one change what the other reaches, by their signatures. Then on
    every request, with any policies and any upstream, the handlers of both do the same: the same response, the
    same requests to the same backends, the same calls of the observer and of the policies. The one exception is
    a request that several hooks reject: then both handlers reject it, each with the error of one of the hooks.
    -/
theorem hooks_may_be_reordered {crates : Crates V} {client : Client V} {inner : Inner V} {routeIdx routeIdx' : Nat}
    {routeMeta : RouteMeta (PipelineFn V)} {pipeline' : Option (PipelineFn V)}
    (hmeta : inner.routeMetas[routeIdx]? = some routeMeta)
    (hmeta' : inner.routeMetas[routeIdx']? = some { routeMeta with pipeline := pipeline' })
    {special : SpecialTypePaths} {types : Types} {hooks hooks' : List (HookFn V special types)}
    (hperm : hooks.Perm hooks') (hapart : hooks.Pairwise BoundFn.Apart) {args : RouteArgs V}
    (hmap : ∀ m ∈ args.map, m.Extensional) {bodyInQuery : Bool}
    (hpipeline : routeMeta.pipeline =
      generatePipelineWrapper crates { args with before := hooks.map HookFn.toHook } bodyInQuery)
    (hpipeline' : pipeline' =
      generatePipelineWrapper crates { args with before := hooks'.map HookFn.toHook } bodyInQuery)
    (req : Request V) (policies : Policies ρ σ) :
    let o := proxyHandler crates client inner routeIdx req policies
    let o' := proxyHandler crates client inner routeIdx' req policies
    SameButPipeline inner routeMeta { routeMeta with pipeline := pipeline' } req o o' ∨
      ∃ f ∈ hooks, ∃ g ∈ hooks, ∃ err err',
        (f.call () (hooksStart crates args (pipelineStart inner routeMeta req))).2 = .error err ∧
        (g.call () (hooksStart crates args (pipelineStart inner routeMeta req))).2 = .error err' ∧
        Rejects inner policies err o ∧ Rejects inner policies err' o' := by
  intro o o'
  have hsame : HandsOn (pipelineOutcome inner routeMeta req.parts req.body)
      (pipelineOutcome inner { routeMeta with pipeline := pipeline' } req.parts req.body) →
      SameButPipeline inner routeMeta { routeMeta with pipeline := pipeline' } req o o' := fun h =>
    sameButPipeline_of_handsOn hmeta hmeta' h policies
  rcases generate_reordered crates hperm args bodyInQuery with ⟨hnone, hnone'⟩ | ⟨hsome, hsome'⟩
  · refine .inl (hsame ?_)
    rw [pipelineOutcome_of_none inner (hpipeline.trans hnone),
      pipelineOutcome_of_none inner (hpipeline'.trans hnone')]
    exact ⟨rfl, rfl⟩
  · have hrun := pipelineOutcome_of_some inner (hpipeline.trans hsome) req
    have hrun' : pipelineOutcome inner { routeMeta with pipeline := pipeline' } req.parts req.body = _ :=
      pipelineOutcome_of_some inner (hpipeline'.trans hsome') req
    rcases phases_reordered crates hperm hapart hmap bodyInQuery (pipelineStart inner routeMeta req) with
      hhands | ⟨f, hf, g, hg, err, err', hferr, hgerr, hstop, hstop'⟩
    · refine .inl (hsame ?_)
      rw [hrun, hrun']
      exact hhands
    · have hrejects := rejects_of_error crates client hmeta
        ((congrArg Outcome.result hrun).trans hstop) policies
      have hrejects' := rejects_of_error crates client hmeta'
        ((congrArg Outcome.result hrun').trans hstop') policies
      exact .inr ⟨f, hf, g, hg, err, err', hferr, hgerr, hrejects, hrejects'⟩

end

/-! ## A token and a stamp -/

/-- `ctx: &mut PartsCtx` -/
def stampParam : FnArg := .typed (str "ctx") (.reference none true (bareTy (str "PartsCtx")))

/-- `async fn stamp(ctx: &mut PartsCtx) -> HookResult` sets a header. -/
def stamp : HookFn Str apigatePaths .plain where
  inputs := [stampParam]
  expansion := ⟨none, ctxIdent, str "_", [⟨str "ctx", .reference none true (bareTy (str "PartsCtx")), .ctx⟩]⟩
  expands := rfl
  body _ _ := ([.setHeader (some .host) (some (str "items"))], .ok ())
  permitted := by
    intro input values op hop
    obtain rfl := List.mem_singleton.mp hop
    exact ⟨_, List.mem_singleton_self _, rfl⟩

/-- A route with these hooks. -/
def stampMeta (hooks : List (HookFn Str apigatePaths .plain)) : RouteMeta (PipelineFn Str) :=
  ⟨str "sales", str "/items", str "/sales", .stripPrefix, ⟨[⟨⟨str "http", str "up", str "http://up", str "up"⟩⟩]⟩, 0,
    generatePipelineWrapper .plain { tokenArgs with before := hooks.map HookFn.toHook } false⟩

/-- The route with its hooks in both orders. -/
def stampInner : Inner Str :=
  { soloInner with routeMetas := [stampMeta [checkToken, stamp], stampMeta [stamp, checkToken]] }

/-- The theorem at these routes and a request with a token, which neither of the hooks rejects. -/
theorem hooks_may_be_reordered_stamp :
    let handler := fun (routeIdx : Nat) =>
      @proxyHandler Str NoRouteKey RoundRobin _ _ .length .plain soloClient stampInner routeIdx quotedRequest
        fun _ => .new
    SameButPipeline stampInner (stampMeta [checkToken, stamp]) (stampMeta [stamp, checkToken]) quotedRequest
      (handler 0) (handler 1) := by
  intro handler
  have hapart : [checkToken, stamp].Pairwise BoundFn.Apart := by
    refine List.pairwise_pair.mpr ?_
    decide
  refine (@hooks_may_be_reordered Str NoRouteKey RoundRobin _ _ .length .plain soloClient stampInner 0 1
    (stampMeta [checkToken, stamp]) _ rfl rfl _ _ _ _ (.swap _ _ []) hapart tokenArgs (fun _ hm => nomatch hm) false
    rfl rfl quotedRequest fun _ => .new).resolve_right ?_
  rintro ⟨f, hf, -, -, err, -, hferr, -⟩
  rcases List.mem_pair.mp hf with rfl | rfl
  · cases hferr
  · cases hferr

end Apigate
