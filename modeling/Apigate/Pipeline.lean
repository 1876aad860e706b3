import Apigate.PartsCtx

/-!
# `Apigate.Pipeline` — the request scope: a body that can be taken once

`RequestScope` owns the request body and the values of one pipeline run. There is no operation that puts a
body back.
-/

namespace Apigate
open Lib

variable {V : Type}

structure RequestScope (V : Type) where
  shared : Extensions V
  local_ : Extensions V
  body : Option Body
  rawBody : Option Str
  bodyLimit : Nat

namespace RequestScope

def new (shared : Extensions V) (body : Body) (bodyLimit : Nat) : RequestScope V :=
  ⟨shared, .empty, some body, none, bodyLimit⟩

/-- Takes ownership of the request body. -/
def takeBody (scope : RequestScope V) : Option Body × RequestScope V :=
  (scope.body, { scope with body := none })

/-- Reads the request body up to the limit and caches it as the raw body. -/
def readBodyBytes (crates : Crates V) (scope : RequestScope V) :
    Except ApigateError Str × RequestScope V :=
  match scope.body with
  | none => (.error (.ofPipeline .requestBodyAlreadyConsumed), scope)
  | some body =>
      match crates.toBytes body scope.bodyLimit with
      | .error err => (.error (.ofPipeline (.requestBodyTooLarge err)), { scope with body := none })
      | .ok bytes => (.ok bytes, { scope with body := none, rawBody := some bytes })

/-- An owned handle to the cached raw body. -/
def rawBodyCloned (scope : RequestScope V) : Option Str := scope.rawBody

/-- Local extensions first, then shared state. -/
def get (scope : RequestScope V) (ty : TypeId) : Option V :=
  (scope.local_.get? ty).or (scope.shared.get? ty)

/-- Changes a value of the local extensions in place. -/
def getMut (scope : RequestScope V) (ty : TypeId) (f : V → V) : RequestScope V :=
  match scope.local_.get? ty with
  | some value => { scope with local_ := scope.local_.insert ty (f value) }
  | none => scope

def insert (scope : RequestScope V) (ty : TypeId) (value : V) : RequestScope V :=
  { scope with local_ := scope.local_.insert ty value }

/-- Takes a value from the local extensions; if absent, clones it from shared state. -/
def take (scope : RequestScope V) (ty : TypeId) : Option V × RequestScope V :=
  match scope.local_.get? ty with
  | some value => (some value, { scope with local_ := scope.local_.remove ty })
  | none => (scope.shared.get? ty, scope)

/-- Whether or not the value is there, nothing is left of it in the local extensions. -/
theorem take_eq (scope : RequestScope V) (ty : TypeId) :
    scope.take ty =
      ((scope.local_.get? ty).or (scope.shared.get? ty), { scope with local_ := scope.local_.remove ty }) := by
  unfold take
  cases hlocal : scope.local_.get? ty with
  | some value => rfl
  | none => rw [MultiMap.remove_of_get?_eq_none hlocal, Option.none_or]

/-- A change in place is one of the local extensions. -/
theorem getMut_eq (scope : RequestScope V) (ty : TypeId) (f : V → V) :
    ∃ extensions, scope.getMut ty f = { scope with local_ := extensions } := by
  unfold getMut
  split
  · exact ⟨_, rfl⟩
  · exact ⟨scope.local_, rfl⟩

end RequestScope

/-! ## Hooks and maps

A hook or map may call any operation of its two arguments in any order. It is deterministic in what it is
given, so it is a function from the state it sees to the operations it performs and the result it returns;
a result of an operation it looks at in between is determined by that state as well. -/

/-- What a hook or map can see and change. -/
structure Env (V : Type) where
  ctx : PartsCtx V
  scope : RequestScope V

/-- One operation of a hook or map. An operation that fails has the effect the code leaves behind; what the hook
    does about the error is its own business. -/
inductive UserOp (V : Type) where
  | setHeader (name : Option HeaderName) (value : Option HeaderValue)
  | setHeaderIfAbsent (name : Option HeaderName) (value : Option HeaderValue)
  | removeHeader (name : Str)
  /-- `headers_mut` -/
  | headersMut (f : HeaderMap → HeaderMap)
  /-- `uri_mut` -/
  | uriMut (f : Uri → Uri)
  | setEncodedQuery (encoded : Str)
  /-- `extensions_mut` -/
  | extensionsMut (f : Extensions V → Extensions V)
  /-- `extract::<E>`: an extractor gets the whole request head. -/
  | extract (f : Parts V → Parts V)
  | takeBody
  | readBodyBytes
  | insert (ty : TypeId) (value : V)
  | take (ty : TypeId)
  | getMut (ty : TypeId) (f : V → V)

/-- The effect of an operation. -/
def UserOp.apply (crates : Crates V) (env : Env V) : UserOp V → Env V
  | setHeader name value => { env with ctx := (env.ctx.setHeader name value).2 }
  | setHeaderIfAbsent name value => { env with ctx := (env.ctx.setHeaderIfAbsent name value).2 }
  | removeHeader name => { env with ctx := env.ctx.removeHeader name }
  | headersMut f => { env with ctx := env.ctx.setHeaders (f env.ctx.parts.headers) }
  | uriMut f => { env with ctx := env.ctx.setUri (f env.ctx.parts.uri) }
  | setEncodedQuery encoded => { env with ctx := (env.ctx.setEncodedQuery crates encoded).2 }
  | extensionsMut f => { env with ctx := env.ctx.setExtensions (f env.ctx.parts.extensions) }
  | extract f => { env with ctx := { env.ctx with parts := f env.ctx.parts } }
  | takeBody => { env with scope := env.scope.takeBody.2 }
  | readBodyBytes => { env with scope := (env.scope.readBodyBytes crates).2 }
  | insert ty value => { env with scope := env.scope.insert ty value }
  | take ty => { env with scope := (env.scope.take ty).2 }
  | getMut ty f => { env with scope := env.scope.getMut ty f }

/-- The effect of a list of operations. -/
def applyOps (crates : Crates V) (env : Env V) (ops : List (UserOp V)) : Env V :=
  ops.foldl (UserOp.apply crates) env

/-- The operation does not touch header `h`. -/
def UserOp.Leaves (h : HeaderName) : UserOp V → Prop
  | setHeader name _ | setHeaderIfAbsent name _ => name ≠ some h
  | removeHeader name => HeaderName.fromBytes name ≠ some h
  | headersMut f => ∀ headers, (f headers).getAll h = headers.getAll h
  | extract f => ∀ parts, (f parts).headers.getAll h = parts.headers.getAll h
  | uriMut _ | setEncodedQuery _ | extensionsMut _ | takeBody | readBodyBytes | insert .. | take _
  | getMut .. => True

/-- An operation that leaves a header changes none of its values. -/
theorem UserOp.apply_getAll (crates : Crates V) (env : Env V) {h : HeaderName} {op : UserOp V}
    (hop : op.Leaves h) :
    (op.apply crates env).ctx.parts.headers.getAll h = env.ctx.parts.headers.getAll h := by
  cases op with
  | setHeader name value =>
      have hne : name ≠ some h := hop
      cases name with
      | none => rfl
      | some name =>
          cases value with
          | none => rfl
          | some value =>
              have hnh : h ≠ name := fun heq => hne (congrArg some heq.symm)
              exact MultiMap.getAll_insert_of_ne _ value hnh
  | setHeaderIfAbsent name value =>
      have hne : name ≠ some h := hop
      cases name with
      | none => rfl
      | some name =>
          have hnh : h ≠ name := fun heq => hne (congrArg some heq.symm)
          simp only [UserOp.apply, PartsCtx.setHeaderIfAbsent]
          split
          · rfl
          · cases value with
            | none => rfl
            | some value => exact MultiMap.getAll_insert_of_ne _ value hnh
  | removeHeader name =>
      have hne : HeaderName.fromBytes name ≠ some h := hop
      simp only [UserOp.apply, PartsCtx.removeHeader]
      split
      · rename_i name' hname
        have hnh : h ≠ name' := fun heq => hne (by rw [hname, heq])
        exact MultiMap.getAll_remove_of_ne _ hnh
      · rfl
  | headersMut f => exact hop env.ctx.parts.headers
  | extract f => exact hop env.ctx.parts
  | setEncodedQuery encoded => simp [UserOp.apply]
  | _ => rfl

/-- No operation puts a body back: the body is the one before, or gone. -/
theorem UserOp.apply_body (crates : Crates V) (env : Env V) (op : UserOp V) :
    (op.apply crates env).scope.body = env.scope.body ∨ (op.apply crates env).scope.body = none := by
  cases op with
  | takeBody => exact Or.inr rfl
  | readBodyBytes =>
      simp only [UserOp.apply, RequestScope.readBodyBytes]
      cases hbody : env.scope.body with
      | none => exact Or.inl hbody
      | some body =>
          simp only
          split
          · exact Or.inr rfl
          · exact Or.inr rfl
  | take ty =>
      simp only [UserOp.apply, RequestScope.take_eq, true_or]
  | getMut ty f =>
      obtain ⟨extensions, hscope⟩ := env.scope.getMut_eq ty f
      simp only [UserOp.apply, hscope, true_or]
  | _ => exact Or.inl rfl

/-- A hook: the operations it performs and what it returns. -/
abbrev Hook (V : Type) := Env V → List (UserOp V) × Except ApigateError Unit

/-- The wire format a map output is finished into. -/
inductive Format where
  | json
  | form
  | raw
  deriving DecidableEq

/-- What a map gets: the parsed input, or the raw body. -/
def Format.In (V : Type) : Format → Type
  | json | form => V
  | raw => Str

/-- The payload of a format. -/
def Format.Out : Format → Type
  | json | form => Str
  | raw => Body

/-- `Body::from` of a payload. -/
def Format.toBody : (f : Format) → f.Out → Body
  | json, payload => Body.ofBytes payload
  | form, payload => Body.ofBytes payload
  | raw, payload => payload

/-- Whether a map keeps the original request body or replaces it. -/
inductive BodyOutcome (α : Type) where
  | keep
  | replace (payload : α)

/-- A map after macro expansion, generic over the format its route supplies. -/
abbrev MapFn (V : Type) :=
  (f : Format) → f.In V → Env V → List (UserOp V) × Except ApigateError (BodyOutcome f.Out)

end Apigate
