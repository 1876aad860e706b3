import Apigate.Macros.Codegen
import Apigate.Macros.Expand

/-!
# `Macros.Functions` — hooks and maps as their authors write them

The macro puts bindings in front of the body of a function, and behind the body of a map the step that finishes its
output into the format of the route. The body gets at the request through what is bound, and through nothing else.
-/

namespace Apigate
open Lib Text Syn

variable {V : Type}

/-! ## What a body can do -/

/-- The operation is one of the request context, not of the scope. -/
def UserOp.onCtx : UserOp V → Bool
  | setHeader .. | setHeaderIfAbsent .. | removeHeader _ | headersMut _ | uriMut _ | setEncodedQuery _
  | extensionsMut _ | extract _ => true
  | takeBody | readBodyBytes | insert .. | take _ | getMut .. => false

/-- What the statement binds is good for the operation: `&mut PartsCtx` for those of the context, `&mut
    RequestScope` for those of the scope, and `&mut T` for changing that value. -/
def LetStmt.permits (types : Types) (stmt : LetStmt) (op : UserOp V) : Prop :=
  match stmt.init with
  | .ctx => op.onCtx = true
  | .scope => op.onCtx = false
  | .orMissing (.getMut ty) _ => ∃ f, op = .getMut (types.resolve ty) f
  | .orMissing _ _ => False

/-- A function on which the macro has gone through, with what its body does and returns: given its `ι`, if the
    macro keeps a parameter, and the values in the order of the bindings. -/
structure BoundFn (V : Type) (special : SpecialTypePaths) (types : Types) (mode : ExpansionMode) (ι ο : Type) where
  inputs : List FnArg
  expansion : Expansion
  expands : expandFnParams special mode true inputs = .ok expansion
  body : ι → List (Bound V) → List (UserOp V) × Except ApigateError ο
  permitted : ∀ input values, ∀ op ∈ (body input values).1, ∃ stmt ∈ expansion.bindings, stmt.permits types op

/-! ## Calling a function -/

/-- What the statement changes in the scope, as an operation. -/
def LetStmt.taken (types : Types) (stmt : LetStmt) : List (UserOp V) :=
  match stmt.init with
  | .orMissing (.take ty) _ => [.take (types.resolve ty)]
  | .ctx | .scope | .orMissing _ _ => []

/-- The bindings one after the other: what they change, and the values or the error of the first that finds none. -/
def bindParams (types : Types) : List LetStmt → Env V → List (UserOp V) × Except ApigateError (List (Bound V))
  | [], _ => ([], .ok [])
  | stmt :: stmts, env =>
      match stmt.run types env with
      | .error err => (stmt.taken types, .error err)
      | .ok (value, env) =>
          let (ops, values) := bindParams types stmts env
          (stmt.taken types ++ ops, values.map (value :: ·))

namespace BoundFn
variable {special : SpecialTypePaths} {types : Types} {mode : ExpansionMode} {ι ο : Type}

/-- The generated function: the bindings, then the body. -/
def call (f : BoundFn V special types mode ι ο) (input : ι) (env : Env V) : List (UserOp V) × Except ApigateError ο :=
  match bindParams types f.expansion.bindings env with
  | (ops, .error err) => (ops, .error err)
  | (ops, .ok values) =>
      let (bodyOps, result) := f.body input values
      (ops ++ bodyOps, result)

/-- The function has a parameter that is bound to this. -/
def Binds (f : BoundFn V special types mode ι ο) (init : Init) : Prop :=
  ∃ stmt ∈ f.expansion.bindings, stmt.init = init

end BoundFn

/-! ## Hooks -/

/-- `#[apigate::hook]` -/
abbrev HookFn (V : Type) (special : SpecialTypePaths) (types : Types) := BoundFn V special types .hook Unit Unit

def HookFn.toHook {special : SpecialTypePaths} {types : Types} (f : HookFn V special types) : Hook V := f.call ()

/-! ## Maps -/

/-- What a map returns, by its type. -/
inductive MapOutput (V : Type) where
  /-- `()` -/
  | unit
  | value (value : V)

/-- What serializes the output of a map. -/
structure Serializers (V : Type) where
  /-- `serde_json::to_string` -/
  jsonToString : V → Except Str Str
  /-- `serde_urlencoded::to_string` -/
  formToString : V → Except Str Str
  /-- `Into<Body>` -/
  intoBody : V → Body

/-- `apigate_finish`, chosen by the type of the output and the format: nothing keeps the body in every format. -/
def apigateFinish (serializers : Serializers V) : (f : Format) → MapOutput V → Except ApigateError (Option f.Out)
  | _, .unit => .ok none
  | .json, .value value =>
      ((serializers.jsonToString value).map some).mapError fun err => .ofPipeline (.failedSerializeMappedJson err)
  | .form, .value value =>
      ((serializers.formToString value).map some).mapError fun err => .ofPipeline (.failedSerializeMappedForm err)
  | .raw, .value value => .ok (some (serializers.intoBody value))

/-- `BodyOutcome::from` -/
def BodyOutcome.ofOption {α : Type} : Option α → BodyOutcome α
  | some value => .replace value
  | none => .keep

/-- `#[apigate::map]`; the input is what the kept parameter gets. -/
abbrev MapFunction (V : Type) (special : SpecialTypePaths) (types : Types) :=
  BoundFn V special types .map (Bound V) (MapOutput V)

/-- The value that the route passes for the kept parameter. -/
def Format.input : (f : Format) → f.In V → Bound V
  | .json, value | .form, value => .owned value
  | .raw, bytes => .rawBody bytes

/-- The generated function: the bindings, the body, and its output finished into the format. -/
def MapFunction.toMap {special : SpecialTypePaths} {types : Types} (serializers : Serializers V)
    (m : MapFunction V special types) : MapFn V := fun f input env =>
  let (ops, result) := m.call (f.input input) env
  (ops, result.bind fun output => (apigateFinish serializers f output).map .ofOption)

end Apigate
