import Apigate.Pipeline
import Apigate.Lib.Borrow
import Apigate.Lib.Machine

/-!
# `Macros.Expand` — the parameters of a hook or map become bindings

`#[apigate::hook]` and `#[apigate::map]` give every function the same parameters. Those that its author wrote
are classified by their types, checked together, and bound in front of the body, from the request context and
the request scope.

What the macro sees is types as they are written, not what they refer to: a parameter is the request context if
its type is a path of one segment with the right name, or the full path, with the generic arguments left out of
it. The model of `syn` here has what the macro looks at, references, paths and the groups around them; all other
types are texts.

Each parameter has a source. Checking the parameters together is about borrows: what one binding holds of the
context or the scope while the next is made. The checks are written in the source as a walk with a little state,
and so they are here; what they amount to is in `Correctness.Signatures`.

The last part is the meaning of the bindings. A `let` statement of the expansion either names the context or the
scope, or calls one of four functions of the scope, and ends the call with an error where that has nothing.
-/

namespace Apigate
open Lib Text

/-! ## Signatures, as the parser delivers them -/

namespace Syn

inductive PathArguments where
  | none
  | angleBracketed (tokens : Str)
  | parenthesized (tokens : Str)
  deriving DecidableEq

def PathArguments.isParenthesized : PathArguments → Bool
  | parenthesized _ => true
  | none | angleBracketed _ => false

structure PathSegment where
  ident : Str
  arguments : PathArguments
  deriving DecidableEq

/-- A path; the parser accepts none without segments. -/
structure Path where
  leadingColon : Bool
  segments : List PathSegment
  nonempty : segments ≠ []
  deriving DecidableEq

/-- `#path::ident` -/
def Path.join (path : Path) (ident : Str) : Path where
  leadingColon := path.leadingColon
  segments := path.segments ++ [⟨ident, .none⟩]
  nonempty := List.concat_ne_nil _ _

def Path.lastIdent (path : Path) : Str := (path.segments.getLast path.nonempty).ident

/-- A type; only references and paths are looked into, and through the groups around them. -/
inductive Ty where
  | group (elem : Ty)
  | paren (elem : Ty)
  | reference (lifetime : Option Str) (mutability : Bool) (elem : Ty)
  | path (qself : Option Str) (path : Path)
  | other (tokens : Str)
  deriving DecidableEq

inductive FnArg where
  | receiver (tokens : Str)
  | typed (pat : Str) (ty : Ty)
  deriving DecidableEq

/-- What an error points at. -/
inductive Spanned where
  | ty (ty : Ty)
  | param (param : FnArg)
  | signature
  deriving DecidableEq

structure Error where
  span : Spanned
  message : Str
  deriving DecidableEq

end Syn

open Syn

/-! ## Parameter classification -/

inductive ParamSource where
  | partsCtx
  | requestScope
  | scopeRef (ty : Ty)
  | scopeMut (ty : Ty)
  | scopeTake
  | rawBody
  deriving DecidableEq

namespace ParamSource

/-- Whether binding this parameter reads the generated `ctx` argument. -/
def bindsCtx : ParamSource → Bool
  | partsCtx => true
  | requestScope | scopeRef _ | scopeMut _ | scopeTake | rawBody => false

/-- Whether binding this parameter reads the generated `scope` argument. -/
def bindsScope : ParamSource → Bool
  | partsCtx => false
  | requestScope | scopeRef _ | scopeMut _ | scopeTake | rawBody => true

/-- The parameter takes a value, not a reference. -/
def owned : ParamSource → Bool
  | scopeTake | rawBody => true
  | partsCtx | requestScope | scopeRef _ | scopeMut _ => false

end ParamSource

structure ParamPlan where
  pat : Str
  ty : Ty
  source : ParamSource
  deriving DecidableEq

/-- The parameter as it was written. -/
def ParamPlan.param (plan : ParamPlan) : FnArg := .typed plan.pat plan.ty

structure SpecialTypePaths where
  ctx : Path
  scope : Path
  rawBody : Path

inductive SpecialKind where
  | partsCtx
  | requestScope
  | rawBody
  deriving DecidableEq

def peelType : Ty → Ty
  | .group elem | .paren elem => peelType elem
  | ty => ty

def isBareSpecialPath (path : Path) (ident : Str) : Bool :=
  !path.leadingColon && match path.segments with
    | [segment] => segment.ident == ident && !segment.arguments.isParenthesized
    | _ => false

def pathEqIgnoringArgs (a b : Path) : Bool :=
  a.segments.length == b.segments.length && (a.segments.zip b.segments).all fun (lhs, rhs) =>
    lhs.ident == rhs.ident && !lhs.arguments.isParenthesized

/-- Whether `ty` refers to the type at the `expected` path, bare or in full. -/
def isSpecialType (ty : Ty) (expected : Path) : Bool :=
  match peelType ty with
  | .path none path => isBareSpecialPath path expected.lastIdent || pathEqIgnoringArgs path expected
  | _ => false

namespace SpecialTypePaths

def new (apigate : Path) : SpecialTypePaths :=
  ⟨apigate.join (str "PartsCtx"), apigate.join (str "RequestScope"), apigate.join (str "RawBody")⟩

def matchKind (special : SpecialTypePaths) (ty : Ty) : Option SpecialKind :=
  if isSpecialType ty special.ctx then some .partsCtx
  else if isSpecialType ty special.scope then some .requestScope
  else if isSpecialType ty special.rawBody then some .rawBody
  else none

end SpecialTypePaths

inductive ExpansionMode where
  /-- Expand an `#[apigate::hook]` function. -/
  | hook
  /-- Expand an `#[apigate::map]` function. -/
  | map
  deriving DecidableEq

namespace ExpansionMode

def macroName : ExpansionMode → Str
  | hook => str "hook"
  | map => str "map"

def keepsFirstOwnedParam : ExpansionMode → Bool
  | hook => false
  | map => true

end ExpansionMode

def partsCtxByMutRef : Str := str "`PartsCtx` parameter must be `&mut PartsCtx`"

def requestScopeByMutRef : Str := str "`RequestScope` parameter must be `&mut RequestScope`"

/-- A parameter of the type `originalTy`, which is a reference to `elem`. -/
def classifyRefParam (originalTy : Ty) (mutability : Bool) (elem : Ty) (special : SpecialTypePaths) :
    Except Error ParamSource :=
  let inner := peelType elem
  match special.matchKind inner with
  | some .partsCtx =>
      if mutability then .ok .partsCtx else .error ⟨.ty originalTy, partsCtxByMutRef⟩
  | some .requestScope =>
      if mutability then .ok .requestScope else .error ⟨.ty originalTy, requestScopeByMutRef⟩
  | some .rawBody =>
      .error ⟨.ty originalTy, str "`RawBody` parameter must be taken by value (`RawBody`), not by reference"⟩
  | none => if mutability then .ok (.scopeMut inner) else .ok (.scopeRef inner)

def classifyParam (ty : Ty) (special : SpecialTypePaths) : Except Error ParamSource :=
  let ty := peelType ty
  match ty with
  | .reference _ mutability elem => classifyRefParam ty mutability elem special
  | other =>
      match special.matchKind other with
      | some .partsCtx => .error ⟨.ty other, partsCtxByMutRef⟩
      | some .requestScope => .error ⟨.ty other, requestScopeByMutRef⟩
      | some .rawBody => .ok .rawBody
      | none => .ok .scopeTake

/-! ## Validation -/

/-- How often the bindings borrow what. -/
structure BorrowSummary where
  seenCtx : Nat
  seenScope : Nat
  immutBorrowedFromScope : Nat
  mutBorrowedFromScope : Nat
  deriving DecidableEq

namespace BorrowSummary

def default : BorrowSummary := ⟨0, 0, 0, 0⟩

def count (s : BorrowSummary) (plan : ParamPlan) : BorrowSummary :=
  match plan.source with
  | .partsCtx => { s with seenCtx := s.seenCtx + 1 }
  | .requestScope => { s with seenScope := s.seenScope + 1 }
  | .scopeRef _ => { s with immutBorrowedFromScope := s.immutBorrowedFromScope + 1 }
  | .scopeMut _ => { s with mutBorrowedFromScope := s.mutBorrowedFromScope + 1 }
  | .scopeTake | .rawBody => s

end BorrowSummary

def validatePlans (plans : List ParamPlan) (macroName : Str) : Except Error Unit :=
  let s := plans.foldl BorrowSummary.count .default
  let rejected (message : Str) : Except Error Unit := .error ⟨.signature, message⟩
  if s.seenCtx > 1 then
    rejected (str "only one `&mut PartsCtx` parameter is allowed in #[apigate::" ++ macroName ++ str "]")
  else if s.seenScope > 1 then
    rejected (str "only one `&mut RequestScope` parameter is allowed in #[apigate::" ++ macroName ++ str "]")
  else if s.mutBorrowedFromScope > 1 then
    rejected (str "#[apigate::" ++ macroName ++ str "] supports at most one extracted `&mut T` parameter")
  else if s.seenScope > 0 ∧ (s.immutBorrowedFromScope > 0 ∨ s.mutBorrowedFromScope > 0) then
    rejected (str "`&mut RequestScope` cannot be combined with borrowed `&T` or `&mut T` parameters in " ++
      str "#[apigate::" ++ macroName ++ str "]")
  else if s.mutBorrowedFromScope > 0 ∧ s.immutBorrowedFromScope > 0 then
    rejected (str "borrowed `&T` and extracted `&mut T` cannot be combined in #[apigate::" ++ macroName ++
      str "]")
  else .ok ()

/-! ## Plans -/

/-- The next parameter, after the `plans` and the `kept` parameter of those before it. -/
def planParam (special : SpecialTypePaths) (mode : ExpansionMode) :
    List ParamPlan × Option FnArg → FnArg → Except Error (List ParamPlan × Option FnArg)
  | _, .receiver tokens =>
      .error ⟨.param (.receiver tokens), str "attribute macro does not support `self`"⟩
  | (plans, kept), .typed pat ty =>
      match classifyParam ty special with
      | .error err => .error err
      | .ok source =>
          if source = .rawBody ∧ mode ≠ .map then
            .error ⟨.param (.typed pat ty), str "`RawBody` is only available in #[apigate::map]"⟩
          else if source.owned && mode.keepsFirstOwnedParam && kept.isNone then
            .ok (plans, some (.typed pat ty))
          else .ok (plans ++ [⟨pat, ty, source⟩], kept)

def buildParamPlans (special : SpecialTypePaths) (mode : ExpansionMode) (inputs : List FnArg) :
    Except Error (List ParamPlan × Option FnArg) :=
  inputs.foldlM (planParam special mode) ([], none)

/-! ## Bindings -/

/-- A method call on the generated `scope` argument. -/
inductive ScopeCall where
  | take (ty : Ty)
  | get (ty : Ty)
  | getMut (ty : Ty)
  | rawBodyCloned
  deriving DecidableEq

/-- What a parameter is bound to. -/
inductive Init where
  /-- `#ctx_ident` -/
  | ctx
  /-- `#scope_ident` -/
  | scope
  /-- `#scope_ident.call().ok_or_else(|| …)?`, where the error names the type `missing`. -/
  | orMissing (call : ScopeCall) (missing : Ty)
  deriving DecidableEq

/-- `let #pat: #ty = init;` -/
structure LetStmt where
  pat : Str
  ty : Ty
  init : Init
  deriving DecidableEq

/-- The parameter that the statement binds. -/
def LetStmt.param (stmt : LetStmt) : FnArg := .typed stmt.pat stmt.ty

/-- The statements emitted so far, in the groups that are joined at the end. -/
structure BindingTokens where
  raw : List LetStmt
  ctx : List LetStmt
  take : List LetStmt
  get : List LetStmt
  getMut : List LetStmt
  scope : List LetStmt

namespace BindingTokens

def empty : BindingTokens := ⟨[], [], [], [], [], []⟩

def push (tokens : BindingTokens) (plan : ParamPlan) : BindingTokens :=
  match plan.source with
  | .partsCtx => { tokens with ctx := tokens.ctx ++ [⟨plan.pat, plan.ty, .ctx⟩] }
  | .requestScope => { tokens with scope := tokens.scope ++ [⟨plan.pat, plan.ty, .scope⟩] }
  | .scopeTake =>
      { tokens with take := tokens.take ++ [⟨plan.pat, plan.ty, .orMissing (.take plan.ty) plan.ty⟩] }
  | .scopeRef inner =>
      { tokens with get := tokens.get ++ [⟨plan.pat, plan.ty, .orMissing (.get inner) inner⟩] }
  | .scopeMut inner =>
      { tokens with getMut := tokens.getMut ++ [⟨plan.pat, plan.ty, .orMissing (.getMut inner) inner⟩] }
  | .rawBody =>
      { tokens with raw := tokens.raw ++ [⟨plan.pat, plan.ty, .orMissing .rawBodyCloned plan.ty⟩] }

/-- The groups in the order they are emitted in. -/
def groups (tokens : BindingTokens) : List (List LetStmt) :=
  [tokens.raw, tokens.ctx, tokens.take, tokens.get, tokens.getMut, tokens.scope]

end BindingTokens

/-- The statements, group by group. Their tokens are parsed back into statements, which does not fail. -/
def buildBindings (plans : List ParamPlan) : List LetStmt :=
  (plans.foldl BindingTokens.push .empty).groups.flatten

/-! ## The expansion -/

/-- What the macro puts in place of the parameters: the kept one, the patterns of the generated `ctx` and
    `scope` parameters, and the statements in front of the body. What a map does to its body and its return type
    is left out. -/
structure Expansion where
  kept : Option FnArg
  ctxPat : Str
  scopePat : Str
  bindings : List LetStmt
  deriving DecidableEq

def ctxIdent : Str := str "__apigate_ctx"

def scopeIdent : Str := str "__apigate_scope"

/-- The rewritten signature: a generated parameter that no binding reads is named `_`. -/
def Expansion.new (plans : List ParamPlan) (kept : Option FnArg) : Expansion where
  kept := kept
  ctxPat := if plans.any fun plan => plan.source.bindsCtx then ctxIdent else str "_"
  scopePat := if plans.any fun plan => plan.source.bindsScope then scopeIdent else str "_"
  bindings := buildBindings plans

def expandFnParams (special : SpecialTypePaths) (mode : ExpansionMode) (asyncness : Bool)
    (inputs : List FnArg) : Except Error Expansion :=
  if !asyncness then
    .error ⟨.signature, str "#[apigate::" ++ mode.macroName ++ str "] requires an async function"⟩
  else do
    let (plans, kept) ← buildParamPlans special mode inputs
    if mode.keepsFirstOwnedParam && kept.isNone then
      .error ⟨.signature, str "#[apigate::map] requires owned input parameter"⟩
    else do
      validatePlans plans mode.macroName
      .ok (.new plans kept)

/-! ## What the bindings do -/

/-- What the compiler makes of a type. -/
structure Types where
  resolve : Ty → TypeId
  /-- `stringify!` -/
  stringify : Ty → Str

namespace Syn

def PathSegment.text (segment : PathSegment) : Str :=
  match segment.arguments with
  | .none => segment.ident
  | .angleBracketed tokens | .parenthesized tokens => segment.ident ++ tokens

def Path.text (path : Path) : Str :=
  (if path.leadingColon then str "::" else []) ++
    (str "::").intercalate (path.segments.map PathSegment.text)

/-- The tokens of a type, next to each other. -/
def Ty.text : Ty → Str
  | .group elem => elem.text
  | .paren elem => str "(" ++ elem.text ++ str ")"
  | .reference lifetime mutability elem =>
      str "&" ++ lifetime.getD [] ++ (if mutability then str "mut " else []) ++ elem.text
  | .path qself p => qself.getD [] ++ p.text
  | .other tokens => tokens

end Syn

/-- A stand-in that tells types apart by their tokens. -/
def Types.plain : Types where
  resolve ty := ty.text.foldl (fun n b => 256 * n + b.toNat) 0
  stringify ty := ty.text

variable {V : Type}

/-- What a parameter is bound to at run time. -/
inductive Bound (V : Type) where
  | ctx (ctx : PartsCtx V)
  | scope (scope : RequestScope V)
  | owned (value : V)
  | ref (value : V)
  | refMut (value : V)
  | rawBody (bytes : Str)

/-- The value of the call, and the scope after it. -/
def ScopeCall.run (types : Types) (scope : RequestScope V) : ScopeCall → Option (Bound V) × RequestScope V
  | take ty => let (value, scope) := scope.take (types.resolve ty); (value.map .owned, scope)
  | get ty => ((scope.get (types.resolve ty)).map .ref, scope)
  -- `get_mut` looks at the local extensions only
  | getMut ty => ((scope.local_.get? (types.resolve ty)).map .refMut, scope)
  | rawBodyCloned => (scope.rawBodyCloned.map .rawBody, scope)

def LetStmt.run (types : Types) (env : Env V) (stmt : LetStmt) : Except ApigateError (Bound V × Env V) :=
  match stmt.init with
  | .ctx => .ok (.ctx env.ctx, env)
  | .scope => .ok (.scope env.scope, env)
  | .orMissing call missing =>
      match call.run types env.scope with
      | (some value, scope) => .ok (value, { env with scope := scope })
      | (none, _) => .error (.ofPipeline (.missingFromScope (types.stringify missing)))

end Apigate
