import Apigate.Macros.Attributes
import Apigate.Macros.Codegen

/-!
# `Macros.Service` — a service module becomes a route collection

`#[apigate::service]` looks for the functions of its module that carry a route attribute, takes the attribute
away, and generates a route definition and maybe a pipeline for each. The module then has a function `routes()`.
-/

namespace Apigate
open Lib Syn

variable {V : Type}

/-! ## Modules, as the parser delivers them -/

namespace Syn

/-- What an attribute has behind its path. -/
inductive AttrMeta where
  | path
  | list (tokens : List Token)
  | nameValue (tokens : List Token)

structure Attribute where
  path : Path
  args : AttrMeta

/-- `attr.parse_args()` -/
def Attribute.parseArgs {α : Type} (attr : Attribute) (p : Parse α) : Except MacroError α :=
  match attr.args with
  | .list tokens => parseAll p tokens
  | .path | .nameValue _ => .error (.expected (str "attribute arguments in parentheses"))

/-- A function; the macro looks at its name and its attributes. -/
structure ItemFn where
  ident : Str
  attrs : List Attribute

inductive Item where
  | fn (f : ItemFn)
  | other (tokens : List Token)

/-- A module; it has no content if it is only declared. -/
structure ItemMod where
  ident : Str
  content : Option (List Item)

/-- `#[allow(dead_code)]` -/
def Attribute.allowDeadCode : Attribute :=
  ⟨.relative ⟨str "allow", .none⟩ [], .list [.ident (str "dead_code")]⟩

end Syn

/-- What the names in a module stand for. -/
structure Names (V : Type) where
  ty : Ty → TypeId
  hook : Path → Hook V
  map : Path → MapFn V

namespace Attr

def DataKind.resolve (names : Names V) : DataKind → Apigate.DataKind
  | none => .none
  | json ty => .json (names.ty ty)
  | form ty => .form (names.ty ty)
  | multipart => .multipart

/-- The arguments, with the functions and types that they name. -/
def RouteArgs.resolve (names : Names V) (args : RouteArgs) : Apigate.RouteArgs V where
  path := args.path
  target := args.target
  policy := args.policy
  before := args.before.map names.hook
  map := args.map.map names.map
  queryType := args.queryType.map names.ty
  data := args.data.resolve names
  pathType := args.pathType.map names.ty

end Attr

/-! ## One function -/

/-- Tries to recognize a route attribute. -/
def Method.fromAttr (attr : Attribute) : Option Method :=
  let last := attr.path.lastIdent
  if last = str "get" then some .get
  else if last = str "post" then some .post
  else if last = str "put" then some .put
  else if last = str "delete" then some .delete
  else if last = str "patch" then some .patch
  else if last = str "head" then some .head
  else if last = str "options" then some .options
  else none

structure MatchedRouteAttr where
  idx : Nat
  kind : Method
  args : Attr.RouteArgs

def multipleRouteAttrs : Str := str "multiple apigate route attributes on one function are not supported"

/-- The next attribute, which is read before it is looked whether it is the second. -/
def matchRouteAttr (g : Grammar) (found : Option MatchedRouteAttr) (entry : Attribute × Nat) :
    Except MacroError (Option MatchedRouteAttr) :=
  match Method.fromAttr entry.1 with
  | none => .ok found
  | some kind => do
      let args ← entry.1.parseArgs (Attr.RouteArgs.parse g)
      if found.isSome then .error (.new .attribute multipleRouteAttrs) else return some ⟨entry.2, kind, args⟩

/-- Scans the attributes of a function for a single route attribute. -/
def findRouteAttr (g : Grammar) (f : ItemFn) : Except MacroError (Option MatchedRouteAttr) :=
  f.attrs.zipIdx.foldlM (matchRouteAttr g) none

/-- The compile error of a rewrite target. -/
def RewriteTemplateError.message : RewriteTemplateError → Str
  | emptyRouteParameter => str "empty parameter `\x7b\x7d` in route path"
  | duplicateRouteParameter name => str "duplicate parameter `" ++ name ++ str "` in route path"
  | unclosedToParameter => str "unclosed `\x7b` in `to`"
  | emptyToParameter => str "empty parameter `\x7b\x7d` in `to`"
  | unknownToParameter name => str "parameter `" ++ name ++ str "` in `to` not found in route path"
  | unmatchedToCloseBrace => str "unmatched `\x7d` in `to`"
  | tooManyRouteParameters max => str s!"too many path parameters in route path (max {max})"
  | captureIndexOverflow => str "rewrite capture index overflow"

/-- The generated route definition, and the generated functions by their names. -/
structure ExtractedRoute (V : Type) where
  routeDef : RouteDef (PipelineFn V)
  generatedItems : List (Str × PipelineFn V)

/-- Expansion may panic, fail, or go on. -/
abbrev Expanding (α : Type) := ExceptT MacroError Option α

/-- Expands a single function of a service module: its route, if it has one, and the function after that. -/
def expandRouteFromFn (crates : Crates V) (g : Grammar) (names : Names V) (f : ItemFn) :
    Expanding (Option (ExtractedRoute V) × ItemFn) := do
  match findRouteAttr g f with
  | .error e => throw e
  | .ok none => return (none, f)
  | .ok (some matched) =>
      let f := { f with attrs := f.attrs.eraseIdx matched.idx ++ [.allowDeadCode] }
      let args := matched.args.resolve names
      match (← orPanicExpanding (expandRoute crates matched.kind args)) with
      | .error e => throw (.new (.litStr (args.target.getD [])) e.message)
      | .ok routeDef =>
          let generated := routeDef.pipeline.toList.map (str "__apigate_pipeline_" ++ f.ident, ·)
          return (some ⟨routeDef, generated⟩, f)
where
  /-- A panic, unless there is a value. -/
  orPanicExpanding {α : Type} (x : Checked α) : Expanding α := (x.map .ok : Option (Except MacroError α))

/-! ## The module -/

/-- An expanded service module: its items, the generated functions, and what `routes()` returns. -/
structure ExpandedService (V : Type) where
  items : List Item
  generatedItems : List (Str × PipelineFn V)
  routes : Routes (PipelineFn V)

/-- The items so far, the route definitions, and the generated functions. -/
structure Extracted (V : Type) where
  items : List Item
  routeDefs : List (RouteDef (PipelineFn V))
  generatedItems : List (Str × PipelineFn V)

def extractItem (crates : Crates V) (g : Grammar) (names : Names V) (st : Extracted V) (item : Item) :
    Expanding (Extracted V) := do
  match item with
  | .other tokens => return { st with items := st.items ++ [.other tokens] }
  | .fn f =>
      let (extracted, f) ← expandRouteFromFn crates g names f
      match extracted with
      | none => return { st with items := st.items ++ [.fn f] }
      | some extracted =>
          return ⟨st.items ++ [.fn f], st.routeDefs ++ [extracted.routeDef],
            st.generatedItems ++ extracted.generatedItems⟩

/-- Expands `#[apigate::service(name = "...", prefix = "...")]` on a module. -/
def expandService (crates : Crates V) (g : Grammar) (names : Names V) (args : List Token) (module : ItemMod) :
    Expanding (ExpandedService V) := do
  match Attr.ServiceArgs.parse args with
  | .error e => throw e
  | .ok args =>
      match module.content with
      | none =>
          throw (.new .module (str "#[apigate::service] requires an inline module body: `mod x \x7b ... \x7d`"))
      | some items =>
          let st ← items.foldlM (extractItem crates g names) ⟨[], [], []⟩
          return ⟨st.items, st.generatedItems,
            ⟨args.name.getD module.ident, args.servicePrefix.getD [], args.policy, st.routeDefs⟩⟩

end Apigate
