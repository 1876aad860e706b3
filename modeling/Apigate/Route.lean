import Apigate.Backend

/-!
# `Apigate.Route` — route metadata and rewrite strategies
-/

namespace Apigate
open Lib

/-- A source segment of a rewrite template. -/
inductive SrcSeg where
  | lit (text : Str)
  | param
  deriving DecidableEq

/-- A piece of the destination of a rewrite template. -/
inductive DstChunk where
  | lit (text : Str)
  | capture (srcIndex : UInt8)
  deriving DecidableEq

structure RewriteTemplate where
  src : List SrcSeg
  dst : List DstChunk
  staticLen : Nat
  deriving DecidableEq

/-- Rewrite strategy generated by route macros. -/
inductive RewriteSpec where
  | stripPrefix
  | static (target : Str)
  | template (tpl : RewriteTemplate)
  deriving DecidableEq

structure FixedRewrite where
  raw : Str
  noQuery : PathAndQuery
  deriving DecidableEq

inductive Rewrite where
  | stripPrefix
  | static (fixed : FixedRewrite)
  | template (tpl : RewriteTemplate)
  deriving DecidableEq

/-- `FixedRewrite::new`, given `PathAndQuery::from_static`, which may panic. -/
def FixedRewrite.new (fromStatic : Str → Checked PathAndQuery) (raw : Str) : Checked FixedRewrite := do
  let noQuery ← fromStatic raw
  some ⟨raw, noQuery⟩

inductive Method where
  | get | post | put | delete | patch | head | options
  deriving DecidableEq

/-- Macro-generated route definition; `Pipeline` is what stands for a generated pipeline function. -/
structure RouteDef (Pipeline : Type) where
  method : Method
  path : Str
  rewrite : RewriteSpec
  policy : Option Str
  pipeline : Option Pipeline

/-- Macro-generated route collection for a service. -/
structure Routes (Pipeline : Type) where
  service : Str
  servicePrefix : Str
  policy : Option Str
  routes : List (RouteDef Pipeline)

/-- An `Arc<Policy>`: a reference to a policy shared by all who hold it. -/
abbrev PolicyRef := Nat

structure RouteMeta (Pipeline : Type) where
  service : Str
  routePath : Str
  servicePrefix : Str
  rewrite : Rewrite
  pool : BackendPool
  policy : PolicyRef
  pipeline : Option Pipeline

end Apigate
