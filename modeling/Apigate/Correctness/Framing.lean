import Apigate.Correctness.Handler
import Apigate.Correctness.HopByHop
import Apigate.Correctness.PipelineSpec

/-!
# `Correctness.Framing` — the forwarded body and its length

The specification of generated pipelines at the property "`Content-Length` is as the client sent it", carried on
to the upstream request: the proxy may remove the header, never change it.

A replaced body has another length, and the code deals with this by removing the header. So the argument has two
branches. With a replacement there is no `Content-Length` left, whatever hooks and map have done before
(`replacedHeaders_contentLength`). Without one the body is the incoming one, and the header is too, since no
operation of a user has touched it; this is the property that the specification is instantiated with
(`contentLength_kept`). In both branches what the proxy does afterwards is a filter and an insertion of `Host`.

The fields of the header are followed as a list, since a message may have several, and each has to be right.
-/

namespace Apigate
open Lib Prog

variable {V ρ σ : Type}

/-! ## Content-Length

Read as decimal digits; a field that is none is not correct. -/

/-- The specification of generated pipelines at the request a handler starts from. -/
theorem pipelineOutcome_spec {crates : Crates V} {J : HeaderMap → List (UserOp V) → Prop}
    (hJ : KeptByOps crates J) {args : RouteArgs V} {bodyInQuery : Bool} {pipeline : PipelineFn V}
    (hgen : generatePipelineWrapper crates args bodyInQuery = some pipeline) {inner : Inner V}
    {routeMeta : RouteMeta (PipelineFn V)} (hpipe : routeMeta.pipeline = some pipeline)
    {parts : Parts V} {incoming : Body} (hheaders : J parts.headers []) {body : Body}
    (hok : (Dispatch.pipelineOutcome inner routeMeta parts incoming).result = .ok body) :
    After crates J incoming (args.data.inQuery bodyInQuery) body
      (Dispatch.pipelineOutcome inner routeMeta parts incoming).state
      (Dispatch.pipelineOutcome inner routeMeta parts incoming).trace := by
  unfold Dispatch.pipelineOutcome at hok ⊢
  rw [hpipe] at hok ⊢
  exact generated_spec hJ hgen rfl hheaders hok

section
variable [RouteStrategy ρ] [Balancer σ] [Xxh3]

open Dispatch

end

/-! ## An example -/

theorem plain_readsFaithfully : Crates.plain.ReadsFaithfully := by
  intro body limit bytes h
  simp only [Crates.plain] at h
  split at h
  · cases h
  · rename_i hfailed
    split at h
    · cases h
      exact ⟨rfl, by simpa using hfailed⟩
    · cases h

/-- A map that marks the request and replaces a JSON or form body by the text `null`. -/
def nullMap : MapFn Str := fun f _ _ =>
  ([.setHeader (some ⟨str "x-mapped"⟩) (some (str "1"))], .ok (match f with
    | .json | .form => .replace (str "null")
    | .raw => .keep))

end Apigate
