import Apigate.Correctness.Framing

/-!
# `Correctness.InjectedHeaders` — headers set by hooks reach the upstream

A header that was set last has exactly that value when the pipeline returns (an invariant of "headers after
these operations"); what can still change it are the edits that go with a replaced body and the hop-by-hop
filter, whose names the client can extend through `Connection`.

The invariant is about the operations so far, seen from their end: if the last one that touches the header is
the set, the header has the value. One more operation is the set itself, or it leaves the header and the set was
last before it (`LastSet.append_one`), so the invariant is kept by operations, and the specification of
pipelines carries it past everything else that a pipeline does. There the edits of a replaced body are the only
other change of headers, and for a header that they do not name they are nothing (`replacedHeaders_getAll`). The
rest is the proxy: it filters, and inserts `Host`.
-/

namespace Apigate
open Lib Prog

variable {V ρ σ : Type}

/-! ## The last operation on a header

Whoever performed it, a hook or the map: the operations of a pipeline are one list. -/

/-- The last operation on `h` was `set_header(h, v)`. -/
def LastSet (h : HeaderName) (v : HeaderValue) (ops : List (UserOp V)) : Prop :=
  ∃ before after, ops = before ++ .setHeader (some h) (some v) :: after ∧ ∀ op ∈ after, op.Leaves h

/-- One more operation: it is the set itself, or it leaves the header. -/
theorem LastSet.append_one {h : HeaderName} {v : HeaderValue} {ops : List (UserOp V)} {op : UserOp V}
    (hlast : LastSet h v (ops ++ [op])) :
    op = .setHeader (some h) (some v) ∨ (LastSet h v ops ∧ op.Leaves h) := by
  obtain ⟨before, after, hops, hleaves⟩ := hlast
  -- nothing has happened since the set, or the new operation comes last of what has
  rcases List.eq_nil_or_concat after with rfl | ⟨after', last, rfl⟩
  · left
    have hlists := List.append_inj' hops rfl
    exact (List.cons.inj hlists.2).1
  · right
    rw [List.concat_eq_append] at hops hleaves
    have hsplit : ops ++ [op] = (before ++ .setHeader (some h) (some v) :: after') ++ [last] := by
      rw [hops]
      simp
    have hlists := List.append_inj' hsplit rfl
    obtain rfl : op = last := (List.cons.inj hlists.2).1
    refine ⟨⟨before, after', hlists.1, ?_⟩, ?_⟩
    · intro op' hop'
      exact hleaves op' (List.mem_append_left _ hop')
    · exact hleaves op (List.mem_append_right _ (List.mem_singleton.mpr rfl))

/-- **A header that was set last has that value**: every operation keeps this. -/
theorem lastSet_kept (crates : Crates V) (h : HeaderName) (v : HeaderValue) :
    KeptByOps crates fun headers ops => LastSet h v ops → headers.getAll h = [v] := by
  intro env ops op hkept hlast
  rcases hlast.append_one with rfl | ⟨hlast, hleaves⟩
  · exact MultiMap.getAll_insert_self _ _ _
  · rw [op.apply_getAll crates env hleaves]
    exact hkept hlast

/-- The edits that go with a replaced body touch `Content-Length` and the format's `Content-Type`. -/
theorem replacedHeaders_getAll (f : Format) (headers : HeaderMap) {h : HeaderName}
    (hlength : h ≠ .contentLength) (htype : f.contentType.isSome → h ≠ .contentType) :
    (f.replacedHeaders headers).getAll h = headers.getAll h := by
  unfold Format.replacedHeaders
  rw [MultiMap.getAll_remove_of_ne _ hlength]
  cases hct : f.contentType with
  | none => rfl
  | some contentType =>
      have hne : h ≠ .contentType := htype (by rw [hct]; rfl)
      exact MultiMap.getAll_insert_of_ne _ contentType hne

/-! ## The main result -/

section
variable [RouteStrategy ρ] [Balancer σ] [Xxh3]

open Dispatch

/-- **Injected headers reach the upstream**, on every route and for every request and header, but for those the
    gateway owns: `Host` and what the hop-by-hop filter removes, `Content-Length` and the format's
    `Content-Type` once the map has replaced the body. -/
theorem injected_header_reaches_upstream (crates : Crates V) (client : Client V) {inner : Inner V}
    {routeIdx : Nat} {routeMeta : RouteMeta (PipelineFn V)} {args : RouteArgs V} {kind : Method}
    (hmeta : inner.routeMetas[routeIdx]? = some routeMeta)
    (hpipe : routeMeta.pipeline = generatePipelineWrapper crates args kind.bodyInQuery) (req : Request V)
    (policies : Policies ρ σ) {h : HeaderName} {v : HeaderValue} (hhost : h ≠ .host)
    (hstripped : h ∉ strippedNames
      (pipelineOutcome inner routeMeta req.parts req.body).state.ctx.parts.headers)
    (hreplaced : ∀ f p, ⟨f, .replace p⟩ ∈
        outcomesOf (pipelineOutcome inner routeMeta req.parts req.body).trace →
      args.data.inQuery kind.bodyInQuery = false →
        h ≠ .contentLength ∧ (f.contentType.isSome → h ≠ .contentType))
    (hlast : LastSet h v (opsOf (pipelineOutcome inner routeMeta req.parts req.body).trace))
    {request : Request V}
    (hsent : .sent request ∈ (proxyHandler crates client inner routeIdx req policies).trace) :
    request.parts.headers.getAll h = [v] := by
  obtain ⟨body, backend, -, hok, hrequest⟩ := sent_by_handler hmeta hsent
  rw [upstreamRequest_getAll hrequest hhost, if_neg hstripped]
  cases hgen : generatePipelineWrapper crates args kind.bodyInQuery with
  | none =>
      -- without a pipeline no operation is performed
      have hnone : (pipelineOutcome inner routeMeta req.parts req.body).trace = [] := by
        unfold pipelineOutcome
        rw [hpipe, hgen]
      rw [hnone] at hlast
      obtain ⟨before, after, hops, -⟩ := hlast
      simp [opsOf] at hops
  | some pipeline =>
      have hspec := pipelineOutcome_spec (lastSet_kept crates h v) hgen (hpipe.trans hgen)
        (fun hempty => by
          obtain ⟨before, after, hops, -⟩ := hempty
          simp at hops) hok
      obtain ⟨headers, hset, hafter⟩ := hspec
      rcases hafter with ⟨hheaders, -, -⟩ | ⟨hquery, f, p, houtcomes, -, hheaders⟩
      · rw [hheaders]
        exact hset hlast
      · have hmem : (⟨f, .replace p⟩ : Σ f : Format, BodyOutcome f.Out) ∈
            outcomesOf (pipelineOutcome inner routeMeta req.parts req.body).trace := by
          rw [houtcomes]
          exact List.mem_singleton.mpr rfl
        obtain ⟨hlength, htype⟩ := hreplaced f p hmem hquery
        rw [hheaders, replacedHeaders_getAll f headers hlength htype]
        exact hset hlast

end

/-! ## Examples -/

def xUserId : HeaderName := ⟨str "x-user-id"⟩

def setUserId : Hook Str := fun _ => ([.setHeader (some xUserId) (some (str "42"))], .ok ())

/-- A hook that announces its own JSON type. -/
def setJsonType : Hook Str := fun _ =>
  ([.setHeader (some .contentType) (some (str "application/problem+json"))], .ok ())

/-- A service with one backend and one route. -/
def oneRoute (args : RouteArgs Str) : RouteMeta (PipelineFn Str) :=
  ⟨str "sales", str "/items", str "/sales", .stripPrefix,
    ⟨[⟨⟨str "http", str "up", str "http://up", str "up"⟩⟩]⟩, 0, generatePipelineWrapper .plain args false⟩

def oneInner (args : RouteArgs Str) : Inner Str :=
  ⟨.empty, 1024, 1000, [oneRoute args], defaultErrorRenderer, false⟩

def hookedRoute : RouteArgs Str := ⟨str "/items", none, none, [setUserId], none, none, .none, none⟩

def retypedRoute : RouteArgs Str :=
  ⟨str "/items", none, none, [setJsonType], some nullMap, none, .json 0, none⟩

/-- A request for the route, with the given headers. -/
def itemsPost (headers : HeaderMap) : Request Str :=
  ⟨⟨str "POST", ⟨none, none, some ⟨str "/sales/items", none⟩⟩, str "HTTP/1.1", headers, .empty⟩,
    .ofBytes (str "42")⟩

/-- The handler of the route, on fresh policies. -/
def oneRun (args : RouteArgs Str) (headers : HeaderMap) :
    Outcome (Policies NoRouteKey RoundRobin) Panic (DispatchEvent Str) Response :=
  @Dispatch.proxyHandler Str NoRouteKey RoundRobin _ _ .length .plain (fun _ => (.error (), 0))
    (oneInner args) 0 (itemsPost headers) fun _ => .new

/-- What the pipeline of the route does to the request. -/
def onePipeline (args : RouteArgs Str) (headers : HeaderMap) :
    Outcome (Env Str) ApigateError (PipelineEvent Str) Body :=
  Dispatch.pipelineOutcome (oneInner args) (oneRoute args) (itemsPost headers).parts
    (itemsPost headers).body

/-- What the upstream gets for a request to the route, given what is left of its headers. -/
def upstreamPost (headers : HeaderMap) (body : Str) : Request Str :=
  ⟨⟨str "POST", ⟨some (str "http"), some (str "up"), some ⟨str "/items", none⟩⟩, str "HTTP/1.1",
    headers.insert .host (str "up"), .empty⟩, .ofBytes body⟩

/-- The theorem at a request without headers. -/
theorem injected_header_reaches_upstream_user :
    (upstreamPost (MultiMap.empty.insert xUserId (str "42")) (str "42")).parts.headers.getAll xUserId =
      [str "42"] :=
  @injected_header_reaches_upstream Str NoRouteKey RoundRobin _ _ .length .plain
    (fun _ => (.error (), 0)) (oneInner hookedRoute) 0 (oneRoute hookedRoute) hookedRoute .post rfl rfl
    (itemsPost .empty) (fun _ => .new) xUserId (str "42") (by decide) (by decide)
    (fun _ _ hmem => absurd hmem (List.not_mem_nil))
    ⟨[], [], rfl, fun _ hop => absurd hop (List.not_mem_nil)⟩ _
    (List.mem_of_getElem? (i := 6) rfl)

/-- The headers the map and the generated code leave. -/
def jsonHeaders : HeaderMap :=
  (MultiMap.empty.insert ⟨str "x-mapped"⟩ (str "1")).insert .contentType (str "application/json")

/-- **Two headers that were set last and do not arrive**: one that the client lists in `Connection`, and the
    `Content-Type` of a body that the map has replaced. -/
theorem injected_header_lost :
    (LastSet xUserId (str "42")
        (opsOf (onePipeline hookedRoute (MultiMap.empty.insert .connection (str "x-user-id"))).trace) ∧
      xUserId ∉ .host :: .connection :: hopHeaders ∧
      .sent (upstreamPost .empty (str "42")) ∈
        (oneRun hookedRoute (MultiMap.empty.insert .connection (str "x-user-id"))).trace ∧
      (upstreamPost .empty (str "42")).parts.headers.getAll xUserId = []) ∧
    (LastSet .contentType (str "application/problem+json")
        (opsOf (onePipeline retypedRoute .empty).trace) ∧
      HeaderName.contentType ∉ .host :: .connection :: hopHeaders ∧
      .sent (upstreamPost jsonHeaders (str "null")) ∈ (oneRun retypedRoute .empty).trace ∧
      (upstreamPost jsonHeaders (str "null")).parts.headers.getAll .contentType =
        [str "application/json"]) := by
  refine ⟨⟨⟨[], [], rfl, ?_⟩, by decide, List.mem_of_getElem? (i := 6) rfl, by decide⟩,
    ⟨[], [.setHeader (some ⟨str "x-mapped"⟩) (some (str "1"))], rfl, ?_⟩, by decide,
    List.mem_of_getElem? (i := 10) rfl, by decide⟩
  · intro op hop
    cases hop
  · intro op hop
    obtain rfl := List.mem_singleton.mp hop
    show some (HeaderName.mk (str "x-mapped")) ≠ some .contentType
    decide

end Apigate
