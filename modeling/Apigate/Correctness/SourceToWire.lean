import Apigate.Correctness.Dispatchable
import Apigate.Correctness.Observer
import Apigate.Correctness.QueryKept
import Apigate.Correctness.ServiceModule

/-!
# `Correctness.SourceToWire` — from a route attribute to the request that goes upstream

A route attribute says which requests are meant for a function and, with `to`, what path they have upstream.
What the macros, the builder, the router and the proxy make of it is this: a request for the path of the
attribute, behind the prefix of its service, goes to a backend of the service, with the target that the
attribute names, its parameters replaced by the values of the request, and the query of the request.

Each of the phases has its theorem, and this module puts them in a row. `served_of_expansion` takes the
attribute through the macros and the builder: there is an entry of the router with its method and path, and
under the entry's index the metadata that the attribute asks for. `rewriteTarget_of_dispatched` is about the
rewrite in these metadata, in its three forms, and here the argument of `Dispatchable` comes in.
`sent_of_target` follows the handler from the end of the pipeline to the request that is sent.

What the attribute means is written down apart from all of them, in `UpstreamTarget`: a target as a list of
parts, and the values of the parameters as the router has them. Nothing in it is about ranges, offsets or
compiled templates. The conditions of `ReadAlike` are on the source text alone, so that they can be read off a
service; `DispatchedTo` is about one request.
-/

namespace Apigate
open Lib Text Segments Fold Syn Dispatch

variable {V ρ σ : Type}

/-! ## The meaning of an attribute

In terms of what a user writes and what the router reports, with the conditions under which the two fit
together. -/

/-- The target of a request whose path has the `rest` behind the service prefix, and in it the `values` of the
    route's parameters. -/
inductive UpstreamTarget (values : List (Str × Str)) (rest : Str) : Option Str → Str → Prop
  /-- Without `to`. -/
  | kept : UpstreamTarget values rest none rest
  | fixed {target : Str} (hplain : openBrace ∉ target) : UpstreamTarget values rest (some target) target
  | substituted {parts : List Part} {texts : List Str} (hwf : ∀ p ∈ parts, p.WellFormed)
      (htexts : parts.mapM (Part.value (values.lookup ·)) = some texts) :
      UpstreamTarget values rest (some (parts.flatMap Part.source)) texts.flatten

/-- The router and the compiled templates read the paths of the route alike. -/
structure ReadAlike (servicePrefix routePath : Str) : Prop where
  plain : endsWith servicePrefix slash = false
  literal : ∀ s ∈ servicePrefix.splitOn slash, isBraced s = false
  noEmpty : NoEmptySegment routePath

/-- The path is one that the router dispatches to the route, and no value spans several segments. -/
structure DispatchedTo (servicePrefix routePath path : Str) (values : List (Str × Str)) : Prop where
  matched : RouterMatches (join servicePrefix routePath) path values
  slashFree : SlashFree values
  text : Utf8 path

/-- Such a path has a value for each parameter of the compiled source. -/
theorem captured_of_dispatched {routePath c content : Str} {values : List (Str × Str)}
    (hempty : NoEmptySegment routePath) (hc : join [] routePath = slash :: c)
    (hmatch : SegsMatch (c.splitOn slash) (content.splitOn slash) values) (hfree : SlashFree values) :
    (∃ rs, matchRanges 1 (routeSrc routePath) (pieces slash content) = some rs) ∧
      ∀ name k, (routeParams routePath).findIdx? (· == name) = some k → ∃ v, values.lookup name = some v ∧
        (capturedSegs (routeSrc routePath) (pieces slash content))[k]? = some v := by
  have hsegs : nonEmptySegs slash routePath = pieces slash c := by
    rw [nonEmptySegs_join routePath hc]
    apply nonEmptySegs_eq_pieces
    simpa [NoEmptySegment, hc] using hempty
  obtain ⟨hranges, hcap, hnames⟩ := (hmatch.dropEmptyLast hfree).matchRanges hfree 1
  have hsrc : routeSrc routePath = (dropEmptyLast (c.splitOn slash)).map segSrc := by
    rw [routeSrc, hsegs, pieces]
  have hparams : routeParams routePath = values.map Prod.fst := by
    rw [routeParams, hsegs, pieces, hnames]
  rw [hsrc, pieces]
  refine ⟨hranges, ?_⟩
  intro name k hk
  rw [hparams] at hk
  rw [hcap]
  exact lookup_of_findIdx hk

section
variable {crates : Crates V} {routeMeta : RouteMeta (PipelineFn V)}

/-- A fixed target is kept as it was written. -/
theorem FixedRewrite.raw_of_new {fromStatic : Str → Checked PathAndQuery} {raw : Str} {fixed : FixedRewrite}
    (h : FixedRewrite.new fromStatic raw = some fixed) : fixed.raw = raw := by
  obtain ⟨noQuery, -, h⟩ := Option.bind_eq_some_iff.mp h
  cases h
  rfl

/-- **The rewrite of a route finds the target that its attribute names.** By cases on the rewrite: what is left
    behind the prefix, the fixed text, or the template with the values in place of its references. -/
theorem rewriteTarget_of_dispatched {path : Str} {values : List (Str × Str)} {target : Option Str}
    (halike : ReadAlike routeMeta.servicePrefix routeMeta.routePath)
    (hdispatched : DispatchedTo routeMeta.servicePrefix routeMeta.routePath path values) {spec : RewriteSpec}
    (hspec : buildRewriteSpec routeMeta.routePath target = some (.ok spec))
    (hrewrite : spec.toRewrite crates = some routeMeta.rewrite) :
    ∃ rest text, path = routeMeta.servicePrefix ++ rest ∧ UpstreamTarget values rest target text ∧
      rewriteTarget routeMeta path = some (some text) := by
  obtain ⟨c, hc, -⟩ := join_eq routeMeta.servicePrefix routeMeta.routePath
  obtain ⟨content, hpath, hmatch⟩ := hdispatched.matched.under_prefix hc halike.plain halike.literal
  have hstrip : stripPrefix path routeMeta.servicePrefix = slash :: content := by
    rw [hpath, stripPrefix, stripPrefix?_append]
    simp
  refine ⟨slash :: content, ?_⟩
  unfold rewriteTarget
  rw [hstrip]
  rcases buildRewriteSpec_ok hspec with ⟨rfl, rfl⟩ | ⟨dest, rfl, ⟨hplain, rfl⟩ | ⟨tpl, hcompile, rfl⟩⟩
  · have hkept : Rewrite.stripPrefix = routeMeta.rewrite := Option.some.inj hrewrite
    rw [← hkept]
    exact ⟨_, hpath, .kept, rfl⟩
  · obtain ⟨fixed, hfixed, hkept⟩ := Option.bind_eq_some_iff.mp hrewrite
    have hkept : Rewrite.static fixed = routeMeta.rewrite := Option.some.inj hkept
    rw [← hkept]
    refine ⟨dest, hpath, .fixed hplain, ?_⟩
    dsimp only
    rw [FixedRewrite.raw_of_new hfixed]
  · have hkept : Rewrite.template tpl = routeMeta.rewrite := Option.some.inj hrewrite
    have hutf : Utf8 (slash :: content) := by
      have htext := hdispatched.text
      rw [hpath] at htext
      exact utf8_append (s := [slash]) ⟨['/'], rfl⟩ (htext.of_append_ascii slash_ascii).2
    obtain ⟨⟨rs, hrs⟩, hvalues⟩ := captured_of_dispatched halike.noEmpty hc hmatch hdispatched.slashFree
    obtain ⟨parts, texts, hwf, rfl, htexts, -, hrender⟩ :=
      @renderTemplate_match _ _ content tpl none rs (values.lookup ·) hutf hcompile hrs hvalues
    rw [← hkept]
    refine ⟨texts.flatten, hpath, .substituted hwf htexts, ?_⟩
    dsimp only
    rw [hrender, querySuffix, List.append_nil]

/-! ## The request that goes upstream

A target and a query are parsed together, and the parser of URIs may refuse them. Then nothing is sent. -/

/-- The request that goes to a backend, when the pipeline has left this head and body. -/
def requestTo (backend : Backend) (pathAndQuery : PathAndQuery) (head : Parts V) (body : Body) : Request V :=
  ⟨{ head with
    uri := ⟨some backend.base.scheme, some backend.base.authority, some pathAndQuery⟩
    headers := (stripHopHeaders head.headers).insert .host backend.base.hostHeader }, body⟩

/-- What goes to a backend: the target with the query of the request, if that is a path and query. -/
def goesTo (crates : Crates V) (text : Str) (head : Parts V) (body : Body) (backend : Backend) :
    List (Request V) :=
  match crates.pathAndQuery (text ++ querySuffix head.uri.query) with
  | .ok pathAndQuery => [requestTo backend pathAndQuery head body]
  | .error _ => []

/-- What the rewrite makes of its target. A fixed target without a query has been parsed when the route was
    mounted, with the same result. -/
theorem rewritePathAndQuery_of_target {uri : Uri} {text : Str} {spec : RewriteSpec}
    (hrewrite : spec.toRewrite crates = some routeMeta.rewrite)
    (htarget : rewriteTarget routeMeta uri.path = some (some text)) :
    rewritePathAndQuery crates routeMeta uri =
      some (((crates.pathAndQuery (text ++ querySuffix uri.query)).mapError
        fun _ => .invalidUpstreamUri).map some) := by
  unfold rewriteTarget at htarget
  unfold rewritePathAndQuery
  cases hkind : routeMeta.rewrite with
  | static fixed =>
      rw [hkind] at htarget hrewrite
      obtain rfl : fixed.raw = text := Option.some.inj (Option.some.inj htarget)
      cases uri.query with
      | none =>
          -- parsed when the route was mounted
          show some (Except.ok (some fixed.noQuery)) = _
          rw [querySuffix, List.append_nil, toRewrite_static hrewrite]
          rfl
      | some q =>
          show some ((makePathAndQuery crates fixed.raw q).map some) = _
          rw [makePathAndQuery, List.append_assoc]
          rfl
  | stripPrefix =>
      rw [hkind] at htarget
      obtain rfl : stripPrefix uri.path routeMeta.servicePrefix = text :=
        Option.some.inj (Option.some.inj htarget)
      cases uri.query with
      | none =>
          rw [querySuffix, List.append_nil]
      | some q =>
          show some ((makePathAndQuery crates _ q).map some) = _
          rw [makePathAndQuery, List.append_assoc]
          rfl
  | template tpl =>
      rw [hkind] at htarget
      have htarget : renderTemplate tpl (stripPrefix uri.path routeMeta.servicePrefix) none = some (some text) :=
        htarget
      show (renderTemplate tpl (stripPrefix uri.path routeMeta.servicePrefix) uri.query).bind _ = _
      rw [renderTemplate_query, htarget]
      rfl

/-- So the request has this path and query, or there is none. -/
theorem upstreamRequest_of_target {head : Parts V} {text : Str} {spec : RewriteSpec}
    (hrewrite : spec.toRewrite crates = some routeMeta.rewrite)
    (htarget : rewriteTarget routeMeta head.uri.path = some (some text)) (backend : Backend) (body : Body) :
    upstreamRequest crates backend routeMeta head body =
      some (((crates.pathAndQuery (text ++ querySuffix head.uri.query)).mapError
        fun _ => .invalidUpstreamUri).map (requestTo backend · head body)) := by
  unfold upstreamRequest rewriteUri
  rw [rewritePathAndQuery_of_target hrewrite htarget]
  cases crates.pathAndQuery (text ++ querySuffix head.uri.query) with
  | error e => rfl
  | ok pathAndQuery => rfl

/-- And this is what is sent. -/
theorem sentUpstream_of_target {head : Parts V} {text : Str} {spec : RewriteSpec}
    (hrewrite : spec.toRewrite crates = some routeMeta.rewrite)
    (htarget : rewriteTarget routeMeta head.uri.path = some (some text)) (backend : Backend) (body : Body) :
    sentUpstream crates backend routeMeta head body = goesTo crates text head body backend := by
  unfold sentUpstream goesTo
  rw [upstreamRequest_of_target hrewrite htarget backend body]
  cases crates.pathAndQuery (text ++ querySuffix head.uri.query) with
  | error e => rfl
  | ok pathAndQuery => rfl

end

/-! ## The handler

The pipeline may change the head, and its path. Everything from here on is about the head that it leaves. -/

section
variable [RouteStrategy ρ] [Balancer σ] [Xxh3]

/-- What the handler of a request sends, if `text` is the target. -/
def sentFor (crates : Crates V) (text : Str) (head : Parts V) :
    Except ApigateError Body → Except ApigateCoreError (Nat × Backend) → List (Request V)
  | .ok body, .ok (_, backend) => goesTo crates text head body backend
  | _, _ => []

/-- **The handler sends what the target says**, where the pipeline succeeds and a backend is selected, and
    nothing otherwise. -/
theorem sent_of_target (crates : Crates V) (client : Client V) {inner : Inner V} {routeIdx : Nat}
    {routeMeta : RouteMeta (PipelineFn V)} (hmeta : inner.routeMetas[routeIdx]? = some routeMeta) (req : Request V)
    (policies : Policies ρ σ) {text : Str} {spec : RewriteSpec}
    (hrewrite : spec.toRewrite crates = some routeMeta.rewrite)
    (htarget : rewriteTarget routeMeta (pipelineOutcome inner routeMeta req.parts req.body).state.ctx.parts.uri.path =
      some (some text)) :
    let outcome := pipelineOutcome inner routeMeta req.parts req.body
    let head := outcome.state.ctx.parts
    (proxyHandler crates client inner routeIdx req policies).trace.filterMap DispatchEvent.sent? =
      sentFor crates text head outcome.result (selectedBackend routeMeta policies head) := by
  intro outcome head
  have htarget : rewriteTarget routeMeta head.uri.path = some (some text) := htarget
  rw [sent?_proxyHandler crates client hmeta req policies]
  show sentBy crates routeMeta head outcome.result (selectedBackend routeMeta policies head) = _
  cases outcome.result with
  | error err => rfl
  | ok body =>
      cases selectedBackend routeMeta policies head with
      | error coreError => rfl
      | ok selected => exact sentUpstream_of_target hrewrite htarget selected.2 body

/-- **From the source to the wire.** In every application that is built from calls which mount the expansion of
    a service module, each function of the module with a route attribute has a handler at the attribute's method
    and path, with the backends registered for the service. Where the router and the compiled templates read the
    paths of the route alike, the handler sends exactly this on every request whose head the pipeline leaves with
    a path that the router dispatches to the route, no value spanning several segments: nothing, if the pipeline
    fails or no backend is selected; and otherwise one request to the selected backend, with the target that the
    attribute names for the request and the query of the request, if these are a path and query. -/
theorem attribute_decides_upstream_request {crates : Crates V} {g : Grammar} {names : Names V} {args : List Token}
    {module : ItemMod} {expanded : ExpandedService V}
    (hexpand : Yields (expandService crates g names args module) expanded) {calls : List (BuilderCall V ρ σ)}
    (hmount : expanded.routes ∈ collections calls) {app : App V ρ σ}
    (hbuild : Yields ((AppBuilder.ofCalls calls).build crates) app) {items : List Item}
    (hitems : module.content = some items) {f : ItemFn} (hf : .fn f ∈ items) {kind : Method}
    {routeArgs : Attr.RouteArgs} {others : List Attribute} (hone : OneRoute g f.attrs kind routeArgs others) :
    ∃ (k : Nat) (m : RouteMeta (PipelineFn V)),
      app.router[k]? = some ⟨kind, join expanded.routes.servicePrefix routeArgs.path, k⟩ ∧
      app.inner.routeMetas[k]? = some m ∧
      (∃ urls, registeredUrls calls expanded.routes.service = some urls ∧ PoolOf crates urls m.pool) ∧
      (ReadAlike expanded.routes.servicePrefix routeArgs.path →
        ∀ (client : Client V) (req : Request V) (policies : Policies ρ σ) (values : List (Str × Str)),
          let outcome := pipelineOutcome app.inner m req.parts req.body
          let head := outcome.state.ctx.parts
          DispatchedTo expanded.routes.servicePrefix routeArgs.path head.uri.path values →
          ∃ rest text, head.uri.path = expanded.routes.servicePrefix ++ rest ∧
            UpstreamTarget values rest routeArgs.target text ∧
            (proxyHandler crates client app.inner k req policies).trace.filterMap DispatchEvent.sent? =
              sentFor crates text head outcome.result (selectedBackend m policies head)) := by
  obtain ⟨k, m, hrouter, hm, hasked⟩ := served_of_expansion hexpand hmount hbuild hitems hf hone
  obtain ⟨spec, hspec, hrewrite⟩ := hasked.rewrite
  refine ⟨k, m, hrouter, hm, hasked.pool, ?_⟩
  intro halike client req policies values outcome head hdispatched
  rw [← hasked.servicePrefix] at halike hdispatched ⊢
  rw [← hasked.routePath] at halike hdispatched hspec
  obtain ⟨rest, text, hpath, htext, htarget⟩ := rewriteTarget_of_dispatched halike hdispatched hspec hrewrite
  exact ⟨rest, text, hpath, htext, sent_of_target crates client hm req policies hrewrite htarget⟩

end

/-! ## A service with a rewritten path -/

/-- The router dispatches the request to the route, with the value `7`. -/
theorem itemRequest_dispatched :
    DispatchedTo (str "/api") itemArgs.path itemRequest.parts.uri.path [(str "id", str "7")] where
  matched := .lit (s := []) (by decide) (.lit (s := str "api") (by decide) (.lit (s := str "items") (by decide)
    (@SegsMatch.param (str "id") _ _ _ _ (by decide) .nil)))
  slashFree := by
    intro name v hv
    cases List.mem_singleton.mp hv
    decide
  text := utf8_str "/api/items/7"

/-- The theorem at the service that has this function, mounted with a backend. -/
theorem attribute_decides_upstream_request_item :
    ∃ (app : App Str NoRouteKey RoundRobin) (k : Nat) (m : RouteMeta (PipelineFn Str)) (rest text : Str),
      itemRequest.parts.uri.path = str "/api" ++ rest ∧
      UpstreamTarget [(str "id", str "7")] rest itemArgs.target text ∧
      let policies : Policies NoRouteKey RoundRobin := fun _ => .new
      let outcome := pipelineOutcome app.inner m itemRequest.parts itemRequest.body
      let head := outcome.state.ctx.parts
      (@proxyHandler Str NoRouteKey RoundRobin _ _ .length .plain soloClient app.inner k itemRequest
        policies).trace.filterMap DispatchEvent.sent? =
          sentFor .plain text head outcome.result
            (@selectedBackend Str NoRouteKey RoundRobin _ _ .length m policies head) := by
  let calls : List (BuilderCall Str NoRouteKey RoundRobin) := [.mountService itemRoutes [str "http://up"]]
  have hmount : itemRoutes ∈ collections calls := List.mem_singleton_self _
  have happ : ∃ app : App Str NoRouteKey RoundRobin, Yields ((AppBuilder.ofCalls calls).build .plain) app ∧
      ∀ (k : Nat) (m : RouteMeta (PipelineFn Str)), app.inner.routeMetas[k]? = some m →
        (pipelineOutcome app.inner m itemRequest.parts itemRequest.body).state.ctx.parts = itemRequest.parts := by
    refine ⟨_, rfl, ?_⟩
    intro k m hm
    obtain rfl := List.mem_singleton.mp (List.mem_of_getElem? hm)
    rfl
  obtain ⟨app, hbuild, hparts⟩ := happ
  obtain ⟨k, m, -, hm, -, hsent⟩ := @attribute_decides_upstream_request Str NoRouteKey RoundRobin _ _ .length .plain
    _ _ _ _ _ expandService_item calls hmount app hbuild _ rfl _ (List.mem_singleton_self _) _ _ _ oneRoute_itemFn
  have halike : ReadAlike (str "/api") itemArgs.path := ⟨rfl, by decide, by decide⟩
  have hparts := hparts k m hm
  have hdispatched : DispatchedTo (str "/api") itemArgs.path
      (pipelineOutcome app.inner m itemRequest.parts itemRequest.body).state.ctx.parts.uri.path
      [(str "id", str "7")] := by
    rw [hparts]
    exact itemRequest_dispatched
  obtain ⟨rest, text, hpath, htext, htrace⟩ := hsent halike soloClient itemRequest (fun _ => .new) _ hdispatched
  rw [hparts] at hpath
  exact ⟨app, k, m, rest, text, hpath, htext, htrace⟩

end Apigate
