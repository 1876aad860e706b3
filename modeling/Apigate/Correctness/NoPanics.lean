import Apigate.Correctness.Observer
import Apigate.Correctness.ServiceModule
import Apigate.Correctness.Template

/-!
# `Correctness.NoPanics` — the handlers of service modules answer every request

The handler of a request slices texts and looks up captures, and would panic on a template that does not fit.
The templates of service modules fit, so their handlers answer, and a balancer that was told of a start is told
of the result.

There is one place in a handler where it can panic once the route exists, the rewriting of the path
(`upstreamRequest`), and it stands between `on_start` and `on_result`. So the two halves of the result have one
cause. For a prefix there is nothing to slice wrongly. For a template, rendering cannot fail on text: the path
is captured in slices at character borders, and every capture that the template refers to is one of its source
pattern (`Correctness.Template`). A compiled template is one of that kind, and the templates of an application
come from the macro by way of the builder, which keeps them as they are (`rewriteFits_of_build`).

That the path is text after the pipeline is assumed. A hook may leave any URI there, and in the model a URI is
bytes.
-/

namespace Apigate
open Lib Text Segments Fold Prog Syn Dispatch

variable {V ρ σ : Type}

/-! ## Rewriting

The path in front, the template, the request: each is some result and not a panic. -/

/-- What is left of a path without its prefix is text. -/
theorem utf8_stripPrefix {path : Str} (hpath : Utf8 path) (servicePrefix : Str) :
    Utf8 (stripPrefix path servicePrefix) := by
  unfold stripPrefix
  split
  · exact hpath
  · exact utf8_str "/"
  · next b rest hstrip =>
      split_ifs with hslash
      · subst hslash
        obtain rfl := stripPrefix?_eq_some.mp hstrip
        exact utf8_append (utf8_str "/") (Utf8.of_append_ascii slash_ascii hpath).2
      · exact utf8_str "/"

/-- A compiled template is rendered, or the path does not match it. By cases on whether the path begins with a
    slash; if it does, capturing and rendering are those of `Correctness.Template`. -/
theorem renderTemplate_isSome {routePath target path : Str} {tpl : RewriteTemplate}
    (h : compileRewriteTemplate routePath target = some (.ok tpl)) (hpath : Utf8 path) (query : Option Str) :
    ∃ rendered, renderTemplate tpl path query = some rendered := by
  by_cases hslash : ∃ content, path = slash :: content
  · obtain ⟨content, rfl⟩ := hslash
    cases hm : matchRanges 1 (routeSrc routePath) (pieces slash content) with
    | none => exact ⟨none, renderTemplate_no_match hpath h hm⟩
    | some rs =>
        have hf : ∀ name k, (routeParams routePath).findIdx? (· == name) = some k →
            ∃ v, paramValue routePath (slash :: content) name = some v ∧
              (capturedSegs (routeSrc routePath) (pieces slash content))[k]? = some v := by
          intro name k hk
          obtain ⟨v, hv, -, hcap⟩ := paramValue_of_match hk hm
          exact ⟨v, hv, hcap⟩
        obtain ⟨_, _, -, -, -, -, hrender⟩ :=
          @renderTemplate_match routePath target content tpl query rs _ hpath h hm hf
        exact ⟨_, hrender⟩
  · refine ⟨none, ?_⟩
    unfold renderTemplate
    rw [captureRaw_no_slash (fun content h => hslash ⟨content, h⟩)]
    rfl

/-- The template of a route, if it has one, is a compiled one. -/
def RewriteFits (routeMeta : RouteMeta (PipelineFn V)) : Prop :=
  ∀ tpl, routeMeta.rewrite = .template tpl →
    ∃ routePath target, compileRewriteTemplate routePath target = some (.ok tpl)

/-- So the request for the upstream is some request or an error. By cases on the rewrite of the route. -/
theorem upstreamRequest_isSome {crates : Crates V} {routeMeta : RouteMeta (PipelineFn V)}
    (hfits : RewriteFits routeMeta)
    {parts : Parts V} (hpath : Utf8 parts.uri.path) (backend : Backend) (body : Body) :
    upstreamRequest crates backend routeMeta parts body ≠ none := by
  obtain ⟨r, hrewrite⟩ : ∃ r, rewritePathAndQuery crates routeMeta parts.uri = some r := by
    unfold rewritePathAndQuery
    cases hrw : routeMeta.rewrite with
    | static fixed => cases parts.uri.query <;> exact ⟨_, rfl⟩
    | stripPrefix => cases parts.uri.query <;> exact ⟨_, rfl⟩
    | template tpl =>
        obtain ⟨routePath, target, hcompile⟩ := hfits tpl hrw
        obtain ⟨rendered, hrender⟩ :=
          renderTemplate_isSome hcompile (utf8_stripPrefix hpath routeMeta.servicePrefix) parts.uri.query
        simp only [hrender, Option.bind_eq_bind, Option.bind_some]
        cases rendered <;> exact ⟨_, rfl⟩
  obtain ⟨r', huri⟩ : ∃ r', rewriteUri crates backend.base routeMeta parts.uri = some r' := by
    unfold rewriteUri
    rw [hrewrite]
    cases r with
    | error e => exact ⟨_, rfl⟩
    | ok newPq =>
        simp only [Option.bind_eq_bind, Option.bind_some]
        split <;> exact ⟨_, rfl⟩
  unfold upstreamRequest
  rw [huri]
  cases r' <;> exact Option.some_ne_none _

/-! ## The handler

By cases on the pipeline and on the pick. Where the handler fails before the exchange, it answers with an error
and has told the balancer nothing. -/

section
variable [RouteStrategy ρ] [Balancer σ] [Xxh3]

/-- What a balancer was told of one request: nothing, or the start and the result of one exchange. -/
def ToldInFull (routeMeta : RouteMeta (PipelineFn V)) (told : List BalancerEvent) : Prop :=
  told = [] ∨ ∃ i result elapsed, told = toldOf routeMeta i result elapsed

/-- A handler whose template fits answers. By cases on the result of the pipeline, and after a success on
    whether a backend is selected; the exchange with a backend ends with a result because its request is not a
    panic. -/
theorem proxyHandler_answers (crates : Crates V) (client : Client V) {inner : Inner V} {routeIdx : Nat}
    {routeMeta : RouteMeta (PipelineFn V)} (hmeta : inner.routeMetas[routeIdx]? = some routeMeta)
    (hfits : RewriteFits routeMeta) (req : Request V)
    (hpath : Utf8 (pipelineOutcome inner routeMeta req.parts req.body).state.ctx.parts.uri.path)
    (policies : Policies ρ σ) :
    ∃ response, (proxyHandler crates client inner routeIdx req policies).result = .ok response ∧
      ToldInFull routeMeta
        ((proxyHandler crates client inner routeIdx req policies).trace.filterMap DispatchEvent.told?) := by
  have hpipeline := told?_shownByPipeline inner routeMeta req
  cases hresult : (pipelineOutcome inner routeMeta req.parts req.body).result with
  | error err =>
      rw [proxyHandler_of_error crates client hmeta hresult]
      refine ⟨_, rfl, .inl ?_⟩
      rw [List.filterMap_append, hpipeline, told?_observed]
      rfl
  | ok body =>
      rw [proxyHandler_of_ok crates client hmeta hresult]
      cases hbackend : routeMeta.backendAt (selection routeMeta
          (pipelineOutcome inner routeMeta req.parts req.body).state.ctx.parts (policies routeMeta.policy)).1.2 with
      | error coreError =>
          rw [forward_of_error crates client inner body hbackend]
          refine ⟨_, rfl, .inl ?_⟩
          simp only [List.filterMap_append, hpipeline, told?_observed]
          rfl
      | ok selected =>
          obtain ⟨i, backend⟩ := selected
          rw [forward_of_ok crates client inner body hbackend]
          have hsome : exchange crates client backend routeMeta
              (pipelineOutcome inner routeMeta req.parts req.body).state.ctx.parts body ≠ none :=
            mt exchange_eq_none.mp (upstreamRequest_isSome hfits hpath backend body)
          obtain ⟨⟨sent, result, latency⟩, hexchange⟩ := Option.ne_none_iff_exists'.mp hsome
          rw [proxyToBackend_of_exchange crates client inner i hexchange]
          refine ⟨_, rfl, .inr ⟨i, (inTime inner.requestTimeout result latency).1,
            (inTime inner.requestTimeout result latency).2, ?_⟩⟩
          have hsent : (sent.map DispatchEvent.sent).filterMap DispatchEvent.told? = [] := by
            rw [List.filterMap_map]
            exact List.filterMap_eq_nil_iff.mpr fun _ _ => rfl
          simp only [List.filterMap_append, hpipeline, hsent, told?_observed]
          rfl

end

/-! ## Applications of service modules

From the handlers of an application to the functions of its modules: the metadata of an entry are those of a
definition, the definition is one of an expanded module, and what the macro puts there it has compiled. -/

section
variable {crates : Crates V} {calls : List (BuilderCall V ρ σ)} {app : App V ρ σ}

/-- Every collection that is mounted is the expansion of a service module. -/
def FromModules (crates : Crates V) (calls : List (BuilderCall V ρ σ)) : Prop :=
  ∀ routes ∈ collections calls, ∃ (g : Grammar) (names : Names V) (args : List Token) (module : ItemMod)
    (expanded : ExpandedService V), Yields (expandService crates g names args module) expanded ∧
    expanded.routes = routes

/-- A definition of a module has no template, or a compiled one: the macro fails on a target that does not
    compile. -/
theorem rewrite_of_module (hmodules : FromModules crates calls) {d : Definition V} (hd : d ∈ definitions calls)
    {tpl : RewriteTemplate} (htpl : d.2.rewrite = .template tpl) :
    ∃ routePath target, compileRewriteTemplate routePath target = some (.ok tpl) := by
  obtain ⟨routes, hroutes, hrd⟩ := List.mem_flatMap.mp hd
  obtain ⟨rd, hdef, rfl⟩ := List.mem_map.mp hrd
  obtain ⟨g, names, args, module, expanded, hexpand, rfl⟩ := hmodules routes hroutes
  obtain ⟨service, items, items', extracted, -, -, hitems, rfl⟩ := expandService_ok_iff.mp hexpand
  obtain ⟨e, he, rfl⟩ := List.mem_map.mp hdef
  obtain ⟨f, kind, args, others, -, -, hroute⟩ := hitems.function he
  obtain ⟨-, -, -, hrewrite, -⟩ := expandRoute_ok hroute
  dsimp only at htpl
  rw [htpl] at hrewrite
  rcases buildRewriteSpec_ok hrewrite with ⟨-, h⟩ | ⟨dest, -, ⟨-, h⟩ | ⟨tpl', hcompile, h⟩⟩
  · cases h
  · cases h
  · cases h
    exact ⟨_, dest, hcompile⟩

/-- The builder keeps templates, so those of an application fit. -/
theorem rewriteFits_of_build (hmodules : FromModules crates calls)
    (hbuild : Yields ((AppBuilder.ofCalls calls).build crates) app) {k : Nat} {m : RouteMeta (PipelineFn V)}
    (hm : app.inner.routeMetas[k]? = some m) : RewriteFits m := by
  obtain ⟨-, mounted, -, -, hinstalls, -, -, hmetas, -⟩ := build_ok hbuild
  rw [hmetas] at hm
  obtain ⟨hk, rfl⟩ := List.getElem?_eq_some_iff.mp hm
  have hd : k < (definitions calls).length := hinstalls.metas.length_eq ▸ hk
  have hdescribes := (List.forall₂_iff_get.mp hinstalls.metas).2 k hd hk
  rw [List.get_eq_getElem, List.get_eq_getElem] at hdescribes
  intro tpl htpl
  have hrewrite := hdescribes.rewrite
  rw [htpl] at hrewrite
  refine rewrite_of_module hmodules (List.getElem_mem hd) ?_
  cases hspec : ((definitions calls)[k]).2.rewrite with
  | template tpl' =>
      rw [hspec] at hrewrite
      cases hrewrite
      rfl
  | stripPrefix =>
      rw [hspec] at hrewrite
      cases hrewrite
  | static target =>
      rw [hspec] at hrewrite
      simp only [RewriteSpec.toRewrite] at hrewrite
      cases hfixed : FixedRewrite.new crates.pathAndQueryFromStatic target <;>
        rw [hfixed] at hrewrite <;> cases hrewrite

variable [RouteStrategy ρ] [Balancer σ] [Xxh3]

/-- **Handlers of service modules do not panic.** In every application that is built from expansions of service
    modules, the handler of each entry of the router answers every request, whatever its hooks and maps, its
    policy and the upstream do, as long as these leave a path that is text. And a balancer that is told of the
    start of an exchange is told of its result. -/
theorem handlers_do_not_panic (hmodules : FromModules crates calls)
    (hbuild : Yields ((AppBuilder.ofCalls calls).build crates) app) {entry : RouteEntry} (hentry : entry ∈ app.router)
    (client : Client V) (req : Request V)
    (hpath : ∀ m, app.inner.routeMetas[entry.routeIdx]? = some m →
      Utf8 (pipelineOutcome app.inner m req.parts req.body).state.ctx.parts.uri.path) (policies : Policies ρ σ) :
    let outcome := proxyHandler crates client app.inner entry.routeIdx req policies
    ∃ response m, outcome.result = .ok response ∧ app.inner.routeMetas[entry.routeIdx]? = some m ∧
      ToldInFull m (outcome.trace.filterMap DispatchEvent.told?) := by
  intro outcome
  have hidx := (compiledFrom_of_build hbuild).inBounds entry hentry
  have hm := List.getElem?_eq_getElem hidx
  obtain ⟨response, hresult, htold⟩ := proxyHandler_answers crates client hm (rewriteFits_of_build hmodules hbuild hm)
    req (hpath _ hm) policies
  exact ⟨response, _, hresult, hm, htold⟩

end

/-- The theorem at a module with one function, whose requests are rewritten by a template. -/
theorem handlers_do_not_panic_item :
    ∃ (app : App Str NoRouteKey RoundRobin) (response : Response) (m : RouteMeta (PipelineFn Str))
      (tpl : RewriteTemplate),
      let outcome := @proxyHandler Str NoRouteKey RoundRobin _ _ .length .plain soloClient app.inner 0 itemRequest
        fun _ => .new
      outcome.result = .ok response ∧ app.inner.routeMetas[0]? = some m ∧ m.rewrite = .template tpl ∧
        ToldInFull m (outcome.trace.filterMap DispatchEvent.told?) := by
  let calls : List (BuilderCall Str NoRouteKey RoundRobin) := [.mountService itemRoutes [str "http://up"]]
  have hmodules : FromModules .plain calls := by
    intro routes hroutes
    obtain rfl := List.mem_singleton.mp hroutes
    exact ⟨_, _, _, _, _, expandService_item, rfl⟩
  have happ : ∃ app, Yields ((AppBuilder.ofCalls calls).build .plain) app ∧
      (⟨.get, str "/api/items/\x7bid\x7d", 0⟩ : RouteEntry) ∈ app.router ∧
      (∀ m, app.inner.routeMetas[0]? = some m → ∃ tpl, m.rewrite = .template tpl) ∧
      ∀ m, app.inner.routeMetas[0]? = some m →
        Utf8 (pipelineOutcome app.inner m itemRequest.parts itemRequest.body).state.ctx.parts.uri.path := by
    refine ⟨_, rfl, List.mem_singleton_self _, ?_, ?_⟩
    · intro m hm
      cases hm
      exact ⟨_, rfl⟩
    · intro m hm
      cases hm
      exact utf8_str "/api/items/7"
  obtain ⟨app, hbuild, hentry, htemplate, hpath⟩ := happ
  obtain ⟨response, m, hresult, hm, htold⟩ := @handlers_do_not_panic Str NoRouteKey RoundRobin .plain calls app _ _
    .length hmodules hbuild _ hentry soloClient itemRequest hpath fun _ => .new
  obtain ⟨tpl, htpl⟩ := htemplate m hm
  exact ⟨app, response, m, tpl, hresult, hm, htpl, htold⟩

end Apigate
