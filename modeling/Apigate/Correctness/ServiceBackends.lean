import Apigate.Correctness.ClientHop
import Apigate.Correctness.Configuration
import Apigate.Correctness.Handler

/-!
# `Correctness.ServiceBackends` — where the requests of a mounted collection go

Backends are kept by service name. A route of a collection that `mount_service` mounts sends its requests to one
of the URLs registered last for the collection's service name: those of the call itself, unless a later call
registers backends for the same name (`mount_service_goes_to_registered`).

`Configuration` has described what a sequence of calls is compiled to, by definitions and registrations in the
order of the calls. What is done here is to find one call in its sequence. Its definitions stand behind those of
the earlier calls, so the index of a route is known; and as the last registration of a name counts, the earlier
calls play no part in what is registered for it, and the later ones do if they name it.

From there a request is followed to the wire: a handler sends to a backend of the route's pool, the pool is that
of the registered URLs, and the URI of the request gets scheme and authority of its backend, whatever the
rewrite has made of the path.
-/

namespace Apigate
open Lib MultiMap Fold Dispatch

variable {V ρ σ : Type}

/-- The request goes to the backend of one of the URLs. -/
def SentTo (crates : Crates V) (urls : List Str) (request : Request V) : Prop :=
  ∃ url ∈ urls, ∃ base, BaseUri.parse crates.parseUri url = .ok base ∧
    request.parts.uri.scheme = some base.scheme ∧ request.parts.uri.authority = some base.authority

section
variable {crates : Crates V} {earlier later : List (BuilderCall V ρ σ)} {routes : Routes (PipelineFn V)}
  {urls : List Str}

/-! ## The call in its sequence

Both the definitions and the registrations of a sequence are those of its parts, one after the other. -/

/-- Its definitions come after those of the earlier calls. -/
theorem definitions_mountService {j : Nat} {rd : RouteDef (PipelineFn V)} (hrd : routes.routes[j]? = some rd) :
    (definitions (earlier ++ .mountService routes urls :: later))[(definitions earlier).length + j]? =
      some (routes, rd) := by
  have hsplit : definitions (earlier ++ .mountService routes urls :: later) =
      definitions earlier ++ (routes.routes.map (routes, ·) ++ definitions later) := by
    unfold definitions definitionsOf collections
    rw [List.filterMap_append, List.flatMap_append, List.filterMap_cons]
    rfl
  have hj : j < (routes.routes.map (routes, ·)).length := by
    rw [List.length_map]
    exact (List.getElem?_eq_some_iff.mp hrd).1
  rw [hsplit, List.getElem?_append_right (Nat.le_add_right _ _), Nat.add_sub_cancel_left,
    List.getElem?_append_left hj, List.getElem?_map, hrd]
  rfl

/-- What is registered for its service is what a later call registers, if one does. -/
theorem registeredUrls_mountService :
    registeredUrls (earlier ++ .mountService routes urls :: later) routes.service =
      some ((registeredUrls later routes.service).getD urls) := by
  have hsplit : registrations (earlier ++ .mountService routes urls :: later) =
      registrations earlier ++ [(routes.service, urls)] ++ registrations later := by
    unfold registrations
    rw [List.filterMap_append, List.filterMap_cons, List.append_assoc]
    rfl
  unfold registeredUrls
  rw [hsplit, latest?_append, latest?_concat, if_pos rfl]
  cases latest? (registrations later) routes.service <;> rfl

/-! ## The backend of a request

From the request back to a URL. -/

/-- What goes upstream has scheme and authority of the backend. -/
theorem upstreamRequest_authority {backend : Backend} {routeMeta : RouteMeta (PipelineFn V)} {parts : Parts V}
    {body : Body} {request : Request V}
    (h : upstreamRequest crates backend routeMeta parts body = some (.ok request)) :
    request.parts.uri.scheme = some backend.base.scheme ∧
      request.parts.uri.authority = some backend.base.authority := by
  obtain ⟨uri, huri, rfl⟩ := upstreamRequest_parts h
  obtain ⟨pq, -, rfl⟩ := rewriteUri_ok huri
  exact ⟨rfl, rfl⟩

/-- A backend of a pool is the backend of one of its URLs. -/
theorem PoolOf.url_of_mem {pool : BackendPool} (h : PoolOf crates urls pool) {backend : Backend}
    (hbackend : backend ∈ pool.backends) :
    ∃ url ∈ urls, BaseUri.parse crates.parseUri url = .ok backend.base := by
  obtain ⟨k, hk, hkb⟩ := List.mem_iff_getElem.mp hbackend
  obtain ⟨hlength, hparse⟩ := List.forall₂_iff_get.mp h
  have hk' : k < urls.length := hlength ▸ hk
  have hbase := hparse k hk' hk
  rw [List.get_eq_getElem, List.get_eq_getElem, hkb] at hbase
  exact ⟨urls[k], List.getElem_mem hk', hbase⟩

/-! ## The main result -/

/-- **The routes of `mount_service` go to the backends registered last for their service name.** The handler of
    a route of the collection sends a request only to one of the URLs that the last later call registers for the
    name, and to one of those of the call itself if no later call does; registrations for other names play no
    part. -/
theorem mount_service_goes_to_registered [RouteStrategy ρ] [Balancer σ] [Xxh3] {app : App V ρ σ}
    (hbuild : Yields ((AppBuilder.ofCalls (earlier ++ .mountService routes urls :: later)).build crates) app)
    {j : Nat} {rd : RouteDef (PipelineFn V)} (hrd : routes.routes[j]? = some rd) :
    app.router[(definitions earlier).length + j]? = some (handlerOf ((definitions earlier).length + j) (routes, rd)) ∧
    (∀ (client : Client V) (req : Request V) (policies : Policies ρ σ) (request : Request V),
      .sent request ∈
          (proxyHandler crates client app.inner ((definitions earlier).length + j) req policies).trace →
        SentTo crates ((registeredUrls later routes.service).getD urls) request) ∧
    ((∀ call ∈ later, ∀ e, call.registers? = some e → e.1 ≠ routes.service) →
      (registeredUrls later routes.service).getD urls = urls) := by
  obtain ⟨hentry, m, hm, hdescribes⟩ :=
    (compiledFrom_of_build hbuild).handlers _ _ (definitions_mountService hrd)
  refine ⟨hentry, ?_, ?_⟩
  · intro client req policies request hsent
    obtain ⟨body, backend, hbackend, -, hrequest⟩ := sent_by_handler hm hsent
    obtain ⟨registered, hregistered, hpool⟩ := hdescribes.pool
    rw [registeredUrls_mountService] at hregistered
    obtain rfl := Option.some.inj hregistered
    obtain ⟨url, hurl, hbase⟩ := hpool.url_of_mem hbackend
    exact ⟨url, hurl, backend.base, hbase, upstreamRequest_authority hrequest⟩
  · intro hlater
    have hnone : registeredUrls later routes.service = none := by
      apply latest?_eq_none_iff.mpr
      intro e he
      obtain ⟨call, hcall, hregisters⟩ := List.mem_filterMap.mp he
      exact hlater call hcall e hregisters
    rw [hnone]
    rfl

end

/-! ## Examples -/

/-- Two collections whose services have one name, as modules of one name in different places have. -/
def firstSales : Routes (PipelineFn Str) := itemsRoutes (str "/first")
def secondSales : Routes (PipelineFn Str) := itemsRoutes (str "/second")

def bothSales : List (BuilderCall Str NoRouteKey RoundRobin) :=
  [.mountService firstSales [str "http://one"], .mountService secondSales [str "http://two"]]

/-- The backend pool of `http://two`. -/
def poolTwo : BackendPool := ⟨[⟨⟨str "http", str "two", str "http://two", str "two"⟩⟩]⟩

/-- What is built from these calls. -/
def bothApp : App Str NoRouteKey RoundRobin :=
  ⟨[⟨.get, str "/first/items", 0⟩, ⟨.get, str "/second/items", 1⟩],
    ⟨.empty, 2 * 1024 * 1024, 30 * 1000000000,
      [⟨str "sales", str "/items", str "/first", .stripPrefix, poolTwo, 0, none⟩,
        ⟨str "sales", str "/items", str "/second", .stripPrefix, poolTwo, 0, none⟩],
      defaultErrorRenderer, false⟩, [.roundRobin]⟩

/-- A request to the first collection, and what becomes of it. -/
def firstGet : Request Str :=
  ⟨⟨str "GET", ⟨none, none, some ⟨str "/first/items", none⟩⟩, str "HTTP/1.1", .empty, .empty⟩, .ofBytes []⟩

def firstSent : Request Str :=
  ⟨⟨str "GET", ⟨some (str "http"), some (str "two"), some ⟨str "/items", none⟩⟩, str "HTTP/1.1",
    MultiMap.empty.insert .host (str "two"), .empty⟩, .ofBytes []⟩

/-- The calls are compiled to this application. -/
theorem bothSales_build : Yields ((AppBuilder.ofCalls bothSales).build .plain) bothApp := rfl

/-- The run of the first collection's handler on it. -/
def firstRun : Outcome (Policies NoRouteKey RoundRobin) Panic (DispatchEvent Str) Response :=
  @proxyHandler Str NoRouteKey RoundRobin _ _ .length .plain (fun _ => (.error (), 0)) bothApp.inner 0 firstGet
    fun _ => .new

/-- The theorem at the second call. -/
theorem mount_service_goes_to_registered_second :
    bothApp.router[1]? = some ⟨.get, str "/second/items", 1⟩ ∧
    (∀ (client : Client Str) (req : Request Str) (policies : Policies NoRouteKey RoundRobin) (request : Request Str),
      .sent request ∈ (@proxyHandler Str NoRouteKey RoundRobin _ _ .length .plain client bothApp.inner 1 req
          policies).trace → SentTo .plain [str "http://two"] request) ∧
    ((∀ call ∈ ([] : List (BuilderCall Str NoRouteKey RoundRobin)), ∀ e, call.registers? = some e →
      e.1 ≠ str "sales") → [str "http://two"] = [str "http://two"]) :=
  @mount_service_goes_to_registered Str NoRouteKey RoundRobin .plain
    [.mountService firstSales [str "http://one"]] [] secondSales [str "http://two"] _ _ .length bothApp
    bothSales_build 0 _ rfl

/-- **A later collection of the same service name takes the requests over.** -/
theorem same_name_redirects :
    Yields ((AppBuilder.ofCalls bothSales).build .plain) bothApp ∧
      bothApp.router[0]? = some ⟨.get, str "/first/items", 0⟩ ∧ .sent firstSent ∈ firstRun.trace ∧
      ¬ SentTo .plain [str "http://one"] firstSent := by
  refine ⟨rfl, rfl, List.mem_of_getElem? (i := 3) rfl, ?_⟩
  rintro ⟨url, hurl, base, hbase, -, hauthority⟩
  obtain rfl := List.mem_singleton.mp hurl
  have hone : BaseUri.parse Crates.plain.parseUri (str "http://one") =
      .ok ⟨str "http", str "one", str "http://one", str "one"⟩ := rfl
  rw [hone] at hbase
  cases hbase
  exact absurd hauthority (by decide)

end Apigate
