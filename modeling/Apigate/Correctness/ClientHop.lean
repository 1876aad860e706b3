import Apigate.Correctness.HopByHop
import Apigate.Correctness.QueryKept

/-!
# `Correctness.ClientHop` — what the upstream sees of the client's own connection

Two requests that differ in what belongs to the client's hop only (the HTTP version, the `Host` fields, the
form of the request target) become upstream requests with the same method, URI, headers and body
(`upstream_request_hop_independent`). The version is not rewritten: each keeps its own.
-/

namespace Apigate
open Lib

variable {V Pipeline : Type}

/-- Two request heads that differ at most in version, `Host` fields, extensions and the form of the request
    target: path and query are the same, whether or not a scheme and an authority stand in front. -/
structure SameButHop (p q : Parts V) : Prop where
  method : q.method = p.method
  path : q.uri.path = p.uri.path
  query : q.uri.query = p.uri.query
  headers : q.headers.remove .host = p.headers.remove .host

/-! ## Headers -/

/-- Without `Host`, the filter gives the same for both. -/
theorem stripHopHeaders_congr {headers headers' : HeaderMap} (h : headers'.remove .host = headers.remove .host) :
    (stripHopHeaders headers').remove .host = (stripHopHeaders headers).remove .host := by
  have hconnection : headers'.getAll .connection = headers.getAll .connection := by
    rw [← MultiMap.getAll_remove_of_ne headers' (k := .host) (by decide), h,
      MultiMap.getAll_remove_of_ne headers (by decide)]
  have hnames : strippedNames headers' = strippedNames headers := by
    unfold strippedNames
    rw [hconnection]
  rw [stripHopHeaders_eq, stripHopHeaders_eq, hnames]
  rw [MultiMap.remove_eq_without, MultiMap.remove_eq_without] at h ⊢
  rw [MultiMap.without_comm, h, MultiMap.without_comm]

/-- Setting a header makes its old values irrelevant. -/
theorem insert_congr {headers headers' : HeaderMap} {name : HeaderName} (value : HeaderValue)
    (h : headers'.remove name = headers.remove name) : headers'.insert name value = headers.insert name value := by
  unfold MultiMap.insert
  rw [h]

/-! ## The URI -/

/-- Only path and query of the incoming URI matter. -/
theorem rewritePathAndQuery_congr (crates : Crates V) (routeMeta : RouteMeta Pipeline) {uri uri' : Uri}
    (hpath : uri'.path = uri.path) (hquery : uri'.query = uri.query) :
    rewritePathAndQuery crates routeMeta uri' = rewritePathAndQuery crates routeMeta uri := by
  unfold rewritePathAndQuery
  rw [hpath, hquery]

/-- **The upstream URI**: the backend's scheme and authority, and the rewritten path and query. -/
theorem rewriteUri_ok {crates : Crates V} {base : BaseUri} {routeMeta : RouteMeta Pipeline} {uri result : Uri}
    (h : rewriteUri crates base routeMeta uri = some (.ok result)) :
    ∃ pq, rewritePathAndQuery crates routeMeta uri = some (.ok (some pq)) ∧
      result = ⟨some base.scheme, some base.authority, some pq⟩ := by
  unfold rewriteUri at h
  simp only [Option.bind_eq_bind, Option.bind_eq_some_iff] at h
  obtain ⟨rewritten, hrewritten, h⟩ := h
  cases rewritten with
  | error e => cases h
  | ok newPq =>
      obtain ⟨pq, -, rfl, -⟩ := rewritePathAndQuery_ok hrewritten
      cases h
      exact ⟨pq, hrewritten, rfl⟩

theorem rewriteUri_congr {crates : Crates V} {base : BaseUri} {routeMeta : RouteMeta Pipeline}
    {uri uri' result : Uri} (hpath : uri'.path = uri.path) (hquery : uri'.query = uri.query)
    (h : rewriteUri crates base routeMeta uri = some (.ok result)) :
    rewriteUri crates base routeMeta uri' = some (.ok result) := by
  obtain ⟨pq, hpq, rfl⟩ := rewriteUri_ok h
  unfold rewriteUri
  rw [rewritePathAndQuery_congr crates routeMeta hpath hquery, hpq]
  rfl

/-! ## The main result -/

/-- **The upstream request does not depend on the client's hop, but for the version.** For a fixed backend and
    route: if one of two requests that differ in their hop only is forwarded, so is the other, with the same
    method, URI, headers and body; scheme, authority and the only `Host` field are the backend's. Each of the
    two goes out in the version it came in. -/
theorem upstream_request_hop_independent (crates : Crates V) (backend : Backend)
    (routeMeta : RouteMeta Pipeline) {p q : Parts V} (hsame : SameButHop p q) (body : Body) {r : Request V}
    (hforwarded : upstreamRequest crates backend routeMeta p body = some (.ok r)) :
    ∃ r', upstreamRequest crates backend routeMeta q body = some (.ok r') ∧
      r'.parts.method = r.parts.method ∧ r'.parts.uri = r.parts.uri ∧ r'.parts.headers = r.parts.headers ∧
      r'.body = r.body ∧
      r.parts.uri.scheme = some backend.base.scheme ∧ r.parts.uri.authority = some backend.base.authority ∧
      r.parts.headers.getAll .host = [backend.base.hostHeader] ∧
      r.parts.version = p.version ∧ r'.parts.version = q.version := by
  obtain ⟨uri, huri, rfl⟩ := upstreamRequest_parts hforwarded
  obtain ⟨pq, -, hparts⟩ := rewriteUri_ok huri
  have huri' := rewriteUri_congr hsame.path hsame.query huri
  have hheaders := insert_congr backend.base.hostHeader (stripHopHeaders_congr hsame.headers)
  refine ⟨⟨{ q with
    uri := uri
    headers := (stripHopHeaders q.headers).insert .host backend.base.hostHeader }, body⟩, ?_, ?_⟩
  · unfold upstreamRequest
    rw [huri']
    rfl
  · subst hparts
    exact ⟨hsame.method, rfl, hheaders, rfl, rfl, rfl, MultiMap.getAll_insert_self _ _ _, rfl, rfl⟩

/-! ## Examples -/

def upBackend : Backend := ⟨⟨str "http", str "up", str "http://up", str "up"⟩⟩

def plainRoute : RouteMeta Str :=
  ⟨str "sales", str "/items", str "/sales", .stripPrefix, ⟨[upBackend]⟩, 0, none⟩

/-- A request in origin form. -/
def originParts : Parts Str :=
  ⟨str "GET", ⟨none, none, some ⟨str "/sales/items", some (str "q=1")⟩⟩, str "HTTP/1.1",
    MultiMap.empty.insert .host (str "shop"), .empty⟩

/-- The same in absolute form, over another version, without `Host`. -/
def absoluteParts : Parts Str :=
  ⟨str "GET", ⟨some (str "https"), some (str "shop:8080"), some ⟨str "/sales/items", some (str "q=1")⟩⟩,
    str "HTTP/1.0", .empty, .empty⟩

/-- What goes upstream for either, in the given version. -/
def upstreamItems (version : Str) : Request Str :=
  ⟨⟨str "GET", ⟨some (str "http"), some (str "up"), some ⟨str "/items", some (str "q=1")⟩⟩, version,
    MultiMap.empty.insert .host (str "up"), .empty⟩, .ofBytes []⟩

theorem origin_sameButHop_absolute : SameButHop originParts absoluteParts := ⟨rfl, rfl, rfl, by decide⟩

/-- The theorem at these two requests. -/
theorem upstream_request_hop_independent_items :
    ∃ r', upstreamRequest .plain upBackend plainRoute absoluteParts (.ofBytes []) = some (.ok r') ∧
      r'.parts.method = str "GET" ∧ r'.parts.uri = (upstreamItems []).parts.uri ∧
      r'.parts.headers = MultiMap.empty.insert .host (str "up") ∧ r'.body = .ofBytes [] ∧
      some (str "http") = some upBackend.base.scheme ∧ some (str "up") = some upBackend.base.authority ∧
      (MultiMap.empty.insert HeaderName.host (str "up")).getAll .host = [upBackend.base.hostHeader] ∧
      str "HTTP/1.1" = originParts.version ∧ r'.parts.version = absoluteParts.version :=
  upstream_request_hop_independent .plain upBackend plainRoute origin_sameButHop_absolute (.ofBytes [])
    (r := upstreamItems (str "HTTP/1.1")) rfl

/-- **The version of the client's hop goes upstream.** -/
theorem client_version_goes_upstream :
    SameButHop originParts absoluteParts ∧
      upstreamRequest .plain upBackend plainRoute originParts (.ofBytes []) =
        some (.ok (upstreamItems (str "HTTP/1.1"))) ∧
      upstreamRequest .plain upBackend plainRoute absoluteParts (.ofBytes []) =
        some (.ok (upstreamItems (str "HTTP/1.0"))) ∧
      (upstreamItems (str "HTTP/1.1")).parts.version ≠ (upstreamItems (str "HTTP/1.0")).parts.version :=
  ⟨origin_sameButHop_absolute, rfl, rfl, by decide⟩

end Apigate
