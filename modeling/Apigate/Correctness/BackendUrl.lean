import Apigate.Correctness.ClientHop

/-!
# `Correctness.BackendUrl` — what of a backend URL goes upstream

A backend is an origin: `BaseUri::parse` keeps scheme and authority of the URL and makes the `Host` value of the
authority. Path and query of the URL are read by nobody, so the path and query that go upstream are the rewritten
ones (`backend_url_is_origin`).
-/

namespace Apigate
open Lib Text

variable {V Pipeline : Type}

/-! ## URLs -/

def atSign : UInt8 := 0x40

/-- Host and optional port of an authority: what follows the user-info, if there is any. -/
def hostPort (authority : Str) : Str := (authority.splitOn atSign).getLast (List.splitOn_ne_nil atSign authority)

theorem hostPort_of_no_userInfo {authority : Str} (h : atSign ∉ authority) : hostPort authority = authority := by
  unfold hostPort
  simp only [List.splitOn_eq_singleton h, List.getLast_singleton]

/-- What is left of a URL that has a scheme and an authority. -/
theorem BaseUri.parse_eq {parseUri : Str → Except Str Uri} {s scheme authority : Str}
    {pathAndQuery : Option PathAndQuery} (h : parseUri s = .ok ⟨some scheme, some authority, pathAndQuery⟩) :
    BaseUri.parse parseUri s =
      match HeaderValue.fromStr authority with
      | some hostHeader => .ok ⟨scheme, authority, scheme ++ str "://" ++ authority, hostHeader⟩
      | none => .error (.invalidHostHeader authority) := by
  unfold BaseUri.parse
  simp only [h, bind, Except.bind]
  cases HeaderValue.fromStr authority <;> rfl

/-- **An accepted URL** has a scheme and an authority, and nothing else of it is kept. -/
theorem BaseUri.parse_ok_iff {parseUri : Str → Except Str Uri} {s : Str} {base : BaseUri} :
    BaseUri.parse parseUri s = .ok base ↔
      ∃ uri, parseUri s = .ok uri ∧ uri.scheme = some base.scheme ∧ uri.authority = some base.authority ∧
        HeaderValue.fromStr base.authority = some base.hostHeader ∧
        base.urlPrefix = base.scheme ++ str "://" ++ base.authority := by
  constructor
  · intro h
    cases huri : parseUri s with
    | error e =>
        unfold BaseUri.parse at h
        rw [huri] at h
        cases h
    | ok uri =>
        obtain ⟨_ | scheme, _ | authority, pathAndQuery⟩ := uri
        case some.some =>
          rw [BaseUri.parse_eq huri] at h
          cases hhost : HeaderValue.fromStr authority with
          | none =>
              rw [hhost] at h
              cases h
          | some hostHeader =>
              rw [hhost] at h
              cases h
              exact ⟨_, rfl, rfl, rfl, hhost, rfl⟩
        -- without a scheme or an authority the URL is refused
        all_goals
          unfold BaseUri.parse at h
          rw [huri] at h
          cases h
  · rintro ⟨⟨_, _, pathAndQuery⟩, huri, rfl, rfl, hhost, hprefix⟩
    rw [BaseUri.parse_eq huri, hhost]
    dsimp only
    rw [← hprefix]

/-- The `Host` value is the authority. -/
theorem HeaderValue.fromStr_eq_some {s : Str} {value : HeaderValue} (h : HeaderValue.fromStr s = some value) :
    value = s := by
  unfold HeaderValue.fromStr at h
  split at h
  · exact (Option.some.inj h).symm
  · cases h

/-- What it would be to honour a backend URL in full. -/
structure HonouredInFull (uri : Uri) (x : PathAndQuery) (request : Request V) : Prop where
  scheme : request.parts.uri.scheme = uri.scheme
  authority : request.parts.uri.authority = uri.authority
  path : request.parts.uri.path = trimEndMatches slash uri.path ++ x.path
  host : request.parts.headers.getAll .host = uri.authority.toList.map hostPort

/-! ## The main result -/

/-- **A backend URL counts for its origin.** For every accepted URL and every request that is proxied to its
    backend: the upstream URI has the URL's scheme and authority and exactly the rewritten path and query. The
    `Host` field is host and port of the URL, if it has no user-info. A URL with the same scheme and authority
    is accepted as the same backend, whatever its path and query. -/
theorem backend_url_is_origin {crates : Crates V} {s : Str} {base : BaseUri}
    (haccepted : BaseUri.parse crates.parseUri s = .ok base) {routeMeta : RouteMeta Pipeline} {parts : Parts V}
    {body : Body} {request : Request V}
    (hproxied : upstreamRequest crates ⟨base⟩ routeMeta parts body = some (.ok request)) :
    ∃ uri x, crates.parseUri s = .ok uri ∧
      rewritePathAndQuery crates routeMeta parts.uri = some (.ok (some x)) ∧
      request.parts.uri = { uri with pathAndQuery := some x } ∧
      (∀ authority, uri.authority = some authority → atSign ∉ authority →
        request.parts.headers.getAll .host = [hostPort authority]) ∧
      ∀ s' uri', crates.parseUri s' = .ok uri' → uri'.scheme = uri.scheme → uri'.authority = uri.authority →
        BaseUri.parse crates.parseUri s' = .ok base := by
  obtain ⟨uri, huri, hscheme, hauthority, hhost, hprefix⟩ := BaseUri.parse_ok_iff.mp haccepted
  obtain ⟨upstreamUri, hrewritten, rfl⟩ := upstreamRequest_parts hproxied
  obtain ⟨x, hx, rfl⟩ := rewriteUri_ok hrewritten
  refine ⟨uri, x, huri, hx, ?_, ?_, ?_⟩
  · rw [hscheme, hauthority]
  · intro authority hself hnoUserInfo
    obtain rfl : base.authority = authority := Option.some.inj (hauthority.symm.trans hself)
    rw [hostPort_of_no_userInfo hnoUserInfo, ← HeaderValue.fromStr_eq_some hhost]
    exact MultiMap.getAll_insert_self _ _ _
  · intro s' uri' huri' hscheme' hauthority'
    exact BaseUri.parse_ok_iff.mpr
      ⟨uri', huri', hscheme'.trans hscheme, hauthority'.trans hauthority, hhost, hprefix⟩

/-! ## Examples -/

/-- The backend of an IPv6 host. -/
def loopback : BaseUri := ⟨str "http", str "[::1]:8080", str "http://[::1]:8080", str "[::1]:8080"⟩

/-- The theorem at an IPv6 host with a port and a path: the `Host` field has the port, and the path is gone. -/
theorem backend_url_is_origin_loopback :
    ∃ request, upstreamRequest .plain ⟨loopback⟩ plainRoute originParts (.ofBytes []) = some (.ok request) ∧
      request.parts.uri = ⟨some (str "http"), some (str "[::1]:8080"), some ⟨str "/items", some (str "q=1")⟩⟩ ∧
      request.parts.headers.getAll .host = [str "[::1]:8080"] ∧
      BaseUri.parse Crates.plain.parseUri (str "http://[::1]:8080") = .ok loopback := by
  have haccepted : BaseUri.parse Crates.plain.parseUri (str "http://[::1]:8080/base") = .ok loopback := rfl
  refine ⟨_, rfl, ?_⟩
  obtain ⟨uri, x, huri, hx, hupstream, hhost, hsame⟩ :=
    backend_url_is_origin haccepted (show upstreamRequest .plain _ plainRoute originParts (.ofBytes []) = _ from rfl)
  cases huri
  cases hx
  exact ⟨hupstream, hhost _ rfl (by decide), hsame _ _ rfl rfl rfl⟩

/-- **Path and user-info.** The path of `http://up/base` does not go upstream, and the user-info of
    `http://user:pw@up` goes into the `Host` field. -/
theorem backend_url_not_honoured_in_full :
    (∃ base request, BaseUri.parse Crates.plain.parseUri (str "http://up/base") = .ok base ∧
      upstreamRequest .plain ⟨base⟩ plainRoute originParts (.ofBytes []) = some (.ok request) ∧
      ∀ uri x, Crates.plain.parseUri (str "http://up/base") = .ok uri →
        rewritePathAndQuery .plain plainRoute originParts.uri = some (.ok (some x)) →
          ¬ HonouredInFull uri x request) ∧
    ∃ base request, BaseUri.parse Crates.plain.parseUri (str "http://user:pw@up") = .ok base ∧
      upstreamRequest .plain ⟨base⟩ plainRoute originParts (.ofBytes []) = some (.ok request) ∧
      request.parts.headers.getAll .host ≠ [hostPort base.authority] := by
  refine ⟨⟨_, _, rfl, rfl, ?_⟩, _, _, rfl, rfl, by decide⟩
  intro uri x huri hx hfull
  cases huri
  cases hx
  exact absurd hfull.path (by decide)

end Apigate
