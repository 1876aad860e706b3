import Apigate.Proxy

/-!
# `Correctness.HopByHop` — what the hop-by-hop filter removes

The filter drops every entry whose name it has collected (`stripHopHeaders_eq`). It collects the standard
names, `Connection`, and the names listed in the `Connection` fields that `to_str` accepts; what a field that
`to_str` refuses lists is let through, and that is the only way in which it differs from the filter that
reads every field (`hop_filter_exact_iff`).
-/

namespace Apigate
open Lib Text

variable {V Pipeline : Type}

/-! ## The names it collects -/

/-- The names that `stripHopHeaders` removes. -/
def strippedNames (headers : HeaderMap) : List HeaderName :=
  .connection :: (headers.getAll .connection).flatMap connectionTokens ++ hopHeaders

/-- Removing one name after the other leaves the entries with other names. -/
theorem stripHopHeaders_eq (headers : HeaderMap) :
    stripHopHeaders headers = headers.without (strippedNames headers) := by
  unfold stripHopHeaders strippedNames
  rw [MultiMap.foldl_remove_eq, MultiMap.foldl_remove_eq, MultiMap.remove_eq_without,
    MultiMap.without_without, MultiMap.without_without]
  rfl

/-- **Filtering removes exactly the stripped names.** -/
theorem getAll_stripHopHeaders (headers : HeaderMap) (h : HeaderName) :
    (stripHopHeaders headers).getAll h = if h ∈ strippedNames headers then [] else headers.getAll h := by
  rw [stripHopHeaders_eq, MultiMap.getAll_without]

/-- **Filtering twice is filtering once**: no `Connection` field is left to list another name. -/
theorem stripHopHeaders_idem (headers : HeaderMap) :
    stripHopHeaders (stripHopHeaders headers) = stripHopHeaders headers := by
  have hfirst : HeaderName.connection ∈ strippedNames headers := List.mem_append_left _ List.mem_cons_self
  have hagain : strippedNames (stripHopHeaders headers) = .connection :: hopHeaders := by
    unfold strippedNames
    rw [getAll_stripHopHeaders, if_pos hfirst]
    rfl
  rw [stripHopHeaders_eq (stripHopHeaders headers), hagain, stripHopHeaders_eq, MultiMap.without_without,
    MultiMap.without_inj]
  intro e _
  -- the standard names were collected the first time as well
  unfold strippedNames
  simp only [List.mem_append, List.mem_cons]
  tauto

/-! ## The upstream request -/

/-- What goes upstream, part by part. -/
theorem upstreamRequest_parts {crates : Crates V} {backend : Backend} {routeMeta : RouteMeta Pipeline}
    {parts : Parts V} {body : Body} {request : Request V}
    (h : upstreamRequest crates backend routeMeta parts body = some (.ok request)) :
    ∃ uri, rewriteUri crates backend.base routeMeta parts.uri = some (.ok uri) ∧
      request = ⟨{ parts with
        uri := uri
        headers := (stripHopHeaders parts.headers).insert .host backend.base.hostHeader }, body⟩ := by
  unfold upstreamRequest at h
  simp only [Option.bind_eq_bind, Option.bind_eq_some_iff] at h
  obtain ⟨result, hresult, h⟩ := h
  cases result with
  | error e => cases h
  | ok uri =>
      cases h
      exact ⟨uri, hresult, rfl⟩

/-- What `upstreamRequest` takes over and what it sets. -/
theorem upstreamRequest_ok {crates : Crates V} {backend : Backend} {routeMeta : RouteMeta Pipeline}
    {parts : Parts V} {body : Body} {request : Request V}
    (h : upstreamRequest crates backend routeMeta parts body = some (.ok request)) :
    request.body = body ∧
      request.parts.headers = (stripHopHeaders parts.headers).insert .host backend.base.hostHeader := by
  obtain ⟨uri, -, rfl⟩ := upstreamRequest_parts h
  exact ⟨rfl, rfl⟩

/-- A header other than `Host` and the stripped names is passed on. -/
theorem upstreamRequest_getAll {crates : Crates V} {backend : Backend}
    {routeMeta : RouteMeta Pipeline} {parts : Parts V} {body : Body} {request : Request V}
    (hreq : upstreamRequest crates backend routeMeta parts body = some (.ok request)) {h : HeaderName}
    (hhost : h ≠ .host) :
    request.parts.headers.getAll h =
      if h ∈ strippedNames parts.headers then [] else parts.headers.getAll h := by
  rw [(upstreamRequest_ok hreq).2, MultiMap.getAll_insert_of_ne _ _ hhost, getAll_stripHopHeaders]

/-! ## The filter that reads every field -/

/-- The names listed in a `Connection` field, whatever its bytes are. -/
def listedNames (value : HeaderValue) : List HeaderName :=
  ((value.splitOn comma).map trim).filterMap HeaderName.fromBytes

/-- `Connection`, the standard hop-by-hop names, and every name that is listed. -/
def hopNames (headers : HeaderMap) : List HeaderName :=
  .connection :: (headers.getAll .connection).flatMap listedNames ++ hopHeaders

/-- The entries that are not hop-by-hop, in their order. -/
def endToEnd (headers : HeaderMap) : HeaderMap := headers.without (hopNames headers)

/-- The filter leaves exactly the end-to-end entries, here, the second time, in the upstream request and in the
    response. -/
structure FiltersExactly (V Pipeline : Type) (headers : HeaderMap) : Prop where
  filtered : stripHopHeaders headers = endToEnd headers
  twice : stripHopHeaders (stripHopHeaders headers) = stripHopHeaders headers
  upstream : ∀ (crates : Crates V) (backend : Backend) (routeMeta : RouteMeta Pipeline) (parts : Parts V)
    (body : Body) (request : Request V), parts.headers = headers →
      upstreamRequest crates backend routeMeta parts body = some (.ok request) →
        request.parts.headers = (endToEnd headers).insert .host backend.base.hostHeader
  downstream : ∀ response : Response, response.headers = headers →
    (downstreamResponse response).headers = endToEnd headers

/-- A `Connection` field that `to_str` refuses lists no header of the message, but for those that are removed
    anyway. -/
def RefusedListNothing (headers : HeaderMap) : Prop :=
  ∀ value ∈ headers.getAll .connection, HeaderValue.toStr value = none →
    ∀ name ∈ listedNames value, headers.containsKey name = true → name ∈ strippedNames headers

/-- Of an accepted field every listed name is collected: an empty token is no name. -/
theorem connectionTokens_accepted {value : HeaderValue} {s : Str} (h : HeaderValue.toStr value = some s) :
    connectionTokens value = listedNames value := by
  unfold connectionTokens listedNames
  rw [h]
  dsimp only
  rw [HeaderValue.eq_of_toStr h, List.filterMap_filter]
  apply List.filterMap_congr
  intro token _
  cases token with
  | nil => rfl
  | cons b token => rfl

theorem connectionTokens_refused {value : HeaderValue} (h : HeaderValue.toStr value = none) :
    connectionTokens value = [] := by
  unfold connectionTokens
  rw [h]

/-- What is collected is hop-by-hop. -/
theorem hopNames_of_stripped {headers : HeaderMap} {name : HeaderName} (h : name ∈ strippedNames headers) :
    name ∈ hopNames headers := by
  unfold strippedNames at h
  unfold hopNames
  rw [List.cons_append, List.mem_cons, List.mem_append, List.mem_flatMap] at h ⊢
  rcases h with h | ⟨value, hvalue, hname⟩ | h
  · exact Or.inl h
  · right
    left
    refine ⟨value, hvalue, ?_⟩
    cases hstr : HeaderValue.toStr value with
    | some s => exact connectionTokens_accepted hstr ▸ hname
    | none =>
        rw [connectionTokens_refused hstr] at hname
        cases hname
  · exact Or.inr (Or.inr h)

/-- The other way round, for the headers of the message. -/
theorem stripped_of_hopNames {headers : HeaderMap} (hrefused : RefusedListNothing headers) {name : HeaderName}
    (hkey : headers.containsKey name = true) (h : name ∈ hopNames headers) : name ∈ strippedNames headers := by
  unfold hopNames at h
  rw [List.cons_append, List.mem_cons, List.mem_append, List.mem_flatMap] at h
  rcases h with h | ⟨value, hvalue, hname⟩ | h
  · rw [h]
    exact List.mem_cons_self
  · cases hstr : HeaderValue.toStr value with
    | some s =>
        rw [← connectionTokens_accepted hstr] at hname
        apply List.mem_append_left
        apply List.mem_cons_of_mem
        exact List.mem_flatMap.mpr ⟨value, hvalue, hname⟩
    | none => exact hrefused value hvalue hstr name hname hkey
  · exact List.mem_append_right _ h

/-- **The filter is exact where refused fields list nothing.** -/
theorem stripHopHeaders_eq_endToEnd_iff {headers : HeaderMap} :
    stripHopHeaders headers = endToEnd headers ↔ RefusedListNothing headers := by
  rw [stripHopHeaders_eq, endToEnd, MultiMap.without_inj]
  constructor
  · intro h value hvalue _ name hname hkey
    obtain ⟨e, he, hename⟩ := List.any_eq_true.mp hkey
    obtain rfl : e.1 = name := of_decide_eq_true hename
    apply (h e he).mpr
    apply List.mem_append_left
    apply List.mem_cons_of_mem
    exact List.mem_flatMap.mpr ⟨value, hvalue, hname⟩
  · intro hrefused e he
    have hkey : headers.containsKey e.1 = true := List.any_eq_true.mpr ⟨e, he, decide_eq_true rfl⟩
    exact ⟨hopNames_of_stripped, stripped_of_hopNames hrefused hkey⟩

/-- **Hop-by-hop filtering is exact, unless a `Connection` field that `to_str` refuses lists a header.** -/
theorem hop_filter_exact_iff (V Pipeline : Type) (headers : HeaderMap) :
    FiltersExactly V Pipeline headers ↔ RefusedListNothing headers := by
  constructor
  · intro h
    exact stripHopHeaders_eq_endToEnd_iff.mp h.filtered
  · intro hrefused
    have hfiltered := stripHopHeaders_eq_endToEnd_iff.mpr hrefused
    refine ⟨hfiltered, stripHopHeaders_idem headers, ?_, ?_⟩
    · intro crates backend routeMeta parts body request hheaders hrequest
      rw [(upstreamRequest_ok hrequest).2, hheaders, hfiltered]
    · intro response hheaders
      show stripHopHeaders response.headers = endToEnd headers
      rw [hheaders, hfiltered]

/-- A private header, listed in a `Connection` field with a byte above ASCII. -/
def refusedHeaders : HeaderMap :=
  ⟨[(.connection, str "x-secret, " ++ [0xE9]), (⟨str "x-secret"⟩, str "1")]⟩

/-- **A listed header goes through**, upstream and downstream. -/
theorem refused_connection_field :
    ⟨str "x-secret"⟩ ∈ hopNames refusedHeaders ∧
      (stripHopHeaders refusedHeaders).getAll ⟨str "x-secret"⟩ = [str "1"] ∧
      (endToEnd refusedHeaders).getAll ⟨str "x-secret"⟩ = [] ∧
      ¬ FiltersExactly Str Str refusedHeaders := by
  refine ⟨by decide, by decide, by decide, ?_⟩
  intro h
  exact absurd (congrArg (MultiMap.getAll · ⟨str "x-secret"⟩) h.filtered) (by decide)

end Apigate
