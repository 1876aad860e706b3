import Apigate.Correctness.Mapping

/-!
# `Correctness.Relay` — what a map returns is what the next one is given

A map is written against values: it is given one and returns one. Between two gateways in a row there is a
request, with the value serialized into its body or its query, a rewritten path in front of the query, and
another set of headers. None of this comes between the two maps.

The proof goes through three requests. `Correctness.Mapping` describes the first step: from the request that
comes in to the one that is passed on, in which the output of the map stands where the data stood. Between that
one and the request that goes upstream, nothing changes where data is read from (`SameData`): the body keeps its
bytes, and the query is left by the rewrite, by `rewrite_keeps_query_iff`'s reasons, if the target of the route
is plain (`upstreamRequest_sameData`). The last step is the reading of the second gateway, and it is described
by the same relation `MapInput` as the reading of the first.

What the second map is given depends on the output of the first. Where that returned nothing, both maps read the
same data with the same parser, and so get the same input (`MapInput.eq_of_sameData`). Where it returned a
value, that has gone through a serializer of the one gateway and a parser of the other, and no more can be said
than that parsing undoes serializing: this is what `Decodes` asks for, for the two kinds of data and this value
only (`Carries.given`).
-/

namespace Apigate
open Lib Text Syn Prog Dispatch

variable {V ρ σ : Type}

/-! ## What the next map should be given

Both as relations between values. There is no request in them: what goes over the wire is the business of the
proof. -/

/-- A value that was sent as the one kind of data and is read as the other is given back: the parser undoes what
    the serializer does, and bytes are bytes. -/
inductive Decodes (crates : Crates V) (serializers : Serializers V) : DataKind → V → DataKind → Bound V → Prop
  | json {ty ty' : TypeId} {value : V}
      (hparse : ∀ text, serializers.jsonToString value = .ok text → crates.jsonFromSlice ty' text = .ok value) :
      Decodes crates serializers (.json ty) value (.json ty') (.owned value)
  | form {ty ty' : TypeId} {value : V}
      (hparse : ∀ text, serializers.formToString value = .ok text →
        crates.formFromBytes ty' text = .ok value ∧ crates.formFromStr ty' text = .ok value) :
      Decodes crates serializers (.form ty) value (.form ty') (.owned value)
  | bytes {value : V} : Decodes crates serializers .none value .none (.rawBody (serializers.intoBody value).bytes)
  | multipart {value : V} :
      Decodes crates serializers .multipart value .multipart (.rawBody (serializers.intoBody value).bytes)

/-- What the next map is given, by what the first was given and returned. Without a value the second map has to
    ask for the same kind of data as the first; with one, for a kind that the value can be read as. -/
def MapOutput.Reaches (crates : Crates V) (serializers : Serializers V) (data data' : DataKind)
    (given given' : Bound V) : MapOutput V → Prop
  | unit => data' = data → given' = given
  | value v => ∀ decoded, Decodes crates serializers data v data' decoded → given' = decoded

/-- An empty query and none hold the same text. -/
theorem encodedQuery_getD (encoded : Str) : (encodedQuery encoded).getD [] = encoded := by
  unfold encodedQuery
  split
  · rename_i hempty
    exact (List.isEmpty_iff.mp hempty).symm
  · rfl

section
variable {crates : Crates V} {bodyInQuery : Bool} {limit limit' : Nat} {req r : Request V} {data : DataKind}
  {f f' : Format} {input : f.In V} {input' : f'.In V}

/-- Where the data is read from, the two requests are the same. -/
structure SameData (r r' : Request V) : Prop where
  bytes : r.body.bytes = r'.body.bytes
  query : r.parts.uri.query = r'.parts.uri.query

/-- The same data is parsed to the same input. By cases on the kind of data: the method decides in both requests
    whether it is in the query, and the parser is a function of the text. -/
theorem MapInput.eq_of_sameData (hread : crates.ReadsFaithfully) (hsame : SameData r req)
    (h : MapInput crates bodyInQuery limit req data f input)
    (h' : MapInput crates bodyInQuery limit' r data f' input') : f'.input input' = f.input input := by
  have hbytes : ∀ {bytes bytes'}, crates.toBytes req.body limit = .ok bytes →
      crates.toBytes r.body limit' = .ok bytes' → bytes' = bytes := by
    intro bytes bytes' hok hok'
    rw [(hread _ _ _ hok').1, (hread _ _ _ hok).1, hsame.bytes]
  cases h with
  | bytes hok =>
      cases h' with
      | bytes hok' => rw [hbytes hok hok']
  | multipart hok =>
      cases h' with
      | multipart hok' => rw [hbytes hok hok']
  | json hok hparse =>
      cases h' with
      | json hok' hparse' =>
          rw [hbytes hok hok', hparse] at hparse'
          rw [Except.ok.inj hparse']
  | form hquery hok hparse =>
      cases h' with
      | form _ hok' hparse' =>
          rw [hbytes hok hok', hparse] at hparse'
          rw [Except.ok.inj hparse']
      | query hquery' _ => rw [hquery] at hquery'; cases hquery'
  | query hquery hparse =>
      cases h' with
      | form hquery' _ _ => rw [hquery] at hquery'; cases hquery'
      | query _ hparse' =>
          rw [hsame.query, hparse] at hparse'
          rw [Except.ok.inj hparse']

end

/-! ## The wire

From the request that is passed on to the one that is sent. The headers change here, the framing too, but no map
reads its data from them. -/

section
variable {crates : Crates V} {routeMeta : RouteMeta (PipelineFn V)}

/-- A rewrite whose target holds neither `?` nor `#` leaves the query, as it is parsed with nothing of its kind
    before it. -/
theorem rewritten_query (hreads : crates.ReadsText) {spec : RewriteSpec}
    (hspec : spec.toRewrite crates = some routeMeta.rewrite) (hplain : PlainTarget routeMeta.rewrite) {uri : Uri}
    (hpath : questionMark ∉ uri.path ∧ hash ∉ uri.path) (hquery : ∀ q, uri.query = some q → hash ∉ q)
    {newPq : Option PathAndQuery} (h : rewritePathAndQuery crates routeMeta uri = some (.ok newPq)) :
    ∃ pq, newPq = some pq ∧ pq.query = uri.query := by
  obtain ⟨pq, target, hpq, htarget, hparsed⟩ := rewritePathAndQuery_ok h
  obtain ⟨hmark, hhash⟩ := (plainTarget_iff htarget hpath.1 hpath.2).mp hplain
  refine ⟨pq, hpq, ?_⟩
  rcases hparsed with hparsed | ⟨fixed, hfixed, hnone, rfl⟩
  · rw [hreads _ _ hparsed]
    cases huri : uri.query with
    | none => rw [querySuffix, List.append_nil, ofText_path hhash hmark]
    | some q => rw [querySuffix, ofText_query hhash hmark (hquery q huri)]
  · -- parsed when the route was mounted
    rw [hfixed] at hspec
    unfold rewriteTarget at htarget
    rw [hfixed] at htarget
    cases htarget
    rw [hreads _ _ (toRewrite_static hspec), ofText_path hhash hmark, hnone]

/-- The request that goes upstream holds the data that is passed on. -/
theorem upstreamRequest_sameData (hreads : crates.ReadsText) {spec : RewriteSpec}
    (hspec : spec.toRewrite crates = some routeMeta.rewrite) (hplain : PlainTarget routeMeta.rewrite)
    {passed : Request V} (hpath : questionMark ∉ passed.parts.uri.path ∧ hash ∉ passed.parts.uri.path)
    (hquery : ∀ q, passed.parts.uri.query = some q → hash ∉ q) {backend : Backend} {body : Body}
    (hbody : body.Same passed.body) {r : Request V}
    (h : upstreamRequest crates backend routeMeta passed.parts body = some (.ok r)) : SameData r passed := by
  obtain ⟨uri, huri, rfl⟩ := upstreamRequest_parts h
  refine ⟨hbody.1, ?_⟩
  unfold rewriteUri at huri
  simp only [Option.bind_eq_bind, Option.bind_eq_some_iff] at huri
  obtain ⟨rewritten, hrewritten, huri⟩ := huri
  cases rewritten with
  | error e => cases huri
  | ok newPq =>
      obtain ⟨pq, rfl, hpq⟩ := rewritten_query hreads hspec hplain hpath hquery hrewritten
      cases huri
      exact hpq

/-- In a URI that carries data there is no `#`, and no `?` in the path: the request came in with such a URI, and
    what the serializer of queries writes is of this kind. -/
theorem Carries.readable {serializers : Serializers V} (hwrites : serializers.WritesQueries) {inQuery : Bool}
    {req passed : Request V} {f : Format} {output : MapOutput V} (h : Carries serializers inQuery req f output passed)
    (huri : req.parts.uri.WellFormed) :
    (questionMark ∉ passed.parts.uri.path ∧ hash ∉ passed.parts.uri.path) ∧
      ∀ q, passed.parts.uri.query = some q → hash ∉ q := by
  cases h with
  | unit => exact ⟨huri.path, fun q hq => huri.query hq⟩
  | body _ _ => exact ⟨huri.path, fun q hq => huri.query hq⟩
  | query _ hfinish hset =>
      refine ⟨?_, ?_⟩
      · show questionMark ∉ Uri.path _ ∧ hash ∉ Uri.path _
        rw [hset.path]
        exact huri.path
      · intro q hq
        have hq : Uri.query _ = some q := hq
        rw [hset.query, encodedQuery] at hq
        split at hq
        · cases hq
        · rw [← Option.some.inj hq]
          exact hwrites _ _ hfinish

end

/-! ## From map to map

The three steps together. First where a value stands in the request that carries it, one lemma for each format. -/

section
variable {crates : Crates V} {serializers : Serializers V} {bodyInQuery : Bool} {limit limit' : Nat}
  {req passed r : Request V} {data data' : DataKind} {f f' : Format} {input : f.In V} {input' : f'.In V}

/-- Where a value stands in a request that carries it, by its format. -/
theorem Carries.json_text {value : V} {inQuery : Bool}
    (h : Carries serializers inQuery req .json (.value value) passed) :
    serializers.jsonToString value = .ok passed.body.bytes := by
  cases h with
  | body _ hfinish =>
      exact (ok_of_finish hfinish).trans (congrArg Except.ok (Body.bytes_ofBytes _).symm)

/-- In the query, where the method has no body, and else in the body. -/
theorem Carries.form_text {value : V} {inQuery : Bool}
    (h : Carries serializers inQuery req .form (.value value) passed) :
    serializers.formToString value =
      .ok (if inQuery then passed.parts.uri.query.getD [] else passed.body.bytes) := by
  cases h with
  | body hquery hfinish =>
      subst hquery
      exact (ok_of_finish hfinish).trans (congrArg Except.ok (Body.bytes_ofBytes _).symm)
  | query hquery hfinish huri =>
      subst hquery
      show _ = Except.ok ((Uri.query _).getD [])
      rw [huri.query, encodedQuery_getD]
      exact hfinish

/-- Bytes are written by no serializer. -/
theorem Carries.raw_bytes {value : V} {inQuery : Bool}
    (h : Carries serializers inQuery req .raw (.value value) passed) :
    passed.body.bytes = (serializers.intoBody value).bytes := by
  cases h with
  | body _ hfinish =>
      obtain rfl := Option.some.inj (Except.ok.inj hfinish)
      rfl

/-- What is read from a request that carries a value is what the value decodes to. By cases on how it decodes,
    which fixes the format of the first map and the kind of data of the second; then the text that is parsed is
    the text that was written. -/
theorem Carries.given (hread : crates.ReadsFaithfully) {value : V} {given : Bound V}
    (hinput : MapInput crates bodyInQuery limit req data f input)
    (h : Carries serializers (data.inQuery bodyInQuery) req f (.value value) passed) (hsame : SameData r passed)
    (hdecodes : Decodes crates serializers data value data' given)
    (h' : MapInput crates bodyInQuery limit' r data' f' input') : f'.input input' = given := by
  have hbytes : ∀ {bytes}, crates.toBytes r.body limit' = .ok bytes → bytes = passed.body.bytes := by
    intro bytes hok
    rw [(hread _ _ _ hok).1, hsame.bytes]
  cases hdecodes with
  | json hparse =>
      cases hinput
      cases h' with
      | json hok hparse' =>
          rw [hbytes hok] at hparse'
          exact congrArg Bound.owned (Except.ok.inj (hparse'.symm.trans (hparse _ h.json_text)))
  | form hparse =>
      have hform : f = .form := by cases hinput <;> rfl
      subst hform
      obtain ⟨hbody, hquery⟩ := hparse _ h.form_text
      cases h' with
      | form hinBody hok hparse' =>
          subst hinBody
          rw [hbytes hok] at hparse'
          exact congrArg Bound.owned (Except.ok.inj (hparse'.symm.trans hbody))
      | query hinQuery hparse' =>
          subst hinQuery
          rw [hsame.query] at hparse'
          exact congrArg Bound.owned (Except.ok.inj (hparse'.symm.trans hquery))
  | bytes =>
      cases hinput
      cases h' with
      | bytes hok => exact congrArg Bound.rawBody ((hbytes hok).trans h.raw_bytes)
  | multipart =>
      cases hinput
      cases h' with
      | multipart hok => exact congrArg Bound.rawBody ((hbytes hok).trans h.raw_bytes)

end

section
variable [RouteStrategy ρ] [Balancer σ] [Xxh3]

/-- **What a map returns is what the next one is given.** Take any route with a map and any hooks, of which none
    has a `&mut PartsCtx`, and with a target that holds neither `?` nor `#`. Whatever request its handler sends,
    with any policies and any upstream, the map has been called with the data of the incoming request and has
    returned something; and a map that is called with the data of the sent request, behind a route for the same
    method anywhere, is given this: where the first has returned nothing, what it was given itself; where it has
    returned a value, what its value decodes to. -/
theorem map_output_reaches_next_map {crates : Crates V} (hread : crates.ReadsFaithfully) (hreads : crates.ReadsText)
    (client : Client V) {inner : Inner V} {routeIdx : Nat} {routeMeta : RouteMeta (PipelineFn V)}
    (hmeta : inner.routeMetas[routeIdx]? = some routeMeta) {spec : RewriteSpec}
    (hspec : spec.toRewrite crates = some routeMeta.rewrite) (hplain : PlainTarget routeMeta.rewrite)
    {special : SpecialTypePaths} {types : Types} {serializers : Serializers V} (hwrites : serializers.WritesQueries)
    {args : RouteArgs V} {hooks : List (HookFn V special types)} {m : MapFunction V special types}
    (hwritten : args.WrittenAs serializers hooks (some m)) (hnoCtx : NoneBinds .ctx hooks (some m))
    {bodyInQuery : Bool} (hpipeline : routeMeta.pipeline = generatePipelineWrapper crates args bodyInQuery)
    {req : Request V}
    (hform : req.parts.uri.InForm) (huri : req.parts.uri.WellFormed) {policies : Policies ρ σ} {r : Request V}
    (hsent : .sent r ∈ (proxyHandler crates client inner routeIdx req policies).trace) :
    ∃ f input output, MapInput crates bodyInQuery inner.mapBodyLimit req args.data f input ∧
      m.Returns req.parts (f.input input) output ∧
      ∀ limit data' f' input', MapInput crates bodyInQuery limit r data' f' input' →
        output.Reaches crates serializers args.data data' (f.input input) (f'.input input') := by
  obtain ⟨body, backend, -, hok, hrequest⟩ := sent_by_handler hmeta hsent
  obtain ⟨f, input, output, passed, hinput, hreturns, hcarries, hhead, hbody⟩ :=
    pipelineOutcome_carries hread (fun s pq _ h => hreads s pq h) hwrites hwritten hnoCtx hpipeline hform huri hok
  rw [hhead] at hrequest
  obtain ⟨hpath, hquery⟩ := hcarries.readable hwrites huri
  have hsame : SameData r passed := upstreamRequest_sameData hreads hspec hplain hpath hquery hbody hrequest
  refine ⟨f, input, output, hinput, hreturns, ?_⟩
  intro limit data' f' input' hinput'
  cases output with
  | unit =>
      rintro rfl
      cases hcarries
      exact hinput.eq_of_sameData hread hsame hinput'
  | value value => exact fun decoded hdecodes => hcarries.given hread hinput hsame hdecodes hinput'

end

/-! ## The second page, read by the next gateway -/

/-- The theorem at a request for `/sales/items?q=1`. -/
theorem map_output_reaches_next_map_paged :
    ∃ r, .sent r ∈ (@proxyHandler Str NoRouteKey RoundRobin _ _ .length .cutting soloClient pagedInner 0 pagedRequest
        fun _ => .new).trace ∧
      ∃ f input output, MapInput .cutting true pagedInner.mapBodyLimit pagedRequest pagedArgs.data f input ∧
        paged.Returns pagedRequest.parts (f.input input) output ∧
        ∀ limit data' f' input', MapInput .cutting true limit r data' f' input' →
          output.Reaches .cutting pagedSerializers pagedArgs.data data' (f.input input) (f'.input input') := by
  obtain ⟨r, hr⟩ : ∃ r, (@proxyHandler Str NoRouteKey RoundRobin _ _ .length .cutting soloClient pagedInner 0
    pagedRequest fun _ => .new).trace.filterMap DispatchEvent.sent? = [r] := ⟨_, rfl⟩
  have hsent : .sent r ∈ (@proxyHandler Str NoRouteKey RoundRobin _ _ .length .cutting soloClient pagedInner 0
      pagedRequest fun _ => .new).trace := by
    obtain ⟨event, hevent, heq⟩ := List.mem_filterMap.mp (hr ▸ List.mem_singleton_self r)
    cases event <;> cases heq
    exact hevent
  have hplain : PlainTarget pagedMeta.rewrite := fun _ htext => nomatch htext
  exact ⟨r, hsent, @map_output_reaches_next_map Str NoRouteKey RoundRobin _ _ .length .cutting plain_readsFaithfully
    cutting_readsText soloClient pagedInner 0 pagedMeta rfl .stripPrefix rfl hplain _ _ _
    pagedSerializers_writesQueries pagedArgs [] paged ⟨rfl, rfl⟩ paged_noCtx true rfl pagedRequest
    (.origin (str "sales/items") (some (str "q=1"))) itemsUri_wellFormed _ _ hsent⟩

end Apigate
