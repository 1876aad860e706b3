import Apigate.App.Build
import Apigate.Proxy
import Apigate.Correctness.PathText

/-!
# `Correctness.QueryKept` — what becomes of the query when the path is rewritten

Every strategy puts a text in front of the query, its target, and parses the two together, as one text. Where
the target holds neither `?` nor `#` the query comes out as it went in; anywhere else it is either dropped or
glued to the last parameter of the target (`rewrite_keeps_query_iff`).

Two things have to be found out for this. The first is where the bytes of a target come from.
`rewritePathAndQuery` splits into cases by the strategy and by what the request has, but in all of them the
result is parsed from target and query (`rewritePathAndQuery_ok`); and as the path of a request holds neither of
the two bytes, and stripping and capturing only cut pieces out of it, a `?` or `#` in the target stands in a
literal text of the configuration (`mem_rewriteTarget`). So what looks like a condition on one request is a
condition on the route.

The second is what a second `?` does. Queries are compared by their pieces between `&`, as a service reads them.
The parser ends the path at the first `?` and everything at the first `#`; any later `?` is an ordinary byte of
the query. Two queries with such a `?` between them have one piece less than the two apart, since the last of
the one and the first of the other are now one piece. Counting the pieces is therefore enough to show that the
query is not kept.
-/

namespace Apigate
open Lib Text Segments

variable {V Pipeline : Type}

/-! ## The target of a rewrite

The target is a definition of its own, next to the function of the source, in which it is only ever seen with
the query behind it. -/

/-- The text that a rewrite puts in front of the query. -/
def rewriteTarget (routeMeta : RouteMeta Pipeline) (path : Str) : Checked (Option Str) :=
  match routeMeta.rewrite with
  | .static fixed => some (some fixed.raw)
  | .stripPrefix => some (some (stripPrefix path routeMeta.servicePrefix))
  | .template tpl => renderTemplate tpl (stripPrefix path routeMeta.servicePrefix) none

/-- The texts that stand in the target whatever the request is. -/
def Rewrite.literals : Rewrite → List Str
  | .stripPrefix => []
  | .static fixed => [fixed.raw]
  | .template tpl => tpl.dst.filterMap fun
      | .lit text => some text
      | .capture _ => none

/-- No literal text of the target holds a `?` or a `#`. -/
def PlainTarget (rewrite : Rewrite) : Prop :=
  ∀ text ∈ rewrite.literals, questionMark ∉ text ∧ hash ∉ text

/-- A template is rendered by itself, and the query comes behind it. -/
theorem renderTemplate_query (tpl : RewriteTemplate) (path : Str) (query : Option Str) :
    renderTemplate tpl path query =
      (renderTemplate tpl path none).map (fun rendered => rendered.map (· ++ querySuffix query)) := by
  unfold renderTemplate
  cases captureRaw tpl.src path with
  | none => rfl
  | some captured =>
      cases captured with
      | none => rfl
      | some captures =>
          simp only [Option.bind_eq_bind, Option.bind_some]
          cases renderChunks path captures tpl.dst [] with
          | none => rfl
          | some out => simp [querySuffix]

/-- A text that is parsed to a new path and query. -/
theorem parse_ok {crates : Crates V} {text : Str} {newPq : Option PathAndQuery}
    (h : ((crates.pathAndQuery text).mapError fun _ => ProxyErrorKind.invalidUpstreamUri).map some = .ok newPq) :
    ∃ pq, newPq = some pq ∧ crates.pathAndQuery text = .ok pq := by
  cases hparse : crates.pathAndQuery text with
  | error e =>
      rw [hparse] at h
      cases h
  | ok pq =>
      rw [hparse] at h
      cases h
      exact ⟨pq, rfl, rfl⟩

/-- **A rewrite parses its target together with the query**; a fixed target without a query was parsed before.
    These are the cases of the source put into one statement, and the only place where they are gone through. -/
theorem rewritePathAndQuery_ok {crates : Crates V} {routeMeta : RouteMeta Pipeline} {uri : Uri}
    {newPq : Option PathAndQuery} (h : rewritePathAndQuery crates routeMeta uri = some (.ok newPq)) :
    ∃ pq target, newPq = some pq ∧ rewriteTarget routeMeta uri.path = some (some target) ∧
      (crates.pathAndQuery (target ++ querySuffix uri.query) = .ok pq ∨
        ∃ fixed, routeMeta.rewrite = .static fixed ∧ uri.query = none ∧ pq = fixed.noQuery) := by
  unfold rewritePathAndQuery at h
  unfold rewriteTarget
  cases hrewrite : routeMeta.rewrite with
  | static fixed =>
      rw [hrewrite] at h
      cases hquery : uri.query with
      | none =>
          rw [hquery] at h
          cases h
          exact ⟨fixed.noQuery, fixed.raw, rfl, rfl, Or.inr ⟨fixed, rfl, rfl, rfl⟩⟩
      | some q =>
          rw [hquery] at h
          obtain ⟨pq, hpq, hparse⟩ := parse_ok (Option.some.inj h)
          rw [List.append_assoc] at hparse
          exact ⟨pq, fixed.raw, hpq, rfl, Or.inl hparse⟩
  | stripPrefix =>
      rw [hrewrite] at h
      cases hquery : uri.query with
      | none =>
          rw [hquery] at h
          obtain ⟨pq, hpq, hparse⟩ := parse_ok (Option.some.inj h)
          rw [← List.append_nil (stripPrefix _ _)] at hparse
          exact ⟨pq, _, hpq, rfl, Or.inl hparse⟩
      | some q =>
          rw [hquery] at h
          obtain ⟨pq, hpq, hparse⟩ := parse_ok (Option.some.inj h)
          rw [List.append_assoc] at hparse
          exact ⟨pq, _, hpq, rfl, Or.inl hparse⟩
  | template tpl =>
      rw [hrewrite] at h
      dsimp only at h ⊢
      rw [renderTemplate_query] at h
      cases hrendered : renderTemplate tpl (stripPrefix uri.path routeMeta.servicePrefix) none with
      | none =>
          rw [hrendered] at h
          cases h
      | some rendered =>
          cases rendered with
          | none =>
              rw [hrendered] at h
              cases h
          | some target =>
              rw [hrendered] at h
              obtain ⟨pq, hpq, hparse⟩ := parse_ok (Option.some.inj h)
              exact ⟨pq, target, hpq, rfl, Or.inl hparse⟩

/-- A fixed target was parsed when the route was built. -/
theorem toRewrite_static {crates : Crates V} {spec : RewriteSpec} {fixed : FixedRewrite}
    (h : spec.toRewrite crates = some (.static fixed)) : crates.pathAndQuery fixed.raw = .ok fixed.noQuery := by
  cases spec with
  | stripPrefix => cases h
  | template tpl => cases h
  | static raw =>
      simp only [RewriteSpec.toRewrite, Option.bind_eq_bind, Option.bind_eq_some_iff] at h
      obtain ⟨fixed', hnew, h⟩ := h
      cases h
      obtain ⟨noQuery, hparse, hnew⟩ := Option.bind_eq_some_iff.mp hnew
      cases hnew
      exact crates.fromStatic_ok _ _ hparse

/-! ## What the target holds

Where a byte of the target comes from, one function at a time, outwards: a slice, the stripped path, the
rendered chunks, the target. The slash is left out everywhere, as stripping may put one in. -/

/-- A slice holds nothing new. -/
theorem mem_of_slice? {s x : Str} {i j : Nat} (h : slice? s i j = some x) {b : UInt8} (hb : b ∈ x) : b ∈ s := by
  unfold slice? at h
  split at h
  · cases h
    exact List.mem_of_mem_take (List.mem_of_mem_drop hb)
  · cases h

/-- Stripping a prefix brings in nothing but a slash. -/
theorem mem_stripPrefix {path servicePrefix : Str} {b : UInt8} (hslash : b ≠ slash)
    (h : b ∈ stripPrefix path servicePrefix) : b ∈ path := by
  have hroot : b ∉ str "/" := by
    show b ∉ [slash]
    simpa using hslash
  unfold stripPrefix at h
  split at h
  · exact h
  · exact absurd h hroot
  · rename_i c rest hstrip
    split at h
    · rw [stripPrefix?_eq_some.mp hstrip]
      exact List.mem_append_right _ h
    · exact absurd h hroot

/-- The captured texts are slices of the path, so a byte that is not in the path comes from a literal. -/
theorem mem_renderChunks {path : Str} {captures : List (Nat × Nat)} {dst : List DstChunk} {out text : Str}
    (h : renderChunks path captures dst out = some text) {b : UInt8} (hb : b ∉ path) :
    b ∈ text ↔ b ∈ out ∨ ∃ lit ∈ Rewrite.literals (.template ⟨[], dst, 0⟩), b ∈ lit := by
  induction dst generalizing out with
  | nil =>
      cases h
      simp [Rewrite.literals]
  | cons chunk dst ih =>
      cases chunk with
      | lit s =>
          rw [renderChunks] at h
          rw [ih h]
          simp [Rewrite.literals, or_assoc]
      | capture srcIndex =>
          simp only [renderChunks, Option.bind_eq_bind, Option.bind_eq_some_iff] at h
          obtain ⟨range, -, value, hvalue, h⟩ := h
          have hnew : b ∉ value := fun hmem => hb (mem_of_slice? hvalue hmem)
          rw [ih h]
          simp [Rewrite.literals, hnew]

/-- A byte that is not in the request path comes from a literal text. -/
theorem mem_rewriteTarget {routeMeta : RouteMeta Pipeline} {path target : Str}
    (h : rewriteTarget routeMeta path = some (some target)) {b : UInt8} (hslash : b ≠ slash) (hb : b ∉ path) :
    b ∈ target ↔ ∃ text ∈ routeMeta.rewrite.literals, b ∈ text := by
  have hstripped : b ∉ stripPrefix path routeMeta.servicePrefix := fun hmem => hb (mem_stripPrefix hslash hmem)
  unfold rewriteTarget at h
  cases hrewrite : routeMeta.rewrite with
  | static fixed =>
      rw [hrewrite] at h
      cases h
      simp [Rewrite.literals]
  | stripPrefix =>
      rw [hrewrite] at h
      cases h
      simpa [Rewrite.literals] using hstripped
  | template tpl =>
      rw [hrewrite] at h
      unfold renderTemplate at h
      simp only [Option.bind_eq_bind, Option.bind_eq_some_iff] at h
      obtain ⟨captured, -, h⟩ := h
      cases captured with
      | none => cases h
      | some captures =>
          simp only [Option.bind_eq_some_iff] at h
          obtain ⟨out, hout, h⟩ := h
          cases h
          rw [querySuffix, List.append_nil, mem_renderChunks hout hstripped]
          simp [Rewrite.literals]

/-- So it depends on the route alone whether a `?` or `#` gets into the target. -/
theorem plainTarget_iff {routeMeta : RouteMeta Pipeline} {path target : Str}
    (h : rewriteTarget routeMeta path = some (some target)) (hmark : questionMark ∉ path) (hhash : hash ∉ path) :
    PlainTarget routeMeta.rewrite ↔ questionMark ∉ target ∧ hash ∉ target := by
  rw [mem_rewriteTarget h (by decide) hmark, mem_rewriteTarget h (by decide) hhash]
  unfold PlainTarget
  constructor
  · intro hplain
    exact ⟨fun ⟨text, htext, hb⟩ => (hplain text htext).1 hb, fun ⟨text, htext, hb⟩ => (hplain text htext).2 hb⟩
  · rintro ⟨hno, hno'⟩ text htext
    exact ⟨fun hb => hno ⟨text, htext, hb⟩, fun hb => hno' ⟨text, htext, hb⟩⟩

/-! ## The pieces of a query

What keeping a query means is said about its pieces and their order, not about the text: a target may have a
query of its own, and then the forwarded text is another in any case. -/

/-- `&` -/
abbrev ampersand : UInt8 := 0x26

/-- The `&`-separated pieces of a query; none where there is no query. -/
def queryPieces : Option Str → List Str
  | some q => q.splitOn ampersand
  | none => []

/-- What is forwarded for a target and a query: the pieces of the query stand among the forwarded ones, in their
    order, each as a piece of its own next to those of the target; the path is the target's. -/
structure KeepsQuery (target : PathAndQuery) (query : Option Str) (forwarded : PathAndQuery) : Prop where
  path : forwarded.path = target.path
  inOrder : (queryPieces query).Sublist (queryPieces forwarded.query)
  alone : (queryPieces forwarded.query).Perm (queryPieces target.query ++ queryPieces query)

/-- Two queries joined by a `?` have one piece less than they had apart. -/
theorem length_joined_pieces (t q : Str) :
    (queryPieces (some (t ++ questionMark :: q))).length + 1 =
      (queryPieces (some t)).length + (queryPieces (some q)).length := by
  have hmark : (questionMark == ampersand) = false := by decide
  unfold queryPieces
  dsimp only
  rw [length_splitOn, length_splitOn, length_splitOn, List.count_append, List.count_cons, hmark]
  simp
  omega

/-- A target without `?` and `#` keeps the query, for it has no piece of its own and ends where the query
    begins. -/
theorem keepsQuery_of_plain {target q : Str} (hmark : questionMark ∉ target) (hhash : hash ∉ target)
    (hq : hash ∉ q) :
    KeepsQuery (.ofText target) (some q) (.ofText (target ++ querySuffix (some q))) := by
  rw [querySuffix, ofText_query hhash hmark hq, ofText_path hhash hmark]
  exact ⟨rfl, List.Sublist.refl _, List.Perm.refl _⟩

/-- A `#` in the target swallows the query, a `?` glues its first piece to the target's last one. In both cases
    there is at least one piece less than there should be. -/
theorem not_keepsQuery {target q : Str} (hq : hash ∉ q) (h : questionMark ∈ target ∨ hash ∈ target) :
    ¬ KeepsQuery (.ofText target) (some q) (.ofText (target ++ querySuffix (some q))) := by
  have hone : (queryPieces (some q)).length ≠ 0 := by
    unfold queryPieces
    rw [length_splitOn]
    omega
  intro hkeeps
  have hlength := hkeeps.alone.length_eq
  rw [List.length_append, querySuffix] at hlength
  rcases cut_first hash target with hhash | ⟨u, t, rfl, hu⟩
  · obtain ⟨u, t, rfl, hu⟩ := List.eq_append_cons_of_mem (h.resolve_right hhash)
    have hu' : hash ∉ u := fun hmem => hhash (List.mem_append_left _ hmem)
    have ht : hash ∉ t := fun hmem => hhash (List.mem_append_right _ (List.mem_cons_of_mem _ hmem))
    have hjoined : hash ∉ t ++ questionMark :: q := by
      simp only [List.mem_append, List.mem_cons, not_or]
      exact ⟨ht, by decide, hq⟩
    rw [List.append_assoc, List.cons_append, ofText_query hu' hu hjoined, ofText_query hu' hu ht] at hlength
    dsimp only at hlength
    have hless := length_joined_pieces t q
    omega
  · rw [List.append_assoc, List.cons_append, ofText_fragment hu, ofText_fragment hu] at hlength
    omega

/-! ## The main result -/

/-- **A rewrite keeps the query, unless its target holds a `?` or a `#`.** -/
theorem rewrite_keeps_query_iff {crates : Crates V} (hreads : crates.ReadsText) {spec : RewriteSpec}
    {routeMeta : RouteMeta Pipeline} (hspec : spec.toRewrite crates = some routeMeta.rewrite) {uri : Uri}
    (huri : uri.WellFormed) {newPq : Option PathAndQuery}
    (h : rewritePathAndQuery crates routeMeta uri = some (.ok newPq)) :
    ∃ forwarded target, newPq = some forwarded ∧ rewriteTarget routeMeta uri.path = some (some target) ∧
      (KeepsQuery (.ofText target) uri.query forwarded ↔ uri.query = none ∨ PlainTarget routeMeta.rewrite) := by
  obtain ⟨pq, target, hpq, htarget, hparsed⟩ := rewritePathAndQuery_ok h
  have hread : pq = .ofText (target ++ querySuffix uri.query) := by
    rcases hparsed with hparsed | ⟨fixed, hfixed, hquery, rfl⟩
    · exact hreads _ _ hparsed
    · unfold rewriteTarget at htarget
      rw [hfixed] at htarget hspec
      cases htarget
      rw [hquery, querySuffix, List.append_nil]
      exact hreads _ _ (toRewrite_static hspec)
  refine ⟨pq, target, hpq, htarget, ?_⟩
  rw [plainTarget_iff htarget huri.path.1 huri.path.2, hread]
  cases hquery : uri.query with
  | none =>
      rw [querySuffix, List.append_nil]
      simp only [true_or, iff_true]
      exact ⟨rfl, List.nil_sublist _, by simp [queryPieces]⟩
  | some q =>
      have hq := huri.query hquery
      constructor
      · intro hkeeps
        right
        by_contra hholds
        exact not_keepsQuery hq (by tauto) hkeeps
      · rintro (hnone | ⟨hmark, hhash⟩)
        · cases hnone
        · exact keepsQuery_of_plain hmark hhash hq

/-! ## Examples -/

/-- A route with the fixed target `/search?lang=en`. -/
def searchRoute : RouteMeta Str :=
  ⟨str "sales", str "/items", str "/sales",
    .static ⟨str "/search?lang=en", ⟨str "/search", some (str "lang=en")⟩⟩, ⟨[]⟩, 0, none⟩

/-- The request target `/sales/items?q=1`. -/
def itemsUri : Uri := ⟨none, none, some ⟨str "/sales/items", some (str "q=1")⟩⟩

theorem itemsUri_wellFormed : itemsUri.WellFormed := by
  rintro pq ⟨⟩
  refine ⟨by decide, by decide, ?_⟩
  rintro q ⟨⟩
  decide

/-- The theorem at this route and request. -/
theorem rewrite_keeps_query_iff_search :
    ∃ forwarded target, some ⟨str "/search", some (str "lang=en?q=1")⟩ = some forwarded ∧
      rewriteTarget searchRoute itemsUri.path = some (some target) ∧
      (KeepsQuery (.ofText target) itemsUri.query forwarded ↔
        itemsUri.query = none ∨ PlainTarget searchRoute.rewrite) :=
  @rewrite_keeps_query_iff Str Str .cutting cutting_readsText (.static (str "/search?lang=en")) searchRoute rfl
    itemsUri itemsUri_wellFormed _ rfl

/-- **A target with a query of its own glues the incoming one to its last parameter.** -/
theorem query_glued_to_target :
    buildRewriteSpec (str "/items") (some (str "/search?lang=en")) =
        some (.ok (.static (str "/search?lang=en"))) ∧
      RewriteSpec.toRewrite Crates.cutting (.static (str "/search?lang=en")) = some searchRoute.rewrite ∧
      rewritePathAndQuery Crates.cutting searchRoute itemsUri =
        some (.ok (some ⟨str "/search", some (str "lang=en?q=1")⟩)) ∧
      str "q=1" ∉ queryPieces (some (str "lang=en?q=1")) ∧
      ¬ KeepsQuery (.ofText (str "/search?lang=en")) itemsUri.query
        ⟨str "/search", some (str "lang=en?q=1")⟩ := by
  have hpiece : str "q=1" ∉ queryPieces (some (str "lang=en?q=1")) := by decide
  refine ⟨rfl, rfl, rfl, hpiece, ?_⟩
  intro hkeeps
  apply hpiece
  apply hkeeps.inOrder.subset
  show str "q=1" ∈ (str "q=1").splitOn ampersand
  decide

end Apigate
