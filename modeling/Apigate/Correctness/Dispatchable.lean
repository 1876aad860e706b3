import Apigate.Correctness.Mounting

/-!
# `Correctness.Dispatchable` — requests the router accepts for a template route

The router matches the request path against the mounted pattern segment by segment, empty segments included; the
compiled source pattern has lost the empty ones, and the scanner stops on an empty remainder. Where both
readings agree, every dispatched request is rewritten with the router's own values.

A match of the router is a derivation over two lists of segments, those of the mounted pattern and those of the
path. The proof turns it into a match of the scanner. First the prefix is cut off: it has no parameters, so its
segments are literals and stand at the head of both lists (`RouterMatches.under_prefix`). Then the two readings
of what is left are made equal. They differ in a single place, at a trailing slash, where the router sees an
empty last segment and the scanner none; and an empty last segment can be taken off both sides of a match
(`SegsMatch.dropEmptyLast`). What remains is the same relation in two forms, and by induction on the derivation
the captured segments are the router's values, in their order (`SegsMatch.matchRanges`). With that
`renderTemplate_match` gives the rendered target.

Each hypothesis of the main result is a place where this breaks down, and `dispatched_request_not_captured` has
a request for each of the three that the code does nothing about.
-/

namespace Apigate
open Lib Text Segments

/-! ## Matches without a slash in a value

Only a catch-all can have a value with a slash in it. Without one it is a parameter like any other, of the last
segment, and the scanner treats it as such. -/

/-- The values of a match, none of which spans several segments. -/
def SlashFree (vs : List (Str × Str)) : Prop := ∀ name v, (name, v) ∈ vs → slash ∉ v

/-- Neither does any of the others. -/
theorem SlashFree.tail {p : Str × Str} {vs : List (Str × Str)} (h : SlashFree (p :: vs)) : SlashFree vs :=
  fun name v hv => h name v (List.mem_cons_of_mem _ hv)

/-- A rest without a slash is one segment. -/
theorem rest_one_segment {qs : List Str} (hne : [slash].intercalate qs ≠ [])
    (hslash : slash ∉ [slash].intercalate qs) : ∃ v, qs = [v] ∧ v ≠ [] := by
  match qs with
  | [] => exact absurd rfl hne
  | [v] => exact ⟨v, rfl, by simpa [List.intercalate] using hne⟩
  | u :: v :: qs =>
      refine absurd ?_ hslash
      simp [List.intercalate]

/-- A match uses up both lists together. -/
theorem SegsMatch.nil_iff {ps qs : List Str} {vs : List (Str × Str)} (h : SegsMatch ps qs vs) :
    ps = [] ↔ qs = [] := by
  cases h with
  | nil => simp
  | lit _ _ => simp
  | param _ _ => simp
  | rest hq =>
      constructor
      · intro h
        cases h
      · rintro rfl
        exact absurd rfl hq

/-- **An empty last segment can be dropped on both sides.** By induction on the match. In the last segment a
    literal is empty on both sides or on neither, and the value of a parameter is not empty, so that nothing is
    dropped. -/
theorem SegsMatch.dropEmptyLast {ps qs : List Str} {vs : List (Str × Str)} (h : SegsMatch ps qs vs)
    (hfree : SlashFree vs) : SegsMatch (dropEmptyLast ps) (dropEmptyLast qs) vs := by
  induction h with
  | nil => exact .nil
  | @lit s ps qs vs hs h ih =>
      by_cases hps : ps = []
      · -- the last segment: it is dropped on both sides or on none
        obtain rfl := h.nil_iff.mp hps
        subst hps
        cases s with
        | nil => exact h
        | cons b s =>
            rw [dropEmptyLast_of_ne (by simp)]
            exact .lit hs h
      · rw [dropEmptyLast_cons hps, dropEmptyLast_cons (mt h.nil_iff.mpr hps)]
        exact .lit hs (ih hfree)
  | @param name v ps qs vs hv h ih =>
      by_cases hps : ps = []
      · obtain rfl := h.nil_iff.mp hps
        subst hps
        rw [dropEmptyLast_of_ne (by simp [braced]), dropEmptyLast_of_ne (by simpa using hv)]
        exact .param hv h
      · rw [dropEmptyLast_cons hps, dropEmptyLast_cons (mt h.nil_iff.mpr hps)]
        exact .param hv (ih hfree.tail)
  | @rest name qs hq =>
      -- a catch-all value without a slash is one segment, as the value of any parameter
      obtain ⟨v, rfl, hv⟩ := rest_one_segment hq (hfree _ _ (List.mem_singleton.mpr rfl))
      rw [dropEmptyLast_of_ne (by simp [braced]), dropEmptyLast_of_ne (by simpa using hv)]
      exact .rest hq

/-- **A match of the router is a match of the source pattern**, with the same names and values. -/
theorem SegsMatch.matchRanges {ps qs : List Str} {vs : List (Str × Str)} (h : SegsMatch ps qs vs)
    (hfree : SlashFree vs) (off : Nat) :
    (∃ rs, matchRanges off (ps.map segSrc) qs = some rs) ∧
      capturedSegs (ps.map segSrc) qs = vs.map Prod.snd ∧ ps.filterMap segName = vs.map Prod.fst := by
  induction h generalizing off with
  | nil => exact ⟨⟨[], rfl⟩, rfl, rfl⟩
  | @lit s ps qs vs hs _ ih =>
      obtain ⟨⟨rs, hrs⟩, hcap, hnames⟩ := ih hfree (off + (s.length + 1))
      rw [List.map_cons, segSrc_of_not_braced hs, List.filterMap_cons, segName_eq_none hs]
      exact ⟨⟨rs, by simp [Apigate.matchRanges, hrs]⟩, hcap, hnames⟩
  | @param name v ps qs vs _ _ ih =>
      obtain ⟨⟨rs, hrs⟩, hcap, hnames⟩ := ih hfree.tail (off + (v.length + 1))
      rw [List.map_cons, segSrc_braced, List.filterMap_cons, segName_braced]
      refine ⟨⟨(off, off + v.length) :: rs, ?_⟩, by simp [capturedSegs, hcap], by simp [hnames]⟩
      simp [Apigate.matchRanges, hrs]
  | @rest name qs hq =>
      obtain ⟨v, rfl, hv⟩ := rest_one_segment hq (hfree _ _ (List.mem_singleton.mpr rfl))
      rw [List.map_cons, segSrc_braced, List.filterMap_cons, segName_braced]
      exact ⟨⟨_, rfl⟩, by simp [capturedSegs, List.intercalate], by simp⟩

/-- Looking a name up in a list of pairs, by its position among the names. -/
theorem lookup_of_findIdx {vs : List (Str × Str)} {name : Str} {k : Nat}
    (hk : (vs.map Prod.fst).findIdx? (· == name) = some k) :
    ∃ v, vs.lookup name = some v ∧ (vs.map Prod.snd)[k]? = some v := by
  induction vs generalizing k with
  | nil => simp at hk
  | cons p vs ih =>
      obtain ⟨n, v⟩ := p
      rw [List.map_cons, List.findIdx?_cons] at hk
      by_cases hn : n = name
      · subst hn
        simp only [beq_self_eq_true, if_true, Option.some.injEq] at hk
        subst hk
        exact ⟨v, by simp, rfl⟩
      · rw [if_neg (by simpa using hn), Option.map_eq_some_iff] at hk
        obtain ⟨k', hk', rfl⟩ := hk
        obtain ⟨w, hw, hwk⟩ := ih hk'
        refine ⟨w, ?_, by simpa using hwk⟩
        rw [List.lookup_cons]
        have hne : (name == n) = false := by
          rw [beq_eq_false_iff_ne]
          exact fun h => hn h.symm
        rw [hne]
        exact hw

/-! ## Dispatched requests

The prefix, the leading slash and the empty segments: what stands between the mounted pattern and the compiled
source. -/

/-- No segment of the route path is empty, except in front of a leading slash or behind a trailing one. -/
def NoEmptySegment (routePath : Str) : Prop :=
  [] ∉ (((join [] routePath).drop 1).splitOn slash).dropLast

instance (routePath : Str) : Decidable (NoEmptySegment routePath) := inferInstanceAs (Decidable (¬ _))

/-- The non-empty segments do not depend on a leading slash. -/
theorem nonEmptySegs_join (routePath : Str) {c : Str} (hc : join [] routePath = slash :: c) :
    nonEmptySegs slash routePath = nonEmptySegs slash c := by
  unfold join at hc
  rw [show (if endsWith [] slash then trimEndMatches slash [] else ([] : Str)) = [] from rfl,
    List.nil_append] at hc
  by_cases hs : startsWith routePath (str "/") = true
  · rw [if_pos hs] at hc
    rw [hc]
    unfold nonEmptySegs
    rw [show slash :: c = [] ++ slash :: c from rfl, List.splitOn_append_cons_self]
    simp
  · rw [if_neg hs] at hc
    rw [(List.cons.inj hc).2]

/-- Under a literal prefix, what the router matches is the prefix, a slash, and segments that match the route
    path. -/
theorem RouterMatches.under_prefix {servicePrefix routePath path c : Str} {values : List (Str × Str)}
    (hc : join [] routePath = slash :: c) (hplain : endsWith servicePrefix slash = false)
    (hlit : ∀ s ∈ servicePrefix.splitOn slash, isBraced s = false)
    (hmatch : RouterMatches (join servicePrefix routePath) path values) :
    ∃ content, path = servicePrefix ++ slash :: content ∧
      SegsMatch (c.splitOn slash) (content.splitOn slash) values := by
  obtain ⟨c', hc', hjoin⟩ := join_eq servicePrefix routePath
  obtain rfl : c' = c := (List.cons.inj (hc'.symm.trans hc)).2
  obtain ⟨k, hk, -, hiff⟩ := trimEndMatches_split slash servicePrefix
  obtain rfl : k = 0 := hiff.mp hplain
  rw [List.replicate_zero, List.append_nil] at hk
  rw [← hk] at hjoin
  unfold RouterMatches at hmatch
  rw [hjoin, List.splitOn_append_cons_self] at hmatch
  obtain ⟨qs, hqs, hrest⟩ := hmatch.of_literals hlit
  have hne : qs ≠ [] := mt hrest.nil_iff.mpr (List.splitOn_ne_nil _ _)
  have hq : ∀ q ∈ qs, slash ∉ q := fun q hmem =>
    not_mem_of_mem_splitOn (s := path) (by rw [hqs]; exact List.mem_append_right _ hmem)
  have hcontent : ([slash].intercalate qs).splitOn slash = qs := List.splitOn_intercalate slash hq hne
  refine ⟨[slash].intercalate qs, ?_, by rw [hcontent]; exact hrest⟩
  have hrejoin : [slash].intercalate (path.splitOn slash) = path := List.intercalate_splitOn slash
  rw [← hrejoin, hqs, ← hcontent, ← List.splitOn_append_cons_self, List.intercalate_splitOn, hcontent]

/-- **Where the two matchers read the same segments, every dispatched request is rewritten.** The prefix ends in
    no slash and has no parameters, the route path has no empty segment, and a catch-all value has no slash in
    it: then `capture_raw` succeeds, and the rendered target has for each parameter the full value the router
    matched. -/
theorem dispatched_request_is_rewritten {routePath target servicePrefix path : Str}
    {tpl : RewriteTemplate} {values : List (Str × Str)} (query : Option Str)
    (hcompile : compileRewriteTemplate routePath target = some (.ok tpl))
    (hplain : endsWith servicePrefix slash = false)
    (hlit : ∀ s ∈ servicePrefix.splitOn slash, isBraced s = false)
    (hempty : NoEmptySegment routePath) (hpath : Utf8 path)
    (hmatch : RouterMatches (join servicePrefix routePath) path values) (hfree : SlashFree values) :
    (∃ ranges, captureRaw tpl.src (stripPrefix path servicePrefix) = some (some ranges)) ∧
    ∃ (parts : List Part) (texts : List Str), (∀ p ∈ parts, p.WellFormed) ∧
      target = parts.flatMap Part.source ∧
      parts.mapM (Part.value (values.lookup ·)) = some texts ∧
      renderTemplate tpl (stripPrefix path servicePrefix) query =
        some (some (texts.flatten ++ querySuffix query)) := by
  obtain ⟨c, hc, -⟩ := join_eq servicePrefix routePath
  obtain ⟨content, hpathEq, hrest⟩ := hmatch.under_prefix hc hplain hlit
  have hstrip : stripPrefix path servicePrefix = slash :: content := by
    rw [hpathEq, stripPrefix, stripPrefix?_append]
    simp
  have hutf : Utf8 (slash :: content) := by
    rw [hpathEq] at hpath
    exact utf8_append (s := [slash]) ⟨['/'], rfl⟩ (hpath.of_append_ascii slash_ascii).2
  -- the two readings of the segments agree
  have hsegs : nonEmptySegs slash routePath = pieces slash c := by
    rw [nonEmptySegs_join routePath hc]
    apply nonEmptySegs_eq_pieces
    simpa [NoEmptySegment, hc] using hempty
  obtain ⟨⟨rs, hrs⟩, hcap, hnames⟩ := (hrest.dropEmptyLast hfree).matchRanges hfree 1
  have hsrc : routeSrc routePath = (dropEmptyLast (c.splitOn slash)).map segSrc := by
    rw [routeSrc, hsegs, pieces]
  have hparams : routeParams routePath = values.map Prod.fst := by
    rw [routeParams, hsegs, pieces, hnames]
  have hm : matchRanges 1 (routeSrc routePath) (pieces slash content) = some rs := by
    rw [hsrc, pieces, hrs]
  have hlookup : ∀ name k, (routeParams routePath).findIdx? (· == name) = some k →
      ∃ v, values.lookup name = some v ∧
        (capturedSegs (routeSrc routePath) (pieces slash content))[k]? = some v := by
    intro name k hk
    rw [hparams] at hk
    rw [hsrc, pieces, hcap]
    exact lookup_of_findIdx hk
  obtain ⟨parts, texts, hwf, htarget, htexts, -, hrender⟩ :=
    @renderTemplate_match routePath target content tpl query rs (values.lookup ·) hutf hcompile hm hlookup
  rw [hstrip]
  refine ⟨⟨rs, ?_⟩, parts, texts, hwf, htarget, htexts, hrender⟩
  rw [captureRaw_eq hutf, (compileRewriteTemplate_ok hcompile).1, hm]

/-- The theorem at one route and request. -/
theorem dispatched_request_is_rewritten_sales :
    (∃ ranges, captureRaw [.lit (str "items"), .param]
        (stripPrefix (str "/sales/items/7") (str "/sales")) = some (some ranges)) ∧
    ∃ (parts : List Part) (texts : List Str), (∀ p ∈ parts, p.WellFormed) ∧
      str "/v1/{id}" = parts.flatMap Part.source ∧
      parts.mapM (Part.value ([(str "id", str "7")].lookup ·)) = some texts ∧
      renderTemplate ⟨[.lit (str "items"), .param], [.lit (str "/v1/"), .capture 0], 4⟩
        (stripPrefix (str "/sales/items/7") (str "/sales")) none =
          some (some (texts.flatten ++ querySuffix none)) :=
  @dispatched_request_is_rewritten (str "/items/{id}") (str "/v1/{id}") (str "/sales")
    (str "/sales/items/7") ⟨[.lit (str "items"), .param], [.lit (str "/v1/"), .capture 0], 4⟩
    [(str "id", str "7")] none (by decide +kernel) (by decide) (by decide) (by decide) (utf8_str _)
    (.lit (s := []) (by decide) (.lit (s := str "sales") (by decide) (.lit (s := str "items") (by decide)
      (@SegsMatch.param (str "id") (str "7") _ _ _ (by decide) .nil))))
    (fun _ _ h => by
      cases List.mem_singleton.mp h
      decide)

/-- **Three kinds of dispatched requests whose template source does not match**: a catch-all that spans two
    segments, a route path with a doubled slash, a prefix with a parameter. -/
theorem dispatched_request_not_captured :
    (compileRewriteTemplate (str "/files/{*rest}") (str "/f/{*rest}") =
        some (.ok ⟨[.lit (str "files"), .param], [.lit (str "/f/"), .capture 0], 3⟩) ∧
      RouterMatches (join (str "/s") (str "/files/{*rest}")) (str "/s/files/a/b")
        [(str "*rest", str "a/b")] ∧
      captureRaw [.lit (str "files"), .param] (stripPrefix (str "/s/files/a/b") (str "/s")) = some none) ∧
    (compileRewriteTemplate (str "/a//{id}") (str "/{id}") =
        some (.ok ⟨[.lit (str "a"), .param], [.lit (str "/"), .capture 0], 1⟩) ∧
      RouterMatches (join (str "/s") (str "/a//{id}")) (str "/s/a//7") [(str "id", str "7")] ∧
      captureRaw [.lit (str "a"), .param] (stripPrefix (str "/s/a//7") (str "/s")) = some none) ∧
    (compileRewriteTemplate (str "/items/{id}") (str "/{id}") =
        some (.ok ⟨[.lit (str "items"), .param], [.lit (str "/"), .capture 0], 1⟩) ∧
      RouterMatches (join (str "/{tenant}") (str "/items/{id}")) (str "/acme/items/7")
        [(str "tenant", str "acme"), (str "id", str "7")] ∧
      captureRaw [.lit (str "items"), .param]
        (stripPrefix (str "/acme/items/7") (str "/{tenant}")) = some none) := by
  refine ⟨⟨by decide +kernel, ?_, by decide⟩, ⟨by decide +kernel, ?_, by decide⟩,
    ⟨by decide +kernel, ?_, by decide⟩⟩
  · exact .lit (s := []) (by decide) (.lit (s := str "s") (by decide) (.lit (s := str "files") (by decide)
      (@SegsMatch.rest (str "rest") [str "a", str "b"] (by decide))))
  · exact .lit (s := []) (by decide) (.lit (s := str "s") (by decide) (.lit (s := str "a") (by decide)
      (.lit (s := []) (by decide) (@SegsMatch.param (str "id") (str "7") _ _ _ (by decide) .nil))))
  · exact .lit (s := []) (by decide) (@SegsMatch.param (str "tenant") (str "acme") _ _ _ (by decide)
      (.lit (s := str "items") (by decide) (@SegsMatch.param (str "id") (str "7") _ _ _ (by decide) .nil)))

end Apigate
