import Apigate.Correctness.Dispatchable

/-!
# `Correctness.StickyKeys` — path stickiness and the parameter the route binds

`PathSticky` reads its key off the URI again: it strips the raw prefix and walks the segments of the route path
and of the rest side by side. The two are in step when the prefix really is stripped, or has no segments; else
the walk starts some segments too early and takes a wrong one for the key (`sticky_keys_bound_iff`).

The requests of a route are those whose path is the mounted path with values put in for the parameters
(`OnRoute`). Putting in values works segment by segment (`splitOn_substitute`), so the segments of such a path
are known, and the walk can be described without the path: it compares the segments of the route path with the
same segments with values put in, behind those of a prefix that was not stripped (`walkedSegs_join`). Stripping
depends on the prefix and the route path only, and not on the values, since the slashes at the seam are the same
before and after (`join_substitute`).

If there is nothing in front, the walk meets the value of each parameter at its own segment. If there is, and
the route has a parameter, then the first parameter has only fixed segments in front of it, so at its place the
walk sees a segment that is the same for all requests of the route (`OnRoute.stickyKey_of_not_inStep`). A fixed
key is wrong for some value, and that gives the converse.
-/

namespace Apigate
open Lib Text Segments

/-! ## Requests on a route

Paths with values put in, compared with the route path: the same number of segments, and the same slashes. -/

/-- What stands for a parameter in a path: a text that is not empty and is one segment. -/
structure ParamValue where
  text : Str
  nonEmpty : text ≠ []
  noSlash : slash ∉ text

section
variable (values : Str → ParamValue)

/-- A segment of the route path with the value put in for a parameter. -/
def substSeg (seg : Str) : Str :=
  match segName seg with
  | some name => (values name).text
  | none => seg

/-- The route path with the values put in for the parameters. -/
def substitute (routePath : Str) : Str := [slash].intercalate ((routePath.splitOn slash).map (substSeg values))

/-- A segment with a value put in is one segment. -/
theorem substSeg_noSlash {seg : Str} (h : slash ∉ seg) : slash ∉ substSeg values seg := by
  unfold substSeg
  split
  · exact (values _).noSlash
  · exact h

/-- It is empty only if it was, since values are not empty. -/
@[simp] theorem substSeg_eq_nil {seg : Str} : substSeg values seg = [] ↔ seg = [] := by
  cases hb : isBraced seg with
  | false =>
      rw [substSeg, segName_eq_none hb]
  | true =>
      obtain ⟨name, rfl⟩ := isBraced_iff.mp hb
      rw [substSeg, segName_braced]
      simp [(values name).nonEmpty, braced]

/-- The segments of a path with values put in are those of the route path, with values put in. -/
theorem splitOn_substitute (routePath : Str) :
    (substitute values routePath).splitOn slash = (routePath.splitOn slash).map (substSeg values) := by
  apply List.splitOn_intercalate
  · intro u hu
    obtain ⟨seg, hseg, rfl⟩ := List.mem_map.mp hu
    exact substSeg_noSlash values (not_mem_of_mem_splitOn hseg)
  · simp [List.splitOn_ne_nil]

/-- So are the segments that are not empty. -/
theorem nonEmptySegs_substitute (routePath : Str) :
    nonEmptySegs slash (substitute values routePath) = (nonEmptySegs slash routePath).map (substSeg values) := by
  unfold nonEmptySegs
  rw [splitOn_substitute, List.filter_map]
  congr 1
  apply List.filter_congr
  intro seg _
  show (!(substSeg values seg).isEmpty) = !seg.isEmpty
  rw [Bool.eq_iff_iff]
  simp

theorem substitute_of_not_mem {s : Str} (hs : slash ∉ s) : substitute values s = substSeg values s := by
  unfold substitute
  rw [List.splitOn_eq_singleton hs]
  simp [List.intercalate]

/-- Values are put in on both sides of a slash. -/
theorem substitute_append {u : Str} (hu : slash ∉ u) (t : Str) :
    substitute values (u ++ slash :: t) = substSeg values u ++ slash :: substitute values t := by
  have hsegs : (substitute values (u ++ slash :: t)).splitOn slash =
      (substSeg values u ++ slash :: substitute values t).splitOn slash := by
    rw [splitOn_substitute, splitOn_append hu, splitOn_append (substSeg_noSlash values hu), splitOn_substitute,
      List.map_cons]
  have hjoined := congrArg ([slash].intercalate ·) hsegs
  simpa only [List.intercalate_splitOn] using hjoined

/-- Putting in values keeps the slashes in front. By induction on their number. -/
theorem replicate_prefix_substitute (m : Nat) (s : Str) :
    List.replicate m slash <+: substitute values s ↔ List.replicate m slash <+: s := by
  induction m generalizing s with
  | zero => simp
  | succ m ih =>
      rw [List.replicate_succ]
      rcases cut_first slash s with hs | ⟨u, t, rfl, hu⟩
      · rw [substitute_of_not_mem values hs]
        have hno : ∀ {x : Str}, slash ∉ x → ¬ slash :: List.replicate m slash <+: x := fun hx h =>
          hx (h.subset List.mem_cons_self)
        exact iff_of_false (hno (substSeg_noSlash values hs)) (hno hs)
      · rw [substitute_append values hu]
        cases u with
        | nil =>
            rw [(substSeg_eq_nil values).mpr rfl, List.nil_append, List.nil_append, List.cons_prefix_cons,
              List.cons_prefix_cons, ih]
        | cons b u =>
            -- the first segment is not empty, before and after
            have hno : ∀ {x y : Str}, x ≠ [] → slash ∉ x → ¬ slash :: List.replicate m slash <+: x ++ y := by
              intro x y hne hx h
              cases x with
              | nil => exact hne rfl
              | cons c x =>
                  rw [List.cons_append, List.cons_prefix_cons] at h
                  exact hx (h.1 ▸ List.mem_cons_self)
            exact iff_of_false (hno (by simp) (substSeg_noSlash values hu)) (hno (by simp) hu)

/-- Where a path with values put in is mounted. -/
theorem join_substitute (servicePrefix : Str) {routePath c : Str} (hc : join [] routePath = slash :: c) :
    join servicePrefix (substitute values routePath) =
      trimEndMatches slash servicePrefix ++ slash :: substitute values c := by
  have hsame : startsWith (substitute values routePath) (str "/") = startsWith routePath (str "/") := by
    unfold startsWith
    rw [str_slash, Bool.eq_iff_iff, List.isPrefixOf_iff_prefix, List.isPrefixOf_iff_prefix]
    exact replicate_prefix_substitute values 1 routePath
  by_cases hs : startsWith routePath (str "/") = true
  · obtain ⟨t, rfl⟩ := startsWith_slash.mp hs
    obtain rfl : t = c := (List.cons.inj ((join_slash [] t).symm.trans hc)).2
    rw [← List.nil_append (slash :: t), substitute_append values (by simp), (substSeg_eq_nil values).mpr rfl,
      List.nil_append, join_slash]
  · obtain rfl : routePath = c := by
      unfold join at hc
      rw [if_neg hs] at hc
      exact (List.cons.inj hc).2
    obtain ⟨t, ht, hjoin⟩ := join_eq servicePrefix (substitute values routePath)
    unfold join at ht
    rw [hsame, if_neg hs] at ht
    rw [hjoin, (List.cons.inj ht).2]

end

/-! ## The walk

What the extractor returns on two lists of segments, without regard to where they come from. -/

/-- The extractor reads the names of segments as the compiler of templates does. -/
theorem bracedName_eq_segName (seg : Str) : bracedName seg = segName seg := by
  cases hb : isBraced seg with
  | true =>
      obtain ⟨name, rfl⟩ := isBraced_iff.mp hb
      have hstrip : stripPrefix? (str "\x7b") (braced name) = some (name ++ [closeBrace]) :=
        stripPrefix?_append [openBrace] (name ++ [closeBrace])
      rw [segName_braced, bracedName, hstrip]
      simp [endsWith]
  | false =>
      rw [segName_eq_none hb, bracedName]
      cases hstrip : stripPrefix? (str "\x7b") seg with
      | none => rfl
      | some inner =>
          have hseg : seg = [openBrace] ++ inner := stripPrefix?_eq_some.mp hstrip
          have hend : endsWith inner closeBrace = false := by
            rw [Bool.eq_false_iff]
            intro hend
            cases inner using List.reverseRecOn with
            | nil => cases hend
            | append_singleton name b _ =>
                obtain rfl : b = closeBrace := by simpa [endsWith] using hend
                have hbraced : seg = braced name := hseg
                rw [hbraced, isBraced_braced] at hb
                cases hb
          simp [hend]

theorem not_mem_names_cons {param tmpl : Str} {tmpls : List Str} :
    param ∉ (tmpl :: tmpls).filterMap segName ↔ segName tmpl ≠ some param ∧ param ∉ tmpls.filterMap segName := by
  simp only [List.mem_filterMap, List.exists_mem_cons_iff, not_or, ne_eq]

/-- **The walk stops at the first `{param}`**, with the segment that stands there on the other side. -/
theorem extractLoop_append {param : Str} {before after segs : List Str}
    (h : param ∉ before.filterMap segName) :
    extractLoop param (before ++ braced param :: after) segs = segs[before.length]? := by
  induction before generalizing segs with
  | nil =>
      cases segs with
      | nil => rfl
      | cons value segs =>
          rw [List.nil_append, extractLoop, bracedName_eq_segName, segName_braced, if_pos rfl]
          rfl
  | cons tmpl before ih =>
      cases segs with
      | nil => rfl
      | cons value segs =>
          obtain ⟨htmpl, hrest⟩ := not_mem_names_cons.mp h
          rw [List.cons_append, extractLoop, bracedName_eq_segName, if_neg htmpl, ih hrest]
          rfl

/-- A name that the route path does not have is not found. -/
theorem extractLoop_of_not_mem {param : Str} {tmpls segs : List Str} (h : param ∉ tmpls.filterMap segName) :
    extractLoop param tmpls segs = none := by
  induction tmpls generalizing segs with
  | nil => rfl
  | cons tmpl tmpls ih =>
      cases segs with
      | nil => rfl
      | cons value segs =>
          obtain ⟨htmpl, hrest⟩ := not_mem_names_cons.mp h
          rw [extractLoop, bracedName_eq_segName, if_neg htmpl, ih hrest]

/-- A declared parameter has a first segment. -/
theorem exists_first_segment {param : Str} {tmpls : List Str} (h : param ∈ tmpls.filterMap segName) :
    ∃ before after, tmpls = before ++ braced param :: after ∧ param ∉ before.filterMap segName := by
  have hbraced : ∀ {seg : Str}, segName seg = some param → seg = braced param := by
    intro seg hseg
    cases hb : isBraced seg with
    | false =>
        rw [segName_eq_none hb] at hseg
        cases hseg
    | true =>
        obtain ⟨name, rfl⟩ := isBraced_iff.mp hb
        rw [segName_braced] at hseg
        rw [Option.some.inj hseg]
  obtain ⟨seg, hseg, hname⟩ := List.mem_filterMap.mp h
  obtain rfl := hbraced hname
  obtain ⟨before, after, rfl, hfirst⟩ := List.eq_append_cons_of_mem hseg
  refine ⟨before, after, rfl, ?_⟩
  intro hmem
  obtain ⟨seg, hseg, hname⟩ := List.mem_filterMap.mp hmem
  exact hfirst (hbraced hname ▸ hseg)

/-- The first parameter of a route path has only literal segments in front. -/
theorem exists_first_param {tmpls : List Str} (h : tmpls.filterMap segName ≠ []) :
    ∃ before param after, tmpls = before ++ braced param :: after ∧ before.filterMap segName = [] := by
  induction tmpls with
  | nil => exact absurd rfl h
  | cons tmpl tmpls ih =>
      cases hb : isBraced tmpl with
      | true =>
          obtain ⟨param, rfl⟩ := isBraced_iff.mp hb
          exact ⟨[], param, tmpls, rfl, rfl⟩
      | false =>
          rw [List.filterMap_cons_none (segName_eq_none hb)] at h
          obtain ⟨before, param, after, rfl, hbefore⟩ := ih h
          exact ⟨tmpl :: before, param, after, rfl, by rw [List.filterMap_cons_none (segName_eq_none hb), hbefore]⟩

/-- Segments without parameters stay as they are. -/
theorem map_substSeg_of_no_params (values : Str → ParamValue) {tmpls : List Str}
    (h : tmpls.filterMap segName = []) : tmpls.map (substSeg values) = tmpls := by
  refine (List.map_congr_left ?_).trans (List.map_id' tmpls)
  intro tmpl htmpl
  rw [substSeg, List.filterMap_eq_nil_iff.mp h tmpl htmpl]

/-! ## Stripping the prefix

Whether the raw prefix is stripped is decided at the seam between prefix and route path: `join` trims the
slashes at the end of the prefix, and the extractor does not. -/

/-- The segments of a prefix that is not stripped, because the mounted path does not begin with it. -/
def unstrippedSegs (servicePrefix routePath : Str) : List Str :=
  if servicePrefix <+: join servicePrefix routePath then [] else nonEmptySegs slash servicePrefix

/-- Nothing is left in front if the prefix is stripped or consists of slashes. -/
theorem unstrippedSegs_eq_nil {servicePrefix routePath : Str} :
    unstrippedSegs servicePrefix routePath = [] ↔
      servicePrefix <+: join servicePrefix routePath ∨ ∀ b ∈ servicePrefix, b = slash := by
  unfold unstrippedSegs
  split
  · rename_i hpre
    exact iff_of_true rfl (Or.inl hpre)
  · rename_i hpre
    rw [or_iff_right hpre]
    constructor
    · exact nonEmptySegs_eq_nil
    · intro hall
      rw [List.eq_replicate_of_mem hall, ← List.append_nil (List.replicate _ _), nonEmptySegs_replicate_append,
        nonEmptySegs_nil]

theorem noSlash_of_mem_unstrippedSegs {servicePrefix routePath seg : Str}
    (h : seg ∈ unstrippedSegs servicePrefix routePath) : slash ∉ seg := by
  unfold unstrippedSegs at h
  split at h
  · cases h
  · exact (mem_nonEmptySegs h).2

/-- The segments that the walk sees in the path of a request. -/
def walkedSegs (servicePrefix uriPath : Str) : List Str :=
  nonEmptySegs slash ((stripPrefix? servicePrefix uriPath).getD uriPath)

/-- The walk sees the segments of the route path with their values, behind those of a prefix that has not been
    stripped. -/
theorem walkedSegs_join (servicePrefix : Str) (values : Str → ParamValue) (routePath : Str) :
    walkedSegs servicePrefix (join servicePrefix (substitute values routePath)) =
      unstrippedSegs servicePrefix routePath ++ (nonEmptySegs slash routePath).map (substSeg values) := by
  obtain ⟨c, hc, hpattern⟩ := join_eq servicePrefix routePath
  obtain ⟨k, hk, htrim, -⟩ := trimEndMatches_split slash servicePrefix
  unfold walkedSegs unstrippedSegs
  rw [join_substitute values servicePrefix hc, hpattern]
  generalize trimEndMatches slash servicePrefix = p at hk htrim
  subst hk
  have hsegs : nonEmptySegs slash (substitute values c) = (nonEmptySegs slash routePath).map (substSeg values) := by
    rw [nonEmptySegs_substitute, nonEmptySegs_join routePath hc]
  -- the raw prefix is found in the request path as it is in the mounted one
  have hfound : p ++ List.replicate k slash <+: p ++ slash :: substitute values c ↔
      p ++ List.replicate k slash <+: p ++ slash :: c := by
    have hfront : slash :: substitute values c = substitute values (slash :: c) := by
      rw [← List.nil_append (slash :: c), substitute_append values (by simp), (substSeg_eq_nil values).mpr rfl]
      rfl
    rw [List.prefix_append_right_inj, List.prefix_append_right_inj, hfront, replicate_prefix_substitute]
  by_cases hpre : p ++ List.replicate k slash <+: p ++ slash :: c
  · obtain ⟨rest, hrest⟩ := hfound.mpr hpre
    have hcut : List.replicate k slash ++ rest = slash :: substitute values c := by
      rw [List.append_assoc] at hrest
      exact List.append_cancel_left hrest
    rw [if_pos hpre, ← hrest, stripPrefix?_append, Option.getD_some, List.nil_append, ← hsegs,
      ← nonEmptySegs_replicate_append slash k rest, hcut, nonEmptySegs_cons_sep]
  · -- the slashes at the end of the prefix have no segments of their own
    have htail : nonEmptySegs slash (p ++ List.replicate k slash) = nonEmptySegs slash p := by
      cases k with
      | zero => simp
      | succ k =>
          rw [List.replicate_succ, nonEmptySegs_append, ← List.append_nil (List.replicate k slash),
            nonEmptySegs_replicate_append, nonEmptySegs_nil, List.append_nil]
    rw [if_neg hpre, stripPrefix?_eq_none.mpr (mt hfound.mp hpre), Option.getD_none, nonEmptySegs_append, hsegs,
      htail]

/-! ## The main result

The key that the policy takes, on requests of the route, against the parameter that the router binds. -/

/-- The key that `PathSticky` takes from a request. -/
def stickyKey (param : Str) (ctx : RouteCtx) (pool : BackendPool) : Option AffinityKey :=
  (RouteStrategy.route (PathSticky.mk param) ctx pool).1.affinity

/-- The request is one of a route, with these values for its parameters. -/
structure OnRoute (servicePrefix routePath : Str) (values : Str → ParamValue) (ctx : RouteCtx) : Prop where
  underPrefix : ctx.servicePrefix = servicePrefix
  ofRoute : ctx.routePath = routePath
  atPath : ctx.uri.path = join servicePrefix (substitute values routePath)

/-- On every request of the route the key is the value of the parameter, if the route has it, and there is none
    otherwise; so it does not depend on the other parameters. -/
structure KeysBound (servicePrefix routePath : Str) : Prop where
  bound : ∀ {values : Str → ParamValue} {ctx : RouteCtx}, OnRoute servicePrefix routePath values ctx →
    ∀ (param : Str) (pool : BackendPool), stickyKey param ctx pool =
      if param ∈ routeParams routePath then some (values param).text else none
  sameKey : ∀ {values values' : Str → ParamValue} {ctx ctx' : RouteCtx}, OnRoute servicePrefix routePath values ctx →
    OnRoute servicePrefix routePath values' ctx' → ∀ (param : Str) (pool pool' : BackendPool),
      (values param).text = (values' param).text → stickyKey param ctx pool = stickyKey param ctx' pool'

/-- The mounted path begins with the raw prefix, or the prefix has no segments; or the route has no parameters.
    -/
def InStep (servicePrefix routePath : Str) : Prop :=
  servicePrefix <+: join servicePrefix routePath ∨ (∀ b ∈ servicePrefix, b = slash) ∨ routeParams routePath = []

/-- In step means that nothing is in front of the walk, or that there is nothing to find. -/
theorem inStep_iff {servicePrefix routePath : Str} :
    InStep servicePrefix routePath ↔ unstrippedSegs servicePrefix routePath = [] ∨ routeParams routePath = [] := by
  rw [unstrippedSegs_eq_nil, or_assoc, InStep]

section
variable {servicePrefix routePath : Str} {values : Str → ParamValue} {ctx : RouteCtx}

/-- The key is what the walk finds, on segments that are known. -/
theorem OnRoute.stickyKey_eq (h : OnRoute servicePrefix routePath values ctx) (param : Str) (pool : BackendPool) :
    stickyKey param ctx pool = extractLoop param (nonEmptySegs slash routePath)
      (unstrippedSegs servicePrefix routePath ++ (nonEmptySegs slash routePath).map (substSeg values)) := by
  show extractLoop param (nonEmptySegs slash ctx.routePath) (walkedSegs ctx.servicePrefix ctx.uri.path) = _
  rw [h.underPrefix, h.ofRoute, h.atPath, walkedSegs_join]

/-- In step, the walk finds the value of the parameter. -/
theorem OnRoute.stickyKey_of_inStep (h : OnRoute servicePrefix routePath values ctx)
    (hstep : InStep servicePrefix routePath) (param : Str) (pool : BackendPool) :
    stickyKey param ctx pool = if param ∈ routeParams routePath then some (values param).text else none := by
  rw [h.stickyKey_eq]
  by_cases hparam : param ∈ routeParams routePath
  · have hnone : unstrippedSegs servicePrefix routePath = [] :=
      (inStep_iff.mp hstep).resolve_right (List.ne_nil_of_mem hparam)
    obtain ⟨before, after, hsplit, hfirst⟩ := exists_first_segment hparam
    rw [if_pos hparam, hnone, List.nil_append, hsplit, extractLoop_append hfirst]
    simp [substSeg]
  · rw [if_neg hparam, extractLoop_of_not_mem hparam]

/-- Behind an unstripped prefix, the walk finds a fixed segment in the place of the first parameter: one of the
    prefix or of the fixed segments that come before the parameter, shifted by the length of the prefix. -/
theorem OnRoute.stickyKey_of_not_inStep (hstep : ¬ InStep servicePrefix routePath) :
    ∃ param ∈ routeParams routePath, ∃ wrong, slash ∉ wrong ∧
      ∀ {values : Str → ParamValue} {ctx : RouteCtx}, OnRoute servicePrefix routePath values ctx →
        ∀ pool : BackendPool, stickyKey param ctx pool = some wrong := by
  obtain ⟨hunstripped, hparams⟩ := not_or.mp (mt inStep_iff.mpr hstep)
  obtain ⟨before, param, after, hsplit, hfirst⟩ := exists_first_param hparams
  have hparam : param ∈ routeParams routePath := by
    rw [routeParams, hsplit, List.filterMap_append, List.filterMap_cons_some (segName_braced param)]
    exact List.mem_append_right _ List.mem_cons_self
  have hlt : before.length < (unstrippedSegs servicePrefix routePath ++ before).length := by
    have := List.length_pos_iff.mpr hunstripped
    rw [List.length_append]
    omega
  refine ⟨param, hparam, (unstrippedSegs servicePrefix routePath ++ before)[before.length], ?_, ?_⟩
  · rcases List.mem_append.mp (List.getElem_mem hlt) with hmem | hmem
    · exact noSlash_of_mem_unstrippedSegs hmem
    · refine (mem_nonEmptySegs (s := routePath) ?_).2
      rw [hsplit]
      exact List.mem_append_left _ hmem
  · intro values ctx h pool
    have hbefore : before.map (substSeg values) = before := map_substSeg_of_no_params values hfirst
    have hnot : param ∉ before.filterMap segName := by simp [hfirst]
    rw [h.stickyKey_eq, hsplit, extractLoop_append hnot, List.map_append, hbefore, ← List.append_assoc,
      List.getElem?_append_left hlt, List.getElem?_eq_getElem hlt]

end

/-- A request with a given path. -/
def requestAt (servicePrefix routePath path : Str) : RouteCtx :=
  ⟨[], servicePrefix, routePath, str "GET", ⟨none, none, some ⟨path, none⟩⟩, .empty⟩

theorem requestAt_onRoute (servicePrefix routePath : Str) (values : Str → ParamValue) :
    OnRoute servicePrefix routePath values
      (requestAt servicePrefix routePath (join servicePrefix (substitute values routePath))) := by
  refine ⟨rfl, rfl, ?_⟩
  obtain ⟨t, -, ht⟩ := join_eq servicePrefix (substitute values routePath)
  show (if (join servicePrefix (substitute values routePath)).isEmpty then str "/"
    else join servicePrefix (substitute values routePath)) = _
  rw [if_neg (by rw [ht]; simp)]

/-- **Path stickiness uses the parameter the route binds, exactly under `InStep`.** For every prefix and every
    route path: all requests of the route get the right key for every parameter, if and only if the walk is in
    step with the route path. Conversely, if it is not, the same segment is found whatever the value is, and a
    value longer than that segment is not the key. -/
theorem sticky_keys_bound_iff (servicePrefix routePath : Str) :
    KeysBound servicePrefix routePath ↔ InStep servicePrefix routePath := by
  constructor
  · intro hbound
    by_contra hstep
    -- the same segment is found whatever the value is, so a longer value is not
    obtain ⟨param, hparam, wrong, hnoSlash, hkey⟩ := OnRoute.stickyKey_of_not_inStep hstep
    have hother : slash ∉ wrong ++ [120] := by
      rw [List.mem_append, not_or]
      exact ⟨hnoSlash, by decide⟩
    have hreq := requestAt_onRoute servicePrefix routePath fun _ => ⟨wrong ++ [120], by simp, hother⟩
    have hbad := hbound.bound hreq param ⟨[]⟩
    rw [hkey hreq, if_pos hparam] at hbad
    simp at hbad
  · intro hstep
    refine ⟨fun h => h.stickyKey_of_inStep hstep, ?_⟩
    intro values values' ctx ctx' h h' param pool pool' hsame
    rw [h.stickyKey_of_inStep hstep, h'.stickyKey_of_inStep hstep, hsame]

/-- A prefix that ends in two slashes is not stripped: on `/api//` and `/items/{id}`, the request for
    `/api/items/7` gets the key `items`. -/
theorem sticky_keys_doubled_slash :
    stickyKey (str "id") (requestAt (str "/api//") (str "/items/{id}") (str "/api/items/7")) ⟨[]⟩ =
        some (str "items") ∧
      ¬ KeysBound (str "/api//") (str "/items/{id}") := by
  refine ⟨by decide +kernel, ?_⟩
  intro hbound
  have hreq : OnRoute (str "/api//") (str "/items/\x7bid\x7d") (fun _ => ⟨str "7", by decide, by decide⟩)
      (requestAt (str "/api//") (str "/items/\x7bid\x7d") (str "/api/items/7")) :=
    ⟨rfl, rfl, by decide +kernel⟩
  exact absurd (hbound.bound hreq (str "id") ⟨[]⟩) (by decide +kernel)

end Apigate
