import Apigate.App.Build
import Apigate.Correctness.Template
import Apigate.Lib.Fold

/-!
# `Correctness.Mounting` — mounted paths, prefix stripping, and what the router sends to a route

The router is third party. What is assumed of it is `RouterMatches`: a path is dispatched to a mounted pattern
when it is obtained from it by putting a value for every parameter. Against that:

* `join` and `strip_prefix` undo each other exactly under `StripInverts`;
* a request dispatched to a template route matches the compiled source pattern, if no segment is lost or hidden
  between the two readings of the path.

The two functions do not agree on what a prefix is. `join` trims the slashes at its end before it puts the path
behind it; `strip_prefix` removes the prefix as it was given. So let the prefix be `p` with some slashes behind
it. If there are none, what was put in front is removed again. If there are some, the joined path has one of
them, which is the path's own, and three things can happen. The raw prefix is found, and takes this slash along;
then the result is right only where nothing else was there, as the empty rest reads as `/` (`strip_found`). Or
it is not found, and the whole public path goes upstream, which is right only if `p` is empty
(`strip_not_found`). The condition `StripInverts` is what remains of these cases.
-/

namespace Apigate
open Lib Text Segments

/-! ## The router

A match is a derivation over segments. Patterns are mounted as texts, so that a prefix and a path are split
together, and the lemmas here are for taking them apart again. -/

/-- `*` -/
abbrev star : UInt8 := 0x2A

/-- The segments of a mounted pattern against the segments of a request path, with the value of each parameter:
    `{name}` stands for one non-empty segment, a final `{*name}` for any non-empty rest, everything else for
    itself. -/
inductive SegsMatch : List Str → List Str → List (Str × Str) → Prop
  | nil : SegsMatch [] [] []
  | lit {s : Str} {ps qs : List Str} {vs : List (Str × Str)} (hs : isBraced s = false)
      (h : SegsMatch ps qs vs) : SegsMatch (s :: ps) (s :: qs) vs
  | param {name v : Str} {ps qs : List Str} {vs : List (Str × Str)} (hv : v ≠ [])
      (h : SegsMatch ps qs vs) : SegsMatch (braced name :: ps) (v :: qs) ((name, v) :: vs)
  | rest {name : Str} {qs : List Str} (hq : [slash].intercalate qs ≠ []) :
      SegsMatch [braced (star :: name)] qs [(star :: name, [slash].intercalate qs)]

/-- The router dispatches `path` to the route mounted at `pattern`. -/
def RouterMatches (pattern path : Str) (values : List (Str × Str)) : Prop :=
  SegsMatch (pattern.splitOn slash) (path.splitOn slash) values

/-- A prefix matches itself, its parameters standing for their own text. -/
theorem SegsMatch.prefix_self {ps' qs' : List Str} {vs' : List (Str × Str)} (h : SegsMatch ps' qs' vs')
    (ps : List Str) : ∃ vs, SegsMatch (ps ++ ps') (ps ++ qs') (vs ++ vs') := by
  induction ps with
  | nil => exact ⟨[], h⟩
  | cons s ps ih =>
      obtain ⟨vs, ih⟩ := ih
      cases hb : isBraced s with
      | false => exact ⟨vs, .lit hb ih⟩
      | true =>
          obtain ⟨n, rfl⟩ := isBraced_iff.mp hb
          exact ⟨(n, braced n) :: vs, .param (by simp [braced]) ih⟩

/-- A literal segment matches itself and nothing else. -/
theorem SegsMatch.lit_inv {s : Str} {ps qs : List Str} {vs : List (Str × Str)} (hs : isBraced s = false)
    (h : SegsMatch (s :: ps) qs vs) : ∃ qs', qs = s :: qs' ∧ SegsMatch ps qs' vs := by
  cases h with
  | lit _ h => exact ⟨_, rfl, h⟩
  | param _ _ => simp [isBraced_braced] at hs
  | rest _ => simp [isBraced_braced] at hs

/-- The literal segments in front of a pattern are the first segments of the path. -/
theorem SegsMatch.of_literals {ps ps' qs : List Str} {vs : List (Str × Str)}
    (hlit : ∀ s ∈ ps, isBraced s = false) (h : SegsMatch (ps ++ ps') qs vs) :
    ∃ qs', qs = ps ++ qs' ∧ SegsMatch ps' qs' vs := by
  induction ps generalizing qs with
  | nil => exact ⟨qs, rfl, h⟩
  | cons s ps ih =>
      obtain ⟨qs1, rfl, h1⟩ := h.lit_inv (hlit s (by simp))
      obtain ⟨qs', rfl, h'⟩ := ih (fun s hs => hlit s (by simp [hs])) h1
      exact ⟨qs', rfl, h'⟩

/-! ## Joining a prefix and a path

What `join` makes of a prefix, in terms of the trimmed prefix and the path behind its first slash. -/

/-- The text `/` is one byte. -/
theorem str_slash : str "/" = [slash] := rfl

/-- A path begins with a slash, and then comes the rest. -/
theorem startsWith_slash {r : Str} : startsWith r (str "/") = true ↔ ∃ t, r = slash :: t := by
  unfold startsWith
  rw [str_slash]
  constructor
  · intro h
    obtain ⟨t, ht⟩ := List.isPrefixOf_iff_prefix.mp h
    exact ⟨t, ht.symm⟩
  · rintro ⟨t, rfl⟩
    simp [List.isPrefixOf]

/-- A text that does not end in a byte is not one with the byte at its end. -/
theorem endsWith_false {s : Str} {b : UInt8} (h : endsWith s b = false) : ∀ t, s ≠ t ++ [b] := by
  rintro t rfl
  simp [endsWith] at h

/-- What `trim_end_matches` cuts off. -/
theorem trimEndMatches_split (b : UInt8) (s : Str) :
    ∃ k, s = trimEndMatches b s ++ List.replicate k b ∧ endsWith (trimEndMatches b s) b = false ∧
      (endsWith s b = false ↔ k = 0) := by
  induction s using List.reverseRecOn with
  | nil => exact ⟨0, rfl, rfl, by simp [endsWith]⟩
  | append_singleton s c ih =>
      by_cases hc : c = b
      · subst hc
        obtain ⟨k, hs, htrim, -⟩ := ih
        have hsame : trimEndMatches c (s ++ [c]) = trimEndMatches c s := by simp [trimEndMatches]
        rw [hsame]
        refine ⟨k + 1, ?_, htrim, by simp [endsWith]⟩
        rw [List.replicate_succ', ← List.append_assoc, ← hs]
      · have hsame : trimEndMatches b (s ++ [c]) = s ++ [c] := by simp [trimEndMatches, hc]
        rw [hsame]
        exact ⟨0, by simp, by simp [endsWith, hc], by simp [endsWith, hc]⟩

/-- `join` puts the trimmed prefix in front of the path. -/
theorem join_slash (servicePrefix t : Str) :
    join servicePrefix (slash :: t) = trimEndMatches slash servicePrefix ++ slash :: t := by
  have hstart : startsWith (slash :: t) (str "/") = true := startsWith_slash.mpr ⟨t, rfl⟩
  unfold join
  rw [if_pos hstart]
  by_cases he : endsWith servicePrefix slash = true
  · rw [if_pos he]
  · obtain ⟨k, hk, -, hiff⟩ := trimEndMatches_split slash servicePrefix
    obtain rfl : k = 0 := hiff.mp (by simpa using he)
    rw [if_neg he]
    rw [List.replicate_zero, List.append_nil] at hk
    rw [← hk]

/-- A route path without a leading slash is mounted as if it had one. -/
theorem join_eq (servicePrefix path : Str) :
    ∃ t, join [] path = slash :: t ∧ join servicePrefix path = trimEndMatches slash servicePrefix ++ slash :: t := by
  by_cases hs : startsWith path (str "/") = true
  · obtain ⟨t, rfl⟩ := startsWith_slash.mp hs
    exact ⟨t, join_slash [] t, join_slash servicePrefix t⟩
  · have hs' : startsWith (slash :: path) (str "/") = true := startsWith_slash.mpr ⟨path, rfl⟩
    have hsame : ∀ p, join p path = join p (slash :: path) := fun p => by
      unfold join
      rw [if_neg hs, if_pos hs']
    rw [hsame, hsame]
    exact ⟨path, join_slash [] path, join_slash servicePrefix path⟩

/-! ## When stripping undoes joining

By cases on the slashes at the end of the prefix, and on whether the raw prefix is found. -/

/-- The prefix does not end in a slash; or it ends in exactly one and the path is `/`; or it consists of slashes
    only and the path does not start with it. -/
def StripInverts (servicePrefix r : Str) : Prop :=
  endsWith servicePrefix slash = false ∨
  (r = str "/" ∧ ∃ p, servicePrefix = p ++ [slash] ∧ endsWith p slash = false) ∨
  ((∀ b ∈ servicePrefix, b = slash) ∧ ¬ servicePrefix <+: r)

/-- A prefix that ends in exactly one slash has no second one there. -/
theorem one_slash {p q : Str} {m : Nat} (h : p ++ slash :: List.replicate m slash = q ++ [slash])
    (hq : endsWith q slash = false) : m = 0 := by
  cases m with
  | zero => rfl
  | succ m =>
      rw [List.replicate_succ', ← List.cons_append, ← List.append_assoc] at h
      obtain ⟨rfl, -⟩ := List.append_inj' h rfl
      cases m with
      | zero => exact absurd rfl (endsWith_false hq p)
      | succ m =>
          rw [List.replicate_succ', ← List.cons_append, ← List.append_assoc] at hq
          exact absurd rfl (endsWith_false hq _)

/-- A prefix of slashes only trims to nothing. -/
theorem eq_nil_of_all_slash {p : Str} (hp : endsWith p slash = false) (hall : ∀ b ∈ p, b = slash) :
    p = [] := by
  cases p using List.reverseRecOn with
  | nil => rfl
  | append_singleton p b _ =>
      obtain rfl := hall b (by simp)
      exact absurd rfl (endsWith_false hp p)

/-- `join` has cut off the slashes at the end of the prefix, and the path brings one of them back. Where the raw
    prefix is found all the same, it takes the slash that starts the path with it. -/
theorem strip_found {p u : Str} {m : Nat} :
    stripPrefix (p ++ slash :: (List.replicate m slash ++ u)) (p ++ slash :: List.replicate m slash) =
      slash :: (List.replicate m slash ++ u) ↔ m = 0 ∧ u = [] := by
  have hstrip : stripPrefix? (p ++ slash :: List.replicate m slash)
      (p ++ slash :: (List.replicate m slash ++ u)) = some u := by
    rw [stripPrefix?_eq_some]
    simp
  unfold stripPrefix
  rw [hstrip]
  cases u with
  | nil =>
      -- nothing is left, which reads as `/`
      constructor
      · intro h
        have hlength := congrArg List.length h
        exact ⟨by simpa [str_slash] using hlength.symm, rfl⟩
      · rintro ⟨rfl, -⟩
        rfl
  | cons b u =>
      -- what is left is shorter than the path
      constructor
      · intro h
        have hlength := congrArg List.length h
        simp only [str_slash] at hlength
        split at hlength
        · simp at hlength
          omega
        · simp at hlength
      · rintro ⟨-, h⟩
        cases h

/-- Where the raw prefix is not found, the whole public path goes upstream. -/
theorem strip_not_found {p t : Str} {m : Nat} (hpre : ¬ List.replicate m slash <+: t) :
    stripPrefix (p ++ slash :: t) (p ++ slash :: List.replicate m slash) = slash :: t ↔ p = [] := by
  have hstrip : stripPrefix? (p ++ slash :: List.replicate m slash) (p ++ slash :: t) = none := by
    rw [stripPrefix?_eq_none, List.prefix_append_right_inj, List.cons_prefix_cons]
    exact fun h => hpre h.2
  unfold stripPrefix
  rw [hstrip]
  constructor
  · intro h
    have hlength := congrArg List.length h
    simpa using hlength
  · rintro rfl
    rfl

/-- **`strip_prefix` undoes `join` exactly under `StripInverts`.** -/
theorem strip_join_iff (servicePrefix : Str) {r : Str} (hr : startsWith r (str "/") = true) :
    stripPrefix (join servicePrefix r) servicePrefix = r ↔ StripInverts servicePrefix r := by
  obtain ⟨t, rfl⟩ := startsWith_slash.mp hr
  obtain ⟨k, hk, htrim, hiff⟩ := trimEndMatches_split slash servicePrefix
  rw [join_slash]
  generalize trimEndMatches slash servicePrefix = p at hk htrim
  subst hk
  cases k with
  | zero =>
      refine ⟨fun _ => Or.inl (hiff.mpr rfl), fun _ => ?_⟩
      rw [List.replicate_zero, List.append_nil, stripPrefix, stripPrefix?_append]
      simp
  | succ m =>
      have hends : endsWith (p ++ List.replicate (m + 1) slash) slash ≠ false := fun h => by
        have := hiff.mp h
        omega
      rw [List.replicate_succ] at hends ⊢
      by_cases hpre : List.replicate m slash <+: t
      · obtain ⟨u, rfl⟩ := hpre
        rw [strip_found]
        constructor
        · rintro ⟨rfl, rfl⟩
          exact Or.inr (Or.inl ⟨rfl, p, rfl, htrim⟩)
        · rintro (h | ⟨h, q, hq, hqe⟩ | ⟨hslash, hno⟩)
          · exact absurd h hends
          · obtain rfl := one_slash hq hqe
            exact ⟨rfl, (List.cons.inj h).2⟩
          · obtain rfl := eq_nil_of_all_slash htrim fun b hb => hslash b (by simp [hb])
            exact absurd ⟨u, by simp⟩ hno
      · rw [strip_not_found hpre]
        constructor
        · rintro rfl
          refine Or.inr (Or.inr ⟨by simp, ?_⟩)
          rw [List.nil_append, List.cons_prefix_cons]
          exact fun h => hpre h.2
        · rintro (h | ⟨-, q, hq, hqe⟩ | ⟨hslash, -⟩)
          · exact absurd h hends
          · rw [one_slash hq hqe] at hpre
            exact absurd List.nil_prefix hpre
          · exact eq_nil_of_all_slash htrim fun b hb => hslash b (by simp [hb])

/-! ## Mounting

The rounds of the builder's inner loop, and what the router makes of the paths it mounts. -/

variable {V : Type}

/-- **One mounted route**: its table entry and its router entry. -/
theorem mountRoute_ok {crates : Crates V} {routes : Routes (PipelineFn V)}
    {policies : MultiMap Str PolicyRef} {defaultPolicy : PolicyRef} {pool : BackendPool}
    {st st' : Mounted V} {rd : RouteDef (PipelineFn V)}
    (h : mountRoute crates routes policies defaultPolicy pool st rd = (some (.ok st') : Option _)) :
    ∃ policy rewrite, resolvePolicy routes.policy rd.policy policies defaultPolicy = .ok policy ∧
      rd.rewrite.toRewrite crates = some rewrite ∧
      st' = ⟨st.router ++ [⟨rd.method, join routes.servicePrefix rd.path, st.routeMetas.length⟩],
        st.routeMetas ++ [⟨routes.service, rd.path, routes.servicePrefix, rewrite, pool, policy,
          rd.pipeline⟩]⟩ := by
  unfold mountRoute at h
  obtain ⟨policy, hpolicy, h⟩ := Fold.yields_bind h
  obtain ⟨rewrite, hrewrite, h⟩ := Fold.yields_bind h
  obtain ⟨_, -, h⟩ := Fold.yields_bind h
  cases h
  refine ⟨policy, rewrite, Option.some.inj hpolicy, ?_, rfl⟩
  unfold orPanic Fold.Yields at hrewrite
  rw [Option.map_eq_some_iff] at hrewrite
  obtain ⟨r, hr, hr'⟩ := hrewrite
  cases hr'
  exact hr

/-- What the loop over a collection's routes has done when it has mounted `done`: what was mounted before is
    kept, and each of these routes has its router entry. -/
def Installed (routes : Routes (PipelineFn V)) (before : Mounted V) (done : List (RouteDef (PipelineFn V)))
    (st : Mounted V) : Prop :=
  before.router <+: st.router ∧ ∀ rd ∈ done, ∃ entry ∈ st.router,
    entry.method = rd.method ∧ entry.path = join routes.servicePrefix rd.path

/-- Mounting a collection keeps what was mounted and installs every route of it. -/
theorem mountRoutes_ok {crates : Crates V} {routes : Routes (PipelineFn V)}
    {policies : MultiMap Str PolicyRef} {defaultPolicy : PolicyRef} {pool : BackendPool}
    {rds : List (RouteDef (PipelineFn V))} {st st' : Mounted V}
    (h : rds.foldlM (mountRoute crates routes policies defaultPolicy pool) st =
      (some (.ok st') : Option _)) : Installed routes st rds st' := by
  have hround : ∀ {done : List (RouteDef (PipelineFn V))} {rd : RouteDef (PipelineFn V)}
      {st₁ st₂ : Mounted V}, Installed routes st done st₁ →
      Fold.Yields (mountRoute crates routes policies defaultPolicy pool st₁ rd) st₂ →
      Installed routes st (done ++ [rd]) st₂ := by
    rintro done rd st₁ st₂ ⟨hgrow, hdone⟩ hmount
    obtain ⟨policy, rewrite, -, -, rfl⟩ := mountRoute_ok hmount
    refine ⟨hgrow.trans (List.prefix_append _ _), ?_⟩
    intro rd' hrd'
    rcases List.mem_append.mp hrd' with hrd' | hrd'
    · obtain ⟨entry, hentry, hsame⟩ := hdone rd' hrd'
      exact ⟨entry, List.mem_append_left _ hentry, hsame⟩
    · obtain rfl := List.mem_singleton.mp hrd'
      exact ⟨_, List.mem_append_right _ (List.mem_singleton.mpr rfl), rfl, rfl⟩
  have hstart : Installed routes st [] st := ⟨List.prefix_rfl, fun rd hrd => nomatch hrd⟩
  exact Fold.foldlM_invariant hround hstart h

/-- A path that a route matches on its own is matched by the mounted route at the joined path. -/
theorem routerMatches_join {servicePrefix path r : Str} {vs : List (Str × Str)}
    (hr : startsWith r (str "/") = true) (h : RouterMatches (join [] path) r vs) :
    ∃ vs', RouterMatches (join servicePrefix path) (join servicePrefix r) vs' := by
  obtain ⟨t, rfl⟩ := startsWith_slash.mp hr
  obtain ⟨c, hc, hjoin⟩ := join_eq servicePrefix path
  unfold RouterMatches at h ⊢
  rw [hjoin, join_slash]
  rw [hc] at h
  have hfirst : ∀ x : Str, (slash :: x).splitOn slash = [] :: x.splitOn slash := fun x =>
    splitOn_append (u := []) (by simp) x
  rw [hfirst, hfirst] at h
  obtain ⟨qs, hqs, h⟩ := h.lit_inv (by decide)
  obtain rfl := (List.cons.inj hqs).2
  rw [List.splitOn_append_cons_self, List.splitOn_append_cons_self]
  obtain ⟨vs', h'⟩ := h.prefix_self ((trimEndMatches slash servicePrefix).splitOn slash)
  exact ⟨_, h'⟩

/-- **Mounting and prefix stripping agree exactly under `StripInverts`.** For every collection that is mounted,
    every route of it and every path `r` the route matches: the builder has installed the route so that
    `join(prefix, r)` is its public path, and stripping the raw prefix from that public path gives `r` back if
    and only if `StripInverts` holds. -/
theorem mount_and_strip_agree_iff {crates : Crates V} {routes : Routes (PipelineFn V)}
    {policies : MultiMap Str PolicyRef} {defaultPolicy : PolicyRef} {pool : BackendPool}
    {st st' : Mounted V} {rd : RouteDef (PipelineFn V)} {r : Str} {vs : List (Str × Str)}
    (hmount : mountRoutes crates routes policies defaultPolicy pool st = (some (.ok st') : Option _))
    (hrd : rd ∈ routes.routes) (hr : startsWith r (str "/") = true)
    (hmatch : RouterMatches (join [] rd.path) r vs) :
    ((∃ entry ∈ st'.router, entry.method = rd.method ∧
        ∃ vs', RouterMatches entry.path (join routes.servicePrefix r) vs') ∧
      stripPrefix (join routes.servicePrefix r) routes.servicePrefix = r) ↔
    StripInverts routes.servicePrefix r := by
  obtain ⟨-, hinstalled⟩ := mountRoutes_ok hmount
  obtain ⟨entry, hentry, hmethod, hpath⟩ := hinstalled rd hrd
  rw [strip_join_iff routes.servicePrefix hr, and_iff_right]
  have hjoined : ∃ vs', RouterMatches (join routes.servicePrefix rd.path) (join routes.servicePrefix r) vs' :=
    routerMatches_join hr hmatch
  obtain ⟨vs', h'⟩ := hjoined
  exact ⟨entry, hentry, hmethod, vs', hpath ▸ h'⟩

/-- A collection with one route `/items`, mounted under the given prefix. -/
def itemsRoutes (servicePrefix : Str) : Routes (PipelineFn Str) :=
  ⟨str "sales", servicePrefix, none, [⟨.get, str "/items", .stripPrefix, none, none⟩]⟩

/-- The route matches its own path. -/
theorem items_match : RouterMatches (join [] (str "/items")) (str "/items") [] :=
  .lit (s := []) (by decide) (.lit (s := str "items") (by decide) .nil)

/-- The theorem at a prefix without a trailing slash. -/
theorem mount_and_strip_agree_api :
    ((∃ entry ∈ [RouteEntry.mk .get (str "/api/items") 0], entry.method = .get ∧
        ∃ vs', RouterMatches entry.path (join (str "/api") (str "/items")) vs') ∧
      stripPrefix (join (str "/api") (str "/items")) (str "/api") = str "/items") ↔
    StripInverts (str "/api") (str "/items") :=
  @mount_and_strip_agree_iff Str .plain (itemsRoutes (str "/api")) .empty 0 ⟨[]⟩ ⟨[], []⟩
    ⟨[⟨.get, str "/api/items", 0⟩],
      [⟨str "sales", str "/items", str "/api", .stripPrefix, ⟨[]⟩, 0, none⟩]⟩ _ _ _
    rfl (List.mem_singleton.mpr rfl) (by decide) items_match

/-- **A prefix that ends in a slash breaks stripping.** Under `/api/` the route `/items` is mounted at
    `/api/items`, but that request goes upstream as `/`; under `/` it is mounted at `/items` and goes upstream
    as `/` as well. -/
theorem trailing_slash_prefix_not_stripped :
    (join (str "/api/") (str "/items") = str "/api/items" ∧
      stripPrefix (join (str "/api/") (str "/items")) (str "/api/") = str "/" ∧
      stripPrefix (join (str "/api/") (str "/items")) (str "/api/") ≠ str "/items") ∧
    (join (str "/") (str "/items") = str "/items" ∧
      stripPrefix (join (str "/") (str "/items")) (str "/") = str "/" ∧
      stripPrefix (join (str "/") (str "/items")) (str "/") ≠ str "/items") := by
  decide

end Apigate
