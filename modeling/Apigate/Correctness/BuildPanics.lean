import Apigate.Correctness.Configuration

/-!
# `Correctness.BuildPanics` — when `build` panics instead of reporting

`build` reports a missing backend, a missing policy and a bad URL, but a fixed target that is no path and a path
that the router rejects end it in a panic. So it returns exactly when each definition that it comes to is one
that the libraries take (`build_returns_iff`).

`build` is a walk: over the registrations, then over the collections, and in each over its definitions. A walk
ends in a panic if one round of it does, with all rounds before it passed (`foldlM_panics`), and it comes to a
round if those before it pass (`foldlM_comes_to`). `Configuration` knows what the rounds before have left
(`Installs`), so the question is about one definition in a known state, and there the answer is by the order of
things in `mount_route`: the policy is looked up first and is an error if it is not there, then the target is
parsed and the path is handed to the router (`Installs.mountRoute_panics_iff`).

It is this order that makes the condition on the whole what it is. A definition behind a configuration error is
never looked at, however bad it is, and one before it is. `Reaches` says which definitions `build` comes to, in
terms of the calls alone.
-/

namespace Apigate
open Lib MultiMap Fold

variable {V ρ σ : Type}

/-! ## One definition

With the definitions before it, since the router compares a path with all those it has. -/

/-- What the libraries take, next to the definitions before it: a fixed target that is a path, and a path for
    the router. -/
structure Acceptable (crates : Crates V) (before : List (Definition V)) (d : Definition V) : Prop where
  target : ∀ target, d.2.rewrite = .static target → ∃ pq, crates.pathAndQueryFromStatic target = some pq
  path : crates.routeAccepted (before.map mountPoint) (mountPoint d) = true

/-- A rewrite that can be made has a target that is a path. -/
theorem target_of_toRewrite {crates : Crates V} {rewrite : RewriteSpec} {r : Rewrite}
    (h : rewrite.toRewrite crates = some r) (target : Str) (htarget : rewrite = .static target) :
    ∃ pq, crates.pathAndQueryFromStatic target = some pq := by
  subst htarget
  obtain ⟨fixed, hnew, -⟩ := Option.bind_eq_some_iff.mp h
  obtain ⟨pq, hpq, -⟩ := Option.bind_eq_some_iff.mp hnew
  exact ⟨pq, hpq⟩

section
variable {crates : Crates V} {calls : List (BuilderCall V ρ σ)} {b : AppBuilder V ρ σ}
  {routes : Routes (PipelineFn V)} {pool : BackendPool} {before : List (Definition V)} {st : Mounted V}
  {rd : RouteDef (PipelineFn V)}

/-- **A definition panics** if its policy is found and the libraries do not take it. -/
theorem Installs.mountRoute_panics_iff (hb : Configured calls b) (h : Installs crates calls before st) :
    Panics (Apigate.mountRoute crates routes b.policies b.defaultPolicy pool st rd) ↔
      (∃ policy, registeredPolicy calls (rd.policy.or routes.policy) = some policy) ∧
        ¬ Acceptable crates before (routes, rd) := by
  constructor
  · intro hpanics
    rcases panics_bind.mp hpanics with hresolve | ⟨policy, hpolicy, hrest⟩
    · cases hresolve
    · refine ⟨⟨policy, (hb.resolvePolicy_iff _ _ _).mp (Option.some.inj hpolicy)⟩, ?_⟩
      intro hacceptable
      obtain ⟨st', hst'⟩ := h.mountRoute_total pool hb hacceptable.path
        (exists_toRewrite hacceptable.target) ⟨policy, (hb.resolvePolicy_iff _ _ _).mp (Option.some.inj hpolicy)⟩
      rw [Panics, hst'] at hpanics
      cases hpanics
  · rintro ⟨⟨policy, hpolicy⟩, hrefused⟩
    have hresolved : Yields (Apigate.mountRoute.liftExcept
        (resolvePolicy routes.policy rd.policy b.policies b.defaultPolicy)) policy :=
      congrArg some ((hb.resolvePolicy_iff _ _ _).mpr hpolicy)
    refine panics_bind.mpr (Or.inr ⟨policy, hresolved, ?_⟩)
    cases hrewrite : rd.rewrite.toRewrite crates with
    | none => exact panics_bind.mpr (Or.inl rfl)
    | some r =>
        refine panics_bind.mpr (Or.inr ⟨r, rfl, panics_bind.mpr (Or.inl ?_)⟩)
        rw [h.router, mapIdx_mountPoint]
        have hrejected : ¬ crates.routeAccepted (before.map mountPoint) (mountPoint (routes, rd)) = true :=
          fun hpath => hrefused ⟨target_of_toRewrite hrewrite, hpath⟩
        show Panics (orPanic (if crates.routeAccepted (before.map mountPoint) (mountPoint (routes, rd)) = true
          then some () else none))
        rw [if_neg hrejected]
        rfl

/-! ## The definitions that `build` comes to

In both directions the walk is cut at the definition in question: from a panic one finds the round it is in, and
for a definition that is reached one shows that every round before it passes. -/

variable (crates calls) in
/-- No configuration error stops `build` before it comes to the definition `rd` of `routes`: the URLs parse, the
    services up to this one have backends, and the policies up to this one are registered. -/
structure Reaches (seen : List (Routes (PipelineFn V))) (routes : Routes (PipelineFn V))
    (done : List (RouteDef (PipelineFn V))) (rd : RouteDef (PipelineFn V)) : Prop where
  collection : ∃ rest, collections calls = seen ++ routes :: rest
  definition : ∃ later, routes.routes = done ++ rd :: later
  urls : ∀ service urls, registeredUrls calls service = some urls → ∀ url ∈ urls, ParsesAsBase crates url
  services : ∀ r ∈ seen ++ [routes], ∃ urls, registeredUrls calls r.service = some urls
  policies : ∀ d ∈ definitionsOf seen ++ (done ++ [rd]).map (routes, ·),
    ∃ policy, registeredPolicy calls (d.2.policy.or d.1.policy) = some policy

/-- A panic is at a definition that is not acceptable. The registrations cannot panic, so it is in a round of
    the outer walk, and there in a round of the inner one. -/
theorem refused_of_panics (h : Panics ((AppBuilder.ofCalls calls).build crates)) :
    ∃ seen routes done rd, Reaches crates calls seen routes done rd ∧
      ¬ Acceptable crates (definitionsOf seen ++ done.map (routes, ·)) (routes, rd) := by
  have hb := configured_ofCalls calls
  unfold AppBuilder.build at h
  rcases panics_bind.mp h with hpools | ⟨pools, hpools, h⟩
  · cases hpools
  have hbuilt : buildPools crates (.ofList (registrations calls)) = .ok pools := by
    rw [← hb.backends]
    exact Option.some.inj hpools
  have hof : PoolsOf crates calls pools := buildPools_ok hbuilt
  rcases panics_bind.mp h with hloop | ⟨mounted, -, hdone⟩
  · rw [hb.mounted] at hloop
    obtain ⟨seen, routes, rest, st, hsplit, hseen, hcollection⟩ := foldlM_panics hloop
    obtain ⟨hst, hservices⟩ := installs_of_collections hb hof hseen
    unfold mountCollection at hcollection
    cases hpool : pools.get? routes.service with
    | none =>
        rw [hpool] at hcollection
        cases hcollection
    | some pool =>
        rw [hpool] at hcollection
        obtain ⟨done, rd, later, st', hroutes, hdone, hdefinition⟩ := foldlM_panics hcollection
        obtain ⟨urls, hurls, hpoolOf⟩ := hof.registered hpool
        have hst' := hst.mountRoutes hb ⟨urls, hurls, hpoolOf⟩ hdone
        obtain ⟨hpolicy, hrefused⟩ := (hst'.mountRoute_panics_iff hb).mp hdefinition
        refine ⟨seen, routes, done, rd, ⟨⟨rest, hsplit⟩, ⟨later, hroutes⟩, ?_, ?_, ?_⟩, hrefused⟩
        · exact exists_buildPools_iff.mp ⟨pools, hbuilt⟩
        · rw [List.forall_mem_append, List.forall_mem_singleton]
          exact ⟨hservices, urls, hurls⟩
        · rw [List.map_append, ← List.append_assoc, List.forall_mem_append, List.map_singleton,
            List.forall_mem_singleton]
          exact ⟨hst'.policies, hpolicy⟩
  · cases hdone

/-- **One definition** of which the policy is registered and that does not panic. -/
theorem Installs.mountRoute_of_not_panics (hb : Configured calls b) (h : Installs crates calls before st)
    (hpool : ∃ urls, registeredUrls calls routes.service = some urls ∧ PoolOf crates urls pool)
    (hpolicy : ∃ policy, registeredPolicy calls (rd.policy.or routes.policy) = some policy)
    (hsafe : ¬ Panics (Apigate.mountRoute crates routes b.policies b.defaultPolicy pool st rd)) :
    ∃ st', Yields (Apigate.mountRoute crates routes b.policies b.defaultPolicy pool st rd) st' ∧
      Installs crates calls (before ++ [(routes, rd)]) st' := by
  have hacceptable : Acceptable crates before (routes, rd) := by
    by_contra hrefused
    exact hsafe ((h.mountRoute_panics_iff hb).mpr ⟨hpolicy, hrefused⟩)
  obtain ⟨st', hst'⟩ := h.mountRoute_total pool hb hacceptable.path (exists_toRewrite hacceptable.target) hpolicy
  exact ⟨st', hst', h.mountRoute hb hpool hst'⟩

/-- **One collection** of which the service has backends and the policies are registered, and that does not
    panic. -/
theorem Installs.mountCollection_of_not_panics (hb : Configured calls b) {pools : MultiMap Str BackendPool}
    (hpools : PoolsOf crates calls pools) {seen : List (Routes (PipelineFn V))}
    (h : Installs crates calls (definitionsOf seen) st)
    (hurls : ∃ urls, registeredUrls calls routes.service = some urls)
    (hpolicies : ∀ d ∈ routes.routes.map (routes, ·),
      ∃ policy, registeredPolicy calls (d.2.policy.or d.1.policy) = some policy)
    (hsafe : ¬ Panics (Apigate.mountCollection crates pools b.policies b.defaultPolicy st routes)) :
    ∃ st', Yields (Apigate.mountCollection crates pools b.policies b.defaultPolicy st routes) st' ∧
      Installs crates calls (definitionsOf (seen ++ [routes])) st' := by
  obtain ⟨urls, hurls⟩ := hurls
  have hfound := hpools routes.service
  rw [hurls] at hfound
  obtain ⟨pool, hget, hof⟩ := hfound
  unfold Apigate.mountCollection at hsafe ⊢
  rw [hget] at hsafe ⊢
  have hloop := foldlM_of_not_panics (s := []) (l := routes.routes) (b := st)
    (f := Apigate.mountRoute crates routes b.policies b.defaultPolicy pool)
    (I := fun done st => Installs crates calls (definitionsOf seen ++ done.map (routes, ·)) st) ?_ ?_ hsafe
  · obtain ⟨st', hst', hinstalls⟩ := hloop
    refine ⟨st', hst', ?_⟩
    rw [definitionsOf_concat]
    exact hinstalls
  · intro done rd later st hroutes hst hround
    have hmem : rd ∈ routes.routes := hroutes ▸ List.mem_append_right _ List.mem_cons_self
    rw [List.map_append, List.map_singleton, ← List.append_assoc]
    exact hst.mountRoute_of_not_panics hb ⟨urls, hurls, hof⟩ (hpolicies _ (List.mem_map_of_mem hmem)) hround
  · rw [List.map_nil, List.append_nil]
    exact h

/-- What `build` comes to without a panic is acceptable. The two walks are followed up to this definition, each
    with its own form of the invariant; if it were not acceptable the next round would panic. -/
theorem Reaches.acceptable {seen : List (Routes (PipelineFn V))} {done : List (RouteDef (PipelineFn V))}
    (h : Reaches crates calls seen routes done rd) (hsafe : ¬ Panics ((AppBuilder.ofCalls calls).build crates)) :
    Acceptable crates (definitionsOf seen ++ done.map (routes, ·)) (routes, rd) := by
  have hb := configured_ofCalls calls
  obtain ⟨pools, hpools⟩ := exists_buildPools_iff.mpr h.urls
  have hof : PoolsOf crates calls pools := buildPools_ok hpools
  obtain ⟨rest, hrest⟩ := h.collection
  obtain ⟨later, hlater⟩ := h.definition
  obtain ⟨hservices, hservice⟩ := List.forall_mem_append.mp h.services
  have hpolicies := h.policies
  rw [List.map_append, ← List.append_assoc, List.forall_mem_append, List.forall_mem_append, List.map_singleton,
    List.forall_mem_singleton] at hpolicies
  obtain ⟨⟨hseen, hdone⟩, hpolicy⟩ := hpolicies
  -- the walk over the collections comes to this one
  unfold AppBuilder.build at hsafe
  have hbuilt : Yields (some (buildPools crates (AppBuilder.ofCalls calls).backends) : Option _) pools := by
    rw [hb.backends]
    exact congrArg some hpools
  rw [panics_bind, not_or, not_exists] at hsafe
  have hwalk : ¬ Panics ((seen ++ routes :: rest).foldlM (mountCollection crates pools
      (AppBuilder.ofCalls calls).policies (AppBuilder.ofCalls calls).defaultPolicy) (⟨[], []⟩ : Mounted V)) := by
    intro hpanics
    refine hsafe.2 pools ⟨hbuilt, panics_bind.mpr (Or.inl ?_)⟩
    rw [hb.mounted, hrest]
    exact hpanics
  have hcomes := foldlM_comes_to (s := [])
    (I := fun seen st => Installs crates calls (definitionsOf seen) st) ?_ ⟨rfl, .nil⟩ hwalk
  · -- and in it, the walk over the definitions comes to this one
    obtain ⟨st, hst, hcollection⟩ := hcomes
    obtain ⟨urls, hurls⟩ := hservice routes List.mem_cons_self
    have hfound := hof routes.service
    rw [hurls] at hfound
    obtain ⟨pool, hget, hpoolOf⟩ := hfound
    unfold mountCollection at hcollection
    rw [hget] at hcollection
    unfold mountRoutes at hcollection
    dsimp only at hcollection
    rw [hlater] at hcollection
    have hcomes := foldlM_comes_to (s := [])
      (I := fun done st => Installs crates calls (definitionsOf seen ++ done.map (routes, ·)) st) ?_ ?_ hcollection
    · obtain ⟨st', hst', hdefinition⟩ := hcomes
      by_contra hrefused
      exact hdefinition ((hst'.mountRoute_panics_iff hb).mpr ⟨hpolicy, hrefused⟩)
    · intro before rd' after st hsplit hst hround
      have hmem : rd' ∈ done := hsplit ▸ List.mem_append_right _ List.mem_cons_self
      rw [List.map_append, List.map_singleton, ← List.append_assoc]
      exact hst.mountRoute_of_not_panics hb ⟨urls, hurls, hpoolOf⟩ (hdone _ (List.mem_map_of_mem hmem)) hround
    · rw [List.map_nil, List.append_nil]
      exact hst
  · intro before routes' after st hsplit hst hround
    have hmem : routes' ∈ seen := hsplit ▸ List.mem_append_right _ List.mem_cons_self
    refine hst.mountCollection_of_not_panics hb hof (hservices routes' hmem) ?_ hround
    intro d hd
    exact hseen d (List.mem_flatMap.mpr ⟨routes', hmem, hd⟩)

/-! ## The main result -/

end

/-- **`build` returns exactly when everything it comes to is acceptable.** For every sequence of calls: it gives
    an application or an error, and no panic, if and only if every definition that no configuration error keeps
    it from has a fixed target that is a path, if any, and a path that the router takes next to those before it.
    -/
theorem build_returns_iff (crates : Crates V) (calls : List (BuilderCall V ρ σ)) :
    (∃ result, (AppBuilder.ofCalls calls).build crates = (some result : Option _)) ↔
      ∀ seen routes done rd, Reaches crates calls seen routes done rd →
        Acceptable crates (definitionsOf seen ++ done.map (routes, ·)) (routes, rd) := by
  constructor
  · intro hreturns seen routes done rd h
    exact h.acceptable (not_panics_iff.mpr hreturns)
  · intro hacceptable
    rw [← not_panics_iff]
    intro hpanics
    obtain ⟨seen, routes, done, rd, hreaches, hrefused⟩ := refused_of_panics hpanics
    exact hrefused (hacceptable seen routes done rd hreaches)

/-- A collection of which the only route has a fixed target with a blank. -/
def blankTarget : Routes (PipelineFn Str) :=
  ⟨str "sales", str "/api", none, [⟨.get, str "/items", .static (str "bad path"), none, none⟩]⟩

/-- One collection with one route, mounted with its backend. -/
def salesCalls : List (BuilderCall Str NoRouteKey RoundRobin) :=
  [.mountService (itemsRoutes (str "/api")) [str "http://up"]]

/-- Complete configurations that panic: one with a target that is no path, and one with a collection that is
    mounted twice. -/
theorem build_panics :
    (AppBuilder.ofCalls (ρ := NoRouteKey) (σ := RoundRobin)
        [.mountService blankTarget [str "http://up"]]).build .plain = (none : Option _) ∧
      (AppBuilder.ofCalls (salesCalls ++ [.mount (itemsRoutes (str "/api"))])).build .plain = (none : Option _) := by
  exact ⟨rfl, rfl⟩

end Apigate
