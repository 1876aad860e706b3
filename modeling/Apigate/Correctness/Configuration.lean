import Apigate.App.Calls
import Apigate.Correctness.RouteTable
import Apigate.Lib.Fold

/-!
# `Correctness.Configuration` — `build` compiles the configuration faithfully

The builder keeps what the calls say (`Configured`). `build` goes through the mounted collections with one flat
list of route metadata; the invariant of that walk is that the table and the router are what the definitions
seen so far say, entry by entry (`Installs`). So `build` succeeds exactly when the configuration is complete,
and then every handler carries the index of the metadata of its own definition (`build_compiles_configuration`).

What a sequence of calls asks for is stated without the builder: the collections in the order of the calls, the
URLs registered last for a service, the policy registered last under a name (`App.Calls`). The proof has three
layers, one for each loop, and each is an invariant along a fold:

* the calls. `Configured.apply` adds one call to what the builder holds; a registration under a name that is
  taken replaces the one before, and the index of a policy is its position among all that were handed over;
* the pools. `insertPools_ok` goes through the registrations and says of every service what it finds in the end;
  a URL that does not parse fails only if it is among those registered last, since others are not in the map any
  more;
* the table. `Installs` is kept by one definition, by the definitions of one collection, and by all collections.
  The handler and the metadata of a definition are appended in the same round, and that is why their indices
  agree.

For the converse, that a complete configuration does build, the same three loops are gone through forwards: no
step has a reason to fail. That the router accepts the definitions and that fixed targets are paths is assumed
there, as both are decided by other crates and end in a panic.
-/

namespace Apigate
open Lib MultiMap Fold

variable {V ρ σ : Type}

/-! ## What the builder keeps -/

/-- What the builder holds after the calls. The map of pools' URLs is a fold over the registrations, and a
    policy is found under its name where it was registered last. -/
structure Configured (calls : List (BuilderCall V ρ σ)) (b : AppBuilder V ρ σ) : Prop where
  mounted : b.mounted = collections calls
  backends : b.backends = .ofList (registrations calls)
  arcs : b.arcs = (handedOver calls).map Prod.snd
  fallback : registeredPolicy calls none = some b.defaultPolicy
  named : ∀ name, b.policies.get? name = registeredPolicy calls (some name)

section
variable (calls : List (BuilderCall V ρ σ)) (call : BuilderCall V ρ σ)

/-- One more call, for each of the three lists that it may add to. -/
theorem collections_concat :
    collections (calls ++ [call]) = collections calls ++ call.mounts?.toList := by
  unfold collections
  rw [List.filterMap_append]
  cases call <;> rfl

theorem registrations_concat :
    registrations (calls ++ [call]) = registrations calls ++ call.registers?.toList := by
  unfold registrations
  rw [List.filterMap_append]
  cases call <;> rfl

theorem handedOver_concat : handedOver (calls ++ [call]) = handedOver calls ++ call.hands?.toList := by
  unfold handedOver
  rw [List.filterMap_append]
  cases call <;> rfl

/-- A policy that is handed over is the last of its name, and no other name changes. Its index is the number of
    those before it. -/
theorem registeredPolicy_concat (name : Option Str) :
    registeredPolicy (calls ++ [call]) name =
      match call.hands? with
      | some (key, _) => if key = name then some (handedOver calls).length else registeredPolicy calls name
      | none => registeredPolicy calls name := by
  unfold registeredPolicy
  rw [handedOver_concat]
  cases call.hands? with
  | none => simp
  | some handed =>
      rw [Option.toList_some, List.map_append, List.map_singleton, List.zipIdx_append, List.zipIdx_singleton,
        latest?_concat]
      simp

end

/-- **One call.** By cases on the call; each changes what it is about and keeps the other fields, and the index
    of a new policy is the length of the list it is appended to. -/
theorem Configured.apply {calls : List (BuilderCall V ρ σ)} {b : AppBuilder V ρ σ} (h : Configured calls b)
    (call : BuilderCall V ρ σ) : Configured (calls ++ [call]) (call.apply b) := by
  have harcs : b.arcs.length = (handedOver calls).length := by rw [h.arcs, List.length_map]
  refine ⟨?_, ?_, ?_, ?_, ?_⟩
  · rw [call.apply_mounted, collections_concat, h.mounted]
  · rw [call.apply_backends, registrations_concat, h.backends]
    unfold ofList
    rw [List.foldl_append]
  · rw [call.apply_arcs, handedOver_concat, h.arcs, List.map_append]
  · rw [call.apply_defaultPolicy, registeredPolicy_concat]
    cases call.hands? with
    | none => exact h.fallback
    | some handed =>
        obtain ⟨key, policy⟩ := handed
        cases key with
        | none => exact congrArg some harcs.symm
        | some name => exact h.fallback
  · intro name
    rw [call.apply_policies, registeredPolicy_concat]
    cases call.hands? with
    | none => exact h.named name
    | some handed =>
        obtain ⟨key, policy⟩ := handed
        cases key with
        | none => exact h.named name
        | some name' =>
            show (b.policies.insert name' b.arcs.length).get? name = _
            rw [get?_insert, h.named name, harcs]
            simp only [Option.some.injEq]

/-- **The builder keeps what the calls say.** By induction on the calls from the end, since the last call meets
    what those before it have left. -/
theorem configured_ofCalls (calls : List (BuilderCall V ρ σ)) : Configured calls (.ofCalls calls) := by
  induction calls using List.reverseRecOn with
  | nil => exact ⟨rfl, rfl, rfl, rfl, fun name => rfl⟩
  | append_singleton calls call ih =>
      have hcalls : AppBuilder.ofCalls (calls ++ [call]) = call.apply (.ofCalls calls) := by
        unfold AppBuilder.ofCalls
        rw [List.foldl_append]
        rfl
      rw [hcalls]
      exact ih.apply call

/-- The policy of a route is the one registered last under its effective name: its own, else that of the
    service, else the default. -/
theorem Configured.resolvePolicy_iff {calls : List (BuilderCall V ρ σ)} {b : AppBuilder V ρ σ}
    (h : Configured calls b) (servicePolicy routePolicy : Option Str) (policy : PolicyRef) :
    resolvePolicy servicePolicy routePolicy b.policies b.defaultPolicy = .ok policy ↔
      registeredPolicy calls (routePolicy.or servicePolicy) = some policy := by
  unfold resolvePolicy
  cases routePolicy.or servicePolicy with
  | none =>
      rw [h.fallback]
      simp
  | some name =>
      dsimp only
      rw [h.named name]
      cases registeredPolicy calls (some name) with
      | none => simp
      | some policy' => simp

/-! ## The pools

A pool is the list of the parsed URLs, in the order in which they were registered, and there is one for every
service with backends. Services are looked up in a map, so a later pool of the same service hides an earlier
one. -/

/-- The pool holds the backends that the URLs denote, in their order. -/
def PoolOf (crates : Crates V) (urls : List Str) (pool : BackendPool) : Prop :=
  List.Forall₂ (fun url backend => BaseUri.parse crates.parseUri url = .ok backend.base) urls pool.backends

/-- The URL is one of a backend. -/
def ParsesAsBase (crates : Crates V) (url : Str) : Prop :=
  ∃ base, BaseUri.parse crates.parseUri url = .ok base

section
variable {crates : Crates V} {service : Str} {urls : List Str}

/-- What a pool is made of: the URLs one by one, each with the base that it parses to. -/
theorem buildPool_ok {pool : BackendPool} (h : buildPool crates service urls = .ok pool) :
    PoolOf crates urls pool := by
  unfold buildPool at h
  cases hbases : urls.mapM (fun url =>
    (BaseUri.parse crates.parseUri url).mapError (ApigateBuildError.invalidBackendUri service url)) with
  | error e =>
      rw [hbases] at h
      cases h
  | ok bases =>
      rw [hbases] at h
      cases h
      unfold PoolOf BackendPool.new
      rw [List.forall₂_map_right_iff]
      exact (mapM_ok_iff.mp hbases).imp fun url base hbase => mapError_eq_ok.mp hbase

/-- There is a pool if every URL is one of a backend. -/
theorem exists_buildPool_iff :
    (∃ pool, buildPool crates service urls = .ok pool) ↔ ∀ url ∈ urls, ParsesAsBase crates url := by
  have hbases := exists_mapM_ok_iff (fun url =>
    (BaseUri.parse crates.parseUri url).mapError (ApigateBuildError.invalidBackendUri service url)) urls
  simp only [mapError_eq_ok] at hbases
  unfold ParsesAsBase
  rw [← hbases]
  unfold buildPool
  constructor
  · rintro ⟨pool, h⟩
    cases hbases : urls.mapM (fun url =>
      (BaseUri.parse crates.parseUri url).mapError (ApigateBuildError.invalidBackendUri service url)) with
    | error e =>
        rw [hbases] at h
        cases h
    | ok bases => exact ⟨bases, rfl⟩
  · rintro ⟨bases, h⟩
    rw [h]
    exact ⟨_, rfl⟩

end

/-- One round of `build_pools`. -/
def insertPool (crates : Crates V) (pools : MultiMap Str BackendPool) (entry : Str × List Str) :
    Except ApigateBuildError (MultiMap Str BackendPool) := do
  let pool ← buildPool crates entry.1 entry.2
  return pools.insert entry.1 pool

theorem buildPools_eq (crates : Crates V) (backends : MultiMap Str (List Str)) :
    buildPools crates backends = backends.entries.foldlM (insertPool crates) .empty := rfl

/-- A round succeeds when the pool of its service can be built. -/
theorem insertPool_ok_iff {crates : Crates V} {pools pools' : MultiMap Str BackendPool}
    {entry : Str × List Str} :
    insertPool crates pools entry = .ok pools' ↔
      ∃ pool, buildPool crates entry.1 entry.2 = .ok pool ∧ pools' = pools.insert entry.1 pool := by
  unfold insertPool
  cases buildPool crates entry.1 entry.2 with
  | error e =>
      constructor
      · rintro ⟨⟩
      · rintro ⟨pool, hpool, -⟩
        cases hpool
  | ok pool =>
      constructor
      · rintro ⟨⟩
        exact ⟨pool, rfl, rfl⟩
      · rintro ⟨pool, ⟨⟩, rfl⟩
        rfl

/-- The walk over the registrations: every pool is built, and the last one of a service is kept. By induction on
    the entries, for any map that is there already. -/
theorem insertPools_ok {crates : Crates V} {entries : List (Str × List Str)}
    {acc pools : MultiMap Str BackendPool} (h : entries.foldlM (insertPool crates) acc = .ok pools) :
    (∀ e ∈ entries, ∃ pool, buildPool crates e.1 e.2 = .ok pool) ∧
      ∀ service, match latest? entries service with
        | some urls => ∃ pool, pools.get? service = some pool ∧ buildPool crates service urls = .ok pool
        | none => pools.get? service = acc.get? service := by
  induction entries generalizing acc with
  | nil =>
      cases h
      exact ⟨by simp, fun service => rfl⟩
  | cons e entries ih =>
      rw [List.foldlM_cons] at h
      cases hstep : insertPool crates acc e with
      | error err =>
          rw [hstep] at h
          cases h
      | ok acc' =>
          rw [hstep] at h
          obtain ⟨pool, hpool, rfl⟩ := insertPool_ok_iff.mp hstep
          obtain ⟨hall, hkept⟩ := ih h
          refine ⟨List.forall_mem_cons.mpr ⟨⟨pool, hpool⟩, hall⟩, ?_⟩
          intro service
          have hlast := hkept service
          rw [← List.singleton_append, latest?_append]
          cases hlater : latest? entries service with
          | some urls =>
              rw [hlater] at hlast
              exact hlast
          | none =>
              rw [hlater, get?_insert] at hlast
              dsimp only at hlast
              by_cases hservice : e.1 = service
              · rw [if_pos hservice] at hlast
                subst hservice
                simp only [latest?, List.reverse_singleton]
                simpa using ⟨pool, hlast, hpool⟩
              · rw [if_neg hservice] at hlast
                simpa [latest?, hservice] using hlast

/-- The walk goes through if every pool can be built. -/
theorem insertPools_total {crates : Crates V} {entries : List (Str × List Str)}
    (h : ∀ e ∈ entries, ∃ pool, buildPool crates e.1 e.2 = .ok pool) (acc : MultiMap Str BackendPool) :
    ∃ pools, entries.foldlM (insertPool crates) acc = .ok pools := by
  induction entries generalizing acc with
  | nil => exact ⟨acc, rfl⟩
  | cons e entries ih =>
      obtain ⟨pool, hpool⟩ := h e List.mem_cons_self
      obtain ⟨pools, hpools⟩ := ih (fun e he => h e (List.mem_cons_of_mem _ he)) (acc.insert e.1 pool)
      refine ⟨pools, ?_⟩
      rw [List.foldlM_cons, insertPool_ok_iff.mpr ⟨pool, hpool, rfl⟩]
      exact hpools

/-- **The pools of the registered services**, each from the URLs registered last. -/
theorem buildPools_ok {crates : Crates V} {calls : List (BuilderCall V ρ σ)} {pools : MultiMap Str BackendPool}
    (h : buildPools crates (.ofList (registrations calls)) = .ok pools) (service : Str) :
    match registeredUrls calls service with
    | some urls => ∃ pool, pools.get? service = some pool ∧ PoolOf crates urls pool
    | none => pools.get? service = none := by
  rw [buildPools_eq] at h
  have hservice := (insertPools_ok h).2 service
  rw [latest?_entries] at hservice
  unfold registeredUrls
  cases hurls : latest? (registrations calls) service with
  | none =>
      rw [hurls] at hservice
      exact hservice
  | some urls =>
      rw [hurls] at hservice
      obtain ⟨pool, hget, hpool⟩ := hservice
      exact ⟨pool, hget, buildPool_ok hpool⟩

/-- There are pools if the URLs registered last for each service are those of backends. -/
theorem exists_buildPools_iff {crates : Crates V} {calls : List (BuilderCall V ρ σ)} :
    (∃ pools, buildPools crates (.ofList (registrations calls)) = .ok pools) ↔
      ∀ service urls, registeredUrls calls service = some urls → ∀ url ∈ urls, ParsesAsBase crates url := by
  rw [buildPools_eq]
  constructor
  · rintro ⟨pools, h⟩ service urls hurls
    exact exists_buildPool_iff.mp ((insertPools_ok h).1 (service, urls) (mem_ofList.mpr hurls))
  · intro h
    apply insertPools_total
    intro e he
    exact exists_buildPool_iff.mpr (h e.1 e.2 (mem_ofList.mp he))

/-! ## The table

`mount_route` pushes the metadata of a definition and gives the router a handler with the index that the
metadata has just got. `Installs` says so for all definitions seen so far, in the order of the walk. -/

/-- A collection together with one of its definitions. -/
abbrev Definition (V : Type) := Routes (PipelineFn V) × RouteDef (PipelineFn V)

/-- The metadata says what the definition and the calls say. -/
structure Describes (crates : Crates V) (calls : List (BuilderCall V ρ σ)) (d : Definition V)
    (m : RouteMeta (PipelineFn V)) : Prop where
  service : m.service = d.1.service
  routePath : m.routePath = d.2.path
  servicePrefix : m.servicePrefix = d.1.servicePrefix
  pipeline : m.pipeline = d.2.pipeline
  rewrite : d.2.rewrite.toRewrite crates = some m.rewrite
  pool : ∃ urls, registeredUrls calls d.1.service = some urls ∧ PoolOf crates urls m.pool
  policy : registeredPolicy calls (d.2.policy.or d.1.policy) = some m.policy

/-- The handler of the `k`-th definition. -/
def handlerOf (k : Nat) (d : Definition V) : RouteEntry := ⟨d.2.method, join d.1.servicePrefix d.2.path, k⟩

/-- Router and table are those of the definitions seen so far, entry by entry. -/
structure Installs (crates : Crates V) (calls : List (BuilderCall V ρ σ)) (seen : List (Definition V))
    (st : Mounted V) : Prop where
  router : st.router = seen.mapIdx handlerOf
  metas : List.Forall₂ (Describes crates calls) seen st.routeMetas

section
variable {crates : Crates V} {calls : List (BuilderCall V ρ σ)} {b : AppBuilder V ρ σ}
  {routes : Routes (PipelineFn V)} {pool : BackendPool}

/-- **One definition.** The new handler has the length of the table for its index, which is the index of the
    metadata that are appended in the same round. -/
theorem Installs.mountRoute (hb : Configured calls b)
    (hpool : ∃ urls, registeredUrls calls routes.service = some urls ∧ PoolOf crates urls pool)
    {seen : List (Definition V)} {st st' : Mounted V} {rd : RouteDef (PipelineFn V)}
    (h : Installs crates calls seen st)
    (hmount : Yields (mountRoute crates routes b.policies b.defaultPolicy pool st rd) st') :
    Installs crates calls (seen ++ [(routes, rd)]) st' := by
  obtain ⟨policy, rewrite, hpolicy, hrewrite, rfl⟩ := mountRoute_ok hmount
  have hnew : Describes crates calls (routes, rd)
      ⟨routes.service, rd.path, routes.servicePrefix, rewrite, pool, policy, rd.pipeline⟩ :=
    ⟨rfl, rfl, rfl, rfl, hrewrite, hpool, (hb.resolvePolicy_iff _ _ _).mp hpolicy⟩
  constructor
  · show st.router ++ [_] = (seen ++ [(routes, rd)]).mapIdx handlerOf
    -- the index is the length of the table so far
    rw [List.mapIdx_concat, h.router, ← h.metas.length_eq]
    rfl
  · exact List.rel_append h.metas (.cons hnew .nil)

/-- The definitions of a collection come after those of the collections before it. -/
theorem definitionsOf_concat (mounted : List (Routes (PipelineFn V))) (routes : Routes (PipelineFn V)) :
    definitionsOf (mounted ++ [routes]) = definitionsOf mounted ++ routes.routes.map (routes, ·) := by
  unfold definitionsOf
  rw [List.flatMap_append, List.flatMap_singleton]

/-- What is looked up for a collection: the pool of the URLs registered last for its service. -/
def PoolsOf (crates : Crates V) (calls : List (BuilderCall V ρ σ)) (pools : MultiMap Str BackendPool) : Prop :=
  ∀ service, match registeredUrls calls service with
    | some urls => ∃ pool, pools.get? service = some pool ∧ PoolOf crates urls pool
    | none => pools.get? service = none

/-- A pool that is found is that of a service with backends. -/
theorem PoolsOf.registered {pools : MultiMap Str BackendPool} (h : PoolsOf crates calls pools) {service : Str}
    {pool : BackendPool} (hpool : pools.get? service = some pool) :
    ∃ urls, registeredUrls calls service = some urls ∧ PoolOf crates urls pool := by
  have hservice := h service
  cases hurls : registeredUrls calls service with
  | none =>
      rw [hurls, hpool] at hservice
      cases hservice
  | some urls =>
      rw [hurls] at hservice
      obtain ⟨pool', hget, hof⟩ := hservice
      obtain rfl : pool = pool' := by simpa [hpool] using hget
      exact ⟨urls, rfl, hof⟩

/-- The routes of a collection, one after the other, by the rule for folds. -/
theorem Installs.mountRoutes (hb : Configured calls b)
    (hpool : ∃ urls, registeredUrls calls routes.service = some urls ∧ PoolOf crates urls pool)
    {seen : List (Definition V)} {st st' : Mounted V} {rds : List (RouteDef (PipelineFn V))}
    (h : Installs crates calls seen st)
    (hmount : Yields (rds.foldlM (Apigate.mountRoute crates routes b.policies b.defaultPolicy pool) st) st') :
    Installs crates calls (seen ++ rds.map (routes, ·)) st' := by
  have hall : Installs crates calls (seen ++ ([] ++ rds).map (routes, ·)) st' := by
    apply foldlM_invariant (I := fun done st => Installs crates calls (seen ++ done.map (routes, ·)) st) ?_ ?_ hmount
    · intro done rd st st' hst hround
      rw [List.map_append, List.map_singleton, ← List.append_assoc]
      exact hst.mountRoute hb hpool hround
    · rw [List.map_nil, List.append_nil]
      exact h
  exact hall

/-- **One collection.** It fails if its service has no pool; otherwise its definitions are mounted with that
    pool. -/
theorem Installs.mountCollection (hb : Configured calls b) {pools : MultiMap Str BackendPool}
    (hpools : PoolsOf crates calls pools) {seen : List (Routes (PipelineFn V))} {st st' : Mounted V}
    (h : Installs crates calls (definitionsOf seen) st)
    (hmount : Yields (mountCollection crates pools b.policies b.defaultPolicy st routes) st') :
    Installs crates calls (definitionsOf (seen ++ [routes])) st' ∧
      ∃ urls, registeredUrls calls routes.service = some urls := by
  unfold Apigate.mountCollection at hmount
  cases hpool : pools.get? routes.service with
  | none =>
      rw [hpool] at hmount
      cases hmount
  | some pool =>
      rw [hpool] at hmount
      have hurls := hpools.registered hpool
      rw [definitionsOf_concat]
      exact ⟨h.mountRoutes hb hurls hmount, hurls.imp fun urls h => h.1⟩

/-- The collections, one after the other, by the rule for folds. Along the way every service turns out to have
    backends. -/
theorem installs_of_collections (hb : Configured calls b) {pools : MultiMap Str BackendPool}
    (hpools : PoolsOf crates calls pools) {seen : List (Routes (PipelineFn V))} {st : Mounted V}
    (hmount : Yields (seen.foldlM (Apigate.mountCollection crates pools b.policies b.defaultPolicy) ⟨[], []⟩) st) :
    Installs crates calls (definitionsOf seen) st ∧
      ∀ routes ∈ seen, ∃ urls, registeredUrls calls routes.service = some urls := by
  refine foldlM_invariant (s := []) (I := fun seen st => Installs crates calls (definitionsOf seen) st ∧
    ∀ routes ∈ seen, ∃ urls, registeredUrls calls routes.service = some urls) ?_ ⟨⟨rfl, .nil⟩, by simp⟩ hmount
  rintro seen routes st st' ⟨hst, hseen⟩ hmount
  obtain ⟨hst', hurls⟩ := hst.mountCollection hb hpools hmount
  refine ⟨hst', ?_⟩
  intro r hr
  rcases List.mem_append.mp hr with hr | hr
  · exact hseen r hr
  · exact List.mem_singleton.mp hr ▸ hurls

/-- The policy of an installed definition is registered. -/
theorem Installs.policies {seen : List (Definition V)} {st : Mounted V} (h : Installs crates calls seen st) :
    ∀ d ∈ seen, ∃ policy, registeredPolicy calls (d.2.policy.or d.1.policy) = some policy := by
  intro d hd
  obtain ⟨k, hk, hkd⟩ := List.mem_iff_getElem.mp hd
  have hm : k < st.routeMetas.length := h.metas.length_eq ▸ hk
  have hdescribes := List.forall₂_iff_get.mp h.metas |>.2 k hk hm
  rw [List.get_eq_getElem, hkd] at hdescribes
  exact ⟨_, hdescribes.policy⟩

/-! ## Going on

The converse direction. Each step of the walk succeeds because what it looks up is there, and leaves a state of
which `Installs` holds again, so that the next step can be taken. -/

/-- Where a definition is mounted. -/
def mountPoint (d : Definition V) : Str × Str := (d.2.method.name, join d.1.servicePrefix d.2.path)

/-- The router accepts every definition next to those before it. -/
def RouterAccepts (crates : Crates V) (ds : List (Definition V)) : Prop :=
  ∀ before d after, ds = before ++ d :: after →
    crates.routeAccepted (before.map mountPoint) (mountPoint d) = true

/-- Every fixed target is a path. -/
def TargetsValid (crates : Crates V) (ds : List (Definition V)) : Prop :=
  ∀ d ∈ ds, ∀ target, d.2.rewrite = .static target → ∃ pq, crates.pathAndQueryFromStatic target = some pq

/-- Only a fixed target can fail to become a rewrite, and not one that is a path. -/
theorem exists_toRewrite {rewrite : RewriteSpec}
    (h : ∀ target, rewrite = .static target → ∃ pq, crates.pathAndQueryFromStatic target = some pq) :
    ∃ r, rewrite.toRewrite crates = some r := by
  cases rewrite with
  | stripPrefix => exact ⟨_, rfl⟩
  | template tpl => exact ⟨_, rfl⟩
  | static target =>
      obtain ⟨pq, hpq⟩ := h target rfl
      refine ⟨.static ⟨target, pq⟩, ?_⟩
      have hnew : FixedRewrite.new crates.pathAndQueryFromStatic target = some ⟨target, pq⟩ := by
        unfold FixedRewrite.new
        rw [hpq]
        rfl
      unfold RewriteSpec.toRewrite
      dsimp only
      rw [hnew]
      rfl

/-- What the router holds are the mount points of the definitions. -/
theorem mapIdx_mountPoint (seen : List (Definition V)) :
    (seen.mapIdx handlerOf).map (fun entry => (entry.method.name, entry.path)) = seen.map mountPoint := by
  induction seen using List.reverseRecOn with
  | nil => rfl
  | append_singleton seen d ih =>
      rw [List.mapIdx_concat, List.map_append, List.map_append, ih]
      rfl

/-- A definition whose policy is registered is mounted, if its target is a path and the router accepts it. -/
theorem Installs.mountRoute_total {seen : List (Definition V)} {st : Mounted V} (h : Installs crates calls seen st)
    (pool : BackendPool) (hb : Configured calls b) {rd : RouteDef (PipelineFn V)}
    (haccepted : crates.routeAccepted (seen.map mountPoint) (mountPoint (routes, rd)) = true)
    (hrewrite : ∃ r, rd.rewrite.toRewrite crates = some r)
    (hpolicy : ∃ policy, registeredPolicy calls (rd.policy.or routes.policy) = some policy) :
    ∃ st', Yields (Apigate.mountRoute crates routes b.policies b.defaultPolicy pool st rd) st' := by
  obtain ⟨r, hr⟩ := hrewrite
  obtain ⟨policy, hpolicy⟩ := hpolicy
  have hresolved := (hb.resolvePolicy_iff _ _ _).mpr hpolicy
  refine ⟨_, Yields.bind (a := policy) ?_ (Yields.bind (a := r) ?_ (Yields.bind (a := ()) ?_ rfl))⟩
  · exact congrArg some hresolved
  · show (rd.rewrite.toRewrite crates).map Except.ok = _
    rw [hr]
    rfl
  · rw [h.router, mapIdx_mountPoint]
    show (if crates.routeAccepted (seen.map mountPoint) (mountPoint (routes, rd)) = true then some ()
      else none).map Except.ok = _
    rw [if_pos haccepted]
    rfl

/-- The definitions that can all be mounted, one after the other. -/
structure Mountable (crates : Crates V) (calls : List (BuilderCall V ρ σ)) (ds : List (Definition V)) : Prop where
  router : RouterAccepts crates ds
  targets : TargetsValid crates ds
  policies : ∀ d ∈ ds, ∃ policy, registeredPolicy calls (d.2.policy.or d.1.policy) = some policy

/-- A collection whose service has backends is mounted. The definitions of the collection are gone through one
    by one, and what the router is asked to accept at each of them is what `RouterAccepts` says of the whole
    list. -/
theorem Installs.mountCollection_total (hb : Configured calls b) {pools : MultiMap Str BackendPool}
    (hpools : PoolsOf crates calls pools) {seen rest : List (Routes (PipelineFn V))}
    (hmountable : Mountable crates calls (definitionsOf (seen ++ routes :: rest)))
    (hservice : ∃ urls, registeredUrls calls routes.service = some urls) {st : Mounted V}
    (h : Installs crates calls (definitionsOf seen) st) :
    ∃ st', Yields (Apigate.mountCollection crates pools b.policies b.defaultPolicy st routes) st' := by
  obtain ⟨urls, hurls⟩ := hservice
  have hfound := hpools routes.service
  rw [hurls] at hfound
  obtain ⟨pool, hget, hof⟩ := hfound
  have hsplit : definitionsOf (seen ++ routes :: rest) =
      definitionsOf seen ++ (routes.routes.map (routes, ·) ++ definitionsOf rest) := by
    unfold definitionsOf
    rw [List.flatMap_append, List.flatMap_cons]
  have hloop := foldlM_progress (s := []) (l := routes.routes) (b := st)
    (f := Apigate.mountRoute crates routes b.policies b.defaultPolicy pool)
    (I := fun done st => Installs crates calls (definitionsOf seen ++ done.map (routes, ·)) st) ?_ ?_
  · obtain ⟨st', hst', -⟩ := hloop
    refine ⟨st', ?_⟩
    unfold Apigate.mountCollection
    rw [hget]
    exact hst'
  · intro done rd later st hroutes hst
    rw [List.nil_append] at hst ⊢
    have hhere : definitionsOf (seen ++ routes :: rest) = (definitionsOf seen ++ done.map (routes, ·)) ++
        (routes, rd) :: (later.map (routes, ·) ++ definitionsOf rest) := by
      rw [hsplit, hroutes]
      simp
    have hmem : (routes, rd) ∈ definitionsOf (seen ++ routes :: rest) := by
      rw [hhere]
      exact List.mem_append_right _ List.mem_cons_self
    obtain ⟨st', hst'⟩ := hst.mountRoute_total pool hb (hmountable.router _ _ _ hhere)
      (exists_toRewrite (hmountable.targets _ hmem)) (hmountable.policies _ hmem)
    refine ⟨st', hst', ?_⟩
    rw [List.map_append, List.map_singleton, ← List.append_assoc]
    exact hst.mountRoute hb ⟨urls, hurls, hof⟩ hst'
  · rw [List.map_nil, List.append_nil]
    exact h

end

/-! ## The main result

`build` as a whole: pools first, then the walk. `build_ok` reads off what a success means, `build_total` says
when there is one, and that the application is determined by the calls follows since a definition and the calls
leave no choice for the metadata (`Describes.unique`). -/

section
variable (crates : Crates V) (calls : List (BuilderCall V ρ σ))

/-- Nothing is missing: the URLs registered last for a service parse, every mounted service has backends, and
    every effective policy name is registered. -/
structure Complete : Prop where
  urls : ∀ service urls, registeredUrls calls service = some urls → ∀ url ∈ urls, ParsesAsBase crates url
  services : ∀ routes ∈ collections calls, ∃ urls, registeredUrls calls routes.service = some urls
  policies : ∀ d ∈ definitions calls, ∃ policy, registeredPolicy calls (d.2.policy.or d.1.policy) = some policy

/-- Every definition has its handler, and the index the handler carries is that of the definition's metadata;
    there are no other handlers. -/
structure CompiledFrom (app : App V ρ σ) : Prop where
  handlers : ∀ k d, (definitions calls)[k]? = some d → app.router[k]? = some (handlerOf k d) ∧
    ∃ m, app.inner.routeMetas[k]? = some m ∧ Describes crates calls d m
  length : app.router.length = (definitions calls).length
  inBounds : ∀ entry ∈ app.router, entry.routeIdx < app.inner.routeMetas.length
  policies : app.policies = (handedOver calls).map Prod.snd

/-- The same collections, backends and policies, each kind in the same order; how the kinds are interleaved may
    differ. -/
structure SameRegistrations (calls' : List (BuilderCall V ρ σ)) : Prop where
  collections : collections calls' = Apigate.collections calls
  registrations : registrations calls' = Apigate.registrations calls
  handedOver : handedOver calls' = Apigate.handedOver calls

end

section
variable {crates : Crates V} {calls : List (BuilderCall V ρ σ)}

/-- What a built application was built from. -/
theorem build_ok {app : App V ρ σ} (h : Yields ((AppBuilder.ofCalls calls).build crates) app) :
    ∃ pools mounted, PoolsOf crates calls pools ∧
      (∀ service urls, registeredUrls calls service = some urls → ∀ url ∈ urls, ParsesAsBase crates url) ∧
      Installs crates calls (definitions calls) mounted ∧
      (∀ routes ∈ collections calls, ∃ urls, registeredUrls calls routes.service = some urls) ∧
      app.router = mounted.router ∧ app.inner.routeMetas = mounted.routeMetas ∧
      app.policies = (handedOver calls).map Prod.snd := by
  have hb := configured_ofCalls calls
  unfold AppBuilder.build at h
  obtain ⟨pools, hpools, h⟩ := yields_bind h
  obtain ⟨mounted, hmounted, h⟩ := yields_bind h
  cases h
  have hbuilt : buildPools crates (.ofList (registrations calls)) = .ok pools := by
    rw [← hb.backends]
    exact Option.some.inj hpools
  have hof : PoolsOf crates calls pools := buildPools_ok hbuilt
  rw [hb.mounted] at hmounted
  obtain ⟨hinstalls, hservices⟩ := installs_of_collections hb hof hmounted
  exact ⟨pools, mounted, hof, exists_buildPools_iff.mp ⟨pools, hbuilt⟩, hinstalls, hservices, rfl, rfl, hb.arcs⟩

/-- A complete configuration builds, provided that the router and the fixed targets are in order. -/
theorem build_total (hrouter : RouterAccepts crates (definitions calls))
    (htargets : TargetsValid crates (definitions calls)) (h : Complete crates calls) :
    ∃ app, Yields ((AppBuilder.ofCalls calls).build crates) app := by
  have hb := configured_ofCalls calls
  obtain ⟨pools, hpools⟩ := exists_buildPools_iff.mpr h.urls
  have hof : PoolsOf crates calls pools := buildPools_ok hpools
  have hloop := foldlM_progress (s := []) (l := collections calls) (b := (⟨[], []⟩ : Mounted V))
    (f := mountCollection crates pools (AppBuilder.ofCalls calls).policies (AppBuilder.ofCalls calls).defaultPolicy)
    (I := fun seen st => Installs crates calls (definitionsOf seen) st) ?_ ⟨rfl, .nil⟩
  · obtain ⟨mounted, hmounted, -⟩ := hloop
    rw [← hb.mounted] at hmounted
    refine ⟨_, Yields.bind (a := pools) ?_ (hmounted.bind rfl)⟩
    show some (buildPools crates (AppBuilder.ofCalls calls).backends) = _
    rw [hb.backends, hpools]
  · intro before routes rest st hsplit hst
    rw [List.nil_append] at hst ⊢
    have hmountable : Mountable crates calls (definitionsOf (before ++ routes :: rest)) := by
      rw [← hsplit]
      exact ⟨hrouter, htargets, h.policies⟩
    have hservice := h.services routes (hsplit ▸ List.mem_append_right _ List.mem_cons_self)
    obtain ⟨st', hst'⟩ := hst.mountCollection_total hb hof hmountable hservice
    exact ⟨st', hst', (hst.mountCollection hb hof hst').1⟩

/-- What builds is complete. -/
theorem complete_of_build {app : App V ρ σ} (h : Yields ((AppBuilder.ofCalls calls).build crates) app) :
    Complete crates calls := by
  obtain ⟨-, mounted, -, hurls, hinstalls, hservices, -⟩ := build_ok h
  exact ⟨hurls, hservices, hinstalls.policies⟩

/-- What builds is compiled from the calls: the table has as many entries as there are definitions, and the one
    at an index is that of the definition at this index. -/
theorem compiledFrom_of_build {app : App V ρ σ} (h : Yields ((AppBuilder.ofCalls calls).build crates) app) :
    CompiledFrom crates calls app := by
  obtain ⟨-, mounted, -, -, hinstalls, -, hrouter, hmetas, hpolicies⟩ := build_ok h
  have hentries : app.router = (definitions calls).mapIdx handlerOf := hrouter.trans hinstalls.router
  have hlength := hinstalls.metas.length_eq
  refine ⟨?_, ?_, ?_, hpolicies⟩
  · intro k d hd
    obtain ⟨hk, hkd⟩ := List.getElem?_eq_some_iff.mp hd
    have hm : k < mounted.routeMetas.length := hlength ▸ hk
    have hdescribes := List.forall₂_iff_get.mp hinstalls.metas |>.2 k hk hm
    rw [List.get_eq_getElem, hkd] at hdescribes
    refine ⟨?_, mounted.routeMetas[k], ?_, hdescribes⟩
    · rw [hentries, List.getElem?_mapIdx, hd]
      rfl
    · rw [hmetas, List.getElem?_eq_getElem hm]
  · rw [hentries, List.length_mapIdx]
  · intro entry hentry
    rw [hentries] at hentry
    obtain ⟨k, hk, rfl⟩ := List.mem_mapIdx.mp hentry
    rw [hmetas, ← hlength]
    exact hk

/-- The URLs determine the pool, as parsing is a function. -/
theorem PoolOf.unique {urls : List Str} {pool pool' : BackendPool} (h : PoolOf crates urls pool)
    (h' : PoolOf crates urls pool') : pool = pool' := by
  obtain ⟨backends⟩ := pool
  obtain ⟨backends'⟩ := pool'
  unfold PoolOf at h h'
  dsimp only at h h'
  congr 1
  induction h generalizing backends' with
  | nil =>
      cases h'
      rfl
  | cons hbackend _ ih =>
      cases h' with
      | cons hbackend' hrest =>
          rw [hbackend] at hbackend'
          rw [ih _ hrest]
          congr 1
          exact congrArg Backend.mk (Except.ok.inj hbackend')

/-- Definition and calls leave no choice. -/
theorem Describes.unique {d : Definition V} {m m' : RouteMeta (PipelineFn V)} (h : Describes crates calls d m)
    (h' : Describes crates calls d m') : m = m' := by
  obtain ⟨urls, hurls, hpool⟩ := h.pool
  obtain ⟨urls', hurls', hpool'⟩ := h'.pool
  obtain rfl : urls = urls' := Option.some.inj (hurls.symm.trans hurls')
  have hrewrite := Option.some.inj (h.rewrite.symm.trans h'.rewrite)
  have hpolicy := Option.some.inj (h.policy.symm.trans h'.policy)
  have hpools := hpool.unique hpool'
  have hservice := h.service.trans h'.service.symm
  have hpath := h.routePath.trans h'.routePath.symm
  have hprefix := h.servicePrefix.trans h'.servicePrefix.symm
  have hpipeline := h.pipeline.trans h'.pipeline.symm
  obtain ⟨⟩ := m
  obtain ⟨⟩ := m'
  dsimp only at hrewrite hpolicy hpools hservice hpath hprefix hpipeline
  subst_vars
  rfl

section
variable {calls' : List (BuilderCall V ρ σ)} (h : SameRegistrations calls calls')

include h

theorem SameRegistrations.definitions : definitions calls' = Apigate.definitions calls :=
  congrArg definitionsOf h.collections

theorem SameRegistrations.registeredUrls : registeredUrls calls' = Apigate.registeredUrls calls := by
  funext service
  exact congrArg (latest? · service) h.registrations

theorem SameRegistrations.registeredPolicy : registeredPolicy calls' = Apigate.registeredPolicy calls := by
  funext name
  exact congrArg (fun handed => latest? (handed.map Prod.fst).zipIdx name) h.handedOver

theorem SameRegistrations.complete : Complete crates calls' ↔ Complete crates calls := by
  constructor
  · rintro ⟨hurls, hservices, hpolicies⟩
    rw [h.registeredUrls] at hurls hservices
    rw [h.collections] at hservices
    rw [h.definitions, h.registeredPolicy] at hpolicies
    exact ⟨hurls, hservices, hpolicies⟩
  · rintro ⟨hurls, hservices, hpolicies⟩
    rw [← h.registeredUrls] at hurls hservices
    rw [← h.collections] at hservices
    rw [← h.definitions, ← h.registeredPolicy] at hpolicies
    exact ⟨hurls, hservices, hpolicies⟩

theorem SameRegistrations.describes {d : Definition V} {m : RouteMeta (PipelineFn V)}
    (hd : Describes crates calls' d m) : Describes crates calls d m := by
  obtain ⟨hservice, hpath, hprefix, hpipeline, hrewrite, hpool, hpolicy⟩ := hd
  rw [h.registeredUrls] at hpool
  rw [h.registeredPolicy] at hpolicy
  exact ⟨hservice, hpath, hprefix, hpipeline, hrewrite, hpool, hpolicy⟩

/-- **The order among the kinds of calls does not matter.** Both tables are described by the same definitions,
    and a definition has one description. -/
theorem SameRegistrations.build {app app' : App V ρ σ}
    (hbuild : Yields ((AppBuilder.ofCalls calls).build crates) app)
    (hbuild' : Yields ((AppBuilder.ofCalls calls').build crates) app') :
    app'.router = app.router ∧ app'.inner.routeMetas = app.inner.routeMetas ∧ app'.policies = app.policies := by
  obtain ⟨-, mounted, -, -, hinstalls, -, hrouter, hmetas, hpolicies⟩ := build_ok hbuild
  obtain ⟨-, mounted', -, -, hinstalls', -, hrouter', hmetas', hpolicies'⟩ := build_ok hbuild'
  have hdefinitions := h.definitions
  refine ⟨?_, ?_, ?_⟩
  · rw [hrouter, hrouter', hinstalls.router, hinstalls'.router, hdefinitions]
  · have hsame := hinstalls'.metas.imp fun d m hd => h.describes hd
    rw [hdefinitions] at hsame
    rw [hmetas, hmetas']
    have hunique : Relator.RightUnique (Describes crates calls) := fun d m m' hm hm' => hm.unique hm'
    exact hunique.forall₂ hsame hinstalls.metas
  · rw [hpolicies, hpolicies', h.handedOver]

end

/-- **`build` compiles the configuration faithfully.** It succeeds exactly when the configuration is complete.
    The application then has one handler for each definition, with its method and path, and the index it carries
    is that of the metadata of this very definition. Only the order within each kind of registration matters. -/
theorem build_compiles_configuration (hrouter : RouterAccepts crates (definitions calls))
    (htargets : TargetsValid crates (definitions calls)) :
    ((∃ app, Yields ((AppBuilder.ofCalls calls).build crates) app) ↔ Complete crates calls) ∧
    (∀ app, Yields ((AppBuilder.ofCalls calls).build crates) app → CompiledFrom crates calls app) ∧
    ∀ calls', SameRegistrations calls calls' →
      ((∃ app', Yields ((AppBuilder.ofCalls calls').build crates) app') ↔ Complete crates calls) ∧
      ∀ app app', Yields ((AppBuilder.ofCalls calls).build crates) app →
        Yields ((AppBuilder.ofCalls calls').build crates) app' →
          app'.router = app.router ∧ app'.inner.routeMetas = app.inner.routeMetas ∧
            app'.policies = app.policies := by
  refine ⟨⟨?_, build_total hrouter htargets⟩, fun app => compiledFrom_of_build, ?_⟩
  · rintro ⟨app, hbuild⟩
    exact complete_of_build hbuild
  · intro calls' hsame
    refine ⟨⟨?_, ?_⟩, fun app app' hbuild hbuild' => hsame.build hbuild hbuild'⟩
    · rintro ⟨app', hbuild'⟩
      exact hsame.complete.mp (complete_of_build hbuild')
    · intro hcomplete
      rw [← hsame.definitions] at hrouter htargets
      exact build_total hrouter htargets (hsame.complete.mpr hcomplete)

end

/-! ## Examples -/

/-- Two routes of the service `users`; one has a fixed target, the other a policy of its own. -/
def usersRoutes : Routes (PipelineFn Str) :=
  ⟨str "users", str "/users", none,
    [⟨.get, str "/me", .static (str "/v1/account"), none, none⟩,
      ⟨.post, str "/login", .stripPrefix, some (str "spread"), none⟩]⟩

/-- Two collections with three routes in all. The policy that one of them asks for is registered last. -/
def shopCalls : List (BuilderCall Str NoRouteKey RoundRobin) :=
  [.mountService (itemsRoutes (str "/api")) [str "http://up"], .mountService usersRoutes [str "http://accounts"],
    .policy (str "spread") .roundRobin]

/-- Whether the router accepts all definitions can be tried one by one. -/
theorem routerAccepts_of_get {crates : Crates V} {ds : List (Definition V)}
    (h : ∀ k (hk : k < ds.length), crates.routeAccepted ((ds.take k).map mountPoint) (mountPoint ds[k]) = true) :
    RouterAccepts crates ds := by
  rintro before d after rfl
  have hlt : before.length < (before ++ d :: after).length := by
    rw [List.length_append, List.length_cons]
    omega
  have hd := h before.length hlt
  rwa [List.take_left, List.getElem_append_right (Nat.le_refl _),
    List.getElem_cons (i := before.length - before.length), dif_pos (Nat.sub_self _)] at hd

theorem shopCalls_accepted : RouterAccepts .plain (definitions shopCalls) := routerAccepts_of_get (by decide)

theorem shopCalls_targets : TargetsValid .plain (definitions shopCalls) := by
  have htargets : ∀ d ∈ definitions shopCalls, d.2.rewrite ∈ [.stripPrefix, .static (str "/v1/account")] := by decide
  intro d hd target htarget
  have hmem := htargets d hd
  rw [htarget] at hmem
  simp only [List.mem_cons, reduceCtorEq, RewriteSpec.static.injEq, List.not_mem_nil, or_false, false_or] at hmem
  subst hmem
  exact ⟨_, rfl⟩

/-- The theorem at these calls: they do build, with the three routes under their own indices. -/
theorem build_compiles_configuration_shop :
    (∃ app, Yields ((AppBuilder.ofCalls shopCalls).build .plain) app ∧
      app.router.map RouteEntry.routeIdx = [0, 1, 2]) ∧
    ((∃ app, Yields ((AppBuilder.ofCalls shopCalls).build .plain) app) ↔ Complete .plain shopCalls) ∧
    (∀ app, Yields ((AppBuilder.ofCalls shopCalls).build .plain) app → CompiledFrom .plain shopCalls app) ∧
    ∀ calls', SameRegistrations shopCalls calls' →
      ((∃ app', Yields ((AppBuilder.ofCalls calls').build .plain) app') ↔ Complete .plain shopCalls) ∧
      ∀ app app', Yields ((AppBuilder.ofCalls shopCalls).build .plain) app →
        Yields ((AppBuilder.ofCalls calls').build .plain) app' →
          app'.router = app.router ∧ app'.inner.routeMetas = app.inner.routeMetas ∧
            app'.policies = app.policies :=
  ⟨⟨_, rfl, rfl⟩, build_compiles_configuration shopCalls_accepted shopCalls_targets⟩

/-- Two registrations for one service, of which the first is no URL. -/
def overwrittenCalls : List (BuilderCall Str NoRouteKey RoundRobin) :=
  [.backend (str "sales") [str "not a url"], .backend (str "sales") [str "http://up"]]

/-- **URLs that are registered again for the same service are never parsed.** -/
theorem overwritten_url_not_parsed :
    (str "sales", [str "not a url"]) ∈ registrations overwrittenCalls ∧
      ¬ ParsesAsBase Crates.plain (str "not a url") ∧
      RouterAccepts .plain (definitions overwrittenCalls) ∧ TargetsValid .plain (definitions overwrittenCalls) ∧
      ∃ app, Yields ((AppBuilder.ofCalls overwrittenCalls).build .plain) app := by
  refine ⟨List.mem_cons_self, ?_, ?_, ?_, ⟨_, rfl⟩⟩
  · rintro ⟨base, hbase⟩
    cases hbase
  · intro before d after h
    cases before <;> cases h
  · intro d hd
    cases hd

end Apigate
