import Apigate.App.Gateway
import Apigate.Correctness.Mounting

/-!
# `Correctness.RouteTable` — what a built gateway runs on

Every route of a built application is on the pool of its service, so two routes of one service are on one pool
(`routes_share_pool`). In a run the requests are on routes of the table, the contexts of the balancers come from
them, and a chosen backend is one of the route's pool (`FromTable`).

Both are facts that a balancer relies on without a check: it is handed a pool and an index, and nothing in its
interface says that the two belong together or that the next call will come with the same pool. The first is
kept by the loop that mounts the routes, since the pool is looked up once for each collection, by the service
that the routes get. The second is kept by every step, because a move only ever speaks of the route of its own
request (`moves_madeFor`), and a request gets its route on arrival.

The calls to one policy are read off the log here, for all modules that reason about them: `callsTo` with what
one wants to know of a call.
-/

namespace Apigate
open Lib Runs

variable {V ρ σ : Type}

/-! ## The pools of a built table

An invariant of the two loops of `build`, over the routes mounted so far. -/

/-- Every route is on the pool registered for its service. -/
def OnServicePools (pools : MultiMap Str BackendPool) (st : Mounted V) : Prop :=
  ∀ m ∈ st.routeMetas, pools.get? m.service = some m.pool

/-- One collection keeps it. -/
theorem mountRoutes_pools {crates : Crates V} {pools : MultiMap Str BackendPool}
    {routes : Routes (PipelineFn V)} {policies : MultiMap Str PolicyRef} {defaultPolicy : PolicyRef}
    {pool : BackendPool} {st st' : Mounted V} (hpool : pools.get? routes.service = some pool)
    (hst : OnServicePools pools st)
    (h : mountRoutes crates routes policies defaultPolicy pool st = (some (.ok st') : Option _)) :
    OnServicePools pools st' := by
  refine @Fold.foldlM_invariant _ _ _ _ (fun _ => OnServicePools pools) ?_ [] _ _ _ hst h
  -- one more route, on the pool that was looked up for its collection
  intro _ rd st st' hst hmount m hm
  obtain ⟨policy, rewrite, -, -, rfl⟩ := mountRoute_ok hmount
  rcases List.mem_append.mp hm with hm | hm
  · exact hst m hm
  · obtain rfl := List.mem_singleton.mp hm
    exact hpool

/-- **The routes of one service are on one pool.** -/
theorem routes_share_pool {crates : Crates V} {b : AppBuilder V ρ σ} {app : App V ρ σ}
    (hbuild : b.build crates = (some (.ok app) : Option _)) :
    ∀ m ∈ app.inner.routeMetas, ∀ m' ∈ app.inner.routeMetas, m.service = m'.service → m.pool = m'.pool := by
  unfold AppBuilder.build at hbuild
  obtain ⟨pools, -, hbuild⟩ := Fold.yields_bind hbuild
  obtain ⟨mounted, hmounted, hbuild⟩ := Fold.yields_bind hbuild
  cases hbuild
  have hpools : OnServicePools pools mounted := by
    refine @Fold.foldlM_invariant _ _ _ _ (fun _ => OnServicePools pools) ?_ [] _ _ _ ?_ hmounted
    · intro _ routes st st' hst hmount
      unfold mountCollection at hmount
      cases hpool : pools.get? routes.service with
      | none =>
          rw [hpool] at hmount
          cases hmount
      | some pool =>
          rw [hpool] at hmount
          exact mountRoutes_pools hpool hst hmount
    · intro m hm
      cases hm
  intro m hm m' hm' hservice
  show m.pool = m'.pool
  have hpool := hpools m hm
  rw [hservice, hpools m' hm'] at hpool
  exact (Option.some.inj hpool).symm

/-- The policies of a built application are those of the builder. -/
theorem initialPolicies_eq {app : App V ρ σ} {p : PolicyRef} {policy : Policy ρ σ}
    (h : app.policies[p]? = some policy) : app.initialPolicies p = policy := by
  unfold App.initialPolicies
  rw [h]
  rfl

/-! ## Calls to a policy

The log holds the calls to all policies. A run of moves adds to it at the end, so that what is read off it only
grows. -/

/-- What the calls to policy `p` so far yield, in their order. -/
def Gateway.callsTo {α : Type} (g : Gateway V ρ σ) (p : PolicyRef) (f : PolicyCall → Option α) : List α :=
  g.log.filterMap fun e => if e.policy = p then f e.call else none

/-- The calls of a move come last, if they are to that policy. -/
theorem callsTo_move {α : Type} {g g' : Gateway V ρ σ} {id : Nat} {q : PolicyRef} {calls : List PolicyCall}
    (hlog : g'.log = g.log ++ calls.map (LogEntry.mk id q)) (p : PolicyRef) (f : PolicyCall → Option α) :
    g'.callsTo p f = g.callsTo p f ++ if q = p then calls.filterMap f else [] := by
  unfold Gateway.callsTo
  rw [hlog, List.filterMap_append, List.filterMap_map]
  congr 1
  by_cases hq : q = p <;> simp [hq]

/-- What the calls yield, from the list of them all. -/
theorem callsTo_eq {α : Type} (g : Gateway V ρ σ) (p : PolicyRef) (f : PolicyCall → Option α) :
    g.callsTo p f = (g.callsTo p some).filterMap f := by
  unfold Gateway.callsTo
  rw [List.filterMap_filterMap]
  apply List.filterMap_congr
  intro e _
  split <;> rfl

/-- An entry that yields something. -/
theorem mem_callsTo {α : Type} {g : Gateway V ρ σ} {p : PolicyRef} {f : PolicyCall → Option α} {x : α} :
    x ∈ g.callsTo p f ↔ ∃ e ∈ g.log, e.policy = p ∧ f e.call = some x := by
  unfold Gateway.callsTo
  simp only [List.mem_filterMap, Option.ite_none_right_eq_some]

/-- The backend a call chooses, with the context it chooses it for. -/
def PolicyCall.choice? : PolicyCall → Option (BalanceCtx × Nat)
  | .picked ctx (some i) => some (ctx, i)
  | .picked _ none | .started _ | .reported _ => none

/-- The choices of policy `p` so far, in the order it made them. -/
def Gateway.choices (g : Gateway V ρ σ) (p : PolicyRef) : List (BalanceCtx × Nat) :=
  g.callsTo p PolicyCall.choice?

/-- What a move adds to the choices. -/
theorem choices_move {g g' : Gateway V ρ σ} {id : Nat} {q : PolicyRef} {calls : List PolicyCall}
    (hlog : g'.log = g.log ++ calls.map (LogEntry.mk id q)) (p : PolicyRef) :
    g'.choices p = g.choices p ++ if q = p then calls.filterMap PolicyCall.choice? else [] :=
  callsTo_move hlog p PolicyCall.choice?

/-! ## Requests and calls of a run

What a phase says of a backend and what a call says of one have to be the same for the next step to go through. -/

/-- The backend a handler has chosen and not yet reported on. -/
def Phase.chosen? : Phase V → Option Nat
  | .selected i | .upstream i => some i
  | .settled event => some event.backendIndex
  | .pipeline | .routing _ | .picking _ | .over => none

/-- A backend that awaits an answer or a report was chosen. -/
theorem Phase.chosen?_of_backend? {phase : Phase V} {i : Nat} (h : phase.backend? = some i) :
    phase.chosen? = some i := by
  cases phase <;> first | exact h | cases h

/-- The phase speaks of a backend of the route. -/
def Phase.MadeFor (routeMeta : RouteMeta (PipelineFn V)) : Phase V → Prop
  | .selected i | .upstream i => i < routeMeta.pool.len
  | .settled event => event.service = routeMeta.service ∧ event.backendIndex < routeMeta.pool.len
  | .pipeline | .routing _ | .picking _ | .over => True

/-- A chosen backend is one of the pool. -/
theorem Phase.MadeFor.chosen_lt {routeMeta : RouteMeta (PipelineFn V)} {phase : Phase V} {i : Nat}
    (h : phase.MadeFor routeMeta) (hi : phase.chosen? = some i) : i < routeMeta.pool.len := by
  cases phase with
  | selected j =>
      obtain rfl := Option.some.inj hi
      exact h
  | upstream j =>
      obtain rfl := Option.some.inj hi
      exact h
  | settled event =>
      obtain rfl := Option.some.inj hi
      exact h.2
  | _ => cases hi

/-- The call speaks of the route and of a backend of it. -/
def PolicyCall.MadeFor (routeMeta : RouteMeta (PipelineFn V)) : PolicyCall → Prop
  | .picked ctx _ => ctx.service = routeMeta.service ∧ ctx.pool = routeMeta.pool
  | .started event => event.service = routeMeta.service ∧ event.backendIndex < routeMeta.pool.len
  | .reported event => event.service = routeMeta.service ∧ event.backendIndex < routeMeta.pool.len

/-- Every request and every call is made for a route of the table. -/
structure FromTable (routeMetas : List (RouteMeta (PipelineFn V))) (g : Gateway V ρ σ) : Prop where
  requests : ∀ r ∈ g.requests, r.routeMeta ∈ routeMetas
  phases : ∀ r ∈ g.requests, r.phase.MadeFor r.routeMeta
  calls : ∀ e ∈ g.log, ∃ m ∈ routeMetas, m.policy = e.policy ∧ e.call.MadeFor m

/-- Before the first request there is nothing to say. -/
theorem fromTable_start {routeMetas : List (RouteMeta (PipelineFn V))} (policies : Policies ρ σ) :
    FromTable routeMetas (Gateway.start policies) := by
  constructor
  · intro r hr
    cases hr
  · intro r hr
    cases hr
  · intro e he
    cases he

section
variable [RouteStrategy ρ] [Balancer σ] [Xxh3]

/-- **A move speaks of the route of its request.** By cases on the moves. The pick is the one that brings an
    index in, and it is below the length of the pool because the move asks for the backend at it. -/
theorem moves_madeFor {routeMeta : RouteMeta (PipelineFn V)} {policy policy' : Policy ρ σ}
    {phase phase' : Phase V} {m : Move V} {calls : List PolicyCall}
    (h : Moves routeMeta policy phase m phase' policy' calls) (hphase : phase.MadeFor routeMeta) :
    phase'.MadeFor routeMeta ∧ ∀ call ∈ calls, call.MadeFor routeMeta := by
  cases h with
  | picked routing i hpick hi =>
      refine ⟨hi, ?_⟩
      intro call hcall
      obtain rfl := List.mem_singleton.mp hcall
      exact ⟨rfl, rfl⟩
  | refused routing hpick =>
      refine ⟨trivial, ?_⟩
      intro call hcall
      obtain rfl := List.mem_singleton.mp hcall
      exact ⟨rfl, rfl⟩
  | started i =>
      refine ⟨hphase, ?_⟩
      intro call hcall
      obtain rfl := List.mem_singleton.mp hcall
      show routeMeta.service = routeMeta.service ∧ i < routeMeta.pool.len
      exact ⟨rfl, hphase⟩
  | settled i result elapsed =>
      -- either way the event names the backend of the exchange
      refine ⟨?_, fun _ hcall => by cases hcall⟩
      cases result <;> exact ⟨rfl, hphase⟩
  | reported event =>
      refine ⟨trivial, ?_⟩
      intro call hcall
      obtain rfl := List.mem_singleton.mp hcall
      exact hphase
  | _ => exact ⟨trivial, fun _ hcall => by cases hcall⟩

variable {routeMetas : List (RouteMeta (PipelineFn V))} {g g' : Gateway V ρ σ} {a : Act V}

/-- Every step keeps it: an arrival takes its route from the table, and a move touches one request. -/
theorem FromTable.step (h : FromTable routeMetas g) (hstep : step routeMetas g a = some g') :
    FromTable routeMetas g' := by
  cases a with
  | arrive routeIdx =>
      obtain ⟨routeMeta, hmem, rfl⟩ := step_arrive hstep
      refine ⟨?_, ?_, h.calls⟩
      · intro r hr
        rcases List.mem_append.mp hr with hr | hr
        · exact h.requests r hr
        · obtain rfl := List.mem_singleton.mp hr
          exact hmem
      · intro r hr
        rcases List.mem_append.mp hr with hr | hr
        · exact h.phases r hr
        · obtain rfl := List.mem_singleton.mp hr
          trivial
  | move id m =>
      obtain ⟨r, phase, policy, calls, hr, hmoves, rfl⟩ := step_move hstep
      have hmem : r ∈ g.requests := List.mem_of_getElem? hr
      obtain ⟨hphase, hcalls⟩ := moves_madeFor hmoves (h.phases r hmem)
      refine ⟨?_, ?_, ?_⟩
      · intro r' hr'
        show r'.routeMeta ∈ routeMetas
        rcases List.mem_or_eq_of_mem_set hr' with hold | rfl
        · exact h.requests r' hold
        · exact h.requests r hmem
      · intro r' hr'
        show r'.phase.MadeFor r'.routeMeta
        rcases List.mem_or_eq_of_mem_set hr' with hold | rfl
        · exact h.phases r' hold
        · exact hphase
      · intro e he
        show ∃ m ∈ routeMetas, m.policy = e.policy ∧ e.call.MadeFor m
        rcases List.mem_append.mp he with he | he
        · exact h.calls e he
        · obtain ⟨call, hcall, rfl⟩ := List.mem_map.mp he
          exact ⟨r.routeMeta, h.requests r hmem, rfl, hcalls call hcall⟩

end

/-- A choice is made for a route of the table. -/
theorem FromTable.choices {routeMetas : List (RouteMeta (PipelineFn V))} {g : Gateway V ρ σ}
    (h : FromTable routeMetas g) {p : PolicyRef} {e : BalanceCtx × Nat} (he : e ∈ g.choices p) :
    ∃ m ∈ routeMetas, m.policy = p ∧ e.1.service = m.service ∧ e.1.pool = m.pool := by
  obtain ⟨entry, hentry, hp, hchoice⟩ := mem_callsTo.mp he
  obtain ⟨m, hm, hpolicy, hcall⟩ := h.calls entry hentry
  refine ⟨m, hm, hpolicy.trans hp, ?_⟩
  unfold PolicyCall.choice? at hchoice
  split at hchoice
  · rename_i heq
    cases hchoice
    rw [heq] at hcall
    exact hcall
  all_goals cases hchoice

end Apigate
