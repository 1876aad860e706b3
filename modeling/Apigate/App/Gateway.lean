import Apigate.App.Dispatch
import Apigate.Lib.Runs

/-!
# `App.Gateway` — the handlers of many requests, interleaved

A handler runs without a pause between the points where others can intervene: it awaits the pipeline, then the
upstream, and in between it calls its policy. `move` is one such stretch for one request, `step` lets any
request of the gateway make its next move. The results of pipelines and upstreams are the environment's, as is
the decision to drop a handler, which the server may take at an `await`.

Where to cut a handler is decided by what is shared. Nothing but the policies is, so a stretch ends at each call
to a policy and at each `await`, and a call is one action on the policy. What a call does inside is not taken
apart here; the update loop of least-time, which goes round until its exchange succeeds, is in `App.Updates`.
What a handler does between its calls, rewriting, sending, observing, is no part of the state either:
`App.Dispatch` has it, and `Correctness.Refinement` ties the two together.

The phase of a request says what its handler will do next and holds what it still needs for that. By the phase a
request between `on_start` and `on_result` can be counted, and a dropped handler leaves nothing behind in the
gateway but what it has already done to its policy.

Invariants of runs are proved from `Moves`: one constructor for each thing a move can do, with the phase before
and after, the policy after, and the calls.
-/

namespace Apigate
open Lib

variable {V ρ σ : Type}

/-- Where the handler of one request is. -/
inductive Phase (V : Type) where
  /-- It awaits the pipeline. -/
  | pipeline
  | routing (parts : Parts V)
  | picking (routing : RoutingDecision)
  | selected (backendIndex : Nat)
  /-- It has called `on_start` and awaits the upstream. -/
  | upstream (backendIndex : Nat)
  | settled (event : ResultEvent)
  | over

/-- A request between `on_start` and `on_result` on a backend. -/
def Phase.backend? : Phase V → Option Nat
  | .upstream i => some i
  | .settled event => some event.backendIndex
  | .pipeline | .routing _ | .picking _ | .selected _ | .over => none

structure Live (V : Type) where
  routeMeta : RouteMeta (PipelineFn V)
  phase : Phase V

/-- Calls to a balancer. -/
inductive PolicyCall where
  | picked (ctx : BalanceCtx) (index : Option Nat)
  | started (event : StartEvent)
  | reported (event : ResultEvent)

/-- A call that the handler of a request made to a policy. -/
structure LogEntry where
  request : Nat
  policy : PolicyRef
  call : PolicyCall

/-- The shared policies, every request that has arrived, and the calls to policies so far. -/
structure Gateway (V ρ σ : Type) where
  policies : Policies ρ σ
  requests : List (Live V)
  log : List LogEntry

/-- A gateway before its first request. -/
def Gateway.start (policies : Policies ρ σ) : Gateway V ρ σ := ⟨policies, [], []⟩

/-- The next move of one handler. -/
inductive Move (V : Type) where
  /-- The pipeline has returned: with the request head it leaves, or with an error. -/
  | returns (parts : Option (Parts V))
  | route
  | pick
  | start
  /-- The exchange with the upstream has ended, one way or the other. -/
  | settle (result : Except ProxyErrorKind Response) (elapsed : Duration)
  | report
  | drop

inductive Act (V : Type) where
  | arrive (routeIdx : Nat)
  | move (request : Nat) (m : Move V)

/-- The backend that follows from the balancer's answer. -/
theorem backendAt_ok {routeMeta : RouteMeta (PipelineFn V)} {picked : Option Nat} {i : Nat} {b : Backend}
    (h : routeMeta.backendAt picked = .ok (i, b)) : picked = some i ∧ i < routeMeta.pool.len := by
  cases picked with
  | none => cases h
  | some j =>
      cases hget : routeMeta.pool.get j with
      | none =>
          simp only [RouteMeta.backendAt, hget] at h
          cases h
      | some backend =>
          simp only [RouteMeta.backendAt, hget] at h
          cases h
          exact ⟨rfl, BackendPool.get_isSome.mp (by rw [hget]; rfl)⟩

/-- Without a backend either nothing was picked, or an index outside of the pool. -/
theorem backendAt_error {routeMeta : RouteMeta (PipelineFn V)} {picked : Option Nat}
    {e : ApigateCoreError} (h : routeMeta.backendAt picked = .error e) :
    ∀ i, picked = some i → routeMeta.pool.len ≤ i := by
  rintro i rfl
  cases hget : routeMeta.pool.get i with
  | none =>
      have hnot : ¬ i < routeMeta.pool.len := by
        rw [← BackendPool.get_isSome, hget]
        decide
      omega
  | some backend =>
      simp only [RouteMeta.backendAt, hget] at h
      cases h

/-! ## The requests of a gateway

A request is known by its place in the list. It never leaves it, so that the log can name it for good. -/

/-- The requests after an arrival. -/
theorem getElem?_arrive {requests : List (Live V)} {new r : Live V} {id : Nat} :
    (requests ++ [new])[id]? = some r ↔ requests[id]? = some r ∨ id = requests.length ∧ new = r := by
  rcases lt_trichotomy id requests.length with hlt | rfl | hgt
  · rw [List.getElem?_append_left hlt]
    simp [hlt.ne]
  · simp
  · rw [List.getElem?_eq_none (by simp; omega), List.getElem?_eq_none (by omega)]
    simp [hgt.ne']

/-- The requests after a move of one of them. -/
theorem getElem?_move {requests : List (Live V)} {old new r : Live V} {id id' : Nat}
    (hold : requests[id]? = some old) :
    (requests.set id new)[id']? = some r ↔ id' = id ∧ new = r ∨ id' ≠ id ∧ requests[id']? = some r := by
  by_cases hid : id' = id
  · subst hid
    rw [List.getElem?_set_self (List.getElem?_eq_some_iff.mp hold).1]
    simp
  · rw [List.getElem?_set_ne (Ne.symm hid)]
    simp [hid]

section
variable [RouteStrategy ρ] [Balancer σ] [Xxh3]

/-- A stretch of the handler of one request: the phase after it, the policy after it, its calls. -/
def move (routeMeta : RouteMeta (PipelineFn V)) (policy : Policy ρ σ) :
    Phase V → Move V → Option (Phase V × Policy ρ σ × List PolicyCall)
  | .pipeline, .returns (some parts) => some (.routing parts, policy, [])
  | .pipeline, .returns none => some (.over, policy, [])
  | .pipeline, .drop => some (.over, policy, [])
  | .routing parts, .route =>
      let (routing, policy) := policy.route (routeMeta.routeCtx parts) routeMeta.pool
      some (.picking routing, policy, [])
  | .picking routing, .pick =>
      let ctx := routeMeta.balanceCtx routing
      let (picked, policy) := policy.pick ctx
      -- without a backend the client gets an error response
      let phase := match routeMeta.backendAt picked with
        | .ok (i, _) => .selected i
        | .error _ => .over
      some (phase, policy, [.picked ctx picked])
  | .selected i, .start =>
      let event : StartEvent := ⟨routeMeta.service, i⟩
      some (.upstream i, policy.onStart event, [.started event])
  | .upstream i, .settle result elapsed =>
      some (.settled (Dispatch.resultEvent routeMeta i result elapsed), policy, [])
  | .upstream _, .drop => some (.over, policy, [])
  | .settled event, .report => some (.over, policy.onResult event, [.reported event])
  | _, _ => none

/-- One action of the gateway with the given routes. -/
def step (routeMetas : List (RouteMeta (PipelineFn V))) (g : Gateway V ρ σ) :
    Act V → Option (Gateway V ρ σ)
  | .arrive routeIdx => do
      let routeMeta ← routeMetas[routeIdx]?
      some { g with requests := g.requests ++ [⟨routeMeta, .pipeline⟩] }
  | .move id m => do
      let r ← g.requests[id]?
      let ref := r.routeMeta.policy
      let (phase, policy, calls) ← move r.routeMeta (g.policies ref) r.phase m
      some {
        policies := Function.update g.policies ref policy
        requests := g.requests.set id { r with phase := phase }
        log := g.log ++ calls.map (LogEntry.mk id ref) }

/-! ## What a step can do

For the proofs: what follows from a step that has been taken, for any, and for a known request; and what makes a
step. -/

/-- What a move can do, one constructor for each possibility. -/
inductive Moves (routeMeta : RouteMeta (PipelineFn V)) (policy : Policy ρ σ) :
    Phase V → Move V → Phase V → Policy ρ σ → List PolicyCall → Prop where
  | returned (parts : Parts V) :
      Moves routeMeta policy .pipeline (.returns (some parts)) (.routing parts) policy []
  | failed : Moves routeMeta policy .pipeline (.returns none) .over policy []
  | droppedEarly : Moves routeMeta policy .pipeline .drop .over policy []
  | routed (parts : Parts V) :
      Moves routeMeta policy (.routing parts) .route
        (.picking (policy.route (routeMeta.routeCtx parts) routeMeta.pool).1)
        (policy.route (routeMeta.routeCtx parts) routeMeta.pool).2 []
  | picked (routing : RoutingDecision) (i : Nat)
      (hpick : (policy.pick (routeMeta.balanceCtx routing)).1 = some i) (hi : i < routeMeta.pool.len) :
      Moves routeMeta policy (.picking routing) .pick (.selected i)
        (policy.pick (routeMeta.balanceCtx routing)).2 [.picked (routeMeta.balanceCtx routing) (some i)]
  | refused (routing : RoutingDecision)
      (hpick : ∀ i, (policy.pick (routeMeta.balanceCtx routing)).1 = some i → routeMeta.pool.len ≤ i) :
      Moves routeMeta policy (.picking routing) .pick .over
        (policy.pick (routeMeta.balanceCtx routing)).2
        [.picked (routeMeta.balanceCtx routing) (policy.pick (routeMeta.balanceCtx routing)).1]
  | started (i : Nat) :
      Moves routeMeta policy (.selected i) .start (.upstream i) (policy.onStart ⟨routeMeta.service, i⟩)
        [.started ⟨routeMeta.service, i⟩]
  | settled (i : Nat) (result : Except ProxyErrorKind Response) (elapsed : Duration) :
      Moves routeMeta policy (.upstream i) (.settle result elapsed)
        (.settled (Dispatch.resultEvent routeMeta i result elapsed)) policy []
  | droppedLate (i : Nat) : Moves routeMeta policy (.upstream i) .drop .over policy []
  | reported (event : ResultEvent) :
      Moves routeMeta policy (.settled event) .report .over (policy.onResult event) [.reported event]

/-- **Every move is one of those.** The cases are those of `move`, in which a missing backend leads to the end.
    -/
theorem moves_of_move {routeMeta : RouteMeta (PipelineFn V)} {policy policy' : Policy ρ σ}
    {phase phase' : Phase V} {m : Move V} {calls : List PolicyCall}
    (h : move routeMeta policy phase m = some (phase', policy', calls)) :
    Moves routeMeta policy phase m phase' policy' calls := by
  unfold move at h
  split at h
  case h_5 routing =>
    dsimp only at h
    cases hb : routeMeta.backendAt (policy.pick (routeMeta.balanceCtx routing)).1 with
    | ok selected =>
        obtain ⟨i, b⟩ := selected
        obtain ⟨hpick, hi⟩ := backendAt_ok hb
        rw [hb, hpick] at h
        cases h
        exact .picked routing i hpick hi
    | error e =>
        rw [hb] at h
        cases h
        exact .refused routing (backendAt_error hb)
  case h_10 => cases h
  all_goals
    cases h
    constructor

/-- An arrival adds a request in its first phase. -/
theorem step_arrive {routeMetas : List (RouteMeta (PipelineFn V))} {g g' : Gateway V ρ σ}
    {routeIdx : Nat} (h : step routeMetas g (.arrive routeIdx) = some g') :
    ∃ routeMeta ∈ routeMetas,
      g' = { g with requests := g.requests ++ [⟨routeMeta, .pipeline⟩] } := by
  simp only [step, Option.bind_eq_bind, Option.bind_eq_some_iff, Option.some.injEq] at h
  obtain ⟨routeMeta, hmeta, rfl⟩ := h
  exact ⟨routeMeta, List.mem_of_getElem? hmeta, rfl⟩

/-- A move is made by one request, under the policy of its route, and its calls are logged under its name. -/
theorem step_move {routeMetas : List (RouteMeta (PipelineFn V))} {g g' : Gateway V ρ σ} {id : Nat}
    {m : Move V} (h : step routeMetas g (.move id m) = some g') :
    ∃ r phase policy calls, g.requests[id]? = some r ∧
      Moves r.routeMeta (g.policies r.routeMeta.policy) r.phase m phase policy calls ∧
      g' = ⟨Function.update g.policies r.routeMeta.policy policy,
        g.requests.set id { r with phase := phase },
        g.log ++ calls.map (LogEntry.mk id r.routeMeta.policy)⟩ := by
  simp only [step, Option.bind_eq_bind, Option.bind_eq_some_iff, Option.some.injEq] at h
  obtain ⟨r, hr, ⟨phase, policy, calls⟩, hmove, rfl⟩ := h
  exact ⟨r, phase, policy, calls, hr, moves_of_move hmove, rfl⟩

/-- A move of a request that is known. -/
theorem step_move_of {routeMetas : List (RouteMeta (PipelineFn V))} {g g' : Gateway V ρ σ} {id : Nat} {r : Live V}
    (hr : g.requests[id]? = some r) {m : Move V} (h : step routeMetas g (.move id m) = some g') :
    ∃ phase policy calls,
      Moves r.routeMeta (g.policies r.routeMeta.policy) r.phase m phase policy calls ∧
      g' = ⟨Function.update g.policies r.routeMeta.policy policy,
        g.requests.set id { r with phase := phase },
        g.log ++ calls.map (LogEntry.mk id r.routeMeta.policy)⟩ := by
  obtain ⟨r', phase, policy, calls, hr', hmoves, hg'⟩ := step_move h
  obtain rfl : r = r' := Option.some.inj (hr.symm.trans hr')
  exact ⟨phase, policy, calls, hmoves, hg'⟩

/-- An arrival on a route of the table is a step. -/
theorem step_of_arrive {routeMetas : List (RouteMeta (PipelineFn V))} (g : Gateway V ρ σ) {routeIdx : Nat}
    {routeMeta : RouteMeta (PipelineFn V)} (h : routeMetas[routeIdx]? = some routeMeta) :
    step routeMetas g (.arrive routeIdx) =
      some { g with requests := g.requests ++ [⟨routeMeta, .pipeline⟩] } := by
  simp only [step, h, Option.bind_eq_bind, Option.bind_some]

/-- A move that is possible is a step. -/
theorem step_of_move {routeMetas : List (RouteMeta (PipelineFn V))} {g : Gateway V ρ σ} {id : Nat}
    {r : Live V} {m : Move V} {phase : Phase V} {policy : Policy ρ σ} {calls : List PolicyCall}
    (hr : g.requests[id]? = some r)
    (hmove : move r.routeMeta (g.policies r.routeMeta.policy) r.phase m = some (phase, policy, calls)) :
    step routeMetas g (.move id m) = some ⟨Function.update g.policies r.routeMeta.policy policy,
      g.requests.set id { r with phase := phase },
      g.log ++ calls.map (LogEntry.mk id r.routeMeta.policy)⟩ := by
  simp only [step, hr, hmove, Option.bind_eq_bind, Option.bind_some]

end
end Apigate
