import Apigate.Correctness.RouteTable
import Apigate.Lib.Projection

/-!
# `Correctness.Isolation` — policies do not disturb each other

A policy is shared by the requests on its routes and by no others. Seen from one policy, a run of the gateway is
a run of that policy alone with its own requests: what it is called with, what it answers and where its requests
are does not depend on the requests of other policies, on the other policies, or on other routes that the
application mounts.

The policy alone is a system of its own, `ownStep`, with one policy, a list of requests and the calls. It has
the moves of the gateway and none of its tables. The view of a policy, `Gateway.own`, filters the gateway by it,
and a request is renamed to its rank among the requests of the policy, as it has no other name there. Then one
theorem has all that is to be said about single steps (`projects_own`): a step that concerns the policy is a
step of the system alone, at the same label, and any other leaves the view. Two runs with the same labels are
then runs of one deterministic system from one state, by `Lib.Projection`.

The labels say what happens to the requests of the policy, in their order: arrivals with their routes, and
moves. What an upstream answers is in them, since it is the environment's choice and not the policy's.
-/

namespace Apigate
open Lib Runs Projection

variable {V ρ σ : Type}

/-! ## One policy by itself

The system that a policy and its requests would be, if there were nothing else. -/

/-- A policy, the requests on its routes, and the calls to it so far. -/
structure Own (V ρ σ : Type) where
  policy : Policy ρ σ
  requests : List (Live V)
  calls : List PolicyCall

/-- What happens to the requests of one policy, in the order of their arrival. -/
inductive OwnAct (V : Type) where
  | arrive (routeMeta : RouteMeta (PipelineFn V))
  | move (request : Nat) (m : Move V)

section
variable [RouteStrategy ρ] [Balancer σ] [Xxh3]

/-- One action of this system: as in the gateway, with the one policy there is. -/
def ownStep (own : Own V ρ σ) : OwnAct V → Option (Own V ρ σ)
  | .arrive routeMeta => some { own with requests := own.requests ++ [⟨routeMeta, .pipeline⟩] }
  | .move k m => do
      let r ← own.requests[k]?
      let (phase, policy, calls) ← move r.routeMeta own.policy r.phase m
      some ⟨policy, own.requests.set k { r with phase := phase }, own.calls ++ calls⟩

end

/-! ## The view of a policy

What the gateway shows of a policy, and what its actions are to it. -/

/-- The request is on a route of policy `p`. -/
def Live.uses (p : PolicyRef) (r : Live V) : Bool := r.routeMeta.policy == p

/-- What a gateway has of one policy. -/
def Gateway.own (g : Gateway V ρ σ) (p : PolicyRef) : Own V ρ σ :=
  ⟨g.policies p, g.requests.filter (Live.uses p), g.callsTo p some⟩

/-- What an action of the gateway is for policy `p`. -/
def ownAct (routeMetas : List (RouteMeta (PipelineFn V))) (p : PolicyRef) (g : Gateway V ρ σ) :
    Act V → Option (OwnAct V)
  | .arrive routeIdx => do
      let routeMeta ← routeMetas[routeIdx]?
      if routeMeta.policy == p then some (.arrive routeMeta) else none
  | .move id m => do
      let r ← g.requests[id]?
      if r.uses p then some (.move (rank (Live.uses p) g.requests id) m) else none

section
variable [RouteStrategy ρ] [Balancer σ] [Xxh3]

omit [RouteStrategy ρ] [Balancer σ] [Xxh3] in
/-- An arrival, seen from a policy. -/
theorem own_arrive (g : Gateway V ρ σ) (p : PolicyRef) (routeMeta : RouteMeta (PipelineFn V)) :
    ({ g with requests := g.requests ++ [⟨routeMeta, .pipeline⟩] } : Gateway V ρ σ).own p =
      if routeMeta.policy = p then
        { g.own p with requests := (g.own p).requests ++ [⟨routeMeta, .pipeline⟩] } else g.own p := by
  by_cases hp : routeMeta.policy = p <;> simp [Gateway.own, Live.uses, Gateway.callsTo, hp]

omit [RouteStrategy ρ] [Balancer σ] [Xxh3] in
/-- A move, seen from the policy of its request and from another one. -/
theorem own_move (g : Gateway V ρ σ) (p : PolicyRef) {id : Nat} {r : Live V} (hr : g.requests[id]? = some r)
    (phase : Phase V) (policy : Policy ρ σ) (calls : List PolicyCall) :
    (⟨Function.update g.policies r.routeMeta.policy policy, g.requests.set id { r with phase := phase },
        g.log ++ calls.map (LogEntry.mk id r.routeMeta.policy)⟩ : Gateway V ρ σ).own p =
      if r.routeMeta.policy = p then
        ⟨policy, (g.own p).requests.set (rank (Live.uses p) g.requests id) { r with phase := phase },
          (g.own p).calls ++ calls⟩
      else g.own p := by
  unfold Gateway.own
  rw [callsTo_move rfl p some]
  by_cases hp : r.routeMeta.policy = p
  · have huses : r.uses p = true := beq_iff_eq.mpr hp
    have huses' : ({ r with phase := phase } : Live V).uses p = true := huses
    subst hp
    simp only [if_true, filter_set hr huses huses', Function.update_self, List.filterMap_some]
  · have huses : r.uses p = false := beq_eq_false_iff_ne.mpr hp
    have huses' : ({ r with phase := phase } : Live V).uses p = false := huses
    simp only [if_neg hp, filter_set_other hr huses huses', Function.update_of_ne (Ne.symm hp), List.append_nil]

/-- **The gateway treats each policy as the policy is by itself.** By cases on the action and on whose request
    it is. A move of another request replaces an element that the filter drops, and updates another policy. -/
theorem projects_own (routeMetas : List (RouteMeta (PipelineFn V))) (p : PolicyRef) :
    Projects (@step V ρ σ _ _ _ routeMetas) (Gateway.own · p) (ownAct routeMetas p) ownStep := by
  constructor
  · intro g g' a b hstep hlabel
    cases a with
    | arrive routeIdx =>
        simp only [ownAct, Option.bind_eq_bind, Option.bind_eq_some_iff] at hlabel
        obtain ⟨routeMeta, hmeta, hlabel⟩ := hlabel
        obtain ⟨hp, hb⟩ := Option.ite_none_right_eq_some.mp hlabel
        obtain rfl := Option.some.inj hb
        rw [step_of_arrive g hmeta] at hstep
        obtain rfl := Option.some.inj hstep
        show some _ = some (Gateway.own _ p)
        rw [own_arrive, if_pos (beq_iff_eq.mp hp)]
    | move id m =>
        simp only [ownAct, Option.bind_eq_bind, Option.bind_eq_some_iff] at hlabel
        obtain ⟨r, hr, hlabel⟩ := hlabel
        obtain ⟨huses, hb⟩ := Option.ite_none_right_eq_some.mp hlabel
        obtain rfl := Option.some.inj hb
        obtain rfl : r.routeMeta.policy = p := beq_iff_eq.mp huses
        simp only [step, hr, Option.bind_eq_bind, Option.bind_some, Option.bind_eq_some_iff, Option.some.injEq]
          at hstep
        obtain ⟨⟨phase, policy, calls⟩, hmove, rfl⟩ := hstep
        have hrank : (g.own r.routeMeta.policy).requests[rank (Live.uses r.routeMeta.policy) g.requests id]? =
            some r := getElem?_rank hr huses
        have hmove' : move r.routeMeta (g.own r.routeMeta.policy).policy r.phase m = some (phase, policy, calls) :=
          hmove
        simp only [ownStep, hrank, hmove', own_move g _ hr, Option.bind_eq_bind, Option.bind_some, if_true]
  · intro g g' a hstep hlabel
    cases a with
    | arrive routeIdx =>
        cases hmeta : routeMetas[routeIdx]? with
        | none => simp [step, hmeta] at hstep
        | some routeMeta =>
            rw [step_of_arrive g hmeta] at hstep
            obtain rfl := Option.some.inj hstep
            have hp : routeMeta.policy ≠ p := by
              intro hp
              simp [ownAct, hmeta, hp] at hlabel
            rw [own_arrive, if_neg hp]
    | move id m =>
        obtain ⟨r, phase, policy, calls, hr, -, rfl⟩ := step_move hstep
        have hp : r.routeMeta.policy ≠ p := by
          intro hp
          simp [ownAct, hr, Live.uses, hp] at hlabel
        rw [own_move g p hr, if_neg hp]

/-- **Policies are isolated.** In any two runs of any two gateways, of the same or of different applications,
    that start with the same policy `p` and do the same with the requests on its routes, in the same order, the
    policy ends in the same state, has been called in the same way, and its requests are where they are in the
    other run; whatever the two do with other requests, and however they interleave the two. -/
theorem policies_are_isolated {routeMetas routeMetas' : List (RouteMeta (PipelineFn V))}
    {policies policies' : Policies ρ σ} {acts acts' : List (Act V)} {g g' : Gateway V ρ σ}
    (hrun : run (step routeMetas) (.start policies) acts = some g)
    (hrun' : run (step routeMetas') (.start policies') acts' = some g') (p : PolicyRef)
    (hpolicy : policies p = policies' p)
    (hacts : labels (step routeMetas) (ownAct routeMetas p) (.start policies) acts =
      labels (step routeMetas') (ownAct routeMetas' p) (.start policies') acts') :
    g.own p = g'.own p := by
  have hstart : (Gateway.start policies : Gateway V ρ σ).own p = (Gateway.start policies').own p := by
    show (⟨policies p, [], []⟩ : Own V ρ σ) = ⟨policies' p, [], []⟩
    rw [hpolicy]
  exact view_eq_of_labels (projects_own routeMetas p) (projects_own routeMetas' p) hrun hrun' hstart hacts

end

/-! ## Two services -/

/-- A route with a policy of its own, on a pool of two backends. -/
def serviceMeta (service : Str) (p : PolicyRef) : RouteMeta (PipelineFn Str) :=
  ⟨service, str "/items", str "/" ++ service, .stripPrefix,
    ⟨[⟨⟨str "http", str "a", str "http://a", str "a"⟩⟩, ⟨⟨str "http", str "b", str "http://b", str "b"⟩⟩]⟩, p, none⟩

def itemsHead (service : Str) : Parts Str :=
  ⟨str "GET", ⟨none, none, some ⟨str "/" ++ service ++ str "/items", none⟩⟩, str "HTTP/1.1", .empty, .empty⟩

/-- A request to the first service. -/
def salesAlone : List (Act Str) :=
  [.arrive 0, .move 0 (.returns (some (itemsHead (str "sales")))), .move 0 .route, .move 0 .pick, .move 0 .start]

/-- The same request, with one to the second service around it. -/
def salesAmidUsers : List (Act Str) :=
  [.arrive 1, .arrive 0, .move 0 (.returns (some (itemsHead (str "users")))),
    .move 1 (.returns (some (itemsHead (str "sales")))), .move 0 .route, .move 1 .route, .move 0 .pick, .move 1 .pick,
    .move 0 .start, .move 0 .drop, .move 1 .start]

/-- Steps of a gateway with those routes. -/
def servicesStep (routeMetas : List (RouteMeta (PipelineFn Str))) (g : Gateway Str NoRouteKey RoundRobin)
    (a : Act Str) : Option (Gateway Str NoRouteKey RoundRobin) :=
  @step Str NoRouteKey RoundRobin _ _ .length routeMetas g a

/-- The theorem at those runs, the second of them in a gateway with a second service. -/
theorem policies_are_isolated_sales :
    let sales := serviceMeta (str "sales") 0
    let users := serviceMeta (str "users") 1
    ∃ g g' : Gateway Str NoRouteKey RoundRobin,
      run (servicesStep [sales]) (.start fun _ => .new) salesAlone = some g ∧
      run (servicesStep [sales, users]) (.start fun p => if p = 0 then .new else .leastRequest) salesAmidUsers =
        some g' ∧
      g.own 0 = g'.own 0 := by
  intro sales users
  obtain ⟨g, hrun⟩ : ∃ g, run (servicesStep [sales]) (.start fun _ => .new) salesAlone = some g := ⟨_, rfl⟩
  obtain ⟨g', hrun'⟩ : ∃ g', run (servicesStep [sales, users]) (.start fun p => if p = 0 then .new else .leastRequest)
      salesAmidUsers = some g' := ⟨_, rfl⟩
  exact ⟨g, g', hrun, hrun',
    @policies_are_isolated Str NoRouteKey RoundRobin _ _ .length _ _ _ _ _ _ _ _ hrun hrun' 0 rfl rfl⟩

end Apigate
