import Apigate.Correctness.JumpHash
import Apigate.Correctness.RouteTable

/-!
# `Correctness.Affinity` — sessions stay on their backend

Under the policies `header_sticky` and `path_sticky` a request whose head has a key goes to the backend that the
key stands for. Nothing else has a say in it: not the requests in between, not those without a key, which share
a counter, not the order of the handlers. Two gateways agree as well, for example one that was started anew with
more backends, where a session stays on its backend unless it moves to a new one.

Two runs are compared, possibly of two gateways, and they need not have anything to do with each other. So each
run is read off by itself: `Sessions` is an invariant with the history of the run, and says of every choice of a
sticky policy that it is the choice of the hash for the head that the request had (`ChosenFor`). For that it
follows the head of every request through the phases of its handler, since the choice is made two moves after
the head is known, and keeps that a sticky policy has the strategy it had at the start.

`ChosenFor` allows for any state of the balancer's counter, which is used for requests without a key only. The
second step is then about the hash alone (`pick_of_same_pool`, `pick_of_appended`): with a key it sees the key
and the size of the pool, and with more buckets it gives the same bucket or a new one (`Correctness.JumpHash`).
-/

namespace Apigate
open Lib Runs

variable {V ρ σ : Type}

/-! ## Sticky policies

What a sticky policy is, that it stays one, and what it answers. A decision of its strategy depends on the
strategy, the route and the head. -/

/-- The strategies that take an affinity key from the request. -/
inductive DynRouter.Sticky : DynRouter ρ → Prop
  | header (s : HeaderSticky) : DynRouter.Sticky (.headerSticky s)
  | path (s : PathSticky) : DynRouter.Sticky (.pathSticky s)

/-- A sticky strategy over a consistent hash. -/
structure Policy.Sticky (policy : Policy ρ σ) : Prop where
  router : policy.router.Sticky
  balancer : ∃ s, policy.balancer = .consistentHash s

/-- The policy of the gateway that takes the key from a header is one. -/
theorem Policy.headerSticky_sticky (header : Str) : (Policy.headerSticky header : Policy ρ σ).Sticky :=
  ⟨.header _, _, rfl⟩

/-- So is the one that takes it from the path. -/
theorem Policy.pathSticky_sticky (param : Str) : (Policy.pathSticky param : Policy ρ σ).Sticky :=
  ⟨.path _, _, rfl⟩

section
variable [RouteStrategy ρ] [Balancer σ] [Xxh3]

omit [Xxh3] in
/-- A sticky strategy has no state and leaves all backends in. -/
theorem DynRouter.Sticky.route {router : DynRouter ρ} (h : router.Sticky) (ctx : RouteCtx) (pool : BackendPool) :
    (RouteStrategy.route router ctx pool).2 = router ∧
      (RouteStrategy.route router ctx pool).1.candidates = .all := by
  cases h with
  | header s => exact ⟨rfl, rfl⟩
  | path s => exact ⟨rfl, rfl⟩

/-- The strategy's decision on a request. -/
def Policy.decision (policy : Policy ρ σ) (routeMeta : RouteMeta (PipelineFn V)) (parts : Parts V) :
    RoutingDecision :=
  (policy.route (routeMeta.routeCtx parts) routeMeta.pool).1

/-- The key of a request, under a policy. -/
def Policy.sessionKey (policy : Policy ρ σ) (routeMeta : RouteMeta (PipelineFn V)) (parts : Parts V) :
    Option AffinityKey :=
  (policy.decision routeMeta parts).affinity

omit [Balancer σ] [Xxh3] in
/-- Policies with the same strategy decide alike. -/
theorem Policy.decision_congr {policy policy' : Policy ρ σ} (h : policy.router = policy'.router)
    (routeMeta : RouteMeta (PipelineFn V)) (parts : Parts V) :
    policy.decision routeMeta parts = policy'.decision routeMeta parts := by
  simp only [Policy.decision, Policy.route, h, Prod.map_fst, id_eq]

/-- **A sticky policy keeps its strategy and goes on hashing**, whatever its handlers do. By cases on the move;
    a pick may change the counter, and starts and results are nothing to a hash. -/
theorem Policy.Sticky.moves {policy policy' : Policy ρ σ} (h : policy.Sticky)
    {routeMeta : RouteMeta (PipelineFn V)} {phase phase' : Phase V} {m : Move V} {calls : List PolicyCall}
    (hmoves : Moves routeMeta policy phase m phase' policy' calls) :
    policy'.Sticky ∧ policy'.router = policy.router := by
  obtain ⟨router, balancer⟩ := policy
  obtain ⟨hrouter, s, hs⟩ := h
  obtain rfl : balancer = .consistentHash s := hs
  cases hmoves with
  | routed parts =>
      have hsame := (hrouter.route (routeMeta.routeCtx parts) routeMeta.pool).1
      refine ⟨⟨?_, s, rfl⟩, hsame⟩
      show (RouteStrategy.route router (routeMeta.routeCtx parts) routeMeta.pool).2.Sticky
      rw [hsame]
      exact hrouter
  | picked routing i hpick hi => exact ⟨⟨hrouter, _, rfl⟩, rfl⟩
  | refused routing hpick => exact ⟨⟨hrouter, _, rfl⟩, rfl⟩
  | started i => exact ⟨⟨hrouter, _, rfl⟩, rfl⟩
  | reported event => exact ⟨⟨hrouter, _, rfl⟩, rfl⟩
  | returned parts => exact ⟨⟨hrouter, s, rfl⟩, rfl⟩
  | failed => exact ⟨⟨hrouter, s, rfl⟩, rfl⟩
  | droppedEarly => exact ⟨⟨hrouter, s, rfl⟩, rfl⟩
  | settled i result elapsed => exact ⟨⟨hrouter, s, rfl⟩, rfl⟩
  | droppedLate i => exact ⟨⟨hrouter, s, rfl⟩, rfl⟩

/-- The backend that a consistent hash chooses for a request, in some state of its counter. -/
def ChosenFor (policy : Policy ρ σ) (routeMeta : RouteMeta (PipelineFn V)) (parts : Parts V) (i : Nat) : Prop :=
  ∃ s : ConsistentHash,
    (ConsistentHash.pick Xxh3.xxh3 s (routeMeta.balanceCtx (policy.decision routeMeta parts))).1 = some i

omit [RouteStrategy ρ] in
/-- The answer of a sticky policy. -/
theorem Policy.Sticky.pick {policy : Policy ρ σ} (h : policy.Sticky) (ctx : BalanceCtx) :
    ∃ s : ConsistentHash, (policy.pick ctx).1 = (ConsistentHash.pick Xxh3.xxh3 s ctx).1 := by
  obtain ⟨router, balancer⟩ := policy
  obtain ⟨-, s, hs⟩ := h
  obtain rfl : balancer = .consistentHash s := hs
  exact ⟨s, rfl⟩

end

/-- **A key alone decides**: the state of the counter has no part in the choice, and neither has anything of the
    pool but its size. -/
theorem pick_of_same_pool (xxh3 : Str → UInt64) (s s' : ConsistentHash) {ctx ctx' : BalanceCtx} {key : AffinityKey}
    (hkey : ctx.affinity = some key) (hkey' : ctx'.affinity = some key) (hall : ctx.candidates = .all)
    (hall' : ctx'.candidates = .all) (hpool : ctx'.pool.backends = ctx.pool.backends) :
    (ConsistentHash.pick xxh3 s' ctx').1 = (ConsistentHash.pick xxh3 s ctx).1 := by
  have hsize : ctx'.pool.len = ctx.pool.len := congrArg List.length hpool
  have hlen : ctx'.candidateLen = ctx.candidateLen := by
    simp only [BalanceCtx.candidateLen, hall, hall', hsize]
  have hindex : ctx'.candidateIndex = ctx.candidateIndex := by
    funext nth
    simp only [BalanceCtx.candidateIndex, hall, hall', hsize]
  simp only [ConsistentHash.pick, ConsistentHash.pickCandidate, hkey, hkey', hlen, hindex]
  split <;> rfl

/-- The choices for one key, in a pool and in one with more backends. Only where there are more does the hash
    have to compare two numbers of buckets, which it does without overflow below `2 ^ 32`. The backends of the
    first pool keep their indices in the second, so the same bucket is the same backend and a new bucket is an
    appended one. -/
theorem pick_of_appended {xxh3 : Str → UInt64} {s s' : ConsistentHash} {ctx ctx' : BalanceCtx} {key : AffinityKey}
    {fresh : List Backend} {i i' : Nat} (hkey : ctx.affinity = some key) (hkey' : ctx'.affinity = some key)
    (hall : ctx.candidates = .all) (hall' : ctx'.candidates = .all)
    (hpool : ctx'.pool.backends = ctx.pool.backends ++ fresh) (hlen : fresh ≠ [] → ctx'.pool.len < 2 ^ 32)
    (hs : (ConsistentHash.pick xxh3 s ctx).1 = some i) (hs' : (ConsistentHash.pick xxh3 s' ctx').1 = some i') :
    i' = i ∧ ctx'.pool.get i' = ctx.pool.get i ∨ ∃ backend ∈ fresh, ctx'.pool.get i' = some backend := by
  by_cases hfresh : fresh = []
  · left
    rw [hfresh, List.append_nil] at hpool
    rw [pick_of_same_pool xxh3 s s' hkey hkey' hall hall' hpool, hs] at hs'
    obtain rfl := Option.some.inj hs'
    unfold BackendPool.get
    rw [hpool]
    exact ⟨rfl, rfl⟩
  have hlen := hlen hfresh
  have hlen' : ctx'.candidateLen < 2 ^ 32 := by
    rw [BalanceCtx.candidateLen, hall']
    exact hlen
  have hpos : 1 ≤ ctx.candidateLen := by
    refine Nat.one_le_iff_ne_zero.mpr fun hzero => ?_
    rw [ConsistentHash.pick, if_pos hzero] at hs
    cases hs
  obtain ⟨j, hj, hpick, hmove⟩ :=
    ConsistentHash.pick_extend xxh3 s s' hkey hkey' (candidateList_append hall hall' hpool) hpos hlen'
  obtain rfl : i = j := Option.some.inj (hs.symm.trans hpick)
  have hi : i < ctx.pool.backends.length := by
    rw [BalanceCtx.candidateList, hall] at hj
    exact List.mem_range.mp hj
  rw [hs'] at hmove
  unfold BackendPool.get
  rw [hpool]
  rcases hmove with hsame | ⟨j', hj', hnew⟩
  · left
    obtain rfl := Option.some.inj hsame
    exact ⟨rfl, List.getElem?_append_left hi⟩
  · right
    obtain ⟨d, hd, rfl⟩ := List.mem_map.mp hj'
    obtain rfl := Option.some.inj hnew
    have hd := List.mem_range.mp hd
    refine ⟨fresh[d], List.getElem_mem hd, ?_⟩
    rw [BackendPool.len, List.getElem?_append_right (Nat.le_add_right _ _), Nat.add_sub_cancel_left,
      List.getElem?_eq_getElem hd]

/-! ## Runs

The head of a request is known to the environment, which decides what its pipeline returns. So it is read off
the actions of the run, and the invariant relates actions and state. -/

/-- The request head with which the pipeline of a request returns. -/
def Act.head? (id : Nat) : Act V → Option (Parts V)
  | .move id' (.returns (some parts)) => if id' = id then some parts else none
  | _ => none

/-- The request head that the pipeline of a request has left. -/
def headOf (acts : List (Act V)) (id : Nat) : Option (Parts V) := acts.findSome? (Act.head? id)

/-- One more action leaves a head only if it is the return of that pipeline, and a pipeline returns once. -/
theorem headOf_concat (acts : List (Act V)) (a : Act V) (id : Nat) :
    headOf (acts ++ [a]) id = (headOf acts id).or (a.head? id) := by
  unfold headOf
  rw [List.findSome?_append, List.findSome?_singleton]

theorem Act.head?_arrive (id routeIdx : Nat) : (Act.arrive routeIdx : Act V).head? id = none := rfl

theorem Act.head?_of_ne {id id' : Nat} (h : id ≠ id') (m : Move V) : (Act.move id m).head? id' = none := by
  unfold Act.head?
  split
  · rename_i heq
    cases heq
    exact if_neg h
  · rfl

section
variable [RouteStrategy ρ] [Balancer σ] [Xxh3]

/-- What a handler has of the head that its pipeline left. -/
def Phase.CarriesOn (policy : Policy ρ σ) (routeMeta : RouteMeta (PipelineFn V)) (head : Option (Parts V)) :
    Phase V → Prop
  | .pipeline => head = none
  | .routing parts => head = some parts
  | .picking decision =>
      ∃ parts, head = some parts ∧ (policy.Sticky → decision = policy.decision routeMeta parts)
  | .selected _ | .upstream _ | .settled _ | .over => True

/-- The backends that were chosen, with the requests they were chosen for. -/
def Gateway.assignments (g : Gateway V ρ σ) : List (Nat × Nat) :=
  g.log.filterMap fun e => e.call.choice?.map fun choice => (e.request, choice.2)

omit [RouteStrategy ρ] [Balancer σ] [Xxh3] in
/-- What a move adds: the choice among its calls, for the request that moves. -/
theorem assignments_move {g g' : Gateway V ρ σ} {id : Nat} {p : PolicyRef} {calls : List PolicyCall}
    (hlog : g'.log = g.log ++ calls.map (LogEntry.mk id p)) :
    g'.assignments = g.assignments ++ (calls.filterMap PolicyCall.choice?).map fun choice => (id, choice.2) := by
  unfold Gateway.assignments
  rw [hlog, List.filterMap_append, List.filterMap_map, List.map_filterMap]
  rfl

/-- The route that a request is on. -/
def Gateway.routeOf (g : Gateway V ρ σ) (id : Nat) : Option (RouteMeta (PipelineFn V)) :=
  g.requests[id]?.map Live.routeMeta

/-- The request is on the route, its pipeline left this head, and backend `i` was chosen for it. -/
structure GivenBackend (acts : List (Act V)) (g : Gateway V ρ σ) (id : Nat)
    (routeMeta : RouteMeta (PipelineFn V)) (parts : Parts V) (i : Nat) : Prop where
  onRoute : g.routeOf id = some routeMeta
  head : headOf acts id = some parts
  chosen : (id, i) ∈ g.assignments

/-- What holds of the sticky policies in a run from the `policies`. -/
structure Sessions (policies : Policies ρ σ) (acts : List (Act V)) (g : Gateway V ρ σ) : Prop where
  kept : ∀ p, (policies p).Sticky → (g.policies p).Sticky ∧ (g.policies p).router = (policies p).router
  unknown : ∀ id, g.requests.length ≤ id → headOf acts id = none
  phases : ∀ (id : Nat) (r : Live V), g.requests[id]? = some r →
    r.phase.CarriesOn (policies r.routeMeta.policy) r.routeMeta (headOf acts id)
  choices : ∀ id i, (id, i) ∈ g.assignments → ∃ routeMeta parts,
    g.routeOf id = some routeMeta ∧ headOf acts id = some parts ∧
      ((policies routeMeta.policy).Sticky → ChosenFor (policies routeMeta.policy) routeMeta parts i)

omit [Balancer σ] in
/-- Before the first action nothing has a head and nothing has been chosen. -/
theorem sessions_start (policies : Policies ρ σ) : Sessions policies [] (.start policies : Gateway V ρ σ) := by
  refine ⟨fun p h => ⟨h, rfl⟩, fun _ _ => rfl, ?_, ?_⟩
  · intro id r hr
    cases hr
  · intro id i hi
    cases hi

/-- A move that is not the return of the pipeline leaves no head. -/
theorem Phase.CarriesOn.moves {initial policy policy' : Policy ρ σ} {routeMeta : RouteMeta (PipelineFn V)}
    {head : Option (Parts V)} {phase phase' : Phase V} {m : Move V} {calls : List PolicyCall} (id : Nat)
    (h : phase.CarriesOn initial routeMeta head) (hmoves : Moves routeMeta policy phase m phase' policy' calls)
    (hrouter : initial.Sticky → policy.router = initial.router) :
    phase'.CarriesOn initial routeMeta (head.or ((Act.move id m).head? id)) := by
  cases hmoves with
  | returned parts =>
      obtain rfl : head = none := h
      show (if id = id then some parts else none) = some parts
      rw [if_pos rfl]
  | routed parts =>
      obtain rfl : head = some parts := h
      refine ⟨parts, rfl, ?_⟩
      intro hsticky
      exact Policy.decision_congr (hrouter hsticky) routeMeta parts
  | _ => trivial

variable {policies : Policies ρ σ} {routeMetas : List (RouteMeta (PipelineFn V))} {acts : List (Act V)}
  {g g' : Gateway V ρ σ} {a : Act V}

/-- A choice that a sticky policy makes in a move. -/
theorem Sessions.chosenFor (h : Sessions policies acts g) {id : Nat} {r : Live V} (hr : g.requests[id]? = some r)
    {phase : Phase V} {policy : Policy ρ σ} {m : Move V} {calls : List PolicyCall}
    (hmoves : Moves r.routeMeta (g.policies r.routeMeta.policy) r.phase m phase policy calls)
    {choice : BalanceCtx × Nat} (hchoice : choice ∈ calls.filterMap PolicyCall.choice?) :
    ∃ parts, headOf acts id = some parts ∧ ((policies r.routeMeta.policy).Sticky →
      ChosenFor (policies r.routeMeta.policy) r.routeMeta parts choice.2) := by
  obtain ⟨routeMeta, phase₀⟩ := r
  have hphase := h.phases id _ hr
  cases hmoves with
  | picked decision i hpick hi =>
      obtain ⟨parts, hhead, hdecision⟩ := hphase
      obtain rfl : choice = (routeMeta.balanceCtx decision, i) := by simpa [PolicyCall.choice?] using hchoice
      refine ⟨parts, hhead, ?_⟩
      intro hsticky
      obtain ⟨s, hs⟩ := (h.kept _ hsticky).1.pick (routeMeta.balanceCtx decision)
      rw [hdecision hsticky] at hs hpick
      exact ⟨s, hs.symm.trans hpick⟩
  | refused decision hpick =>
      obtain ⟨parts, hhead, hdecision⟩ := hphase
      refine ⟨parts, hhead, ?_⟩
      intro hsticky
      obtain ⟨s, hs⟩ := (h.kept _ hsticky).1.pick (routeMeta.balanceCtx decision)
      rw [hdecision hsticky] at hs hchoice
      refine ⟨s, ?_⟩
      rw [← hs]
      cases hanswer : ((g.policies routeMeta.policy).pick
          (routeMeta.balanceCtx ((policies routeMeta.policy).decision routeMeta parts))).1 with
      | none => simp [hanswer, PolicyCall.choice?] at hchoice
      | some i =>
          obtain rfl : choice = (_, i) := by simpa [hanswer, PolicyCall.choice?] using hchoice
          rfl
  | _ => simp [PolicyCall.choice?] at hchoice

/-- **One action of the gateway.** An arrival brings a request without a head. A move changes the phase and, if
    it returns from the pipeline, the head of one request, and may add a choice for it. -/
theorem Sessions.step (h : Sessions policies acts g) (hstep : step routeMetas g a = some g') :
    Sessions policies (acts ++ [a]) g' := by
  cases a with
  | arrive routeIdx =>
      obtain ⟨routeMeta, -, rfl⟩ := step_arrive hstep
      have hsame : headOf (acts ++ [.arrive routeIdx]) = headOf acts := by
        funext id
        rw [headOf_concat, Act.head?_arrive, Option.or_none]
      refine ⟨h.kept, ?_, ?_, ?_⟩
      · intro id hid
        rw [hsame]
        rw [List.length_append] at hid
        exact h.unknown id (by omega)
      · intro id r hr
        rw [hsame]
        rcases getElem?_arrive.mp hr with hold | ⟨rfl, rfl⟩
        · exact h.phases id r hold
        · exact h.unknown _ (le_refl _)
      · intro id i hi
        rw [hsame]
        obtain ⟨routeMeta', parts, hroute, hrest⟩ := h.choices id i hi
        obtain ⟨r, hr, rfl⟩ := Option.map_eq_some_iff.mp hroute
        exact ⟨_, parts, Option.map_eq_some_iff.mpr ⟨r, getElem?_arrive.mpr (.inl hr), rfl⟩, hrest⟩
  | move id m =>
      obtain ⟨r, phase, policy, calls, hr, hmoves, rfl⟩ := step_move hstep
      have hlt : id < g.requests.length := (List.getElem?_eq_some_iff.mp hr).1
      refine ⟨?_, ?_, ?_, ?_⟩
      · intro p hsticky
        by_cases hp : p = r.routeMeta.policy
        · subst hp
          obtain ⟨hnow, hrouter⟩ := h.kept _ hsticky
          obtain ⟨hnext, hsame⟩ := hnow.moves hmoves
          simp only [Function.update_self]
          exact ⟨hnext, hsame.trans hrouter⟩
        · simp only [Function.update_of_ne hp]
          exact h.kept p hsticky
      · intro id' hid'
        rw [List.length_set] at hid'
        rw [headOf_concat, h.unknown id' hid', Act.head?_of_ne (by omega)]
        rfl
      · intro id' r' hr'
        rw [headOf_concat]
        rcases (getElem?_move hr).mp hr' with ⟨rfl, rfl⟩ | ⟨hne, hold⟩
        · exact (h.phases id' r hr).moves id' hmoves fun hsticky => (h.kept _ hsticky).2
        · rw [Act.head?_of_ne (Ne.symm hne), Option.or_none]
          exact h.phases id' r' hold
      · intro id' i hi
        rw [headOf_concat]
        rw [assignments_move rfl] at hi
        rcases List.mem_append.mp hi with hold | hnew
        · obtain ⟨routeMeta, parts, hroute, hhead, hchosen⟩ := h.choices id' i hold
          obtain ⟨r', hr', rfl⟩ := Option.map_eq_some_iff.mp hroute
          refine ⟨r'.routeMeta, parts, Option.map_eq_some_iff.mpr ?_, by rw [hhead, Option.some_or], hchosen⟩
          by_cases hid : id' = id
          · obtain rfl : r = r' := Option.some.inj (hr.symm.trans (hid ▸ hr'))
            exact ⟨_, (getElem?_move hr).mpr (.inl ⟨hid, rfl⟩), rfl⟩
          · exact ⟨r', (getElem?_move hr).mpr (.inr ⟨hid, hr'⟩), rfl⟩
        · obtain ⟨choice, hchoice, heq⟩ := List.mem_map.mp hnew
          obtain ⟨rfl, rfl⟩ := Prod.mk.inj heq
          obtain ⟨parts, hhead, hchosen⟩ := h.chosenFor hr hmoves hchoice
          exact ⟨r.routeMeta, parts, Option.map_eq_some_iff.mpr ⟨_, (getElem?_move hr).mpr (.inl ⟨rfl, rfl⟩), rfl⟩,
            by rw [hhead, Option.some_or], hchosen⟩

/-- What a run shows of a request under a sticky policy: the backend that it was given is the one that the hash
    chooses for its head. -/
theorem GivenBackend.chosenFor (hrun : run (Apigate.step routeMetas) (.start policies) acts = some g) {id : Nat}
    {routeMeta : RouteMeta (PipelineFn V)} {parts : Parts V} {i : Nat}
    (h : GivenBackend acts g id routeMeta parts i) (hsticky : (policies routeMeta.policy).Sticky) :
    ChosenFor (policies routeMeta.policy) routeMeta parts i := by
  have hsessions : Sessions policies acts g :=
    invariant_of_history (fun _ _ _ _ h hstep => Sessions.step h hstep) (sessions_start policies) hrun
  obtain ⟨routeMeta', parts', hroute, hhead, hchosen⟩ := hsessions.choices id i h.chosen
  obtain rfl : routeMeta = routeMeta' := Option.some.inj (h.onRoute.symm.trans hroute)
  obtain rfl : parts = parts' := Option.some.inj (h.head.symm.trans hhead)
  exact hchosen hsticky

/-- **Sessions stay on their backend.** In any two runs of any two gateways, two requests that have the same key
    under their sticky policies go to the same backend, if their pools are the same; and if backends have been
    appended to the second pool, fewer than `2 ^ 32` in all, the second request goes to the backend of the first
    or to one of those. Each run is read off by itself (`GivenBackend.chosenFor`): a request that was given a
    backend was given what the hash says for its head. The two runs then meet in the hash, which sees the key
    and the pool and nothing else. -/
theorem sessions_stay_on_backend {routeMetas' : List (RouteMeta (PipelineFn V))} {policies' : Policies ρ σ}
    {acts' : List (Act V)} (hrun : run (Apigate.step routeMetas) (.start policies) acts = some g)
    (hrun' : run (Apigate.step routeMetas') (.start policies') acts' = some g') {id id' : Nat}
    {routeMeta routeMeta' : RouteMeta (PipelineFn V)} {parts parts' : Parts V} {i i' : Nat}
    (h : GivenBackend acts g id routeMeta parts i) (h' : GivenBackend acts' g' id' routeMeta' parts' i')
    (hsticky : (policies routeMeta.policy).Sticky) (hsticky' : (policies' routeMeta'.policy).Sticky)
    {key : AffinityKey} (hkey : (policies routeMeta.policy).sessionKey routeMeta parts = some key)
    (hkey' : (policies' routeMeta'.policy).sessionKey routeMeta' parts' = some key) {fresh : List Backend}
    (hpool : routeMeta'.pool.backends = routeMeta.pool.backends ++ fresh)
    (hlen : fresh ≠ [] → routeMeta'.pool.len < 2 ^ 32) :
    i' = i ∧ routeMeta'.pool.get i' = routeMeta.pool.get i ∨
      ∃ backend ∈ fresh, routeMeta'.pool.get i' = some backend := by
  obtain ⟨s, hs⟩ := h.chosenFor hrun hsticky
  obtain ⟨s', hs'⟩ := h'.chosenFor hrun' hsticky'
  have hall : (routeMeta.balanceCtx ((policies routeMeta.policy).decision routeMeta parts)).candidates = .all :=
    (hsticky.router.route _ _).2
  have hall' :
      (routeMeta'.balanceCtx ((policies' routeMeta'.policy).decision routeMeta' parts')).candidates = .all :=
    (hsticky'.router.route _ _).2
  exact pick_of_appended hkey hkey' hall hall' hpool hlen hs hs'

end

/-! ## A gateway that grows -/

def backendAtHost (host : Str) : Backend := ⟨⟨str "http", host, str "http://" ++ host, host⟩⟩

def usersMeta (hosts : List Str) : RouteMeta (PipelineFn Str) :=
  ⟨str "users", str "/\x7bid\x7d", str "/users", .stripPrefix, ⟨hosts.map backendAtHost⟩, 0, none⟩

def userHead (name : Str) : Parts Str :=
  ⟨str "GET", ⟨none, none, some ⟨str "/users/" ++ name, none⟩⟩, str "HTTP/1.1", .empty, .empty⟩

def annAlone : List (Act Str) :=
  [.arrive 0, .move 0 (.returns (some (userHead (str "ann")))), .move 0 .route, .move 0 .pick]

/-- Another request is in between. -/
def annBehindBob : List (Act Str) :=
  [.arrive 0, .arrive 0, .move 1 (.returns (some (userHead (str "ann")))),
    .move 0 (.returns (some (userHead (str "robert")))), .move 0 .route, .move 1 .route, .move 0 .pick, .move 1 .pick]

/-- The gateway after a run under path stickiness. -/
def afterUsers (hosts : List Str) (acts : List (Act Str)) : Option (Gateway Str NoRouteKey RoundRobin) :=
  run (@step Str NoRouteKey RoundRobin _ _ .length [usersMeta hosts]) (.start fun _ => .pathSticky (str "id")) acts

/-- The theorem at those runs, the second of them with a third backend. -/
theorem sessions_stay_on_backend_users :
    let small := usersMeta [str "a", str "b"]
    let large := usersMeta [str "a", str "b", str "c"]
    2 = 0 ∧ large.pool.get 2 = small.pool.get 0 ∨
      ∃ backend ∈ [backendAtHost (str "c")], large.pool.get 2 = some backend := by
  intro small large
  have hrun : afterUsers [str "a", str "b"] annAlone =
      some ((afterUsers [str "a", str "b"] annAlone).get (by decide +kernel)) := (Option.some_get _).symm
  have hrun' : afterUsers [str "a", str "b", str "c"] annBehindBob =
      some ((afterUsers [str "a", str "b", str "c"] annBehindBob).get (by decide +kernel)) := (Option.some_get _).symm
  exact @sessions_stay_on_backend Str NoRouteKey RoundRobin _ _ .length _ _ _ _ _ _ _ _ hrun hrun' 0 1 small large
    (userHead (str "ann")) (userHead (str "ann")) 0 2
    ⟨rfl, rfl, by decide +kernel⟩ ⟨rfl, rfl, by decide +kernel⟩
    (Policy.pathSticky_sticky _) (Policy.pathSticky_sticky _) (str "ann") rfl rfl _ rfl fun _ => (by decide)

end Apigate
