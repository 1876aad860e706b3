import Apigate.Correctness.RouteTable
import Apigate.Lib.Rotation

/-!
# `Correctness.EvenSpread` — what round robin spreads evenly

The counter of a round-robin policy counts the choices of the policy, on all routes that share it, and each
choice goes to the slot of its turn (`Rotates`). So the choices for one service are spread as evenly as the
policy's other choices and the restarts of the counter allow.

The argument has a part about the program and a part about counters. The first is the invariant `Rotates`, along
any run: the counter is the number of choices so far, as a 64-bit number, and the `k`-th choice is `k`, wrapped,
modulo the size of its pool. Interleaving does not disturb it, as each choice reads and increments the counter
in one move; and a built-in route strategy leaves all backends eligible, so the pool's size is the number of
candidates.

The second is `Lib.Rotation`: in a schedule whose entries follow a rotating counter, the shares of two slots
differ by one, plus one for every entry that is not the service's own and one for every restart. The entries of
one service are on one pool (`routes_share_pool`), which is where the route table comes in.

That both extra terms are needed is shown by two runs. In one a second service takes every other turn and leaves
one of the backends without any; the other is long enough for the counter to restart, and it exists because a
gateway can always serve one more request (`Rotates.exists_serve`).
-/

namespace Apigate
open Lib Runs Rotation

variable {V ρ σ : Type}

/-- A route strategy of the gateway itself; all of them leave every backend eligible. -/
def DynRouter.BuiltIn : DynRouter ρ → Prop
  | .noRouteKey _ | .headerSticky _ | .pathSticky _ => True
  | .custom _ => False

/-- A round-robin policy whose choices have each gone to the slot of their turn. -/
structure Rotates (p : PolicyRef) (g : Gateway V ρ σ) : Prop where
  router : (g.policies p).router.BuiltIn
  counter : (g.policies p).balancer = .roundRobin ⟨UInt64.ofNat (g.choices p).length⟩
  eligible : ∀ r ∈ g.requests, r.routeMeta.policy = p →
    ∀ routing, r.phase = .picking routing → routing.candidates = .all
  turns : ∀ k e, (g.choices p)[k]? = some e → e.2 = k % 2 ^ 64 % e.1.pool.len

/-- Before the first choice: the counter is at zero, and there are no turns to account for. -/
theorem rotates_start {p : PolicyRef} {policies : Policies ρ σ} (hrouter : (policies p).router.BuiltIn)
    (hbalancer : (policies p).balancer = .roundRobin .new) :
    Rotates p (Gateway.start policies : Gateway V ρ σ) := by
  refine ⟨hrouter, hbalancer, ?_, ?_⟩
  · intro r hr
    cases hr
  · -- no choice yet
    intro k e he
    cases he

/-! ## One move

What a move of a request of the policy does to the counter and to the list of choices: both grow by one, or
neither does. -/

/-- The slot of a turn. On an empty pool there is none, and the counter stays where it is. -/
theorem roundRobin_pick {n : Nat} {ctx : BalanceCtx} (hall : ctx.candidates = .all) :
    RoundRobin.pick ⟨UInt64.ofNat n⟩ ctx =
      if ctx.pool.len = 0 then (none, ⟨UInt64.ofNat n⟩)
      else (some (n % 2 ^ 64 % ctx.pool.len), ⟨UInt64.ofNat (n + 1)⟩) := by
  have hlen : ctx.candidateLen = ctx.pool.len := by
    unfold BalanceCtx.candidateLen
    rw [hall]
  unfold RoundRobin.pick
  dsimp only
  rw [hlen]
  split
  · rfl
  · have hlt : n % 2 ^ 64 % ctx.pool.len < ctx.pool.len := Nat.mod_lt _ (by omega)
    have hindex : ctx.candidateIndex (n % 2 ^ 64 % ctx.pool.len) = some (n % 2 ^ 64 % ctx.pool.len) := by
      unfold BalanceCtx.candidateIndex
      rw [hall]
      exact if_pos hlt
    rw [UInt64.toNat_ofNat', hindex, UInt64.ofNat_add]
    rfl

/-- A strategy of the gateway itself leaves every backend eligible, and stays what it is. -/
theorem route_builtIn [RouteStrategy ρ] {policy : Policy ρ σ} (h : policy.router.BuiltIn) (ctx : RouteCtx)
    (pool : BackendPool) :
    (policy.route ctx pool).1.candidates = .all ∧ (policy.route ctx pool).2.router.BuiltIn := by
  unfold Policy.route
  cases hrouter : policy.router with
  | custom s =>
      rw [hrouter] at h
      exact h.elim
  | _ => exact ⟨rfl, trivial⟩

/-- A pick of a policy with round robin is one of its counter. -/
theorem pick_roundRobin [Balancer σ] [Xxh3] {policy : Policy ρ σ} {s : RoundRobin}
    (h : policy.balancer = .roundRobin s) (ctx : BalanceCtx) :
    (policy.pick ctx).1 = (s.pick ctx).1 ∧ (policy.pick ctx).2.balancer = .roundRobin (s.pick ctx).2 := by
  simp only [Policy.pick, Balancer.pick, h]
  exact ⟨rfl, rfl⟩

section
variable [RouteStrategy ρ] [Balancer σ] [Xxh3]

/-- **A move chooses the slot of the next turn, or leaves the counter alone.** By cases on what the move can do;
    the one that touches the counter is the pick, for which the candidates are all backends by the invariant. -/
theorem moves_roundRobin {routeMeta : RouteMeta (PipelineFn V)} {policy policy' : Policy ρ σ}
    {phase phase' : Phase V} {m : Move V} {calls : List PolicyCall} {n : Nat}
    (h : Moves routeMeta policy phase m phase' policy' calls) (hrouter : policy.router.BuiltIn)
    (hcounter : policy.balancer = .roundRobin ⟨UInt64.ofNat n⟩)
    (hall : ∀ routing, phase = .picking routing → routing.candidates = .all) :
    policy'.router.BuiltIn ∧ (∀ routing, phase' = .picking routing → routing.candidates = .all) ∧
      ((policy'.balancer = .roundRobin ⟨UInt64.ofNat n⟩ ∧ calls.filterMap PolicyCall.choice? = []) ∨
        (policy'.balancer = .roundRobin ⟨UInt64.ofNat (n + 1)⟩ ∧
          ∃ ctx, calls.filterMap PolicyCall.choice? = [(ctx, n % 2 ^ 64 % ctx.pool.len)])) := by
  cases h with
  | picked routing i hpick hi =>
      -- the turn goes to its slot, and the counter to the next turn
      have heligible : (routeMeta.balanceCtx routing).candidates = .all := hall routing rfl
      obtain ⟨hfst, hsnd⟩ := pick_roundRobin hcounter (routeMeta.balanceCtx routing)
      have hpool : (routeMeta.balanceCtx routing).pool = routeMeta.pool := rfl
      have hnonempty : routeMeta.pool.len ≠ 0 := by omega
      rw [roundRobin_pick heligible, hpool, if_neg hnonempty] at hfst hsnd
      rw [hpick] at hfst
      obtain rfl := Option.some.inj hfst
      refine ⟨hrouter, ?_, Or.inr ⟨hsnd, routeMeta.balanceCtx routing, rfl⟩⟩
      intro _ hphase
      cases hphase
  | refused routing hpick =>
      have heligible : (routeMeta.balanceCtx routing).candidates = .all := hall routing rfl
      obtain ⟨hfst, hsnd⟩ := pick_roundRobin hcounter (routeMeta.balanceCtx routing)
      have hpool : (routeMeta.balanceCtx routing).pool = routeMeta.pool := rfl
      rw [roundRobin_pick heligible, hpool] at hfst hsnd
      by_cases hempty : routeMeta.pool.len = 0
      · -- an empty pool takes no turn
        rw [if_pos hempty] at hfst hsnd
        refine ⟨hrouter, ?_, Or.inl ⟨hsnd, ?_⟩⟩
        · intro _ hphase
          cases hphase
        · rw [hfst]
          rfl
      · rw [if_neg hempty] at hfst
        have hslot := hpick _ hfst
        have hlt := Nat.mod_lt (n % 2 ^ 64) (Nat.pos_of_ne_zero hempty)
        exact absurd hlt (by omega)
  | routed parts =>
      -- a built-in strategy leaves every backend eligible
      obtain ⟨heligible, hkept⟩ := route_builtIn hrouter (routeMeta.routeCtx parts) routeMeta.pool
      refine ⟨hkept, ?_, Or.inl ⟨hcounter, rfl⟩⟩
      intro routing hphase
      cases hphase
      exact heligible
  | started i =>
      refine ⟨hrouter, ?_, Or.inl ⟨?_, rfl⟩⟩
      · intro _ hphase
        cases hphase
      · simp only [Policy.onStart, Balancer.onStart, hcounter]
  | reported event =>
      refine ⟨hrouter, ?_, Or.inl ⟨?_, rfl⟩⟩
      · intro _ hphase
        cases hphase
      · simp only [Policy.onResult, Balancer.onResult, hcounter]
  | _ =>
      refine ⟨hrouter, ?_, Or.inl ⟨hcounter, rfl⟩⟩
      intro _ hphase
      cases hphase

/-! ## One step, whole runs

A step of the gateway moves one request. If it is one of another policy, this policy and its choices are as they
were. -/

variable {p : PolicyRef} {g g' : Gateway V ρ σ} {routeMetas : List (RouteMeta (PipelineFn V))} {a : Act V}

/-- **One step of the gateway.** A new choice is appended at the index that the counter stood at, and so the
    turns before it keep theirs. -/
theorem Rotates.step (h : Rotates p g) (hstep : step routeMetas g a = some g') : Rotates p g' := by
  cases a with
  | arrive routeIdx =>
      obtain ⟨routeMeta, -, rfl⟩ := step_arrive hstep
      refine ⟨h.router, h.counter, ?_, h.turns⟩
      intro r hr hp routing hphase
      rcases List.mem_append.mp hr with hr | hr
      · exact h.eligible r hr hp routing hphase
      · obtain rfl := List.mem_singleton.mp hr
        cases hphase
  | move id m =>
      obtain ⟨r, phase, policy, calls, hr, hmoves, hg'⟩ := step_move hstep
      have hmem : r ∈ g.requests := List.mem_of_getElem? hr
      have hchoices := choices_move (congrArg Gateway.log hg') p
      have hpolicies : g'.policies = Function.update g.policies r.routeMeta.policy policy :=
        congrArg Gateway.policies hg'
      by_cases hp : r.routeMeta.policy = p
      · rw [hp] at hmoves hpolicies
        rw [if_pos hp] at hchoices
        have hpolicy : g'.policies p = policy := by rw [hpolicies, Function.update_self]
        obtain ⟨hrouter, heligible, hcalls⟩ :=
          moves_roundRobin hmoves h.router h.counter (h.eligible r hmem hp)
        have hrequests : ∀ r' ∈ g'.requests, r'.routeMeta.policy = p →
            ∀ routing, r'.phase = .picking routing → routing.candidates = .all := by
          rw [hg']
          intro r' hr' hp' routing hphase
          rcases List.mem_or_eq_of_mem_set hr' with hold | rfl
          · exact h.eligible r' hold hp' routing hphase
          · exact heligible routing hphase
        rcases hcalls with ⟨hcounter, hnone⟩ | ⟨hcounter, ctx, hone⟩
        · rw [hnone, List.append_nil] at hchoices
          refine ⟨hpolicy ▸ hrouter, ?_, hrequests, ?_⟩
          · show (g'.policies p).balancer = .roundRobin ⟨UInt64.ofNat (g'.choices p).length⟩
            rw [hpolicy, hchoices, hcounter]
          · rw [hchoices]
            exact h.turns
        · -- one choice more, which is the turn the counter stood at
          rw [hone] at hchoices
          refine ⟨hpolicy ▸ hrouter, ?_, hrequests, ?_⟩
          · show (g'.policies p).balancer = .roundRobin ⟨UInt64.ofNat (g'.choices p).length⟩
            rw [hpolicy, hchoices, hcounter, List.length_append, List.length_singleton]
          · intro k e he
            rw [hchoices] at he
            rcases Nat.lt_or_ge k (g.choices p).length with hlt | hge
            · rw [List.getElem?_append_left hlt] at he
              exact h.turns k e he
            · rw [List.getElem?_append_right hge, List.getElem?_singleton] at he
              obtain ⟨hzero, he⟩ := Option.ite_none_right_eq_some.mp he
              obtain rfl := Option.some.inj he
              obtain rfl : k = (g.choices p).length := by omega
              show (g.choices p).length % 2 ^ 64 % ctx.pool.len = _
              rfl
      · rw [if_neg hp, List.append_nil] at hchoices
        have hsame : g'.policies p = g.policies p := by
          rw [hpolicies, Function.update_of_ne (Ne.symm hp)]
        refine ⟨hsame ▸ h.router, ?_, ?_, ?_⟩
        · show (g'.policies p).balancer = .roundRobin ⟨UInt64.ofNat (g'.choices p).length⟩
          rw [hsame, hchoices]
          exact h.counter
        · rw [hg']
          intro r' hr' hp' routing hphase
          rcases List.mem_or_eq_of_mem_set hr' with hold | rfl
          · exact h.eligible r' hold hp' routing hphase
          · exact absurd hp' hp
        · rw [hchoices]
          exact h.turns

/-! ## The main result -/

/-- How many of the choices are for backend `i` of a service. -/
def sentTo (service : Str) (i : Nat) (choices : List (BalanceCtx × Nat)) : Nat :=
  choices.countP fun e => decide (e.1.service = service) && e.2 == i

/-- How many of the choices are for other services. -/
def sentElsewhere (service : Str) (choices : List (BalanceCtx × Nat)) : Nat :=
  choices.countP fun e => !decide (e.1.service = service)

/-- **Round robin, in every run of a built application.** In any stretch of a round-robin policy's choices, the
    numbers of requests sent to two backends of a service differ by at most one, plus one for each request of
    another service that shares the policy, plus one for each restart of the policy's 64-bit counter. The
    stretch is a schedule in the sense of `Lib.Rotation` that starts at the turn with the number of the choices
    before it. -/
theorem round_robin_spreads {crates : Crates V} {b : AppBuilder V ρ σ} {app : App V ρ σ}
    (hbuild : b.build crates = (some (.ok app) : Option _)) {policy : Policy ρ σ}
    (hpolicy : app.policies[p]? = some policy) (hrouter : policy.router.BuiltIn)
    (hbalancer : policy.balancer = .roundRobin .new) {acts : List (Act V)}
    (hrun : run (step app.inner.routeMetas) (.start app.initialPolicies) acts = some g)
    {m : RouteMeta (PipelineFn V)} (hm : m ∈ app.inner.routeMetas)
    {earlier stretch later : List (BalanceCtx × Nat)} (hstretch : g.choices p = earlier ++ stretch ++ later)
    {i j : Nat} (hi : i < m.pool.len) (hj : j < m.pool.len) :
    sentTo m.service i stretch ≤ sentTo m.service j stretch + 1 + sentElsewhere m.service stretch +
      restarts (2 ^ 64) earlier.length stretch.length := by
  have hinitial := initialPolicies_eq hpolicy
  have hrotates : Rotates p g := by
    refine invariant_of_run (fun g a g' h hstep => h.step hstep) (rotates_start ?_ ?_) hrun
    · rw [hinitial]
      exact hrouter
    · rw [hinitial]
      exact hbalancer
  have htable : FromTable app.inner.routeMetas g :=
    invariant_of_run (fun g a g' h hstep => h.step hstep) (fromTable_start _) hrun
  -- the service's own entries of the stretch take the slots of their turns
  refine shares_close (Nat.two_pow_pos 64) hi hj stretch earlier.length ?_
  intro k e he hown
  have hget : (g.choices p)[earlier.length + k]? = some e := by
    obtain ⟨hlt, -⟩ := List.getElem?_eq_some_iff.mp he
    rw [hstretch, List.append_assoc, List.getElem?_append_right (by omega), Nat.add_sub_cancel_left,
      List.getElem?_append_left hlt, he]
  obtain ⟨m', hm', -, hservice, hpool⟩ := htable.choices (List.mem_of_getElem? hget)
  have hsame : m'.pool = m.pool := by
    apply routes_share_pool hbuild m' hm' m hm
    rw [← hservice]
    exact of_decide_eq_true hown
  rw [hrotates.turns _ e hget, hpool, hsame]

/-! ## Serving requests one after the other

Runs of any length, for the example that needs more requests than can be written down. -/

/-- A move that is possible is a step. -/
theorem Rotates.exists_step (routeMetas : List (RouteMeta (PipelineFn V))) (h : Rotates p g) {id : Nat}
    {r : Live V} {m : Move V} {phase : Phase V} {policy : Policy ρ σ} {calls : List PolicyCall}
    (hr : g.requests[id]? = some r) (hp : r.routeMeta.policy = p)
    (hmove : move r.routeMeta (g.policies p) r.phase m = some (phase, policy, calls)) :
    ∃ g', Apigate.step routeMetas g (.move id m) = some g' ∧ Rotates p g' ∧
      g'.requests[id]? = some { r with phase := phase } ∧
      g'.choices p = g.choices p ++ calls.filterMap PolicyCall.choice? := by
  subst hp
  obtain ⟨hlt, -⟩ := List.getElem?_eq_some_iff.mp hr
  have hstep := @step_of_move V ρ σ _ _ _ routeMetas g id r m phase policy calls hr hmove
  refine ⟨_, hstep, h.step hstep, List.getElem?_set_self hlt, ?_⟩
  rw [choices_move rfl, if_pos rfl]

/-- A request up to the choice of its backend. -/
def serve (parts : Parts V) (routeIdx id : Nat) : List (Act V) :=
  [.arrive routeIdx, .move id (.returns (some parts)), .move id .route, .move id .pick]

/-- **A gateway with a round-robin policy can always serve one more request.** It arrives, leaves its pipeline,
    is routed and picked for; the pick chooses the slot of the turn that comes next. -/
theorem Rotates.exists_serve (h : Rotates p g) (parts : Parts V) {routeIdx : Nat}
    {m : RouteMeta (PipelineFn V)} (hm : routeMetas[routeIdx]? = some m) (hp : m.policy = p)
    (hpool : m.pool.len ≠ 0) :
    ∃ g' ctx, run (Apigate.step routeMetas) g (serve parts routeIdx g.requests.length) = some g' ∧
      Rotates p g' ∧ ctx.service = m.service ∧
      g'.choices p = g.choices p ++ [(ctx, (g.choices p).length % 2 ^ 64 % m.pool.len)] := by
  have harrive := step_of_arrive g hm
  have hnew : (g.requests ++ [Live.mk m .pipeline])[g.requests.length]? = some ⟨m, .pipeline⟩ :=
    List.getElem?_concat_length
  obtain ⟨g₂, hreturns, h₂, hnew₂, hchoices₂⟩ :=
    (h.step harrive).exists_step routeMetas (m := .returns (some parts)) hnew hp rfl
  have hrouted : move m (g₂.policies p) (.routing parts) .route =
      some (.picking ((g₂.policies p).route (m.routeCtx parts) m.pool).1,
        ((g₂.policies p).route (m.routeCtx parts) m.pool).2, []) := rfl
  obtain ⟨g₃, hroute, h₃, hnew₃, hchoices₃⟩ := h₂.exists_step routeMetas (m := .route) hnew₂ hp hrouted
  obtain ⟨heligible, -⟩ := route_builtIn h₂.router (m.routeCtx parts) m.pool
  generalize ((g₂.policies p).route (m.routeCtx parts) m.pool).1 = routing at heligible hnew₃
  have hsame : g₃.choices p = g.choices p := by
    rw [hchoices₃, hchoices₂]
    simp only [List.filterMap_nil, List.append_nil]
    rfl
  -- the turn that comes next goes to a backend of the pool
  have hpicked : ((g₃.policies p).pick (m.balanceCtx routing)).1 =
      some ((g.choices p).length % 2 ^ 64 % m.pool.len) := by
    have hctx : (m.balanceCtx routing).pool = m.pool := rfl
    rw [(pick_roundRobin h₃.counter _).1, roundRobin_pick heligible, hctx, if_neg hpool, hsame]
  obtain ⟨backend, hbackend⟩ :
      ∃ b, m.pool.get ((g.choices p).length % 2 ^ 64 % m.pool.len) = some b := by
    have hlt := Nat.mod_lt ((g.choices p).length % 2 ^ 64) (Nat.pos_of_ne_zero hpool)
    exact Option.isSome_iff_exists.mp (BackendPool.get_isSome.mpr hlt)
  have hmove : move m (g₃.policies p) (.picking routing) .pick =
      some (.selected ((g.choices p).length % 2 ^ 64 % m.pool.len),
        ((g₃.policies p).pick (m.balanceCtx routing)).2,
        [.picked (m.balanceCtx routing) (some ((g.choices p).length % 2 ^ 64 % m.pool.len))]) := by
    simp only [move, hpicked, RouteMeta.backendAt, hbackend]
  obtain ⟨g₄, hpick, h₄, -, hchoices₄⟩ := h₃.exists_step routeMetas (m := .pick) hnew₃ hp hmove
  refine ⟨g₄, m.balanceCtx routing, ?_, h₄, rfl, ?_⟩
  · simp only [serve, run, harrive, hreturns, hroute, hpick, Option.bind_some]
  · rw [hchoices₄, hsame]
    rfl

/-- So it can serve any number of requests, by induction on that number. -/
theorem exists_served (parts : Parts V) {routeIdx : Nat} {m : RouteMeta (PipelineFn V)}
    (hm : routeMetas[routeIdx]? = some m) (hp : m.policy = p) (hpool : m.pool.len ≠ 0) (h : Rotates p g)
    (n : Nat) : ∃ acts g', run (Apigate.step routeMetas) g acts = some g' ∧ Rotates p g' ∧
      (g'.choices p).length = (g.choices p).length + n := by
  induction n with
  | zero => exact ⟨[], g, rfl, h, rfl⟩
  | succ n ih =>
      obtain ⟨acts, g₁, hrun, h₁, hlength⟩ := ih
      obtain ⟨g₂, ctx, hserve, h₂, -, hchoices⟩ := h₁.exists_serve parts hm hp hpool
      refine ⟨acts ++ serve parts routeIdx g₁.requests.length, g₂, run_append.mpr ⟨g₁, hrun, hserve⟩, h₂, ?_⟩
      rw [hchoices, List.length_append, hlength, List.length_singleton, Nat.add_assoc]

end

/-! ## Examples -/

/-- What round robin would have to do: in any stretch of the service's own requests, two of its backends get
    numbers of requests that differ by at most one. -/
def SpreadsEvenly (p : PolicyRef) (m : RouteMeta (PipelineFn V)) (g : Gateway V ρ σ) : Prop :=
  ∀ earlier stretch later,
    (g.choices p).filter (fun e => decide (e.1.service = m.service)) = earlier ++ stretch ++ later →
    ∀ i j, i < m.pool.len → j < m.pool.len →
      sentTo m.service i stretch ≤ sentTo m.service j stretch + 1

/-- The turn before a restart of the counter and the turn after it go to one of three backends: both are
    divisible by three, the one as `2 ^ 64 - 1` and the other as zero. -/
theorem restart_unbalances {p : PolicyRef} {m : RouteMeta (PipelineFn V)} {g : Gateway V ρ σ}
    (htable : FromTable [m] g) (hrotates : Rotates p g) (hpool : m.pool.len = 3)
    (hlength : (g.choices p).length = 2 ^ 64 + 1) : ¬ SpreadsEvenly p m g := by
  intro hspread
  have hown : ∀ e ∈ g.choices p, e.1.service = m.service ∧ e.1.pool = m.pool := by
    intro e he
    obtain ⟨m', hm', -, hservice, hon⟩ := htable.choices he
    obtain rfl := List.mem_singleton.mp hm'
    exact ⟨hservice, hon⟩
  have hfilter : (g.choices p).filter (fun e => decide (e.1.service = m.service)) = g.choices p :=
    List.filter_eq_self.mpr fun e he => decide_eq_true (hown e he).1
  -- the last two choices, on either side of the restart
  obtain ⟨e₁, e₂, hlast⟩ : ∃ e₁ e₂, (g.choices p).drop (2 ^ 64 - 1) = [e₁, e₂] := by
    apply List.length_eq_two.mp
    rw [List.length_drop, hlength]
    rfl
  have hget : ∀ k, (g.choices p)[2 ^ 64 - 1 + k]? = [e₁, e₂][k]? := by
    intro k
    rw [← hlast, List.getElem?_drop]
  have hturn : ∀ k e, [e₁, e₂][k]? = some e →
      e.2 = (2 ^ 64 - 1 + k) % 2 ^ 64 % 3 ∧ e.1.service = m.service := by
    intro k e he
    have hchoice := (hget k).trans he
    obtain ⟨hservice, hsame⟩ := hown e (List.mem_of_getElem? hchoice)
    have hslot := hrotates.turns _ e hchoice
    rw [hsame, hpool] at hslot
    exact ⟨hslot, hservice⟩
  obtain ⟨hfirst, hservice₁⟩ := hturn 0 e₁ rfl
  obtain ⟨hsecond, hservice₂⟩ := hturn 1 e₂ rfl
  have hsplit : (g.choices p).filter (fun e => decide (e.1.service = m.service)) =
      (g.choices p).take (2 ^ 64 - 1) ++ [e₁, e₂] ++ [] := by
    rw [hfilter, List.append_nil, ← hlast, List.take_append_drop]
  have h := hspread _ _ _ hsplit 0 1 (by omega) (by omega)
  simp [sentTo, hservice₁, hservice₂, hfirst, hsecond] at h

/-- A service with one route. -/
def pingRoutes (service : Str) : Routes (PipelineFn Str) :=
  ⟨service, slash :: service, none, [⟨.get, str "/ping", .stripPrefix, none, none⟩]⟩

def pingParts : Parts Str :=
  ⟨str "GET", ⟨none, none, some ⟨str "/ping", none⟩⟩, str "HTTP/1.1", .empty, .empty⟩

/-- Two services with two backends each, on the default policy. -/
def twoServices : AppBuilder Str NoRouteKey RoundRobin :=
  (AppBuilder.new.mountService (pingRoutes (str "sales")) [str "http://a", str "http://b"]).mountService
    (pingRoutes (str "users")) [str "http://c", str "http://d"]

/-- Five requests, to one service and the other in turn. -/
def alternating : List (Act Str) := (List.range 5).flatMap fun id => serve pingParts (id % 2) id

/-- One service with three backends. -/
def threeBackends : AppBuilder Str NoRouteKey RoundRobin :=
  AppBuilder.new.mountService (pingRoutes (str "sales")) [str "http://a", str "http://b", str "http://c"]

/-- The steps of a gateway whose affinity keys are hashed to their lengths. -/
abbrev plainStep (app : App Str NoRouteKey RoundRobin) :=
  @step Str NoRouteKey RoundRobin _ _ .length app.inner.routeMetas

/-- The theorem at those requests: three of them go to the first backend of one service, and none to its second.
    -/
theorem round_robin_spreads_alternating :
    ∃ app g m, twoServices.build .plain = (some (.ok app) : Option _) ∧
      run (plainStep app) (.start app.initialPolicies) alternating = some g ∧ m ∈ app.inner.routeMetas ∧
      sentTo m.service 0 (g.choices 0) = 3 ∧ sentTo m.service 1 (g.choices 0) = 0 ∧
      sentTo m.service 0 (g.choices 0) ≤ sentTo m.service 1 (g.choices 0) + 1 +
        sentElsewhere m.service (g.choices 0) + restarts (2 ^ 64) 0 (g.choices 0).length := by
  refine ⟨_, _, _, rfl, rfl, List.mem_of_getElem? (i := 0) rfl, rfl, rfl, ?_⟩
  exact @round_robin_spreads Str NoRouteKey RoundRobin _ _ .length 0 _ .plain twoServices _ rfl .roundRobin rfl
    trivial rfl alternating rfl _ (List.mem_of_getElem? (i := 0) rfl) [] _ [] (List.append_nil _).symm 0 1
    (by decide) (by decide)

/-- **Sharing a policy unbalances a service, and so does a restart of the counter.** -/
theorem shared_counter_spreads_unevenly :
    (∃ app g m, twoServices.build .plain = (some (.ok app) : Option _) ∧
      run (plainStep app) (.start app.initialPolicies) alternating = some g ∧ m ∈ app.inner.routeMetas ∧
      ¬ SpreadsEvenly 0 m g) ∧
    (∃ app acts g m, threeBackends.build .plain = (some (.ok app) : Option _) ∧
      run (plainStep app) (.start app.initialPolicies) acts = some g ∧ m ∈ app.inner.routeMetas ∧
      ¬ SpreadsEvenly 0 m g) := by
  constructor
  · refine ⟨_, _, _, rfl, rfl, List.mem_of_getElem? (i := 0) rfl, ?_⟩
    intro hspread
    have h := hspread [] _ [] (List.append_nil _).symm 0 1 (by decide) (by decide)
    exact absurd h (by decide)
  · obtain ⟨app, m, hbuild, hinitial, hmetas, hpolicy, hpool⟩ :
        ∃ app m, threeBackends.build .plain = (some (.ok app) : Option _) ∧
          app.initialPolicies 0 = .roundRobin ∧ app.inner.routeMetas = [m] ∧ m.policy = 0 ∧ m.pool.len = 3 :=
      ⟨_, _, rfl, rfl, rfl, rfl, rfl⟩
    have hstart : Rotates 0 (Gateway.start app.initialPolicies : Gateway Str NoRouteKey RoundRobin) := by
      apply rotates_start
      · rw [hinitial]
        trivial
      · rw [hinitial]
        rfl
    have hroute : app.inner.routeMetas[0]? = some m := by
      rw [hmetas]
      rfl
    obtain ⟨acts, g, hrun, hserved, hlength⟩ :=
      @exists_served Str NoRouteKey RoundRobin _ _ .length 0 _ app.inner.routeMetas pingParts 0 m hroute hpolicy
        (by omega) hstart (2 ^ 64 + 1)
    have htable : FromTable app.inner.routeMetas g :=
      invariant_of_run (fun g a g' h hstep => @FromTable.step _ _ _ _ _ .length _ _ _ _ h hstep)
        (fromTable_start _) hrun
    rw [hmetas] at htable
    refine ⟨app, acts, g, m, hbuild, hrun, List.mem_of_getElem? hroute, ?_⟩
    apply restart_unbalances htable hserved hpool
    have hnone : (Gateway.start app.initialPolicies : Gateway Str NoRouteKey RoundRobin).choices 0 = [] := rfl
    rw [hlength, hnone, List.length_nil, Nat.zero_add]

end Apigate
