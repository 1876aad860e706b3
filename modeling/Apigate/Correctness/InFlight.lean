import Apigate.Correctness.RouteTable

/-!
# `Correctness.InFlight` — what the counters of least-request count

The counter of a backend index is the number of requests between `on_start` and `on_result` on that index, on
all routes that share the policy, as long as no handler is dropped in between (`Tracks`). On routes with one
pool every backend has a counter, and the accounting is exact.

A count over the list of requests changes by what one request counts for, before and after its move
(`countP_move`), and so does a cell of the array; the moves keep the two in step. Three kinds of them matter. A
pick changes no cell and no count, but it may create the array, with zeros; this is right because a request must
have picked before it can be in flight, so that without an array nothing is (`TracksWith.inFlight_zero`). A
start adds one to both, a report takes one from both. All other moves change neither, except a drop at the
upstream, which takes a request out of the count and leaves the cell, and which `NotDropped` excludes.

The counters are 64-bit words and the counts are numbers, so a cell is the count modulo `2^64`. Nothing is said
about indices beyond the length of the array: their requests are counted in the gateway and nowhere in the
policy.
-/

namespace Apigate
open Lib Runs

variable {V ρ σ : Type}

/-! ## In flight

How a count over the requests changes with an arrival and with a move. -/

/-- The request is between `on_start` and `on_result` on backend `i`, for policy `p`. -/
def Live.isOn (p : PolicyRef) (i : Nat) (r : Live V) : Bool :=
  r.routeMeta.policy == p && r.phase.backend? == some i

/-- The number of requests in flight on backend `i`, for policy `p`. -/
def Gateway.inFlight (g : Gateway V ρ σ) (p : PolicyRef) (i : Nat) : Nat :=
  g.requests.countP (Live.isOn p i)

/-- As propositions. -/
theorem Live.isOn_iff {p : PolicyRef} {i : Nat} {r : Live V} :
    r.isOn p i = true ↔ r.routeMeta.policy = p ∧ r.phase.backend? = some i := by
  simp only [Live.isOn, Bool.and_eq_true, beq_iff_eq]

/-- Nothing is in flight on a backend that no request of the policy is on. -/
theorem Gateway.inFlight_eq_zero {g : Gateway V ρ σ} {p : PolicyRef} {i : Nat}
    (h : ∀ r ∈ g.requests, r.routeMeta.policy = p → r.phase.backend? ≠ some i) : g.inFlight p i = 0 := by
  refine List.countP_eq_zero.mpr fun r hr hon => ?_
  obtain ⟨hp, hbackend⟩ := Live.isOn_iff.mp hon
  exact h r hr hp hbackend

/-- Adding a request that does not count. -/
theorem countP_arrive (f : Live V → Bool) (requests : List (Live V)) (routeMeta : RouteMeta (PipelineFn V))
    (hf : f ⟨routeMeta, .pipeline⟩ = false) :
    (requests ++ [Live.mk routeMeta .pipeline]).countP f = requests.countP f := by
  rw [List.countP_append, List.countP_singleton, hf]
  rfl

/-- Moving one request: what it counted for before, and what it counts for after. -/
theorem countP_move (f : Live V → Bool) {requests : List (Live V)} {id : Nat} {r : Live V}
    (hr : requests[id]? = some r) (phase : Phase V) :
    (requests.set id { r with phase := phase }).countP f + (f r).toNat =
      requests.countP f + (f { r with phase := phase }).toNat := by
  obtain ⟨hlt, hget⟩ := List.getElem?_eq_some_iff.mp hr
  have hpos : (f r).toNat ≤ requests.countP f := by
    cases hon : f r with
    | false => exact Nat.zero_le _
    | true =>
        refine List.countP_pos_iff.mpr ⟨r, ?_, hon⟩
        exact List.mem_of_getElem? hr
  -- whether it counted before, and whether it counts after
  rw [List.countP_set hlt, hget]
  cases hb : f r <;> cases ha : f { r with phase := phase } <;>
    simp only [hb, Bool.toNat_true, Bool.toNat_false, if_true, if_false, Bool.false_eq_true] at hpos ⊢ <;>
    omega

/-- A request that has just arrived is on no backend. -/
theorem inFlight_arrive (g : Gateway V ρ σ) (routeMeta : RouteMeta (PipelineFn V)) (p : PolicyRef) (i : Nat) :
    ({ g with requests := g.requests ++ [⟨routeMeta, .pipeline⟩] } : Gateway V ρ σ).inFlight p i =
      g.inFlight p i := by
  show (g.requests ++ [Live.mk routeMeta .pipeline]).countP (Live.isOn p i) = g.requests.countP (Live.isOn p i)
  apply countP_arrive
  simp [Live.isOn, Phase.backend?]

/-! ## The counters

The cells of the balancer's array, and what its three operations make of them. -/

/-- The counter of a backend; missing ones read as zero. -/
def LeastRequest.counter (s : LeastRequest) (i : Nat) : UInt64 :=
  match s.inFlight with
  | some counters => counters[i]?.getD 0
  | none => 0

/-- The counter a policy keeps for a backend. -/
def Policy.counter (p : Policy ρ σ) (i : Nat) : UInt64 :=
  match p.balancer with
  | .leastRequest s => s.counter i
  | _ => 0

/-- The array of counters is up to date, and it exists once a backend has been chosen. -/
structure TracksWith (p : PolicyRef) (g : Gateway V ρ σ) (s : LeastRequest) : Prop where
  balancer : (g.policies p).balancer = .leastRequest s
  counters : ∀ counters, s.inFlight = some counters →
    ∀ i, i < counters.length → counters[i]? = some (UInt64.ofNat (g.inFlight p i))
  created : s.inFlight = none → ∀ r ∈ g.requests, r.routeMeta.policy = p → r.phase.chosen? = none

/-- The counters of policy `p` are those of a least-request balancer that tracks its requests. -/
def Tracks (p : PolicyRef) (g : Gateway V ρ σ) : Prop := ∃ s, TracksWith p g s

/-- No handler of policy `p` is dropped while it awaits the upstream. -/
def NotDropped (p : PolicyRef) (g : Gateway V ρ σ) : Act V → Prop
  | .move id .drop => ∀ r, g.requests[id]? = some r → r.routeMeta.policy = p → r.phase.backend? = none
  | _ => True

/-- Before an array of counters exists nothing is in flight. -/
theorem TracksWith.inFlight_zero {p : PolicyRef} {g : Gateway V ρ σ} {s : LeastRequest}
    (h : TracksWith p g s) (hnone : s.inFlight = none) (i : Nat) : g.inFlight p i = 0 := by
  apply Gateway.inFlight_eq_zero
  intro r hr hp hbackend
  have hchosen := h.created hnone r hr hp
  rw [Phase.chosen?_of_backend? hbackend] at hchosen
  cases hchosen

/-- The gateway before its first request. -/
theorem tracks_start {p : PolicyRef} {policies : Policies ρ σ} (h : (policies p).balancer = .leastRequest .new) :
    Tracks p (Gateway.start policies : Gateway V ρ σ) := by
  refine ⟨.new, h, ?_, ?_⟩
  · -- no array yet
    intro counters hsome
    cases hsome
  · intro _ r hr
    cases hr

/-- One more or one less, in the array and in the count. -/
theorem ofNat_succ (n : Nat) : UInt64.ofNat (n + 1) = UInt64.ofNat n + 1 := by
  rw [UInt64.ofNat_add]
  rfl

/-- And back, though the words wrap around. -/
theorem ofNat_succ_sub (n : Nat) : UInt64.ofNat (n + 1) - 1 = UInt64.ofNat n := by
  rw [ofNat_succ, UInt64.add_sub_cancel]

/-- The array after a pick: as it was, or created with zeros. -/
theorem pick_counters (s : LeastRequest) (ctx : BalanceCtx) :
    (s.pick ctx).2.inFlight = s.inFlight ∨
      (s.inFlight = none ∧ (s.pick ctx).2.inFlight = some (List.replicate ctx.pool.len 0)) := by
  unfold LeastRequest.pick
  split
  · exact Or.inl rfl
  · -- `get_or_init`
    cases h : s.inFlight with
    | none => exact Or.inr ⟨rfl, rfl⟩
    | some counters => exact Or.inl rfl

/-- A pick that chooses has an array. -/
theorem pick_created {s : LeastRequest} {ctx : BalanceCtx} {i : Nat} (h : (s.pick ctx).1 = some i) :
    (s.pick ctx).2.inFlight ≠ none := by
  unfold LeastRequest.pick at h ⊢
  split at h
  · cases h
  · rename_i hne
    rw [if_neg hne]
    simp

/-- The counts after a move of a request of policy `p`. -/
theorem inFlight_move {g g' : Gateway V ρ σ} {id : Nat} {r : Live V} {phase : Phase V}
    (hg' : g'.requests = g.requests.set id { r with phase := phase }) (hr : g.requests[id]? = some r)
    {p : PolicyRef} (hp : r.routeMeta.policy = p) (i : Nat) :
    g'.inFlight p i + (r.phase.backend? == some i).toNat =
      g.inFlight p i + (phase.backend? == some i).toNat := by
  have hcount := countP_move (Live.isOn p i) hr phase
  simp only [Live.isOn, hp, beq_self_eq_true, Bool.true_and] at hcount
  rw [Gateway.inFlight, hg']
  exact hcount

/-- The counts after a move of a request of another policy. -/
theorem inFlight_other {g g' : Gateway V ρ σ} {id : Nat} {r : Live V} {phase : Phase V}
    (hg' : g'.requests = g.requests.set id { r with phase := phase }) (hr : g.requests[id]? = some r)
    {p : PolicyRef} (hp : r.routeMeta.policy ≠ p) (i : Nat) : g'.inFlight p i = g.inFlight p i := by
  have hmove := countP_move (Live.isOn p i) hr phase
  have hne : (r.routeMeta.policy == p) = false := beq_eq_false_iff_ne.mpr hp
  simp only [Live.isOn, hne, Bool.false_and, Bool.toNat_false, Nat.add_zero] at hmove
  rw [Gateway.inFlight, hg']
  exact hmove

section
variable [Balancer σ] [Xxh3]

/-- What the calls of the dispatcher do to a policy with a least-request balancer: a pick, -/
theorem pick_leastRequest {p : Policy ρ σ} {s : LeastRequest} (h : p.balancer = .leastRequest s)
    (ctx : BalanceCtx) : (p.pick ctx).1 = (s.pick ctx).1 ∧
      (p.pick ctx).2.balancer = .leastRequest (s.pick ctx).2 := by
  simp only [Policy.pick, Balancer.pick, h]
  exact ⟨rfl, rfl⟩

/-- a start, -/
theorem onStart_leastRequest {p : Policy ρ σ} {s : LeastRequest} (h : p.balancer = .leastRequest s)
    (event : StartEvent) : (p.onStart event).balancer = .leastRequest (s.onStart event) := by
  simp only [Policy.onStart, Balancer.onStart, h]

/-- and a report. -/
theorem onResult_leastRequest {p : Policy ρ σ} {s : LeastRequest} (h : p.balancer = .leastRequest s)
    (event : ResultEvent) : (p.onResult event).balancer = .leastRequest (s.onResult event) := by
  simp only [Policy.onResult, Balancer.onResult, h]

end

/-! ## One move

`TracksWith.move` has the obligations of a move once and for all. The lemmas after it settle them for a move
that changes nothing, for a pick, and for a call that changes one cell; so the cases of a move are short. -/

section
variable {p : PolicyRef} {g : Gateway V ρ σ} {s s' : LeastRequest} {policies : Policies ρ σ}
  {log : List LogEntry} {id : Nat} {r : Live V} {phase : Phase V}

/-- A pick leaves the counters as they are, or creates them while nothing is in flight. -/
theorem TracksWith.after_pick (h : TracksWith p g s) (ctx : BalanceCtx) {counters : List UInt64}
    (hsome : (s.pick ctx).2.inFlight = some counters) {i : Nat} (hi : i < counters.length) :
    counters[i]? = some (UInt64.ofNat (g.inFlight p i)) := by
  rcases pick_counters s ctx with hsame | ⟨hnone, hzero⟩
  · exact h.counters counters (hsame ▸ hsome) i hi
  · rw [hzero] at hsome
    cases hsome
    rw [h.inFlight_zero hnone, List.getElem?_replicate, if_pos (by simpa using hi)]
    show some 0 = some (UInt64.ofNat 0)
    rfl

/-- What a move of a request of policy `p` has to show to keep the tracking. -/
theorem TracksWith.move (h : TracksWith p g s) (hr : g.requests[id]? = some r)
    (hp : r.routeMeta.policy = p) (hbalancer : (policies p).balancer = .leastRequest s')
    (hcounters : ∀ counters, s'.inFlight = some counters → ∀ i n, i < counters.length →
      n + (r.phase.backend? == some i).toNat = g.inFlight p i + (phase.backend? == some i).toNat →
      counters[i]? = some (UInt64.ofNat n))
    (hcreated : s'.inFlight = none → s.inFlight = none ∧ phase.chosen? = none) :
    TracksWith p ⟨policies, g.requests.set id { r with phase := phase }, log⟩ s' := by
  refine ⟨hbalancer, ?_, ?_⟩
  · intro counters hsome i hi
    exact hcounters counters hsome i _ hi (inFlight_move rfl hr hp i)
  · intro hnone r' hr' hp'
    obtain ⟨hbefore, hphase⟩ := hcreated hnone
    rcases List.mem_or_eq_of_mem_set hr' with hmem | rfl
    · exact h.created hbefore r' hmem hp'
    · exact hphase

/-- A move that leaves the balancer and the backends in use alone. -/
theorem TracksWith.silent (h : TracksWith p g s) (hr : g.requests[id]? = some r)
    (hp : r.routeMeta.policy = p) (hbalancer : (policies p).balancer = .leastRequest s)
    (hbackend : phase.backend? = r.phase.backend?)
    (hchosen : r.phase.chosen? = none → phase.chosen? = none) :
    TracksWith p ⟨policies, g.requests.set id { r with phase := phase }, log⟩ s := by
  apply h.move hr hp hbalancer
  · intro counters hsome i n hi hn
    rw [hbackend] at hn
    obtain rfl : n = g.inFlight p i := by omega
    exact h.counters counters hsome i hi
  · intro hnone
    have hmem : r ∈ g.requests := List.mem_of_getElem? hr
    exact ⟨hnone, hchosen (h.created hnone r hmem hp)⟩

/-- The array after one slot has changed. -/
theorem modify_counters {counters : List UInt64} {k i : Nat} {f : UInt64 → UInt64} {v : UInt64}
    (h : counters[i]? = some v) :
    (counters.modify k f)[i]? = some (if k = i then f v else v) := by
  rw [List.getElem?_modify, h]
  split <;> rfl

/-- A request that has chosen a backend has seen the array. -/
theorem TracksWith.exists_counters (h : TracksWith p g s) (hr : g.requests[id]? = some r)
    (hp : r.routeMeta.policy = p) (hchosen : r.phase.chosen? ≠ none) :
    ∃ counters, s.inFlight = some counters := by
  cases hs : s.inFlight with
  | some counters => exact ⟨counters, rfl⟩
  | none =>
      have hmem : r ∈ g.requests := List.mem_of_getElem? hr
      exact absurd (h.created hs r hmem hp) hchosen

/-- A pick by a request that goes on without a backend of its own. -/
theorem TracksWith.pick (h : TracksWith p g s) (hr : g.requests[id]? = some r)
    (hp : r.routeMeta.policy = p) (ctx : BalanceCtx)
    (hbalancer : (policies p).balancer = .leastRequest (s.pick ctx).2)
    (hbackend : phase.backend? = r.phase.backend?)
    (hcreated : (s.pick ctx).2.inFlight = none → s.inFlight = none ∧ phase.chosen? = none) :
    TracksWith p ⟨policies, g.requests.set id { r with phase := phase }, log⟩ (s.pick ctx).2 := by
  apply h.move hr hp hbalancer _ hcreated
  intro counters hsome i n hi hn
  rw [hbackend] at hn
  obtain rfl : n = g.inFlight p i := by omega
  exact h.after_pick ctx hsome hi

/-- A call that changes the cell of backend `k` as the move changes the number of its requests. -/
theorem TracksWith.cell (h : TracksWith p g s) (hr : g.requests[id]? = some r)
    (hp : r.routeMeta.policy = p) (hbalancer : (policies p).balancer = .leastRequest s')
    (hchosen : r.phase.chosen? ≠ none) {k : Nat} {f : UInt64 → UInt64}
    (hafter : s'.inFlight = s.inFlight.map (·.modify k f))
    (hcount : ∀ i n, n + (r.phase.backend? == some i).toNat = g.inFlight p i + (phase.backend? == some i).toNat →
      (if k = i then f (UInt64.ofNat (g.inFlight p i)) else UInt64.ofNat (g.inFlight p i)) = UInt64.ofNat n) :
    TracksWith p ⟨policies, g.requests.set id { r with phase := phase }, log⟩ s' := by
  -- the backend was picked before, so the array exists
  obtain ⟨counters, hs⟩ := h.exists_counters hr hp hchosen
  rw [hs, Option.map_some] at hafter
  apply h.move hr hp hbalancer
  · intro counters' hsome i n hi hn
    rw [hafter] at hsome
    cases hsome
    rw [List.length_modify] at hi
    rw [modify_counters (h.counters counters hs i hi), hcount i n hn]
  · intro hnone
    rw [hafter] at hnone
    cases hnone

/-- A move of a request of another policy. -/
theorem TracksWith.other (h : TracksWith p g s) (hr : g.requests[id]? = some r)
    (hp : r.routeMeta.policy ≠ p) (policy : Policy ρ σ) :
    TracksWith p ⟨Function.update g.policies r.routeMeta.policy policy,
      g.requests.set id { r with phase := phase }, log⟩ s := by
  refine ⟨?_, ?_, ?_⟩
  · show (Function.update g.policies r.routeMeta.policy policy p).balancer = .leastRequest s
    rw [Function.update_of_ne (Ne.symm hp), h.balancer]
  · intro counters hsome i hi
    rw [inFlight_other rfl hr hp]
    exact h.counters counters hsome i hi
  · intro hnone r' hr' hp'
    rcases List.mem_or_eq_of_mem_set hr' with hmem | rfl
    · exact h.created hnone r' hmem hp'
    · exact absurd hp' hp

variable [RouteStrategy ρ] [Balancer σ] [Xxh3]

/-- **One move of a request of policy `p`.** By cases on the moves. The two results of a pick, the start and the
    report are those that call the balancer. -/
theorem TracksWith.moves (h : TracksWith p g s) (hr : g.requests[id]? = some r)
    (hp : r.routeMeta.policy = p) {m : Move V} {policy : Policy ρ σ} {calls : List PolicyCall}
    (hmoves : Moves r.routeMeta (g.policies p) r.phase m phase policy calls)
    (hdrop : m = .drop → r.phase.backend? = none) :
    Tracks p ⟨Function.update g.policies p policy, g.requests.set id { r with phase := phase }, log⟩ := by
  have hupdate : Function.update g.policies p policy p = policy := Function.update_self _ _ _
  generalize hold : r.phase = old at hmoves hdrop
  cases hmoves with
  | returned parts =>
      exact ⟨s, h.silent hr hp (by rw [hupdate, h.balancer]) (by rw [hold]; rfl) fun _ => rfl⟩
  | failed =>
      exact ⟨s, h.silent hr hp (by rw [hupdate, h.balancer]) (by rw [hold]; rfl) fun _ => rfl⟩
  | droppedEarly =>
      exact ⟨s, h.silent hr hp (by rw [hupdate, h.balancer]) (by rw [hold]; rfl) fun _ => rfl⟩
  | routed parts =>
      exact ⟨s, h.silent hr hp (by rw [hupdate]; exact h.balancer) (by rw [hold]; rfl) fun _ => rfl⟩
  | settled i result elapsed =>
      refine ⟨s, h.silent hr hp (by rw [hupdate, h.balancer]) ?_ ?_⟩
      · rw [hold]
        cases result <;> rfl
      · rw [hold]
        intro hnone
        cases hnone
  | droppedLate i => cases hdrop rfl
  -- a pick may create the array, while nothing is in flight
  | picked routing i hpick hi =>
      obtain ⟨hfst, hsnd⟩ := pick_leastRequest h.balancer (r.routeMeta.balanceCtx routing)
      rw [hfst] at hpick
      refine ⟨_, h.pick hr hp _ (by rw [hupdate]; exact hsnd) (by rw [hold]; rfl) ?_⟩
      intro hnone
      exact absurd hnone (pick_created hpick)
  | refused routing hpick =>
      obtain ⟨-, hsnd⟩ := pick_leastRequest h.balancer (r.routeMeta.balanceCtx routing)
      refine ⟨_, h.pick hr hp _ (by rw [hupdate]; exact hsnd) (by rw [hold]; rfl) ?_⟩
      intro hnone
      rcases pick_counters s (r.routeMeta.balanceCtx routing) with hsame | ⟨-, hzero⟩
      · exact ⟨hsame ▸ hnone, rfl⟩
      · rw [hzero] at hnone
        cases hnone
  -- the cell goes up with the count
  | started i =>
      refine ⟨_, h.cell hr hp (by rw [hupdate]; exact onStart_leastRequest h.balancer _)
        (by rw [hold]; simp [Phase.chosen?]) rfl ?_⟩
      intro j n hn
      rw [hold] at hn
      by_cases hij : i = j
      · obtain rfl : n = g.inFlight p j + 1 := by simpa [Phase.backend?, hij] using hn
        rw [if_pos hij, ofNat_succ]
      · have hne : (i == j) = false := beq_eq_false_iff_ne.mpr hij
        obtain rfl : n = g.inFlight p j := by simpa [Phase.backend?, hne] using hn
        rw [if_neg hij]
  -- the cell goes down with the count
  | reported event =>
      refine ⟨_, h.cell hr hp (by rw [hupdate]; exact onResult_leastRequest h.balancer _)
        (by rw [hold]; simp [Phase.chosen?]) rfl ?_⟩
      intro j n hn
      rw [hold] at hn
      by_cases hij : event.backendIndex = j
      · have hsucc : g.inFlight p j = n + 1 := by simpa [Phase.backend?, hij] using hn.symm
        rw [if_pos hij, hsucc, ofNat_succ_sub]
      · have hne : (event.backendIndex == j) = false := beq_eq_false_iff_ne.mpr hij
        obtain rfl : n = g.inFlight p j := by simpa [Phase.backend?, hne] using hn
        rw [if_neg hij]

/-! ## One step, whole runs -/

/-- **One step of the gateway.** -/
theorem Tracks.step {routeMetas : List (RouteMeta (PipelineFn V))} {g' : Gateway V ρ σ} {a : Act V}
    (h : Tracks p g) (hdrop : NotDropped p g a) (hstep : step routeMetas g a = some g') : Tracks p g' := by
  obtain ⟨s, h⟩ := h
  cases a with
  | arrive routeIdx =>
      obtain ⟨routeMeta, -, rfl⟩ := step_arrive hstep
      refine ⟨s, h.balancer, ?_, ?_⟩
      · intro counters hsome i hi
        rw [h.counters counters hsome i hi, inFlight_arrive]
      · -- the new request has chosen nothing
        intro hnone r hr hp
        rcases List.mem_append.mp hr with hr | hr
        · exact h.created hnone r hr hp
        · obtain rfl := List.mem_singleton.mp hr
          rfl
  | move id m =>
      obtain ⟨r, phase, policy, calls, hr, hmoves, rfl⟩ := step_move hstep
      by_cases hp : r.routeMeta.policy = p
      · rw [hp] at hmoves ⊢
        apply h.moves hr hp hmoves
        rintro rfl
        exact hdrop r hr hp
      · exact ⟨s, h.other hr hp policy⟩

end
end Apigate
