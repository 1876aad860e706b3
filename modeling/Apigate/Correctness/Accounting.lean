import Apigate.Correctness.LoadArray

/-!
# `Correctness.Accounting` — exact accounting on one pool

Routes that share a least-request policy and a pool: every counter equals the number of requests in flight,
every `on_start` is matched by one `on_result`, and an idle gateway has counters zero, throughout exactly those
runs in which no handler is dropped while it awaits the upstream.

The counters are wrapping, they are in an array that the first pick creates, and an index outside of it is
counted by nobody. `Correctness.LoadArray` has dealt with all of this for any pools: the array follows the
requests in flight, in a sense that is `Tracks`. On one pool that sense becomes equality, as the array has the
length of the pool and every index that is chosen lies in it (`Sound.counter_eq`). What is new here is the log:
calls are counted by request and backend, and an `on_start` without its `on_result` is a request that is still
on the backend (`Matched`).

All of it is one invariant, `Sound`, which every undisturbed step keeps (`Sound.step`), and from which the
accounting follows in the state itself. For the other direction it is enough to look at the first step that is
not undisturbed. The state before it is sound, and the step either takes a request off its backend without a
call or brings the number of requests to `2^64`, where a counter of 64 bits cannot follow; after it a counter
differs from the number of requests (`broken_accounts`). So the condition is exact, and the run lemma for such
conditions is in `Lib.Runs`.
-/

namespace Apigate
open Lib Runs

variable {V ρ σ : Type}

/-! ## The log

Numbers of calls, as counts over the log. A move adds its calls for the request that moves, so that for every
other request the counts stay; this is said once, for any kind of call. -/

/-- The backend a call starts on. -/
def PolicyCall.startedOn? : PolicyCall → Option Nat
  | .started event => some event.backendIndex
  | .picked .. | .reported _ => none

/-- The backend a call reports on. -/
def PolicyCall.reportedOn? : PolicyCall → Option Nat
  | .reported event => some event.backendIndex
  | .picked .. | .started _ => none

/-- How often request `id` has called `on_start(i)`. -/
def starts (log : List LogEntry) (id i : Nat) : Nat :=
  log.countP fun e => e.request == id && e.call.startedOn? == some i

/-- How often request `id` has called `on_result(i)`. -/
def reports (log : List LogEntry) (id i : Nat) : Nat :=
  log.countP fun e => e.request == id && e.call.reportedOn? == some i

/-- The calls of a move count for the request that moves, and for no other. -/
theorem countP_calls (f : PolicyCall → Bool) (log : List LogEntry) (calls : List PolicyCall)
    (p : PolicyRef) (id id' : Nat) :
    (log ++ calls.map (LogEntry.mk id p)).countP (fun e => e.request == id' && f e.call) =
      log.countP (fun e => e.request == id' && f e.call) + if id = id' then calls.countP f else 0 := by
  rw [List.countP_append, List.countP_map]
  by_cases hid : id = id'
  · subst hid
    simp [Function.comp_def]
  · have hne : (id == id') = false := beq_eq_false_iff_ne.mpr hid
    simp [Function.comp_def, hne, hid]

/-- What a move adds to the starts, -/
theorem starts_calls (log : List LogEntry) (calls : List PolicyCall) (p : PolicyRef) (id id' i : Nat) :
    starts (log ++ calls.map (LogEntry.mk id p)) id' i =
      starts log id' i + if id = id' then calls.countP (·.startedOn? == some i) else 0 :=
  countP_calls (·.startedOn? == some i) log calls p id id'

/-- and to the reports. -/
theorem reports_calls (log : List LogEntry) (calls : List PolicyCall) (p : PolicyRef) (id id' i : Nat) :
    reports (log ++ calls.map (LogEntry.mk id p)) id' i =
      reports log id' i + if id = id' then calls.countP (·.reportedOn? == some i) else 0 :=
  countP_calls (·.reportedOn? == some i) log calls p id id'

/-- Every call of a log was made by a request that has arrived. -/
def LogFresh (g : Gateway V ρ σ) : Prop := ∀ e ∈ g.log, e.request < g.requests.length

/-- Every `on_start` of a request is matched by an `on_result`, but for the one it is still to make. -/
def Matched (p : PolicyRef) (g : Gateway V ρ σ) : Prop :=
  ∀ id r, g.requests[id]? = some r → r.routeMeta.policy = p →
    ∀ i, starts g.log id i = reports g.log id i + (r.phase.backend? == some i).toNat

/-- A request that has not arrived has called nothing. -/
theorem LogFresh.countP_eq_zero {g : Gateway V ρ σ} (h : LogFresh g) (f : PolicyCall → Bool) :
    g.log.countP (fun e => e.request == g.requests.length && f e.call) = 0 := by
  refine List.countP_eq_zero.mpr fun e he hf => ?_
  simp only [Bool.and_eq_true, beq_iff_eq] at hf
  have hlt := h e he
  omega

/-- **In-flight accounting.** Counters count requests in flight, starts are matched by results, and an idle
    gateway has counters zero. -/
structure Accounts (p : PolicyRef) (g : Gateway V ρ σ) : Prop where
  counters : ∀ i, ((g.policies p).counter i).toNat = g.inFlight p i
  matched : Matched p g
  idle : (∀ r ∈ g.requests, r.routeMeta.policy = p → r.phase = .over) → ∀ i, (g.policies p).counter i = 0

/-- The step drops no handler of policy `p` that awaits the upstream, and it does not bring the requests in
    flight on a backend to `2^64`. -/
def Undisturbed (p : PolicyRef) (g : Gateway V ρ σ) : Act V → Prop
  | .move id .drop => ∀ r, g.requests[id]? = some r → r.routeMeta.policy = p → r.phase.backend? = none
  | .move id .start => ∀ r i, g.requests[id]? = some r → r.routeMeta.policy = p →
      r.phase = .selected i → g.inFlight p i + 1 < 2 ^ 64
  | _ => True

/-- So nothing in flight is dropped. -/
theorem Undisturbed.notDropped {p : PolicyRef} {g : Gateway V ρ σ} {a : Act V} (h : Undisturbed p g a) :
    NotDropped p g a := by
  unfold NotDropped
  split
  · exact h
  · trivial

/-- The array of counters of policy `p` has length `n` once it exists. -/
def CountersOf (n : Nat) (p : PolicyRef) (g : Gateway V ρ σ) : Prop :=
  ∀ s counters, (g.policies p).balancer = .leastRequest s → s.inFlight = some counters → counters.length = n

/-- The invariant behind the accounting. -/
structure Sound (routeMetas : List (RouteMeta (PipelineFn V))) (p : PolicyRef) (pool : BackendPool)
    (g : Gateway V ρ σ) : Prop where
  table : FromTable routeMetas g
  tracks : Tracks p g
  length : CountersOf pool.len p g
  matched : Matched p g
  fresh : LogFresh g
  bounded : ∀ i, g.inFlight p i < 2 ^ 64

section
variable {routeMetas : List (RouteMeta (PipelineFn V))} {p : PolicyRef} {pool : BackendPool}
  {g : Gateway V ρ σ}

/-- On one pool the counters are exact. -/
theorem Sound.counter_eq (hmetas : ∀ m ∈ routeMetas, m.policy = p → m.pool = pool)
    (h : Sound routeMetas p pool g) (i : Nat) : ((g.policies p).counter i).toNat = g.inFlight p i := by
  obtain ⟨s, htracks⟩ := h.tracks
  have hcounter : (g.policies p).counter i = s.counter i := by
    unfold Policy.counter
    rw [htracks.balancer]
  rw [hcounter]
  cases hs : s.inFlight with
  | none =>
      -- no array, nothing in flight
      rw [htracks.inFlight_zero hs]
      simp only [LeastRequest.counter, hs]
      rfl
  | some counters =>
      simp only [LeastRequest.counter, hs]
      rcases Nat.lt_or_ge i counters.length with hlt | hge
      · rw [htracks.counters counters hs i hlt, Option.getD_some, UInt64.toNat_ofNat']
        exact Nat.mod_eq_of_lt (h.bounded i)
      · -- an index outside of the pool is never chosen
        rw [List.getElem?_eq_none hge]
        have hlength := h.length s counters htracks.balancer hs
        have hzero : g.inFlight p i = 0 := by
          apply Gateway.inFlight_eq_zero
          intro r hr hp hbackend
          have hlt := (h.table.phases r hr).chosen_lt (Phase.chosen?_of_backend? hbackend)
          rw [hmetas _ (h.table.requests r hr) hp] at hlt
          omega
        rw [hzero]
        show (0 : UInt64).toNat = 0
        rfl

/-- The accounting holds wherever the invariant does. -/
theorem Sound.accounts (hmetas : ∀ m ∈ routeMetas, m.policy = p → m.pool = pool)
    (h : Sound routeMetas p pool g) : Accounts p g := by
  refine ⟨h.counter_eq hmetas, h.matched, ?_⟩
  -- when every request is over, none is in flight
  intro hover i
  have hzero : g.inFlight p i = 0 := by
    apply Gateway.inFlight_eq_zero
    intro r hr hp hbackend
    rw [hover r hr hp] at hbackend
    cases hbackend
  have hcounter := h.counter_eq hmetas i
  rw [hzero] at hcounter
  exact UInt64.toNat_inj.mp hcounter

end

/-! ## One step

Each part of the invariant by itself, so that none of the proofs has to carry the others along. -/

section
variable [RouteStrategy ρ] [Balancer σ] [Xxh3]

/-- A move that is not a drop in flight balances its calls with the change of phase. -/
theorem moves_matched {routeMeta : RouteMeta (PipelineFn V)} {policy policy' : Policy ρ σ}
    {phase phase' : Phase V} {m : Move V} {calls : List PolicyCall}
    (h : Moves routeMeta policy phase m phase' policy' calls)
    (hdrop : m = .drop → phase.backend? = none) (i : Nat) :
    calls.countP (·.startedOn? == some i) + (phase.backend? == some i).toNat =
      calls.countP (·.reportedOn? == some i) + (phase'.backend? == some i).toNat := by
  cases h with
  | droppedLate j => cases hdrop rfl
  | settled j result elapsed => cases result <;> rfl
  | started j =>
      show List.countP _ [_] + 0 = List.countP _ [_] + (some j == some i).toNat
      cases hj : some j == some i <;>
        simp [PolicyCall.startedOn?, PolicyCall.reportedOn?] at hj ⊢ <;> omega
  | reported event =>
      show List.countP _ [_] + (some event.backendIndex == some i).toNat = List.countP _ [_] + 0
      cases hj : some event.backendIndex == some i <;>
        simp [PolicyCall.startedOn?, PolicyCall.reportedOn?] at hj ⊢ <;> omega
  | _ => rfl

variable {routeMetas : List (RouteMeta (PipelineFn V))} {p : PolicyRef} {g g' : Gateway V ρ σ} {a : Act V}

/-- A move is one of a request that is there. -/
theorem LogFresh.step (h : LogFresh g) (hstep : step routeMetas g a = some g') : LogFresh g' := by
  cases a with
  | arrive routeIdx =>
      obtain ⟨routeMeta, -, rfl⟩ := step_arrive hstep
      intro e he
      have hlt := h e he
      show e.request < (g.requests ++ [Live.mk routeMeta .pipeline]).length
      rw [List.length_append, List.length_singleton]
      omega
  | move id m =>
      obtain ⟨r, phase, policy, calls, hr, -, rfl⟩ := step_move hstep
      obtain ⟨hid, -⟩ := List.getElem?_eq_some_iff.mp hr
      intro e he
      show e.request < (g.requests.set id { r with phase := phase }).length
      rw [List.length_set]
      rcases List.mem_append.mp he with he | he
      · exact h e he
      · obtain ⟨call, -, rfl⟩ := List.mem_map.mp he
        exact hid

/-- **Matching is kept by every step that drops nothing in flight.** -/
theorem Matched.step (h : Matched p g) (hfresh : LogFresh g) (hdrop : NotDropped p g a)
    (hstep : step routeMetas g a = some g') : Matched p g' := by
  intro id' r' hr' hp' i
  cases a with
  | arrive routeIdx =>
      obtain ⟨routeMeta, -, rfl⟩ := step_arrive hstep
      rcases Nat.lt_or_ge id' g.requests.length with hlt | hge
      · rw [List.getElem?_append_left hlt] at hr'
        exact h id' r' hr' hp' i
      · -- the new request has called nothing and is on no backend
        rw [List.getElem?_append_right hge, List.getElem?_singleton] at hr'
        obtain ⟨hzero, hnew⟩ := Option.ite_none_right_eq_some.mp hr'
        obtain rfl := Option.some.inj hnew
        obtain rfl : id' = g.requests.length := by omega
        have hstarts : starts g.log g.requests.length i = 0 :=
          hfresh.countP_eq_zero (·.startedOn? == some i)
        have hreports : reports g.log g.requests.length i = 0 :=
          hfresh.countP_eq_zero (·.reportedOn? == some i)
        show starts g.log _ i = reports g.log _ i + 0
        rw [hstarts, hreports]
  | move id m =>
      obtain ⟨r, phase, policy, calls, hr, hmoves, rfl⟩ := step_move hstep
      obtain ⟨hid, -⟩ := List.getElem?_eq_some_iff.mp hr
      dsimp only at hr' ⊢
      rw [starts_calls, reports_calls]
      by_cases hsame : id = id'
      · subst hsame
        rw [List.getElem?_set_self hid] at hr'
        obtain rfl := Option.some.inj hr'
        have hbefore := h id r hr hp' i
        have hbalance := moves_matched hmoves (by
          rintro rfl
          exact hdrop r hr hp') i
        rw [if_pos rfl, if_pos rfl]
        dsimp only
        omega
      · rw [List.getElem?_set_ne hsame] at hr'
        rw [if_neg hsame, if_neg hsame, Nat.add_zero, Nat.add_zero]
        exact h id' r' hr' hp' i

/-- On one pool the array keeps its length. -/
theorem CountersOf.step {pool : BackendPool} (hmetas : ∀ m ∈ routeMetas, m.policy = p → m.pool = pool)
    (h : CountersOf pool.len p g) (htable : FromTable routeMetas g) (htracks : Tracks p g)
    (hstep : step routeMetas g a = some g') : CountersOf pool.len p g' := by
  obtain ⟨s, htracks⟩ := htracks
  have hsized : Sized pool.len p g := by
    intro array hsome
    rw [htracks.balancer] at hsome
    exact h s array htracks.balancer hsome
  have hlen : ∀ m ∈ routeMetas, m.policy = p → m.pool.len = pool.len := by
    intro m hm hp
    rw [hmetas m hm hp]
  have hbalancer : (g.policies p).balancer = LoadAware.leastRequest.balancer s.inFlight s.offset := htracks.balancer
  intro s' counters hs' hsome
  apply hsized.step hlen htable hbalancer hstep
  rw [hs']
  exact hsome

/-- Only `start` puts a request on a backend. -/
theorem moves_backend {routeMeta : RouteMeta (PipelineFn V)} {policy policy' : Policy ρ σ}
    {phase phase' : Phase V} {m : Move V} {calls : List PolicyCall}
    (h : Moves routeMeta policy phase m phase' policy' calls) {i : Nat} (hi : phase'.backend? = some i) :
    phase.backend? = some i ∨ (m = .start ∧ phase = .selected i) := by
  cases h with
  | started j =>
      obtain rfl := Option.some.inj hi
      exact Or.inr ⟨rfl, rfl⟩
  | settled j result elapsed =>
      left
      cases result <;> exact hi
  | _ => cases hi

/-- The numbers stay below `2^64`: only a start adds one, and an undisturbed one leaves room for it. -/
theorem bounded_step (hbounded : ∀ i, g.inFlight p i < 2 ^ 64) (hundisturbed : Undisturbed p g a)
    (hstep : step routeMetas g a = some g') (i : Nat) : g'.inFlight p i < 2 ^ 64 := by
  have hbefore := hbounded i
  cases a with
  | arrive routeIdx =>
      obtain ⟨routeMeta, -, rfl⟩ := step_arrive hstep
      rw [inFlight_arrive]
      exact hbefore
  | move id m =>
      obtain ⟨r, phase, policy, calls, hr, hmoves, hg'⟩ := step_move hstep
      have hrequests := congrArg Gateway.requests hg'
      by_cases hp : r.routeMeta.policy = p
      · have hcount := inFlight_move hrequests hr hp i
        cases hnew : phase.backend? == some i with
        | false =>
            rw [hnew, Bool.toNat_false] at hcount
            omega
        | true =>
            -- the request was on the backend before, or it starts there now
            rcases moves_backend hmoves (beq_iff_eq.mp hnew) with hold | ⟨rfl, hsel⟩
            · rw [hnew, hold, beq_self_eq_true] at hcount
              omega
            · have hroom := hundisturbed r i hr hp hsel
              rw [hnew, Bool.toNat_true] at hcount
              omega
      · rw [inFlight_other hrequests hr hp]
        exact hbefore

/-- The parts together. -/
theorem Sound.step {pool : BackendPool} (hmetas : ∀ m ∈ routeMetas, m.policy = p → m.pool = pool)
    (h : Sound routeMetas p pool g) (hundisturbed : Undisturbed p g a)
    (hstep : Apigate.step routeMetas g a = some g') : Sound routeMetas p pool g' :=
  ⟨h.table.step hstep, h.tracks.step hundisturbed.notDropped hstep,
    h.length.step hmetas h.table h.tracks hstep,
    h.matched.step h.fresh hundisturbed.notDropped hstep, h.fresh.step hstep,
    bounded_step h.bounded hundisturbed hstep⟩

/-! ## The main result -/

/-- **A step that is not undisturbed breaks the accounting.** In both cases the counter and the number of
    requests agree before the step and cannot agree after it. -/
theorem broken_accounts {pool : BackendPool} (hmetas : ∀ m ∈ routeMetas, m.policy = p → m.pool = pool)
    (h : Sound routeMetas p pool g) (hdisturbed : ¬ Undisturbed p g a)
    (hstep : step routeMetas g a = some g') : ¬ Accounts p g' := by
  intro haccounts
  unfold Undisturbed at hdisturbed
  split at hdisturbed
  · -- a drop: the count goes down, the counter does not
    rename_i id
    simp only [not_forall] at hdisturbed
    obtain ⟨r, hr, hp, hbackend⟩ := hdisturbed
    obtain ⟨phase, policy, calls, hmoves, hg'⟩ := step_move_of hr hstep
    have hrequests := congrArg Gateway.requests hg'
    generalize hold : r.phase = old at hmoves
    cases hmoves with
    | droppedEarly =>
        rw [hold] at hbackend
        exact hbackend rfl
    | droppedLate i =>
        have hcount := inFlight_move hrequests hr hp i
        rw [hold] at hcount
        have hsame : (g'.policies p).counter i = (g.policies p).counter i := by
          rw [hg', hp]
          simp only [Function.update_eq_self]
        have hbefore := h.counter_eq hmetas i
        have hafter := haccounts.counters i
        rw [hsame, hbefore] at hafter
        simp [Phase.backend?] at hcount
        omega
  · -- a start: the counter wraps
    rename_i id
    simp only [not_forall, Nat.not_lt] at hdisturbed
    obtain ⟨r, i, hr, hp, hsel, hfull⟩ := hdisturbed
    obtain ⟨phase, policy, calls, hmoves, hg'⟩ := step_move_of hr hstep
    have hrequests := congrArg Gateway.requests hg'
    have hphase : phase = .upstream i := by
      rw [hsel] at hmoves
      cases hmoves
      rfl
    have hcount := inFlight_move hrequests hr hp i
    rw [hsel, hphase] at hcount
    simp [Phase.backend?] at hcount
    have hlt := UInt64.toNat_lt ((g'.policies p).counter i)
    rw [haccounts.counters i] at hlt
    omega
  · exact hdisturbed trivial

/-- **In-flight accounting holds exactly in undisturbed runs.** On routes that share a least-request policy and
    one pool, with any number of concurrent requests and any interleaving of their steps. -/
theorem in_flight_accounting {pool : BackendPool} (hmetas : ∀ m ∈ routeMetas, m.policy = p → m.pool = pool)
    {policies : Policies ρ σ} (hpolicy : (policies p).balancer = .leastRequest .new) (acts : List (Act V)) :
    Throughout (step routeMetas) (Accounts p) (.start policies) acts ↔
      EachStep (step routeMetas) (Undisturbed p) (.start policies) acts := by
  have hstart : Sound routeMetas p pool (.start policies : Gateway V ρ σ) := by
    refine ⟨fromTable_start policies, tracks_start hpolicy, ?_, ?_, ?_, ?_⟩
    · show CountersOf pool.len p (Gateway.start policies : Gateway V ρ σ)
      intro s counters hs hsome
      rw [show (Gateway.start policies : Gateway V ρ σ).policies p = policies p from rfl, hpolicy] at hs
      cases hs
      cases hsome
    · show Matched p (Gateway.start policies : Gateway V ρ σ)
      intro id r hr
      cases hr
    · show LogFresh (Gateway.start policies : Gateway V ρ σ)
      intro e he
      cases he
    · intro i
      show 0 < 2 ^ 64
      exact Nat.two_pow_pos 64
  exact throughout_iff_eachStep (fun g a g' h hG hstep => h.step hmetas hG hstep)
    (fun g h => h.accounts hmetas) (fun g a g' h hG hstep => broken_accounts hmetas h hG hstep) hstart

end

/-! ## Examples -/

/-- A route on a pool of one backend. -/
def itemsMeta : RouteMeta (PipelineFn Str) :=
  ⟨str "sales", str "/items", str "/sales", .stripPrefix,
    ⟨[⟨⟨str "http", str "up", str "http://up", str "up"⟩⟩]⟩, 0, none⟩

def itemsParts : Parts Str :=
  ⟨str "GET", ⟨none, none, some ⟨str "/sales/items", none⟩⟩, str "HTTP/1.1", .empty, .empty⟩

/-- Steps of a gateway with that route and a least-request policy. -/
def itemsStep (g : Gateway Str NoRouteKey RoundRobin) (a : Act Str) :
    Option (Gateway Str NoRouteKey RoundRobin) :=
  @step Str NoRouteKey RoundRobin _ _ .length [itemsMeta] g a

/-- One request up to its call of `on_start`. -/
def itemsInFlight : List (Act Str) :=
  [.arrive 0, .move 0 (.returns (some itemsParts)), .move 0 .route, .move 0 .pick, .move 0 .start]

/-- The theorem at one request that is reported. -/
theorem in_flight_accounting_items :
    Throughout itemsStep (Accounts 0) (.start fun _ => .leastRequest)
        (itemsInFlight ++ [.move 0 (.settle (.error .timeout) 1000), .move 0 .report]) ↔
      EachStep itemsStep (Undisturbed 0) (.start fun _ => .leastRequest)
        (itemsInFlight ++ [.move 0 (.settle (.error .timeout) 1000), .move 0 .report]) :=
  @in_flight_accounting Str NoRouteKey RoundRobin _ _ .length [itemsMeta] 0 itemsMeta.pool
    (fun m hm _ => by rw [List.mem_singleton.mp hm]) (fun _ => .leastRequest) rfl _

/-- **A request that is dropped while it awaits the upstream stays counted.** -/
theorem dropped_request_leaks :
    ∃ g, run itemsStep (.start fun _ => .leastRequest) (itemsInFlight ++ [.move 0 .drop]) = some g ∧
      (∀ r ∈ g.requests, r.phase = .over) ∧ g.inFlight 0 0 = 0 ∧ (g.policies 0).counter 0 = 1 ∧
      ¬ Accounts 0 g := by
  refine ⟨_, rfl, ?_, rfl, rfl, ?_⟩
  · intro r hr
    obtain rfl := List.mem_singleton.mp hr
    rfl
  · intro haccounts
    exact absurd (haccounts.counters 0) (by decide)

end Apigate
