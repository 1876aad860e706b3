import Apigate.Correctness.Accounting
import Apigate.Correctness.JumpHash
import Apigate.Correctness.LatencyAverage
import Apigate.Correctness.OwnLoad

/-!
# `Correctness.CandidateSafety` — the built-in balancers answer from the candidates

Round robin and consistent hashing compute a position below the number of candidates. The scans of least-request
and least-time start from the type's maximum with a strict comparison, so they need every number of the array to
be below it: averages are below it if the latencies are, and a counter is exact, because the dispatcher reports
on a backend only after it has started there (`Paired`), as long as fewer requests than that are unfinished.

Counters are decremented by one without a check, so one result without a start would take a counter from zero to
the maximum, and the backend would be out of all scans. `Paired` excludes it for any set of backends at once:
the starts on it are at least the results on it and the requests that are now between the two. A move can only
enter a backend with a start and leave it with a result or by being dropped (`moves_paired`), and dropped
requests only make the inequality slack. For a single backend it says that the counter is not negative, and for
all other backends that nothing is hidden there, so a counter is bounded by the number of unfinished requests
(`Paired.count_le`).

The counter itself is a number modulo `2 ^ 64`. `number_leastRequest` is the equation that it satisfies in any
case, and the bound on unfinished requests turns it into one between natural numbers.
-/

namespace Apigate
open Lib Runs Rotation Scan Smoothing

variable {V ρ σ : Type}

/-! ## One pick

Every built-in balancer on any list of candidates. Those that compute a position answer with the candidate
there; those that scan answer with one they have seen. -/

/-- The answer is a candidate, and nothing is answered only if there is no candidate. -/
structure AnswersFrom (ctx : BalanceCtx) (answer : Option Nat) : Prop where
  none_iff : answer = none ↔ ctx.candidateLen = 0
  candidate : ∀ i, answer = some i → ctx.isCandidate i = true

/-- No answer where there is no candidate. -/
theorem answersFrom_empty {ctx : BalanceCtx} (h : ctx.candidateLen = 0) : AnswersFrom ctx none := by
  refine ⟨iff_of_true rfl h, ?_⟩
  intro i hi
  cases hi

/-- A position below the number of candidates. -/
theorem answersFrom_index {ctx : BalanceCtx} {nth : Nat} (h : nth < ctx.candidateLen) :
    AnswersFrom ctx (ctx.candidateIndex nth) := by
  rw [← ctx.length_candidateList] at h
  rw [ctx.candidateIndex_eq, List.getElem?_eq_getElem h]
  refine ⟨?_, ?_⟩
  · rw [← ctx.length_candidateList]
    exact iff_of_false (by simp) (by omega)
  · intro i hi
    obtain rfl := Option.some.inj hi
    exact BalanceCtx.isCandidate_iff.mpr (List.getElem_mem h)

/-- Round robin: the counter modulo the number of candidates. -/
theorem roundRobin_answers (s : RoundRobin) (ctx : BalanceCtx) : AnswersFrom ctx (s.pick ctx).1 := by
  unfold RoundRobin.pick
  dsimp only
  split
  · rename_i hempty
    exact answersFrom_empty hempty
  · apply answersFrom_index
    exact Nat.mod_lt _ (by omega)

/-- Consistent hash: by cases on whether there is a key, a bucket below the number of candidates, or the slot of
    a turn. -/
theorem consistentHash_answers (xxh3 : Str → UInt64) (s : ConsistentHash) {ctx : BalanceCtx}
    (hlen : ctx.candidateLen < 2 ^ 32) : AnswersFrom ctx (s.pick xxh3 ctx).1 := by
  rcases Nat.eq_zero_or_pos ctx.candidateLen with hempty | hpos
  · have hnone : (s.pick xxh3 ctx).1 = none := by
      unfold ConsistentHash.pick
      rw [if_pos hempty]
    rw [hnone]
    exact answersFrom_empty hempty
  · cases haffinity : ctx.affinity with
    | some key =>
        obtain ⟨b, hb, -, hpick⟩ := ConsistentHash.pick_keyed xxh3 s haffinity hpos hlen
        have hindex : ctx.candidateIndex b = some ctx.candidateList[b] := by
          rw [ctx.candidateIndex_eq, List.getElem?_eq_getElem hb]
        rw [hpick]
        show AnswersFrom ctx (some ctx.candidateList[b])
        rw [← hindex]
        rw [ctx.length_candidateList] at hb
        exact answersFrom_index hb
    | none =>
        have hne : ctx.candidateLen ≠ 0 := by omega
        unfold ConsistentHash.pick
        simp only [if_neg hne, haffinity]
        apply answersFrom_index
        -- masking with `len - 1` stays below `len` as well
        split
        · have hmask : s.offset.toNat &&& (ctx.candidateLen - 1) ≤ ctx.candidateLen - 1 := Nat.and_le_right
          omega
        · exact Nat.mod_lt _ hpos

/-- The scan answers from the candidates whatever the offset, if every number is below the maximum. -/
theorem pickLeast_answers (ctx : BalanceCtx) {cells : List UInt64}
    (hbelow : ∀ v ∈ cells, v < 18446744073709551615) (offset : UInt64) :
    AnswersFrom ctx (pickLeast ctx cells offset) := by
  rw [pickLeast_eq_argmin ctx hbelow offset]
  refine ⟨?_, ?_⟩
  · rw [List.argmin_eq_none]
    exact met_eq_nil_iff
  · intro i hi
    apply BalanceCtx.isCandidate_iff.mpr
    exact mem_met (List.argmin_mem hi)

/-! ## Starts and results

What the policy has been told, as two lists of backends, and the requests that are in between. -/

/-- The backends that policy `p` has been told of with `on_start`, and with `on_result`. -/
def Gateway.started (g : Gateway V ρ σ) (p : PolicyRef) : List Nat := g.callsTo p PolicyCall.startedOn?

def Gateway.reported (g : Gateway V ρ σ) (p : PolicyRef) : List Nat := g.callsTo p PolicyCall.reportedOn?

/-- How many requests have called `on_start` and not `on_result`, dropped ones included. -/
def Gateway.unfinished (g : Gateway V ρ σ) (p : PolicyRef) : Nat := (g.started p).length - (g.reported p).length

/-- The request is between `on_start` and `on_result` on a backend that satisfies `f`, for policy `p`. -/
def Live.isOnAny (p : PolicyRef) (f : Nat → Bool) (r : Live V) : Bool :=
  r.routeMeta.policy == p && r.phase.backend?.any f

/-- On any set of backends there were starts for all results and for all requests in flight. -/
def Paired (p : PolicyRef) (g : Gateway V ρ σ) : Prop :=
  ∀ f : Nat → Bool,
    (g.reported p).countP f + g.requests.countP (Live.isOnAny p f) ≤ (g.started p).countP f

section
variable {p : PolicyRef} {g : Gateway V ρ σ}

/-- What is not reported on one backend is not reported at all. -/
theorem Paired.count_le (h : Paired p g) (i : Nat) :
    (g.reported p).count i ≤ (g.started p).count i ∧
      (g.started p).count i - (g.reported p).count i ≤ g.unfinished p := by
  have hone := h (· == i)
  have hothers := h (fun j => ¬ (j == i))
  have hstarted := List.length_eq_countP_add_countP (· == i) (l := g.started p)
  have hreported := List.length_eq_countP_add_countP (· == i) (l := g.reported p)
  unfold Gateway.unfinished List.count
  omega

/-- A request in flight has not reported. -/
theorem Paired.count_lt (h : Paired p g) {r : Live V} (hr : r ∈ g.requests) (hp : r.routeMeta.policy = p) {i : Nat}
    (hi : r.phase.backend? = some i) : (g.reported p).count i < (g.started p).count i := by
  have hone := h (· == i)
  have hon : 0 < g.requests.countP (Live.isOnAny p (· == i)) := by
    refine List.countP_pos_iff.mpr ⟨r, hr, ?_⟩
    simp [Live.isOnAny, hp, hi]
  unfold List.count
  omega

/-- Nothing has been told, and no request is in between. -/
theorem paired_start (policies : Policies ρ σ) : Paired p (Gateway.start policies : Gateway V ρ σ) :=
  fun _ => Nat.le_refl _

variable [RouteStrategy ρ] [Balancer σ] [Xxh3] {g' : Gateway V ρ σ}

/-- A move reports only on the backend it leaves, and enters only the backend it starts on. By cases on the
    move; for every set of backends it is an inequality between numbers that are zero or one. -/
theorem moves_paired {routeMeta : RouteMeta (PipelineFn V)} {policy policy' : Policy ρ σ}
    {phase phase' : Phase V} {m : Move V} {calls : List PolicyCall}
    (h : Moves routeMeta policy phase m phase' policy' calls) (f : Nat → Bool) :
    (calls.filterMap PolicyCall.reportedOn?).countP f + (phase'.backend?.any f).toNat ≤
      (calls.filterMap PolicyCall.startedOn?).countP f + (phase.backend?.any f).toNat := by
  cases h with
  | started i =>
      show 0 + (f i).toNat ≤ [i].countP f + 0
      cases hf : f i <;> simp [hf]
  | reported event =>
      show [event.backendIndex].countP f + 0 ≤ 0 + (f event.backendIndex).toNat
      cases hf : f event.backendIndex <;> simp [hf]
  | settled i result elapsed => cases result <;> exact Nat.le_refl _
  | _ => exact Nat.zero_le _

/-- **One action keeps starts ahead of results**: only one request moves, and what it has told is appended to
    the lists of its own policy. -/
theorem Paired.step {routeMetas : List (RouteMeta (PipelineFn V))} {a : Act V} (h : Paired p g)
    (hstep : Apigate.step routeMetas g a = some g') : Paired p g' := by
  intro f
  have hbefore := h f
  cases a with
  | arrive routeIdx =>
      obtain ⟨routeMeta, -, rfl⟩ := step_arrive hstep
      show (g.reported p).countP f + (g.requests ++ [Live.mk routeMeta .pipeline]).countP (Live.isOnAny p f) ≤
        (g.started p).countP f
      rw [countP_arrive]
      · exact hbefore
      · simp [Live.isOnAny, Phase.backend?]
  | move id m =>
      obtain ⟨r, phase, policy, calls, hr, hmoves, hg'⟩ := step_move hstep
      have hlog := congrArg Gateway.log hg'
      have hrequests : g'.requests = g.requests.set id { r with phase := phase } :=
        congrArg Gateway.requests hg'
      have hcount := countP_move (Live.isOnAny p f) hr phase
      rw [← hrequests] at hcount
      have hstarted : g'.started p = g.started p ++ _ := callsTo_move hlog p PolicyCall.startedOn?
      have hreported : g'.reported p = g.reported p ++ _ := callsTo_move hlog p PolicyCall.reportedOn?
      have hold : Live.isOnAny p f r = (r.routeMeta.policy == p && r.phase.backend?.any f) := rfl
      have hnew : Live.isOnAny p f { r with phase := phase } =
          (r.routeMeta.policy == p && phase.backend?.any f) := rfl
      rw [hold, hnew] at hcount
      rw [hstarted, hreported, List.countP_append, List.countP_append]
      by_cases hp : r.routeMeta.policy = p
      · have hmove := moves_paired hmoves f
        rw [hp, beq_self_eq_true, Bool.true_and, Bool.true_and] at hcount
        rw [if_pos hp, if_pos hp]
        omega
      · have hne : (r.routeMeta.policy == p) = false := beq_eq_false_iff_ne.mpr hp
        rw [hne, Bool.false_and, Bool.false_and, Bool.toNat_false] at hcount
        rw [if_neg hp, if_neg hp, List.countP_nil]
        omega

end

/-! ## The numbers of a load-aware policy

The cells of the array, as folds over the calls so far (`Correctness.LoadArray`), compared with counts over the
same calls. -/

/-- A call moves the counter with the starts and results it is the difference of. By cases on the call, and on
    whether it is about this backend. -/
theorem after_leastRequest {i : Nat} {v : UInt64} {starts results : Nat}
    (h : v + UInt64.ofNat results = UInt64.ofNat starts) (call : PolicyCall) :
    LoadAware.leastRequest.after i v call +
        UInt64.ofNat (results + ([call].filterMap PolicyCall.reportedOn?).count i) =
      UInt64.ofNat (starts + ([call].filterMap PolicyCall.startedOn?).count i) := by
  by_cases hi : LoadAware.leastRequest.recorded? call = some i
  · rw [LoadAware.after_of_eq hi]
    cases call with
    | picked ctx picked => cases hi
    | started event =>
        obtain rfl := Option.some.inj hi
        show v + 1 + UInt64.ofNat results = UInt64.ofNat (starts + [event.backendIndex].count event.backendIndex)
        rw [List.count_singleton_self, ofNat_succ, ← h]
        grind
    | reported event =>
        obtain rfl := Option.some.inj hi
        show v - 1 + UInt64.ofNat (results + [event.backendIndex].count event.backendIndex) = UInt64.ofNat starts
        rw [List.count_singleton_self, ofNat_succ, ← h]
        grind
  · rw [LoadAware.after_of_ne hi]
    -- the call is about another backend
    cases call with
    | picked ctx picked => exact h
    | started event =>
        have hne : event.backendIndex ≠ i := fun heq => hi (congrArg some heq)
        show v + UInt64.ofNat results = UInt64.ofNat (starts + [event.backendIndex].count i)
        rw [List.count_singleton, if_neg (by simpa using hne)]
        exact h
    | reported event =>
        have hne : event.backendIndex ≠ i := fun heq => hi (congrArg some heq)
        show v + UInt64.ofNat (results + [event.backendIndex].count i) = UInt64.ofNat starts
        rw [List.count_singleton, if_neg (by simpa using hne)]
        exact h

/-- The counter of a backend, as the calls so far make it: added to the number of results it gives the number of
    starts, modulo `2 ^ 64`. By induction on the calls. -/
theorem number_leastRequest (g : Gateway V ρ σ) (p : PolicyRef) (i : Nat) :
    g.number .leastRequest p i + UInt64.ofNat ((g.reported p).count i) =
      UInt64.ofNat ((g.started p).count i) := by
  unfold Gateway.number Gateway.started Gateway.reported
  rw [callsTo_eq g p PolicyCall.startedOn?, callsTo_eq g p PolicyCall.reportedOn?]
  generalize g.callsTo p some = calls
  induction calls using List.reverseRecOn with
  | nil => rfl
  | append_singleton calls call ih =>
      rw [List.foldl_concat, List.filterMap_append, List.filterMap_append, List.count_append, List.count_append]
      exact after_leastRequest ih call

/-- It is the number of starts without a result, while there are fewer of them than the counter can hold. -/
theorem Paired.number_toNat {p : PolicyRef} {g : Gateway V ρ σ} (h : Paired p g)
    (hunfinished : g.unfinished p < 2 ^ 64) (i : Nat) :
    (g.number .leastRequest p i).toNat + (g.reported p).count i = (g.started p).count i := by
  obtain ⟨hle, hbound⟩ := h.count_le i
  have hnumber := number_leastRequest g p i
  have hexact : g.number .leastRequest p i =
      UInt64.ofNat ((g.started p).count i - (g.reported p).count i) := by
    have hsplit : (g.started p).count i =
        (g.started p).count i - (g.reported p).count i + (g.reported p).count i := by omega
    rw [hsplit, UInt64.ofNat_add] at hnumber
    exact (UInt64.add_left_inj _).mp hnumber
  rw [hexact, UInt64.toNat_ofNat', Nat.mod_eq_of_lt (by omega)]
  omega

/-- An average stays below a bound of its samples, by induction on the samples from the last: smoothing gives a
    number between the two it is given. -/
theorem average_lt {top : UInt64} (hpos : 0 < top) {samples : List (Str × UInt64)}
    (h : ∀ sample ∈ samples, sample.2 < top) : average samples < top := by
  unfold average
  induction samples using List.reverseRecOn with
  | nil => exact hpos
  | append_singleton samples sample ih =>
      have hold := ih fun s hs => h s (List.mem_append_left _ hs)
      have hnew := h sample (List.mem_append_right _ (List.mem_singleton.mpr rfl))
      rw [List.foldl_concat]
      exact ewma_lt hold hnew

/-- The latency that a call reports, in microseconds; a failure reports none. -/
def PolicyCall.latency? : PolicyCall → Option Nat
  | .reported event => if event.error.isSome then none else some event.headLatency.asMicros
  | .picked .. | .started _ => none

/-- Fewer requests than `usize::MAX` are unfinished, and the latencies are below `u64::MAX`. -/
structure WithinRange (p : PolicyRef) (g : Gateway V ρ σ) : Prop where
  unfinished : g.unfinished p < 2 ^ 64 - 1
  latencies : ∀ latency ∈ g.callsTo p PolicyCall.latency?, latency < 2 ^ 64 - 1

/-- A sample is a latency as the `u64` it is cast to. -/
theorem WithinRange.sample_lt {p : PolicyRef} {g : Gateway V ρ σ} (h : WithinRange p g) {i : Nat}
    {sample : Str × UInt64} (hsample : sample ∈ g.samples p i) : sample.2 < 18446744073709551615 := by
  obtain ⟨e, he, hp, hcall⟩ := mem_callsTo.mp hsample
  unfold PolicyCall.sample? at hcall
  split at hcall
  · rename_i event heq
    obtain ⟨herror, hcall⟩ := Option.ite_none_left_eq_some.mp hcall
    obtain ⟨-, hcall⟩ := Option.ite_none_right_eq_some.mp hcall
    obtain rfl := Option.some.inj hcall
    have hlt : event.headLatency.asMicros < 2 ^ 64 - 1 := by
      apply h.latencies
      refine mem_callsTo.mpr ⟨e, he, hp, ?_⟩
      rw [heq]
      exact if_neg herror
    rw [UInt64.lt_iff_toNat_lt, UInt64.toNat_ofNat', Nat.mod_eq_of_lt (by omega)]
    exact hlt
  all_goals cases hcall

/-- **The numbers of a load-aware policy stay below the maximum.** A counter is bounded by the number of
    unfinished requests, an average by the latencies it is made of. -/
theorem WithinRange.number_lt {p : PolicyRef} {g : Gateway V ρ σ} (h : WithinRange p g) (hpaired : Paired p g)
    (kind : LoadAware) (i : Nat) : g.number kind p i < 18446744073709551615 := by
  cases kind with
  | leastRequest =>
      have hunfinished := h.unfinished
      have hbound := (hpaired.count_le i).2
      have hnumber := hpaired.number_toNat (by omega) i
      rw [UInt64.lt_iff_toNat_lt]
      show (g.number .leastRequest p i).toNat < 2 ^ 64 - 1
      omega
  | leastTime =>
      rw [number_leastTime]
      exact average_lt (by decide) fun _ hsample => h.sample_lt hsample

/-! ## Whole runs

A new balancer either stays one without a state that could go wrong, or its array follows the calls from its
first pick on. -/

/-- A balancer of the gateway itself, as it is created. -/
def DynBalancer.New : DynBalancer σ → Prop
  | .roundRobin s => s = .new
  | .consistentHash s => s = .new
  | .leastRequest s => s = .new
  | .leastTime s => s = .new
  | .custom _ => False

/-- A balancer that only counts its picks. -/
def DynBalancer.Stateless : DynBalancer σ → Prop
  | .roundRobin _ | .consistentHash _ => True
  | .leastRequest _ | .leastTime _ | .custom _ => False

/-- The counters of a least-request policy: starts minus results, and never zero when a result is to come. -/
structure CountersExact (p : PolicyRef) (g : Gateway V ρ σ) (counters : List UInt64) : Prop where
  matched : ∀ i v, counters[i]? = some v → v.toNat + (g.reported p).count i = (g.started p).count i
  positive : ∀ r ∈ g.requests, r.routeMeta.policy = p → ∀ i, r.phase.backend? = some i →
    ∀ v, counters[i]? = some v → 0 < v.toNat

/-- Where the array follows the calls, its counters are the differences of starts and results, and a request
    between the two accounts for one. -/
theorem Follows.countersExact {p : PolicyRef} {g : Gateway V ρ σ} {counters : List UInt64}
    (h : Follows .leastRequest p g (some counters)) (hpaired : Paired p g) (hrange : WithinRange p g) :
    CountersExact p g counters := by
  have hmatched : ∀ i v, counters[i]? = some v →
      v.toNat + (g.reported p).count i = (g.started p).count i := by
    intro i v hv
    have hnumber := h.numbers counters rfl i (List.getElem?_eq_some_iff.mp hv).1
    rw [hv] at hnumber
    obtain rfl := Option.some.inj hnumber
    have hunfinished := hrange.unfinished
    exact hpaired.number_toNat (by omega) i
  refine ⟨hmatched, ?_⟩
  intro r hr hp i hi v hv
  have hlt := hpaired.count_lt hr hp hi
  have hsum := hmatched i v hv
  omega

section
variable [Balancer σ] [Xxh3] {p : PolicyRef} {g g' : Gateway V ρ σ}

omit [Balancer σ] [Xxh3] in
theorem DynBalancer.Stateless.cases {balancer : DynBalancer σ} (h : balancer.Stateless) :
    (∃ s, balancer = .roundRobin s) ∨ ∃ s, balancer = .consistentHash s := by
  cases balancer with
  | roundRobin s => exact Or.inl ⟨s, rfl⟩
  | consistentHash s => exact Or.inr ⟨s, rfl⟩
  | leastRequest s | leastTime s | custom s => exact h.elim

/-- A stateless balancer answers from the candidates, and stays stateless. -/
theorem stateless_pick {policy : Policy ρ σ} (h : policy.balancer.Stateless) (ctx : BalanceCtx) :
    (ctx.candidateLen < 2 ^ 32 → AnswersFrom ctx (policy.pick ctx).1) ∧
      (policy.pick ctx).2.balancer.Stateless := by
  unfold Policy.pick
  rcases h.cases with ⟨s, hbalancer⟩ | ⟨s, hbalancer⟩
  · rw [hbalancer]
    exact ⟨fun _ => roundRobin_answers s ctx, trivial⟩
  · rw [hbalancer]
    exact ⟨consistentHash_answers Xxh3.xxh3 s, trivial⟩

/-- Starts are nothing to it. -/
theorem stateless_onStart {policy : Policy ρ σ} (h : policy.balancer.Stateless) (event : StartEvent) :
    (policy.onStart event).balancer.Stateless := by
  unfold Policy.onStart
  rcases h.cases with ⟨s, hbalancer⟩ | ⟨s, hbalancer⟩
  · rw [hbalancer]
    trivial
  · rw [hbalancer]
    trivial

/-- Nor are results. -/
theorem stateless_onResult {policy : Policy ρ σ} (h : policy.balancer.Stateless) (event : ResultEvent) :
    (policy.onResult event).balancer.Stateless := by
  unfold Policy.onResult
  rcases h.cases with ⟨s, hbalancer⟩ | ⟨s, hbalancer⟩
  · rw [hbalancer]
    trivial
  · rw [hbalancer]
    trivial

/-- Every number that a pick reads is below the maximum: those of the array by the bound, and those that a first
    pick creates because they are zero. -/
theorem loadAware_answers {kind : LoadAware} {cells : Option (List UInt64)} (h : Follows kind p g cells)
    (hpaired : Paired p g) (hrange : WithinRange p g) (ctx : BalanceCtx) :
    AnswersFrom ctx ((g.policies p).pick ctx).1 := by
  obtain ⟨offset, hbalancer⟩ := h.balancer
  rw [(pick_loadAware hbalancer ctx).1]
  split
  · rename_i hempty
    exact answersFrom_empty hempty
  · apply pickLeast_answers
    intro v hv
    cases hcells : cells with
    | none =>
        rw [hcells] at hv
        obtain ⟨-, rfl⟩ := List.mem_replicate.mp hv
        decide
    | some array =>
        rw [hcells] at hv
        obtain ⟨i, hi⟩ := List.mem_iff_getElem?.mp hv
        have hnumber := h.numbers array hcells i (List.getElem?_eq_some_iff.mp hi).1
        rw [show array[i]? = some v from hi] at hnumber
        obtain rfl := Option.some.inj hnumber
        exact hrange.number_lt hpaired kind i

variable [RouteStrategy ρ] {routeMetas : List (RouteMeta (PipelineFn V))}

/-- So the policy stays stateless in every step. -/
theorem stateless_step {a : Act V} (h : (g.policies p).balancer.Stateless)
    (hstep : step routeMetas g a = some g') : (g'.policies p).balancer.Stateless := by
  cases a with
  | arrive routeIdx =>
      obtain ⟨routeMeta, -, rfl⟩ := step_arrive hstep
      exact h
  | move id m =>
      obtain ⟨r, phase, policy, calls, -, hmoves, rfl⟩ := step_move hstep
      show (Function.update g.policies r.routeMeta.policy policy p).balancer.Stateless
      by_cases hp : r.routeMeta.policy = p
      · rw [hp] at hmoves ⊢
        rw [Function.update_self]
        generalize r.phase = old at hmoves
        cases hmoves with
        | picked routing i _ _ => exact (stateless_pick h _).2
        | refused routing _ => exact (stateless_pick h _).2
        | started i => exact stateless_onStart h _
        | reported event => exact stateless_onResult h event
        | _ => exact h
      · rw [Function.update_of_ne (Ne.symm hp)]
        exact h

/-- What becomes of a new balancer: it has no state to go wrong, or its array is up to date. -/
theorem new_run {policies : Policies ρ σ} (hnew : (policies p).balancer.New) {acts : List (Act V)}
    (hrun : run (step routeMetas) (.start policies) acts = some g) :
    (g.policies p).balancer.Stateless ∨ ∃ kind cells, Follows kind p g cells := by
  have hstateless : (policies p).balancer.Stateless → (g.policies p).balancer.Stateless := by
    intro h
    exact @invariant_of_run _ _ _ (fun g => (g.policies p).balancer.Stateless)
      (fun _ _ _ h hstep => stateless_step h hstep) _ _ _ h hrun
  have hfollows : ∀ kind : LoadAware, (policies p).balancer = kind.balancer none 0 →
      ∃ cells, Follows kind p g cells := by
    intro kind h
    refine @invariant_of_run _ _ _ (fun g => ∃ cells, Follows kind p g cells) ?_ _ _ _
      ⟨none, follows_start h⟩ hrun
    rintro g a g' ⟨cells, h⟩ hstep
    exact h.step hstep
  cases hbalancer : (policies p).balancer with
  | roundRobin s | consistentHash s =>
      apply Or.inl
      apply hstateless
      rw [hbalancer]
      trivial
  | leastRequest s =>
      rw [hbalancer] at hnew
      obtain rfl : s = .new := hnew
      exact Or.inr ⟨.leastRequest, hfollows .leastRequest hbalancer⟩
  | leastTime s =>
      rw [hbalancer] at hnew
      obtain rfl : s = .new := hnew
      exact Or.inr ⟨.leastTime, hfollows .leastTime hbalancer⟩
  | custom s =>
      rw [hbalancer] at hnew
      exact hnew.elim

/-- **The built-in balancers answer from the candidate set**, in every state of every run: handlers may be
    dropped at any point, and pools of different sizes may share the policy. Least-request never decrements a
    counter below zero. -/
theorem built_in_answers_from_candidates {policies : Policies ρ σ} (hnew : (policies p).balancer.New)
    {acts : List (Act V)} (hrun : run (step routeMetas) (.start policies) acts = some g)
    (hrange : WithinRange p g) :
    (∀ ctx, ctx.candidateLen < 2 ^ 32 → AnswersFrom ctx ((g.policies p).pick ctx).1) ∧
    ∀ s counters, (g.policies p).balancer = .leastRequest s → s.inFlight = some counters →
      CountersExact p g counters := by
  have hpaired : Paired p g :=
    invariant_of_run (fun _ _ _ h hstep => h.step hstep) (paired_start policies) hrun
  rcases new_run hnew hrun with hstateless | ⟨kind, cells, hfollows⟩
  · refine ⟨fun ctx hlen => (stateless_pick hstateless ctx).1 hlen, ?_⟩
    intro s counters hs
    rw [hs] at hstateless
    exact hstateless.elim
  · refine ⟨fun ctx _ => loadAware_answers hfollows hpaired hrange ctx, ?_⟩
    intro s counters hs hsome
    obtain ⟨offset, hbalancer⟩ := hfollows.balancer
    rw [hs] at hbalancer
    cases kind with
    | leastRequest =>
        cases hbalancer
        obtain rfl : cells = some counters := hsome
        exact hfollows.countersExact hpaired hrange
    | leastTime => cases hbalancer

end

/-! ## Example -/

/-- Services with one backend and with two share a policy; one request is dropped after `on_start`. -/
def mixedPools : List (Act Str) := begins 0 0 ++ ends 1 1 (.ok okResponse) 1000000 ++ [.move 0 .drop]

/-- The theorem after those requests. -/
theorem built_in_answers_from_candidates_mixed :
    ∃ app g, (shared .leastRequest [str "http://a"]).build .plain = (some (.ok app) : Option _) ∧
      run (plainStep app) (.start app.initialPolicies) mixedPools = some g ∧
      (∀ ctx, ctx.candidateLen < 2 ^ 32 → AnswersFrom ctx (@Policy.pick _ _ _ .length (g.policies 1) ctx).1) ∧
      ∀ s counters, (g.policies 1).balancer = .leastRequest s → s.inFlight = some counters →
        CountersExact 1 g counters := by
  obtain ⟨app, g, hbuild, hrun, hnew, hrange⟩ :
      ∃ app g, (shared .leastRequest [str "http://a"]).build .plain = (some (.ok app) : Option _) ∧
        run (plainStep app) (.start app.initialPolicies) mixedPools = some g ∧
        (app.initialPolicies 1).balancer.New ∧ WithinRange 1 g :=
    ⟨_, _, rfl, rfl, rfl, ⟨by decide, by decide⟩⟩
  exact ⟨app, g, hbuild, hrun, @built_in_answers_from_candidates Str NoRouteKey RoundRobin _ .length 1 g _ _ _
    hnew mixedPools hrun hrange⟩

end Apigate
