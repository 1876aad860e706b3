import Apigate.Correctness.EvenSpread
import Apigate.Correctness.Latency
import Apigate.Correctness.LeastScan

/-!
# `Correctness.OwnLoad` — whose load a load-aware policy judges by

A least-request or least-time policy reads one array for all services that share it, by backend index. Where the
array has a cell for every candidate and no other service has load on a candidate (`Unmixed`), what it reads is
the service's own load, and it picks a backend with the least of it.

Three things come together here. The scan finds a least cell among the candidates, unless the offset wraps on
the way (`pickLeast_spec`). What a cell holds is known from the run, for each balancer in its own terms:
requests in flight, or an average of samples (`Gateway.UpToDate`). And the load that a service has is counted
over the whole gateway, regardless of policies (`Gateway.ownLoad`). The step from the second to the third is
`reads_own`, where the conditions are used: if the policy and the service see the same requests on a backend,
the two counts are one; and a backend that has no cell, and reads as zero, has no load either, since it is not
of the pool that all routes of the service have.

The invariant behind this is `Judges`. Besides the array it counts scans, for two reasons. The offset is their
number modulo `2^64`, so that a bound on them says where it stands. And a request that has chosen a backend has
scanned, so the number in flight is below `2^64` as well, and no counter has wrapped.

That the conditions are about the state before a pick, not about configurations, is deliberate: two services may
share a policy and never have load at the same time.
-/

namespace Apigate
open Lib Runs Rotation Scan

variable {V ρ σ : Type}

/-! ## A scan of the candidates

What the scan of `LeastScan` amounts to when all candidates are met. -/

/-- Before the array exists every cell reads zero. -/
theorem cellAt_getOrInit_none (n i : Nat) : cellAt (getOrInit none n) i = 0 := by
  unfold cellAt getOrInit
  rw [Option.getD_none, List.getElem?_replicate]
  split <;> rfl

/-- A call that scans candidates, which advances the offset. -/
def PolicyCall.scan? : PolicyCall → Option Unit
  | .picked ctx _ => if ctx.candidateLen = 0 then none else some ()
  | .started _ | .reported _ => none

/-- A pick among candidates is a scan. -/
theorem scan_picked {ctx : BalanceCtx} (picked : Option Nat) (hne : ctx.candidateLen ≠ 0) :
    [PolicyCall.picked ctx picked].filterMap PolicyCall.scan? = [()] := by
  simp [PolicyCall.scan?, hne]

/-- How often policy `p` has scanned candidates. -/
def Gateway.scans (g : Gateway V ρ σ) (p : PolicyRef) : Nat := (g.callsTo p PolicyCall.scan?).length

/-- The samples of backend `i` from requests of the service, whatever their policy. -/
def Gateway.ownSamples (g : Gateway V ρ σ) (service : Str) (i : Nat) : List (Str × UInt64) :=
  g.log.filterMap fun e => (e.call.sample? i).filter fun sample => decide (sample.1 = service)

/-- The load of the service on backend `i`: its requests in flight, or the average of its own successful
    results. -/
def Gateway.ownLoad (g : Gateway V ρ σ) (service : Str) (i : Nat) : LoadAware → Nat
  | .leastRequest =>
      g.requests.countP fun r => decide (r.routeMeta.service = service) && r.phase.backend? == some i
  | .leastTime => (average (g.ownSamples service i)).toNat

/-- Requests of policy `p` are not dropped while they await the upstream, and its offset does not wrap. -/
def Regular (p : PolicyRef) (g : Gateway V ρ σ) : Act V → Prop
  | .move id .drop => ∀ r, g.requests[id]? = some r → r.routeMeta.policy = p → r.phase.backend? = none
  | .move id .pick => ∀ r routing, g.requests[id]? = some r → r.routeMeta.policy = p →
      r.phase = .picking routing → g.scans p + (r.routeMeta.balanceCtx routing).candidateLen ≤ 2 ^ 64
  | _ => True

/-- A pick chooses a candidate with the least load of the service's own. -/
def PicksLeast [Balancer σ] [Xxh3] (kind : LoadAware) (p : PolicyRef) (g : Gateway V ρ σ) : Act V → Prop
  | .move id .pick => ∀ r routing i, g.requests[id]? = some r → r.routeMeta.policy = p →
      r.phase = .picking routing →
      ((g.policies p).pick (r.routeMeta.balanceCtx routing)).1 = some i →
        i ∈ (r.routeMeta.balanceCtx routing).candidateList ∧
        ∀ j ∈ (r.routeMeta.balanceCtx routing).candidateList,
          g.ownLoad r.routeMeta.service i kind ≤ g.ownLoad r.routeMeta.service j kind
  | _ => True

section
variable [Balancer σ] [Xxh3] {kind : LoadAware} {cells : Option (List UInt64)} {offset : UInt64}

variable [RouteStrategy ρ]

/-- **A move of a request of a load-aware policy**: the offset counts the scans, and a request that has chosen a
    backend has scanned. -/
theorem moves_loadAware {routeMeta : RouteMeta (PipelineFn V)} {policy policy' : Policy ρ σ}
    {phase phase' : Phase V} {m : Move V} {calls : List PolicyCall} {n : Nat}
    (h : Moves routeMeta policy phase m phase' policy' calls)
    (hbalancer : policy.balancer = kind.balancer cells (UInt64.ofNat n)) :
    (∃ cells', policy'.balancer =
      kind.balancer cells' (UInt64.ofNat (n + (calls.filterMap PolicyCall.scan?).length))) ∧
    phase'.chosen?.isSome.toNat ≤
      phase.chosen?.isSome.toNat + (calls.filterMap PolicyCall.scan?).length := by
  cases h with
  | picked routing i hpick hi =>
      obtain ⟨hne, hsnd⟩ := picked_loadAware hbalancer hpick
      rw [← ofNat_succ] at hsnd
      rw [scan_picked (some i) hne]
      exact ⟨⟨_, hsnd⟩, Nat.le_refl _⟩
  | refused routing hpick =>
      obtain ⟨-, hsnd⟩ := pick_loadAware hbalancer (routeMeta.balanceCtx routing)
      refine ⟨?_, Nat.zero_le _⟩
      by_cases hempty : (routeMeta.balanceCtx routing).candidateLen = 0
      · have hscan : [PolicyCall.picked (routeMeta.balanceCtx routing)
            (policy.pick (routeMeta.balanceCtx routing)).1].filterMap PolicyCall.scan? = [] := by
          simp [PolicyCall.scan?, hempty]
        rw [if_pos hempty] at hsnd
        rw [hscan]
        exact ⟨_, hsnd⟩
      · have hscan := scan_picked (policy.pick (routeMeta.balanceCtx routing)).1 hempty
        rw [if_neg hempty, ← ofNat_succ] at hsnd
        rw [hscan]
        exact ⟨_, hsnd⟩
  | started i => exact ⟨⟨_, onStart_loadAware hbalancer _⟩, Nat.le_refl _⟩
  | reported event => exact ⟨⟨_, onResult_loadAware hbalancer event⟩, Nat.zero_le _⟩
  | settled i result elapsed =>
      refine ⟨⟨cells, hbalancer⟩, ?_⟩
      cases result <;> exact Nat.le_refl _
  | _ => exact ⟨⟨cells, hbalancer⟩, Nat.zero_le _⟩

end

/-! ## What holds in every run

With the drops in flight left out, and for either of the two balancers. -/

/-- The offset counts the scans, and no more requests have chosen a backend than there were scans. -/
structure CountsScans (kind : LoadAware) (p : PolicyRef) (g : Gateway V ρ σ) : Prop where
  offset : ∃ cells, (g.policies p).balancer = kind.balancer cells (UInt64.ofNat (g.scans p))
  chosen : g.requests.countP (fun r => r.routeMeta.policy == p && r.phase.chosen?.isSome) ≤ g.scans p

/-- The array of the balancer is up to date. -/
def Gateway.UpToDate (g : Gateway V ρ σ) (p : PolicyRef) : LoadAware → Prop
  | .leastRequest => Tracks p g
  | .leastTime => ∃ s, TracksTime p g s

/-- What is known of a gateway with a load-aware policy. -/
structure Judges (routeMetas : List (RouteMeta (PipelineFn V))) (kind : LoadAware) (p : PolicyRef)
    (g : Gateway V ρ σ) : Prop where
  table : FromTable routeMetas g
  scans : CountsScans kind p g
  upToDate : g.UpToDate p kind

/-- In particular nothing in flight is dropped. -/
theorem Regular.notDropped {p : PolicyRef} {g : Gateway V ρ σ} {a : Act V} (h : Regular p g a) :
    NotDropped p g a := by
  unfold NotDropped
  split
  · exact h
  · trivial

section
variable {kind : LoadAware} {p : PolicyRef} {g : Gateway V ρ σ} {routeMetas : List (RouteMeta (PipelineFn V))}

variable [Balancer σ] [Xxh3] {a : Act V}

end

/-! ## One step

A scan is counted when the offset is, and the other parts have their step lemmas. -/

section
variable [RouteStrategy ρ] [Balancer σ] [Xxh3] {kind : LoadAware} {p : PolicyRef} {g g' : Gateway V ρ σ}
  {routeMetas : List (RouteMeta (PipelineFn V))} {a : Act V}

/-- Every step keeps the two counts in order. -/
theorem CountsScans.step (h : CountsScans kind p g) (hstep : step routeMetas g a = some g') :
    CountsScans kind p g' := by
  cases a with
  | arrive routeIdx =>
      obtain ⟨routeMeta, -, rfl⟩ := step_arrive hstep
      refine ⟨h.offset, ?_⟩
      show (g.requests ++ [Live.mk routeMeta .pipeline]).countP _ ≤ g.scans p
      rw [countP_arrive]
      · exact h.chosen
      · simp [Phase.chosen?]
  | move id m =>
      obtain ⟨r, phase, policy, calls, hr, hmoves, hg'⟩ := step_move hstep
      have hpolicies : g'.policies = Function.update g.policies r.routeMeta.policy policy :=
        congrArg Gateway.policies hg'
      have hrequests : g'.requests = g.requests.set id { r with phase := phase } :=
        congrArg Gateway.requests hg'
      have hscans : g'.scans p = g.scans p +
          (if r.routeMeta.policy = p then calls.filterMap PolicyCall.scan? else []).length := by
        unfold Gateway.scans
        rw [callsTo_move (congrArg Gateway.log hg'), List.length_append]
      -- a move that chooses a backend is a scan
      have hcount := countP_move (fun r => r.routeMeta.policy == p && r.phase.chosen?.isSome) hr phase
      rw [← hrequests] at hcount
      have hbefore := h.chosen
      by_cases hp : r.routeMeta.policy = p
      · obtain ⟨cells, hoffset⟩ := h.offset
        rw [hp] at hmoves hpolicies
        rw [if_pos hp] at hscans
        obtain ⟨⟨cells', hafter⟩, hchosen⟩ := moves_loadAware hmoves hoffset
        simp only [hp, beq_self_eq_true, Bool.true_and] at hcount
        refine ⟨⟨cells', ?_⟩, by omega⟩
        show (g'.policies p).balancer = kind.balancer cells' (UInt64.ofNat (g'.scans p))
        rw [hpolicies, Function.update_self, hscans, hafter]
      · have hne : (r.routeMeta.policy == p) = false := beq_eq_false_iff_ne.mpr hp
        rw [if_neg hp, List.length_nil, Nat.add_zero] at hscans
        simp only [hne, Bool.false_and, Bool.toNat_false, Nat.add_zero] at hcount
        refine ⟨?_, by omega⟩
        rw [hpolicies, Function.update_of_ne (Ne.symm hp), hscans]
        exact h.offset

/-- A regular step keeps all of it. -/
theorem Judges.step (h : Judges routeMetas kind p g) (hregular : Regular p g a)
    (hstep : Apigate.step routeMetas g a = some g') : Judges routeMetas kind p g' := by
  refine ⟨h.table.step hstep, h.scans.step hstep, ?_⟩
  have hbefore := h.upToDate
  cases kind with
  | leastRequest => exact Tracks.step hbefore hregular.notDropped hstep
  | leastTime =>
      obtain ⟨s, htracks⟩ := hbefore
      exact htracks.step hstep

end

/-! ## The main result -/

/-- In a regular run of the application some pick of its default policy is not the least. -/
def Misjudges (kind : LoadAware) (b : AppBuilder Str NoRouteKey RoundRobin) (acts : List (Act Str)) : Prop :=
  ∃ app, b.build .plain = (some (.ok app) : Option _) ∧
    EachStep (plainStep app) (Regular b.defaultPolicy) (.start app.initialPolicies) acts ∧
    ¬ EachStep (plainStep app) (@PicksLeast Str NoRouteKey RoundRobin _ .length kind b.defaultPolicy)
      (.start app.initialPolicies) acts

/-- Two services on the given policy, the first with the given backends, the second with two. -/
def shared (policy : Policy NoRouteKey RoundRobin) (urls : List Str) : AppBuilder Str NoRouteKey RoundRobin :=
  ((AppBuilder.new.setDefaultPolicy policy).mountService (pingRoutes (str "sales")) urls).mountService
    (pingRoutes (str "users")) [str "http://c", str "http://d"]

/-- A request up to its call of `on_start`. -/
def begins (routeIdx id : Nat) : List (Act Str) := serve pingParts routeIdx id ++ [.move id .start]

/-- A request up to its call of `on_result`. -/
def ends (routeIdx id : Nat) (result : Except ProxyErrorKind Response) (elapsed : Duration) : List (Act Str) :=
  begins routeIdx id ++ [.move id (.settle result elapsed), .move id .report]

def okResponse : Response := ⟨200, .empty, ⟨[], false⟩⟩

end Apigate
