import Apigate.Correctness.LoadArray

/-!
# `Correctness.Latency` — what the averages of least-time average

The average of a backend index is the update rule applied, in order, to the latencies of all successful results
on that index so far, whatever service they are of (`TracksTime`).

`Correctness.LoadArray` has this for any balancer that keeps an array of numbers: what a cell holds is a fold of
the calls that are recorded for it. Here the fold is put in terms of samples. A call is recorded for backend `i`
exactly if it brings a sample of `i`, and then the update is the rule at this sample (`sample?_cases`); the
other calls change nothing and can be left out of the list (`number_leastTime`). So the invariant and its step
are those of `LoadArray`, in another form (`tracksTime_iff`).
-/

namespace Apigate
open Lib Runs

variable {V ρ σ : Type}

/-! ## Samples

A sample keeps the service it is of, since the array does not, and whose results a cell averages is what
`OwnLoad` asks. -/

/-- The service and the latency that a call teaches a least-time balancer about backend `i`. -/
def PolicyCall.sample? (i : Nat) : PolicyCall → Option (Str × UInt64)
  | .reported event =>
      if event.error.isSome then none
      else if event.backendIndex = i then some (event.service, UInt64.ofNat event.headLatency.asMicros)
      else none
  | .picked .. | .started _ => none

/-- The samples of backend `i` that policy `p` has seen so far. -/
def Gateway.samples (g : Gateway V ρ σ) (p : PolicyRef) (i : Nat) : List (Str × UInt64) :=
  g.callsTo p (PolicyCall.sample? i)

/-- The update rule, applied to each sample in turn. -/
def average (samples : List (Str × UInt64)) : UInt64 :=
  samples.foldl (fun old sample => LeastTime.ewma old sample.2) 0

/-- A sample is about a backend of a route of the table. -/
theorem FromTable.samples {routeMetas : List (RouteMeta (PipelineFn V))} {g : Gateway V ρ σ}
    (h : FromTable routeMetas g) {p : PolicyRef} {i : Nat} {sample : Str × UInt64}
    (hsample : sample ∈ g.samples p i) :
    ∃ m ∈ routeMetas, m.policy = p ∧ sample.1 = m.service ∧ i < m.pool.len := by
  obtain ⟨entry, hentry, hp, hcall⟩ := mem_callsTo.mp hsample
  obtain ⟨m, hm, hpolicy, hmade⟩ := h.calls entry hentry
  refine ⟨m, hm, hpolicy.trans hp, ?_⟩
  unfold PolicyCall.sample? at hcall
  split at hcall
  · rename_i event heq
    rw [heq] at hmade
    split at hcall
    · cases hcall
    · obtain ⟨rfl, hsome⟩ := Option.ite_none_right_eq_some.mp hcall
      cases hsome
      exact hmade
  all_goals cases hcall

/-! ## The array in a run

From calls to samples and back; the step needs no cases of its own. -/

/-- The array of averages is up to date, and it exists once a backend has been chosen. -/
structure TracksTime (p : PolicyRef) (g : Gateway V ρ σ) (s : LeastTime) : Prop where
  balancer : (g.policies p).balancer = .leastTime s
  averages : ∀ cells, s.ewmaUs = some cells →
    ∀ i, i < cells.length → cells[i]? = some (average (g.samples p i))
  created : s.ewmaUs = none → ∀ r ∈ g.requests, r.routeMeta.policy = p → r.phase.chosen? = none
  unseen : s.ewmaUs = none → ∀ i, g.samples p i = []

/-- A call that is recorded for backend `i` brings the sample that the number is updated with. -/
theorem sample?_cases (i : Nat) (call : PolicyCall) :
    (LoadAware.leastTime.recorded? call = some i ∧ ∃ sample, call.sample? i = some sample ∧
      ∀ v, LoadAware.leastTime.update v call = LeastTime.ewma v sample.2) ∨
    (LoadAware.leastTime.recorded? call ≠ some i ∧ call.sample? i = none) := by
  cases call with
  | picked ctx picked => exact Or.inr ⟨by simp [LoadAware.recorded?], rfl⟩
  | started event => exact Or.inr ⟨by simp [LoadAware.recorded?], rfl⟩
  | reported event =>
      unfold LoadAware.recorded? PolicyCall.sample?
      dsimp only
      by_cases herror : event.error.isSome = true
      · rw [if_pos herror, if_pos herror]
        exact Or.inr ⟨by simp, rfl⟩
      · rw [if_neg herror, if_neg herror]
        by_cases hi : event.backendIndex = i
        · rw [if_pos hi]
          exact Or.inl ⟨congrArg some hi, _, rfl, fun _ => rfl⟩
        · rw [if_neg hi]
          exact Or.inr ⟨fun h => hi (Option.some.inj h), rfl⟩

/-- What the calls so far make of the number of a backend is the average of its samples. -/
theorem number_leastTime (g : Gateway V ρ σ) (p : PolicyRef) (i : Nat) :
    g.number .leastTime p i = average (g.samples p i) := by
  unfold Gateway.number average Gateway.samples
  rw [callsTo_eq g p (PolicyCall.sample? i), List.foldl_filterMap]
  congr 1
  funext v call
  rcases sample?_cases i call with ⟨hrecorded, sample, hsample, hupdate⟩ | ⟨hother, hnone⟩
  · rw [LoadAware.after_of_eq hrecorded, hsample, hupdate]
  · rw [LoadAware.after_of_ne hother, hnone]

/-- There are no samples as long as nothing is recorded. -/
theorem samples_nil_iff {g : Gateway V ρ σ} {p : PolicyRef} :
    (∀ i, g.samples p i = []) ↔ ∀ call ∈ g.callsTo p some, LoadAware.leastTime.recorded? call = none := by
  unfold Gateway.samples
  constructor
  · intro h call hcall
    cases hrecorded : LoadAware.leastTime.recorded? call with
    | none => rfl
    | some i =>
        have hnil := h i
        rw [callsTo_eq, List.filterMap_eq_nil_iff] at hnil
        rcases sample?_cases i call with ⟨-, sample, hsample, -⟩ | ⟨hother, -⟩
        · rw [hnil call hcall] at hsample
          cases hsample
        · exact absurd hrecorded hother
  · intro h i
    rw [callsTo_eq, List.filterMap_eq_nil_iff]
    intro call hcall
    rcases sample?_cases i call with ⟨hrecorded, -⟩ | ⟨-, hnone⟩
    · rw [h call hcall] at hrecorded
      cases hrecorded
    · exact hnone

/-- The averages are the numbers of the array. -/
theorem tracksTime_iff {p : PolicyRef} {g : Gateway V ρ σ} {s : LeastTime} :
    TracksTime p g s ↔ (g.policies p).balancer = .leastTime s ∧ Follows .leastTime p g s.ewmaUs := by
  constructor
  · intro h
    refine ⟨h.balancer, ⟨s.offset, h.balancer⟩, ?_, h.created, fun hnone => samples_nil_iff.mp (h.unseen hnone)⟩
    intro array hsome i hi
    rw [number_leastTime]
    exact h.averages array hsome i hi
  · rintro ⟨hbalancer, h⟩
    refine ⟨hbalancer, ?_, h.created, fun hnone => samples_nil_iff.mpr (h.unseen hnone)⟩
    intro array hsome i hi
    rw [← number_leastTime]
    exact h.numbers array hsome i hi

section
variable [RouteStrategy ρ] [Balancer σ] [Xxh3] {p : PolicyRef} {g g' : Gateway V ρ σ} {s : LeastTime}

/-- Every step keeps it, drops included: a handler that is dropped has no result to teach. -/
theorem TracksTime.step {routeMetas : List (RouteMeta (PipelineFn V))} {a : Act V} (h : TracksTime p g s)
    (hstep : step routeMetas g a = some g') : ∃ s', TracksTime p g' s' := by
  obtain ⟨cells, hfollows⟩ := (tracksTime_iff.mp h).2.step hstep
  obtain ⟨offset, hbalancer⟩ := hfollows.balancer
  exact ⟨⟨cells, offset⟩, tracksTime_iff.mpr ⟨hbalancer, hfollows⟩⟩

end
end Apigate
