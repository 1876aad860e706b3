import Apigate.Correctness.InFlight

/-!
# `Correctness.LoadArray` — the array behind a load-aware balancer

Least-request and least-time keep one number per backend index in an array that the first pick creates. In every
run, handlers dropped at any point included, each number is what the calls to the policy so far make of zero
(`Follows`): a request calls `on_start` and `on_result` only after a pick has chosen its backend, so no call
comes before the array.

The two balancers differ in what they record and agree in everything else: which cells there are, that a pick
changes no cell, and that the array is created on demand. So they are one balancer here with a parameter,
`LoadAware`, and `LoadAware.after` says what one call makes of one cell. Since the cells are updated
independently, a cell is a fold of the calls over its index, and the order of calls to other backends does not
enter.

`Follows` has four parts because of the time before the array. While there is none, no request of the policy has
chosen a backend (`created`) and no call that would be recorded has been made (`unseen`); that is what makes the
fold zero at the moment when the array appears with zeros in it. The step lemma is by cases on what a move has
to do with the array (`Records`): nothing, creating it, or recording one call.

How long the array is, is a matter of the pool of the first pick, and so the invariant says nothing of indices
beyond it. `Sized` is for policies whose routes have pools of one size.
-/

namespace Apigate
open Lib Runs

variable {V ρ σ : Type}

/-! ## The two balancers

What each of the three calls does to a policy with one of the two, as equations between states. The dispatcher
makes these calls and no others. -/

/-- The built-in balancers that judge a backend by its load. -/
inductive LoadAware where
  | leastRequest
  | leastTime

/-- The balancer with an array and an offset. -/
def LoadAware.balancer : LoadAware → Option (List UInt64) → UInt64 → DynBalancer σ
  | .leastRequest, cells, offset => .leastRequest ⟨cells, offset⟩
  | .leastTime, cells, offset => .leastTime ⟨cells, offset⟩

/-- The array of a load-aware balancer. -/
def DynBalancer.cells? : DynBalancer σ → Option (List UInt64)
  | .leastRequest s => s.inFlight
  | .leastTime s => s.ewmaUs
  | .roundRobin _ | .consistentHash _ | .custom _ => none

@[simp] theorem LoadAware.cells?_balancer (kind : LoadAware) (cells : Option (List UInt64)) (offset : UInt64) :
    (kind.balancer cells offset : DynBalancer σ).cells? = cells := by
  cases kind <;> rfl

/-- The backend whose number a call changes; least-time records successful results only. -/
def LoadAware.recorded? (kind : LoadAware) : PolicyCall → Option Nat
  | .picked .. => none
  | .started event =>
      match kind with
      | .leastRequest => some event.backendIndex
      | .leastTime => none
  | .reported event =>
      match kind with
      | .leastRequest => some event.backendIndex
      | .leastTime => if event.error.isSome then none else some event.backendIndex

/-- The change. -/
def LoadAware.update (kind : LoadAware) (v : UInt64) : PolicyCall → UInt64
  | .picked .. => v
  | .started _ => v + 1
  | .reported event =>
      match kind with
      | .leastRequest => v - 1
      | .leastTime => LeastTime.ewma v (UInt64.ofNat event.headLatency.asMicros)

/-- What becomes of the number of backend `i` in a call. -/
def LoadAware.after (kind : LoadAware) (i : Nat) (v : UInt64) (call : PolicyCall) : UInt64 :=
  if kind.recorded? call = some i then kind.update v call else v

/-- A call on the cell's own backend updates it. -/
theorem LoadAware.after_of_eq {kind : LoadAware} {call : PolicyCall} {i : Nat} (h : kind.recorded? call = some i)
    (v : UInt64) : kind.after i v call = kind.update v call := if_pos h

/-- A call on another one, or one that is not recorded, does not. -/
theorem LoadAware.after_of_ne {kind : LoadAware} {call : PolicyCall} {i : Nat} (h : kind.recorded? call ≠ some i)
    (v : UInt64) : kind.after i v call = v := if_neg h

/-- Calls that are not recorded leave every cell alone. -/
theorem LoadAware.foldl_after {kind : LoadAware} {calls : List PolicyCall}
    (h : ∀ call ∈ calls, kind.recorded? call = none) (i : Nat) (v : UInt64) :
    calls.foldl (kind.after i) v = v := by
  induction calls with
  | nil => rfl
  | cons call calls ih =>
      obtain ⟨hcall, hcalls⟩ := List.forall_mem_cons.mp h
      rw [List.foldl_cons, after_of_ne (by simp [hcall]), ih hcalls]

/-- The array after a call. -/
def LoadAware.record (kind : LoadAware) (cells : Option (List UInt64)) (call : PolicyCall) :
    Option (List UInt64) :=
  cells.map fun array => array.mapIdx fun i v => kind.after i v call

/-- A call that is not recorded leaves the array alone. -/
theorem LoadAware.record_of_none {kind : LoadAware} {call : PolicyCall} (h : kind.recorded? call = none)
    (cells : Option (List UInt64)) : kind.record cells call = cells := by
  cases cells with
  | none => rfl
  | some array =>
      show some (array.mapIdx fun i v => kind.after i v call) = some array
      congr 1
      apply List.ext_getElem?
      intro i
      rw [List.getElem?_mapIdx]
      cases array[i]? with
      | none => rfl
      | some v => exact congrArg some (after_of_ne (by simp [h]) v)

/-- An update of one slot, slot by slot. -/
theorem modify_eq_mapIdx (array : List UInt64) (j : Nat) (f : UInt64 → UInt64) :
    array.modify j f = array.mapIdx fun i v => if j = i then f v else v := by
  apply List.ext_getElem?
  intro i
  rw [List.getElem?_modify, List.getElem?_mapIdx]
  cases array[i]? with
  | none => rfl
  | some v => split <;> rfl

section
variable [Balancer σ] [Xxh3]

/-- What the calls of the dispatcher do to a policy with a least-time balancer. -/
theorem pick_leastTime {p : Policy ρ σ} {s : LeastTime} (h : p.balancer = .leastTime s) (ctx : BalanceCtx) :
    (p.pick ctx).1 = (s.pick ctx).1 ∧ (p.pick ctx).2.balancer = .leastTime (s.pick ctx).2 := by
  simp only [Policy.pick, Balancer.pick, h]
  exact ⟨rfl, rfl⟩

/-- Least-time does not record starts. -/
theorem onStart_leastTime {p : Policy ρ σ} {s : LeastTime} (h : p.balancer = .leastTime s)
    (event : StartEvent) : (p.onStart event).balancer = .leastTime s := by
  simp only [Policy.onStart, Balancer.onStart, h]

/-- A result goes to the balancer. -/
theorem onResult_leastTime {p : Policy ρ σ} {s : LeastTime} (h : p.balancer = .leastTime s)
    (event : ResultEvent) : (p.onResult event).balancer = .leastTime (s.onResult event) := by
  simp only [Policy.onResult, Balancer.onResult, h]

variable {kind : LoadAware} {cells : Option (List UInt64)} {offset : UInt64}

/-- A pick of a load-aware policy: with a candidate there is an array afterwards and the offset has moved on;
    without, nothing has happened. -/
theorem pick_loadAware {policy : Policy ρ σ} (h : policy.balancer = kind.balancer cells offset)
    (ctx : BalanceCtx) :
    ((policy.pick ctx).1 =
      if ctx.candidateLen = 0 then none else pickLeast ctx (getOrInit cells ctx.pool.len) offset) ∧
    ((policy.pick ctx).2.balancer =
      if ctx.candidateLen = 0 then kind.balancer cells offset
      else kind.balancer (some (getOrInit cells ctx.pool.len)) (offset + 1)) := by
  cases kind with
  | leastRequest =>
      obtain ⟨hfst, hsnd⟩ := pick_leastRequest h ctx
      rw [hfst, hsnd]
      unfold LeastRequest.pick
      split <;> exact ⟨rfl, rfl⟩
  | leastTime =>
      obtain ⟨hfst, hsnd⟩ := pick_leastTime h ctx
      rw [hfst, hsnd]
      unfold LeastTime.pick
      split <;> exact ⟨rfl, rfl⟩

/-- A pick that finds a backend has scanned the candidates. -/
theorem picked_loadAware {policy : Policy ρ σ} (h : policy.balancer = kind.balancer cells offset)
    {ctx : BalanceCtx} {i : Nat} (hpick : (policy.pick ctx).1 = some i) :
    ctx.candidateLen ≠ 0 ∧
      (policy.pick ctx).2.balancer = kind.balancer (some (getOrInit cells ctx.pool.len)) (offset + 1) := by
  obtain ⟨hfst, hsnd⟩ := pick_loadAware h ctx
  rw [hfst] at hpick
  obtain ⟨hne, -⟩ := Option.ite_none_left_eq_some.mp hpick
  rw [if_neg hne] at hsnd
  exact ⟨hne, hsnd⟩

/-- Starts write to the array, if at all, and leave the offset alone. -/
theorem onStart_loadAware {policy : Policy ρ σ} (h : policy.balancer = kind.balancer cells offset)
    (event : StartEvent) :
    (policy.onStart event).balancer = kind.balancer (kind.record cells (.started event)) offset := by
  cases kind with
  | leastRequest =>
      rw [onStart_leastRequest h event]
      simp only [LeastRequest.onStart, LoadAware.record, LoadAware.after, LoadAware.recorded?, modify_eq_mapIdx,
        Option.some.injEq]
      rfl
  | leastTime =>
      rw [onStart_leastTime h event, LoadAware.record_of_none rfl]
      rfl

/-- So do results; least-time leaves failures out. -/
theorem onResult_loadAware {policy : Policy ρ σ} (h : policy.balancer = kind.balancer cells offset)
    (event : ResultEvent) :
    (policy.onResult event).balancer = kind.balancer (kind.record cells (.reported event)) offset := by
  cases kind with
  | leastRequest =>
      rw [onResult_leastRequest h event]
      simp only [LeastRequest.onResult, LoadAware.record, LoadAware.after, LoadAware.recorded?, modify_eq_mapIdx,
        Option.some.injEq]
      rfl
  | leastTime =>
      rw [onResult_leastTime h event]
      unfold LeastTime.onResult
      by_cases herror : event.error.isSome = true
      · -- failures are not recorded
        have hnone : LoadAware.leastTime.recorded? (.reported event) = none := if_pos herror
        rw [if_pos herror, LoadAware.record_of_none hnone]
        rfl
      · simp only [LoadAware.record, LoadAware.after, LoadAware.recorded?, modify_eq_mapIdx, if_neg herror,
          Option.some.injEq]
        rfl

end

/-! ## One move

From moves to the array. A call of `on_start` or `on_result` is made by a request that has chosen its backend
(`chosen?`), and the last part of `moves_records` says that choosing needs an array. -/

section
variable {kind : LoadAware} {cells : Option (List UInt64)} {offset : UInt64}

/-- What a move of a request has to do with the array: it leaves the array alone or creates one of the length of
    its pool, or it is the call of a request that has chosen a backend, recorded in the array. -/
inductive Records (kind : LoadAware) (len : Nat) (phase : Phase V) (cells : Option (List UInt64)) :
    Option (List UInt64) → List PolicyCall → Prop where
  | silent (calls : List PolicyCall) (hsilent : ∀ call ∈ calls, kind.recorded? call = none) :
      Records kind len phase cells cells calls
  | created (calls : List PolicyCall) (hsilent : ∀ call ∈ calls, kind.recorded? call = none)
      (hnone : cells = none) : Records kind len phase cells (some (List.replicate len 0)) calls
  | recorded (call : PolicyCall) (hchosen : phase.chosen? ≠ none) :
      Records kind len phase cells (kind.record cells call) [call]

/-- A move without a call leaves the array alone. -/
theorem Records.nothing {len : Nat} {phase : Phase V} : Records kind len phase cells cells [] :=
  .silent [] fun _ hcall => by cases hcall

/-- The array after a pick. -/
theorem Records.pick {phase : Phase V} (ctx : BalanceCtx) (picked : Option Nat) :
    Records kind ctx.pool.len phase cells (some (getOrInit cells ctx.pool.len)) [.picked ctx picked] := by
  have hsilent : ∀ call ∈ [PolicyCall.picked ctx picked], kind.recorded? call = none := by
    simp [LoadAware.recorded?]
  cases cells with
  | none => exact .created _ hsilent rfl
  | some array => exact .silent _ hsilent

variable [RouteStrategy ρ] [Balancer σ] [Xxh3]

/-- **A move of a request of a load-aware policy.** By cases on what the move can do: picks create the array or
    find it, starts and results are recorded, and the others do not concern the balancer. -/
theorem moves_records {routeMeta : RouteMeta (PipelineFn V)} {policy policy' : Policy ρ σ}
    {phase phase' : Phase V} {m : Move V} {calls : List PolicyCall}
    (h : Moves routeMeta policy phase m phase' policy' calls)
    (hbalancer : policy.balancer = kind.balancer cells offset) :
    ∃ cells' offset', policy'.balancer = kind.balancer cells' offset' ∧
      Records kind routeMeta.pool.len phase cells cells' calls ∧
      (cells' = none → phase.chosen? = none → phase'.chosen? = none) := by
  cases h with
  | picked routing i hpick hi =>
      obtain ⟨-, hsnd⟩ := picked_loadAware hbalancer hpick
      exact ⟨_, _, hsnd, Records.pick (routeMeta.balanceCtx routing) _, fun hnone => by cases hnone⟩
  | refused routing hpick =>
      obtain ⟨-, hsnd⟩ := pick_loadAware hbalancer (routeMeta.balanceCtx routing)
      by_cases hempty : (routeMeta.balanceCtx routing).candidateLen = 0
      · rw [if_pos hempty] at hsnd
        exact ⟨_, _, hsnd, .silent _ (by simp [LoadAware.recorded?]), fun _ _ => rfl⟩
      · rw [if_neg hempty] at hsnd
        exact ⟨_, _, hsnd, Records.pick (routeMeta.balanceCtx routing) _, fun _ _ => rfl⟩
  | started i =>
      refine ⟨_, _, onStart_loadAware hbalancer _, .recorded _ ?_, fun _ hchosen => hchosen⟩
      simp [Phase.chosen?]
  | reported event =>
      refine ⟨_, _, onResult_loadAware hbalancer event, .recorded _ ?_, fun _ _ => rfl⟩
      simp [Phase.chosen?]
  | settled i result elapsed =>
      refine ⟨_, _, hbalancer, .nothing, ?_⟩
      intro _ hchosen
      cases hchosen
  | _ => exact ⟨_, _, hbalancer, .nothing, fun _ _ => rfl⟩

end

/-! ## One step

From one request to the gateway. A step moves one request, and if that is a request of another policy, this
policy and the calls to it are what they were. -/

/-- What the calls to policy `p` so far make of the number of backend `i`. -/
def Gateway.number (g : Gateway V ρ σ) (kind : LoadAware) (p : PolicyRef) (i : Nat) : UInt64 :=
  (g.callsTo p some).foldl (kind.after i) 0

/-- The array is up to date, and it exists once a backend has been chosen. -/
structure Follows (kind : LoadAware) (p : PolicyRef) (g : Gateway V ρ σ) (cells : Option (List UInt64)) :
    Prop where
  balancer : ∃ offset, (g.policies p).balancer = kind.balancer cells offset
  numbers : ∀ array, cells = some array → ∀ i < array.length, array[i]? = some (g.number kind p i)
  created : cells = none → ∀ r ∈ g.requests, r.routeMeta.policy = p → r.phase.chosen? = none
  unseen : cells = none → ∀ call ∈ g.callsTo p some, kind.recorded? call = none

/-- Before the first request there is no array and there are no calls. -/
theorem follows_start {kind : LoadAware} {p : PolicyRef} {policies : Policies ρ σ}
    (h : (policies p).balancer = kind.balancer none 0) :
    Follows kind p (Gateway.start policies : Gateway V ρ σ) none := by
  refine ⟨⟨0, h⟩, ?_, ?_, ?_⟩
  · -- no array yet
    intro array hsome
    cases hsome
  · intro _ r hr
    cases hr
  · intro _ call hcall
    cases hcall

section
variable [RouteStrategy ρ] [Balancer σ] [Xxh3] {kind : LoadAware} {p : PolicyRef} {g g' : Gateway V ρ σ}
  {cells : Option (List UInt64)}

/-- **One move of a request of the policy.** By cases on `Records`. A call that is recorded is appended to the
    log and applied to the array; a new array holds zeros, and by `unseen` the fold over the calls so far is
    zero as well. -/
theorem Follows.moves (h : Follows kind p g cells) {r : Live V} (hmem : r ∈ g.requests)
    (hp : r.routeMeta.policy = p) {m : Move V} {phase : Phase V} {policy : Policy ρ σ}
    {calls : List PolicyCall} (hmoves : Moves r.routeMeta (g.policies p) r.phase m phase policy calls)
    (hpolicy : g'.policies p = policy)
    (hrequests : ∀ r' ∈ g'.requests, r' ∈ g.requests ∨ r' = { r with phase := phase })
    (hcalls : g'.callsTo p some = g.callsTo p some ++ calls) : ∃ cells', Follows kind p g' cells' := by
  obtain ⟨offset, hbalancer⟩ := h.balancer
  obtain ⟨cells', offset', hs', hrecords, hchosen⟩ := moves_records hmoves hbalancer
  -- no move takes the array away
  have hbefore : cells' = none → cells = none := by
    intro hnone
    cases hrecords with
    | silent _ hsilent => exact hnone
    | created _ hsilent hfresh => cases hnone
    | recorded call _ => exact Option.map_eq_none_iff.mp hnone
  refine ⟨cells', ⟨offset', by rw [hpolicy, hs']⟩, ?_, ?_, ?_⟩
  · intro array hsome i hi
    show array[i]? = some ((g'.callsTo p some).foldl (kind.after i) 0)
    rw [hcalls, List.foldl_append]
    cases hrecords with
    | silent _ hsilent =>
        rw [LoadAware.foldl_after hsilent]
        exact h.numbers array hsome i hi
    | created _ hsilent hfresh =>
        -- a new array, and nothing to record so far
        cases hsome
        rw [LoadAware.foldl_after hsilent, LoadAware.foldl_after (h.unseen hfresh), List.getElem?_replicate,
          if_pos (by simpa using hi)]
    | recorded call _ =>
        obtain ⟨before, hbefore, rfl⟩ := Option.map_eq_some_iff.mp hsome
        rw [List.length_mapIdx] at hi
        rw [List.getElem?_mapIdx, h.numbers before hbefore i hi]
        rfl
  · intro hnone r' hr' hp'
    have hcreated := h.created (hbefore hnone)
    rcases hrequests r' hr' with hold | rfl
    · exact hcreated r' hold hp'
    · exact hchosen hnone (hcreated r hmem hp)
  · intro hnone call hcall
    rw [hcalls] at hcall
    rcases List.mem_append.mp hcall with hold | hnew
    · exact h.unseen (hbefore hnone) call hold
    · cases hrecords with
      | silent _ hsilent => exact hsilent call hnew
      | created _ hsilent hfresh => exact hsilent call hnew
      | recorded _ hmade =>
          -- a request that makes the call has seen the array
          exact absurd (h.created (hbefore hnone) r hmem hp) hmade

/-- **Any step of the gateway**: an arrival, a move of a request of this policy, or one of another policy. -/
theorem Follows.step {routeMetas : List (RouteMeta (PipelineFn V))} {a : Act V} (h : Follows kind p g cells)
    (hstep : step routeMetas g a = some g') : ∃ cells', Follows kind p g' cells' := by
  cases a with
  | arrive routeIdx =>
      obtain ⟨routeMeta, -, rfl⟩ := step_arrive hstep
      refine ⟨cells, h.balancer, h.numbers, ?_, h.unseen⟩
      intro hnone r hr hp
      rcases List.mem_append.mp hr with hr | hr
      · exact h.created hnone r hr hp
      · obtain rfl := List.mem_singleton.mp hr
        rfl
  | move id m =>
      obtain ⟨r, phase, policy, calls, hr, hmoves, hg'⟩ := step_move hstep
      have hmem : r ∈ g.requests := List.mem_of_getElem? hr
      have hpolicies : g'.policies = Function.update g.policies r.routeMeta.policy policy :=
        congrArg Gateway.policies hg'
      have hrequests : ∀ r' ∈ g'.requests, r' ∈ g.requests ∨ r' = { r with phase := phase } := by
        rw [hg']
        intro r' hr'
        exact List.mem_or_eq_of_mem_set hr'
      have hcalls := callsTo_move (congrArg Gateway.log hg') p some
      rw [List.filterMap_some] at hcalls
      by_cases hp : r.routeMeta.policy = p
      · rw [if_pos hp] at hcalls
        rw [hp] at hmoves hpolicies
        exact h.moves hmem hp hmoves (by rw [hpolicies, Function.update_self]) hrequests hcalls
      · rw [if_neg hp, List.append_nil] at hcalls
        refine ⟨cells, ?_, ?_, ?_, ?_⟩
        · rw [hpolicies, Function.update_of_ne (Ne.symm hp)]
          exact h.balancer
        · intro array hsome i hi
          show array[i]? = some ((g'.callsTo p some).foldl (kind.after i) 0)
          rw [hcalls]
          exact h.numbers array hsome i hi
        · intro hnone r' hr' hp'
          rcases hrequests r' hr' with hold | rfl
          · exact h.created hnone r' hold hp'
          · exact absurd hp' hp
        · intro hnone
          rw [hcalls]
          exact h.unseen hnone

/-- The array of policy `p` has length `n` once it exists. -/
def Sized (n : Nat) (p : PolicyRef) (g : Gateway V ρ σ) : Prop :=
  ∀ array, (g.policies p).balancer.cells? = some array → array.length = n

/-- Routes on pools of one size keep an array of that size: it is created by a pick on such a pool, and updates
    do not change its length. -/
theorem Sized.step {routeMetas : List (RouteMeta (PipelineFn V))} {n : Nat} {offset : UInt64} {a : Act V}
    (hmetas : ∀ m ∈ routeMetas, m.policy = p → m.pool.len = n) (htable : FromTable routeMetas g)
    (hbalancer : (g.policies p).balancer = kind.balancer cells offset) (h : Sized n p g)
    (hstep : Apigate.step routeMetas g a = some g') : Sized n p g' := by
  cases a with
  | arrive routeIdx =>
      obtain ⟨routeMeta, -, rfl⟩ := step_arrive hstep
      exact h
  | move id m =>
      obtain ⟨r, phase, policy, calls, hr, hmoves, rfl⟩ := step_move hstep
      intro array hsome
      replace hsome : (Function.update g.policies r.routeMeta.policy policy p).balancer.cells? = some array := hsome
      by_cases hp : r.routeMeta.policy = p
      · rw [hp] at hmoves hsome
        obtain ⟨cells', offset', hbalancer', hrecords, -⟩ := moves_records hmoves hbalancer
        rw [Function.update_self, hbalancer', LoadAware.cells?_balancer] at hsome
        have hbefore : ∀ before, cells = some before → before.length = n := by
          intro before hcells
          apply h
          rw [hbalancer, LoadAware.cells?_balancer, hcells]
        cases hrecords with
        | silent _ _ => exact hbefore array hsome
        | created _ _ _ =>
            cases hsome
            rw [List.length_replicate]
            exact hmetas _ (htable.requests r (List.mem_of_getElem? hr)) hp
        | recorded call _ =>
            obtain ⟨before, hcells, rfl⟩ := Option.map_eq_some_iff.mp hsome
            rw [List.length_mapIdx]
            exact hbefore before hcells
      · rw [Function.update_of_ne (Ne.symm hp)] at hsome
        exact h array hsome

end
end Apigate
