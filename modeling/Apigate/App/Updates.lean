import Apigate.Balancing
import Apigate.Lib.Runs

/-!
# `App.Updates` — the update loop of least-time, load by load and exchange by exchange

In `App.Gateway` a call of `on_result` is one action. Here it is what the code does on the atomics of the
array: it loads its slot, computes the new value, and tries to exchange it until the exchange succeeds. Any
number of calls do this at once. The loads are relaxed, so the value that a load or a failed exchange returns
is the environment's choice; an exchange that succeeds has found the value it expected.
-/

namespace Apigate
open Lib

/-- Where a call of `on_result` is. -/
inductive CallPhase where
  /-- It has its slot and is about to load it. -/
  | entered
  /-- It is about to exchange `old` for the value computed from it. -/
  | looping (old : UInt64)
  /-- Its exchange has succeeded, and it has returned. -/
  | exchanged
  /-- It has returned without touching a slot. -/
  | ignored
  deriving DecidableEq

structure ResultCall where
  event : ResultEvent
  phase : CallPhase
  deriving DecidableEq

/-- The array, the calls so far, and the successful exchanges in their order. -/
structure Updates where
  cells : List UInt64
  calls : List ResultCall
  log : List (Nat × ResultEvent)
  deriving DecidableEq

inductive UpdateAct where
  | enter (event : ResultEvent)
  | load (call : Nat) (seen : UInt64)
  /-- The exchange succeeds. -/
  | exchange (call : Nat)
  /-- The exchange fails, spuriously or not. -/
  | fail (call : Nat) (actual : UInt64)

namespace Updates

/-- The array has just been created for a pool. -/
def start (poolLen : Nat) : Updates := ⟨List.replicate poolLen 0, [], []⟩

/-- The checks before the load: a failure or a backend without a slot is not recorded. -/
def enterPhase (cells : List UInt64) (event : ResultEvent) : CallPhase :=
  if event.error.isSome then .ignored
  else
    match cells[event.backendIndex]? with
    | some _ => .entered
    | none => .ignored

/-- `head_latency.as_micros() as u64`. -/
def sample (event : ResultEvent) : UInt64 := UInt64.ofNat event.headLatency.asMicros

def setPhase (u : Updates) (id : Nat) (call : ResultCall) (phase : CallPhase) : Updates :=
  { u with calls := u.calls.set id { call with phase := phase } }

/-- One action of one call. -/
def step (u : Updates) : UpdateAct → Option Updates
  | .enter event => some { u with calls := u.calls ++ [⟨event, enterPhase u.cells event⟩] }
  | .load id seen => do
      let call ← u.calls[id]?
      match call.phase with
      | .entered => some (u.setPhase id call (.looping seen))
      | _ => none
  | .exchange id => do
      let call ← u.calls[id]?
      match call.phase with
      | .looping old => do
          let slot ← u.cells[call.event.backendIndex]?
          -- `compare_exchange_weak` replaces the expected value only
          if slot = old then
            some { u.setPhase id call .exchanged with
              cells := u.cells.set call.event.backendIndex (LeastTime.ewma old (sample call.event))
              log := u.log ++ [(id, call.event)] }
          else none
      | _ => none
  | .fail id actual => do
      let call ← u.calls[id]?
      match call.phase with
      | .looping _ => some (u.setPhase id call (.looping actual))
      | _ => none

/-! ## What an action can do -/

/-- A call that goes on: it enters its loop or goes round it. -/
inductive GoesOn : CallPhase → CallPhase → Prop
  | load (seen : UInt64) : GoesOn .entered (.looping seen)
  | fail (old actual : UInt64) : GoesOn (.looping old) (.looping actual)

/-- **Every action is one of these.** -/
theorem step_cases {u u' : Updates} {a : UpdateAct} (h : u.step a = some u') :
    (∃ event, u' = { u with calls := u.calls ++ [⟨event, enterPhase u.cells event⟩] }) ∨
    (∃ id call phase, u.calls[id]? = some call ∧ GoesOn call.phase phase ∧ u' = u.setPhase id call phase) ∨
    ∃ id call old, u.calls[id]? = some call ∧ call.phase = .looping old ∧
      u.cells[call.event.backendIndex]? = some old ∧
      u' = { u.setPhase id call .exchanged with
        cells := u.cells.set call.event.backendIndex (LeastTime.ewma old (sample call.event))
        log := u.log ++ [(id, call.event)] } := by
  cases a with
  | enter event =>
      cases h
      exact Or.inl ⟨event, rfl⟩
  | load id seen =>
      simp only [step, Option.bind_eq_bind, Option.bind_eq_some_iff] at h
      obtain ⟨call, hcall, h⟩ := h
      cases hphase : call.phase with
      | entered =>
          rw [hphase] at h
          cases h
          exact Or.inr (Or.inl ⟨id, call, _, hcall, hphase ▸ .load seen, rfl⟩)
      | _ =>
          rw [hphase] at h
          cases h
  | exchange id =>
      simp only [step, Option.bind_eq_bind, Option.bind_eq_some_iff] at h
      obtain ⟨call, hcall, h⟩ := h
      cases hphase : call.phase with
      | looping old =>
          rw [hphase] at h
          simp only [Option.bind_eq_some_iff] at h
          obtain ⟨slot, hslot, h⟩ := h
          obtain ⟨rfl, hu'⟩ := Option.ite_none_right_eq_some.mp h
          cases hu'
          exact Or.inr (Or.inr ⟨id, call, slot, hcall, hphase, hslot, rfl⟩)
      | _ =>
          rw [hphase] at h
          cases h
  | fail id actual =>
      simp only [step, Option.bind_eq_bind, Option.bind_eq_some_iff] at h
      obtain ⟨call, hcall, h⟩ := h
      cases hphase : call.phase with
      | looping old =>
          rw [hphase] at h
          cases h
          exact Or.inr (Or.inl ⟨id, call, _, hcall, hphase ▸ .fail old actual, rfl⟩)
      | _ =>
          rw [hphase] at h
          cases h

end Updates
end Apigate
