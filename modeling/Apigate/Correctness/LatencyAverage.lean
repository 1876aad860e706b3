import Apigate.App.Updates
import Apigate.Lib.Smoothing

/-!
# `Correctness.LatencyAverage` — the latency average is sound

However the loads and exchanges of concurrent calls interleave, the array is what `LeastTime.onResult` makes of
the results one after the other, in the order of their successful exchanges (`Linearized`). On 64-bit words the
update rule is the moving average of `Lib.Smoothing`, without underflow or overflow, so what holds of that
average holds of every slot (`latency_average_sound`).

A call loads its slot, computes, and exchanges; another call may come between the load and the exchange, and a
relaxed load may return anything. None of this matters to the result, since an exchange succeeds only where the
slot holds the very value that the new one was computed from. So a successful exchange does at one moment what
the whole of `on_result` would do at that moment (`onResult_eq_set`), and every other action leaves the array as
it is. That is the invariant: fold `onResult` over the log of exchanges, and there is the array. With it goes
the bookkeeping, that a call is in the log once, and exactly if its phase says so.

What is left is about one slot and numbers. A slot sees of the results those that are successful and name it
(`ResultEvent.sampleAt`), and on those it is a fold of the rule. That the rule is the one on natural numbers has
to be shown of machine words: the share that is taken away is at most the old value, and old value and sample
bound the sum (`soundUpdate`).
-/

namespace Apigate
open Lib Runs Smoothing Updates

/-! ## The order of the exchanges

The order in which calls enter, load or return means nothing for the array. The log is that of the exchanges,
with the call that made each. -/

/-- The calls that have exchanged are those in the log, each once, and the array is what the atomic operation
    makes of their results in this order. -/
structure Linearized (n : Nat) (u : Updates) : Prop where
  array : ∀ offset, (u.log.map Prod.snd).foldl LeastTime.onResult ⟨some (List.replicate n 0), offset⟩ =
    ⟨some u.cells, offset⟩
  length : u.cells.length = n
  once : (u.log.map Prod.fst).Nodup
  counted : ∀ id event, (id, event) ∈ u.log ↔
    ∃ call, u.calls[id]? = some call ∧ call.event = event ∧ call.phase = .exchanged
  recorded : ∀ call ∈ u.calls,
    (call.phase = .ignored ↔ call.event.error.isSome = true ∨ n ≤ call.event.backendIndex)

/-- An array of zeros and no calls. -/
theorem linearized_start (n : Nat) : Linearized n (.start n) := by
  refine ⟨fun offset => rfl, List.length_replicate, List.nodup_nil, ?_, ?_⟩
  · intro id event
    constructor
    · rintro ⟨⟩
    · rintro ⟨call, ⟨⟩, -⟩
  · rintro call ⟨⟩

/-- A call is ignored at once or not at all. -/
theorem enterPhase_ignored_iff (cells : List UInt64) (event : ResultEvent) :
    enterPhase cells event = .ignored ↔ event.error.isSome = true ∨ cells.length ≤ event.backendIndex := by
  unfold enterPhase
  split
  · simp_all
  · rename_i herror
    split
    · rename_i slot hslot
      have hlt := (List.getElem?_eq_some_iff.mp hslot).1
      simp [herror]
      omega
    · rename_i hslot
      simp [List.getElem?_eq_none_iff.mp hslot]

/-- No call has exchanged when it enters. -/
theorem enterPhase_ne_exchanged (cells : List UInt64) (event : ResultEvent) :
    enterPhase cells event ≠ .exchanged := by
  unfold enterPhase
  split
  · simp
  · split <;> simp

/-- On a slot that is there the atomic operation is one assignment. -/
theorem onResult_eq_set {cells : List UInt64} {event : ResultEvent} {old : UInt64}
    (herror : event.error.isSome = false) (hslot : cells[event.backendIndex]? = some old) (offset : UInt64) :
    LeastTime.onResult ⟨some cells, offset⟩ event =
      ⟨some (cells.set event.backendIndex (LeastTime.ewma old (sample event))), offset⟩ := by
  have hmodify : cells.modify event.backendIndex (LeastTime.ewma · (sample event)) =
      cells.set event.backendIndex (LeastTime.ewma old (sample event)) := by
    rw [List.modify_eq_set, hslot]
    rfl
  unfold LeastTime.onResult
  rw [herror]
  show (⟨some (cells.modify event.backendIndex (LeastTime.ewma · (sample event))), offset⟩ : LeastTime) = _
  rw [hmodify]

/-! ## One action

A call enters, goes on in its loop, or exchanges; `Updates.step_cases` has the three of them. -/

section
variable {n : Nat} {u u' : Updates}

/-- A call that enters. It changes nothing but the list of calls, and is in the log no more than it has
    exchanged. -/
theorem Linearized.enter (h : Linearized n u) (event : ResultEvent) :
    Linearized n { u with calls := u.calls ++ [⟨event, enterPhase u.cells event⟩] } := by
  refine ⟨h.array, h.length, h.once, ?_, ?_⟩
  · intro id event'
    rw [h.counted]
    constructor
    · rintro ⟨call, hcall, hevent, hphase⟩
      have hlt := (List.getElem?_eq_some_iff.mp hcall).1
      exact ⟨call, by rw [List.getElem?_append_left hlt, hcall], hevent, hphase⟩
    · rintro ⟨call, hcall, hevent, hphase⟩
      rw [List.getElem?_append] at hcall
      split at hcall
      · exact ⟨call, hcall, hevent, hphase⟩
      · -- the new call has not exchanged
        obtain rfl := List.mem_singleton.mp (List.mem_of_getElem? hcall)
        exact absurd hphase (enterPhase_ne_exchanged u.cells event)
  · intro call hcall
    rcases List.mem_append.mp hcall with hold | hnew
    · exact h.recorded call hold
    · obtain rfl := List.mem_singleton.mp hnew
      rw [← h.length]
      exact enterPhase_ignored_iff u.cells event

/-- A call that is in its loop, or about to enter it, is not ignored. -/
theorem Linearized.in_loop (h : Linearized n u) {call : ResultCall} (hcall : call ∈ u.calls)
    (hphase : call.phase ≠ .ignored) : call.event.error.isSome = false ∧ call.event.backendIndex < n := by
  have hrecorded : ¬ (call.event.error.isSome = true ∨ n ≤ call.event.backendIndex) :=
    fun hor => hphase ((h.recorded call hcall).mpr hor)
  obtain ⟨herror, hindex⟩ := not_or.mp hrecorded
  exact ⟨Bool.eq_false_iff.mpr herror, Nat.lt_of_not_le hindex⟩

/-- A call moves from one phase in its loop to another. -/
theorem Linearized.setPhase (h : Linearized n u) {id : Nat} {call : ResultCall} (hcall : u.calls[id]? = some call)
    (hphase : call.phase ≠ .ignored) {phase : CallPhase} (hnext : phase ≠ .ignored) :
    ∀ c ∈ (u.setPhase id call phase).calls,
      (c.phase = .ignored ↔ c.event.error.isSome = true ∨ n ≤ c.event.backendIndex) := by
  have hmem := List.mem_of_getElem? hcall
  intro c hc
  rcases List.mem_or_eq_of_mem_set hc with hold | rfl
  · exact h.recorded c hold
  · -- its event is the one it was called with
    have hrecorded := h.recorded call hmem
    show phase = .ignored ↔ _
    constructor
    · intro hignored
      exact absurd hignored hnext
    · intro hor
      exact absurd (hrecorded.mpr hor) hphase

/-- A call that goes on is in its loop before and after. -/
theorem Updates.GoesOn.in_loop {phase phase' : CallPhase} (h : GoesOn phase phase') :
    (phase ≠ .ignored ∧ phase ≠ .exchanged) ∧ phase' ≠ .ignored ∧ phase' ≠ .exchanged := by
  cases h <;> simp

/-- A call that loads, or fails to exchange and loads again. -/
theorem Linearized.goesOn (h : Linearized n u) {id : Nat} {call : ResultCall} (hcall : u.calls[id]? = some call)
    {phase : CallPhase} (hgoes : GoesOn call.phase phase) : Linearized n (u.setPhase id call phase) := by
  obtain ⟨hbefore, hafter⟩ := hgoes.in_loop
  refine ⟨h.array, h.length, h.once, ?_, h.setPhase hcall hbefore.1 hafter.1⟩
  intro id' event
  show (id', event) ∈ u.log ↔ ∃ c, (u.calls.set id _)[id']? = some c ∧ c.event = event ∧ c.phase = .exchanged
  rw [h.counted, List.getElem?_set]
  have hlt := (List.getElem?_eq_some_iff.mp hcall).1
  by_cases hid : id = id'
  · -- the call has not exchanged, neither before nor after
    subst hid
    rw [if_pos rfl, if_pos hlt, hcall]
    constructor
    · rintro ⟨c, ⟨⟩, -, hexchanged⟩
      exact absurd hexchanged hbefore.2
    · rintro ⟨c, ⟨⟩, -, hexchanged⟩
      exact absurd hexchanged hafter.2
  · rw [if_neg hid]

/-- **The exchange.** The slot holds the value the call has computed from, so this is one application of the
    atomic operation at the end of the log. The call is not in the log yet, as its phase was another. -/
theorem Linearized.exchange (h : Linearized n u) {id : Nat} {call : ResultCall} (hcall : u.calls[id]? = some call)
    {old : UInt64} (hphase : call.phase = .looping old) (hslot : u.cells[call.event.backendIndex]? = some old) :
    Linearized n { u.setPhase id call .exchanged with
      cells := u.cells.set call.event.backendIndex (LeastTime.ewma old (sample call.event))
      log := u.log ++ [(id, call.event)] } := by
  have hin : call.phase ≠ .ignored := by
    rw [hphase]
    simp
  have hlt := (List.getElem?_eq_some_iff.mp hcall).1
  have hfresh : ∀ event, (id, event) ∉ u.log := by
    intro event hlogged
    obtain ⟨c, hc, -, hexchanged⟩ := (h.counted id event).mp hlogged
    rw [hcall] at hc
    cases hc
    rw [hphase] at hexchanged
    cases hexchanged
  refine ⟨?_, ?_, ?_, ?_, h.setPhase hcall hin (by simp)⟩
  · intro offset
    show ((u.log ++ [(id, call.event)]).map Prod.snd).foldl LeastTime.onResult _ = _
    rw [List.map_append, List.foldl_append, h.array]
    exact onResult_eq_set (h.in_loop (List.mem_of_getElem? hcall) hin).1 hslot offset
  · show (u.cells.set _ _).length = n
    rw [List.length_set, h.length]
  · show ((u.log ++ [(id, call.event)]).map Prod.fst).Nodup
    rw [List.map_append, List.map_singleton, List.nodup_append]
    refine ⟨h.once, by simp, ?_⟩
    intro logged hmem new hnew hsame
    obtain ⟨⟨id', event⟩, hlogged, rfl⟩ := List.mem_map.mp hmem
    obtain rfl := List.mem_singleton.mp hnew
    obtain rfl : id' = new := hsame
    exact hfresh event hlogged
  · intro id' event
    show (id', event) ∈ u.log ++ [(id, call.event)] ↔
      ∃ c, (u.calls.set id _)[id']? = some c ∧ c.event = event ∧ c.phase = .exchanged
    rw [List.mem_append, List.mem_singleton, h.counted, List.getElem?_set]
    by_cases hid : id = id'
    · subst hid
      rw [if_pos rfl, if_pos hlt, hcall]
      constructor
      · rintro (⟨c, ⟨⟩, -, hexchanged⟩ | heq)
        · rw [hphase] at hexchanged
          cases hexchanged
        · exact ⟨_, rfl, (congrArg Prod.snd heq).symm, rfl⟩
      · rintro ⟨c, ⟨⟩, rfl, -⟩
        exact Or.inr rfl
    · rw [if_neg hid]
      constructor
      · rintro (hexchanged | heq)
        · exact hexchanged
        · exact absurd (congrArg Prod.fst heq).symm hid
      · exact Or.inl

/-- **One action.** -/
theorem Linearized.step (h : Linearized n u) {a : UpdateAct} (hstep : u.step a = some u') : Linearized n u' := by
  rcases step_cases hstep with ⟨event, rfl⟩ | ⟨id, call, phase, hcall, hgoes, rfl⟩ |
    ⟨id, call, old, hcall, hphase, hslot, rfl⟩
  · exact h.enter event
  · exact h.goesOn hcall hgoes
  · exact h.exchange hcall hphase hslot

end

/-! ## The rule on 64-bit words

Division and the comparison with zero are the same on words as on numbers; subtraction and addition are if they
do not wrap around. -/

/-- The weight of a new sample. -/
abbrev weight : Nat := 10

/-- One application of the rule: nothing underflows or overflows, the result is the moving average's, and it
    goes towards the sample. -/
structure SoundUpdate (old s : UInt64) : Prop where
  noUnderflow : old.toNat / weight ≤ old.toNat
  noOverflow : old.toNat - old.toNat / weight + s.toNat / weight < 2 ^ 64
  exact : (LeastTime.ewma old s).toNat = smooth weight old.toNat s.toNat
  approaches : Approaches weight old.toNat s.toNat (LeastTime.ewma old s).toNat

/-- **The rule is sound for any two words.** The sum cannot overflow because the average of two numbers is at
    most the larger of them, and where there is no old value it is the sample. -/
theorem soundUpdate (old s : UInt64) : SoundUpdate old s := by
  have hold := old.toNat_lt
  have hs := s.toNat_lt
  have hunder : old.toNat / weight ≤ old.toNat := Nat.div_le_self _ _
  have hover : old.toNat - old.toNat / weight + s.toNat / weight < 2 ^ 64 := by
    have hmax := smooth_le_max weight old.toNat s.toNat
    unfold smooth at hmax
    split at hmax
    · rename_i hzero
      rw [hzero, Nat.zero_sub, Nat.zero_add]
      exact Nat.lt_of_le_of_lt (Nat.div_le_self _ _) hs
    · exact Nat.lt_of_le_of_lt hmax (Nat.max_lt.mpr ⟨hold, hs⟩)
  have hexact : (LeastTime.ewma old s).toNat = smooth weight old.toNat s.toNat := by
    have hshare : old / LeastTime.ewmaWeight ≤ old := by
      rw [UInt64.le_iff_toNat_le, UInt64.toNat_div]
      exact hunder
    unfold LeastTime.ewma smooth
    by_cases hzero : old = 0
    · rw [if_pos hzero, hzero]
      rfl
    · have hne : old.toNat ≠ 0 := fun h => hzero (UInt64.toNat_inj.mp h)
      rw [if_neg hzero, if_neg hne, UInt64.toNat_add, UInt64.toNat_sub_of_le _ _ hshare, UInt64.toNat_div,
        UInt64.toNat_div]
      exact Nat.mod_eq_of_lt hover
  exact ⟨hunder, hover, hexact, hexact ▸ smooth_approaches weight old.toNat s.toNat⟩

/-- A bound of the old value and the sample is one of the new value. -/
theorem ewma_lt {old s top : UInt64} (hold : old < top) (hs : s < top) : LeastTime.ewma old s < top := by
  rw [UInt64.lt_iff_toNat_lt] at hold hs ⊢
  rw [(soundUpdate old s).exact]
  exact Nat.lt_of_le_of_lt (smooth_le_max _ _ _) (Nat.max_lt.mpr ⟨hold, hs⟩)

/-- A positive sample leaves a positive value. -/
theorem ewma_ne_zero (old : UInt64) {s : UInt64} (hs : s ≠ 0) : LeastTime.ewma old s ≠ 0 := by
  intro hzero
  have hexact := (soundUpdate old s).exact
  rw [hzero] at hexact
  obtain ⟨-, hsample⟩ := (smooth_eq_zero_iff (by decide)).mp hexact.symm
  exact hs (UInt64.toNat_inj.mp hsample)

/-! ## One slot

The results for other slots and the failures are passed over, so that a slot is a fold of its own samples. -/

/-- The latency in microseconds that a result teaches about backend `i`; a failure teaches nothing. -/
def ResultEvent.sampleAt (i : Nat) (event : ResultEvent) : Option Nat :=
  if event.error.isSome then none
  else if event.backendIndex = i then some event.headLatency.asMicros
  else none

/-- The samples of slot `i` in the order of their exchanges. -/
def Updates.samples (u : Updates) (i : Nat) : List Nat := (u.log.map Prod.snd).filterMap (ResultEvent.sampleAt i)

/-- The slot is the fold of the samples; it is 0 exactly when all of them are, and lies between the smallest and
    the largest one. -/
structure SoundAverage (samples : List Nat) (slot : UInt64) : Prop where
  fold : slot.toNat = samples.foldl (smooth weight) 0
  zero : slot = 0 ↔ ∀ s ∈ samples, s = 0
  between : samples ≠ [] → (∃ s ∈ samples, s ≤ slot.toNat) ∧ ∃ s ∈ samples, slot.toNat ≤ s

/-- What holds of every fold of the rule that starts with zero. -/
theorem SoundAverage.of_fold {samples : List Nat} {slot : UInt64}
    (h : slot.toNat = samples.foldl (smooth weight) 0) : SoundAverage samples slot := by
  refine ⟨h, ?_, ?_⟩
  · rw [← foldl_smooth_eq_zero_iff (by decide : 1 < weight), ← h, ← UInt64.toNat_inj]
    rfl
  · intro hne
    rw [h]
    exact foldl_smooth_between hne

/-- **The slots after a sequence of results**, taken as the atomic operation takes them. By induction from the
    end: the last result is a failure, or it is a sample of this slot, or of another. -/
theorem onResult_slots (n : Nat) (events : List ResultEvent)
    (hbounded : ∀ event ∈ events, event.error = none → event.headLatency.asMicros < 2 ^ 64) :
    ∃ cells, events.foldl LeastTime.onResult ⟨some (List.replicate n 0), 0⟩ = ⟨some cells, 0⟩ ∧
      ∀ i < n, ∃ slot, cells[i]? = some slot ∧
        slot.toNat = (events.filterMap (ResultEvent.sampleAt i)).foldl (smooth weight) 0 := by
  induction events using List.reverseRecOn with
  | nil =>
      refine ⟨_, rfl, ?_⟩
      intro i hi
      exact ⟨0, by rw [List.getElem?_replicate, if_pos hi], rfl⟩
  | append_singleton events event ih =>
      obtain ⟨cells, hcells, hslots⟩ := ih fun event hevent => hbounded event (List.mem_append_left _ hevent)
      rw [List.foldl_append, hcells]
      cases herror : event.error with
      | some e =>
          -- a failure leaves the array as it is
          refine ⟨cells, ?_, ?_⟩
          · simp [LeastTime.onResult, herror]
          · intro i hi
            rw [List.filterMap_append]
            simpa [ResultEvent.sampleAt, herror] using hslots i hi
      | none =>
          have hlt := hbounded event (List.mem_append_right _ (List.mem_singleton.mpr rfl)) herror
          have hsample : (UInt64.ofNat event.headLatency.asMicros).toNat = event.headLatency.asMicros := by
            rw [UInt64.toNat_ofNat']
            exact Nat.mod_eq_of_lt hlt
          refine ⟨cells.modify event.backendIndex
            (LeastTime.ewma · (UInt64.ofNat event.headLatency.asMicros)), ?_, ?_⟩
          · simp [LeastTime.onResult, herror]
          · intro i hi
            obtain ⟨slot, hslot, hfold⟩ := hslots i hi
            rw [List.getElem?_modify, hslot, List.filterMap_append]
            by_cases hindex : event.backendIndex = i
            · -- one sample more
              refine ⟨LeastTime.ewma slot (UInt64.ofNat event.headLatency.asMicros), by simp [hindex], ?_⟩
              have hnew : [event].filterMap (ResultEvent.sampleAt i) = [event.headLatency.asMicros] := by
                simp [ResultEvent.sampleAt, herror, hindex]
              rw [hnew, foldl_smooth_concat, ← hfold, (soundUpdate slot _).exact, hsample]
            · refine ⟨slot, by simp [hindex], ?_⟩
              have hnew : [event].filterMap (ResultEvent.sampleAt i) = [] := by
                simp [ResultEvent.sampleAt, herror, hindex]
              rw [hnew, List.append_nil]
              exact hfold

/-! ## The main result -/

/-- **The latency average is sound**, in every state of every interleaving: the calls that have exchanged are
    counted once each, failures and backends without a slot never; every slot is the fold of its samples in the
    order of their exchanges; and the rule is exact and goes towards the sample. -/
theorem latency_average_sound {n : Nat} {acts : List UpdateAct} {u : Updates}
    (hrun : run Updates.step (.start n) acts = some u)
    (hbounded : ∀ call ∈ u.calls, call.event.error = none → call.event.headLatency.asMicros < 2 ^ 64) :
    (u.log.map Prod.fst).Nodup ∧
    (∀ id event, (id, event) ∈ u.log ↔
      ∃ call, u.calls[id]? = some call ∧ call.event = event ∧ call.phase = .exchanged) ∧
    (∀ call ∈ u.calls,
      (call.phase = .ignored ↔ call.event.error.isSome = true ∨ n ≤ call.event.backendIndex)) ∧
    (∀ i < n, ∃ slot, u.cells[i]? = some slot ∧ SoundAverage (u.samples i) slot) ∧
    ∀ old s, SoundUpdate old s := by
  have hlinearized : Linearized n u :=
    invariant_of_run (fun _ _ _ h hstep => h.step hstep) (linearized_start n) hrun
  refine ⟨hlinearized.once, hlinearized.counted, hlinearized.recorded, ?_, soundUpdate⟩
  have hevents : ∀ event ∈ u.log.map Prod.snd, event.error = none → event.headLatency.asMicros < 2 ^ 64 := by
    intro event hevent
    obtain ⟨⟨id, event⟩, hlogged, rfl⟩ := List.mem_map.mp hevent
    obtain ⟨call, hcall, rfl, -⟩ := (hlinearized.counted id event).mp hlogged
    exact hbounded call (List.mem_of_getElem? hcall)
  obtain ⟨cells, hcells, hslots⟩ := onResult_slots n _ hevents
  rw [hlinearized.array 0] at hcells
  cases hcells
  intro i hi
  obtain ⟨slot, hslot, hfold⟩ := hslots i hi
  exact ⟨slot, hslot, SoundAverage.of_fold hfold⟩

/-! ## Example -/

/-- A successful result on backend 0 after so many microseconds. -/
def answered (micros : Nat) : ResultEvent := ⟨str "sales", 0, some 200, none, micros * 1000⟩

/-- Two calls that load the same value; the second exchange fails, and fails once more spuriously. -/
def contended : List UpdateAct :=
  [.enter (answered 5000), .enter (answered 300), .load 0 0, .load 1 0, .exchange 0, .fail 1 5000, .fail 1 5000,
    .exchange 1]

def contendedEnd : Updates :=
  ⟨[4530], [⟨answered 5000, .exchanged⟩, ⟨answered 300, .exchanged⟩], [(0, answered 5000), (1, answered 300)]⟩

/-- The theorem after this interleaving. -/
theorem latency_average_sound_contended :
    (contendedEnd.log.map Prod.fst).Nodup ∧
    (∀ id event, (id, event) ∈ contendedEnd.log ↔
      ∃ call, contendedEnd.calls[id]? = some call ∧ call.event = event ∧ call.phase = .exchanged) ∧
    (∀ call ∈ contendedEnd.calls,
      (call.phase = .ignored ↔ call.event.error.isSome = true ∨ 1 ≤ call.event.backendIndex)) ∧
    (∀ i < 1, ∃ slot, contendedEnd.cells[i]? = some slot ∧ SoundAverage (contendedEnd.samples i) slot) ∧
    ∀ old s, SoundUpdate old s :=
  @latency_average_sound 1 contended contendedEnd (by decide) (by decide)

end Apigate
