import Apigate.Balancing
import Apigate.Lib.Rotation
import Apigate.Lib.Scan

/-!
# `Correctness.LeastScan` — the scan of the least-request and least-time balancers

The scan goes round the candidates from a rotating offset and keeps the first least one. The position is
computed as `(offset + i) % len` on machine integers: where `offset + i` wraps on the way, and the number of
candidates does not divide the counter's range, some candidate is visited twice and another one never
(`least_pick_minimum_iff`).

Two questions are kept apart. What does the scan pick of the candidates that it meets? The loop of the source is
the scan of `Lib.Scan`, so this is the first one with the least number, wherever the offset is
(`pickLeast_eq_argmin`); all that is needed is that no number is the maximum with which the loop begins. And
which candidates does it meet? This is a question about remainders, and `Lib.Rotation` answers it: the positions
are a rotation of the candidates unless the sum wraps, and even then if their number divides `2^64`; otherwise
they are no permutation at all. The condition `Unbroken` is about the second question only, and the loads do not
enter.
-/

namespace Apigate
open Lib Rotation Scan

/-- The number the scan compares for a backend. -/
def cellAt (cells : List UInt64) (i : Nat) : UInt64 := cells[i]?.getD 0

/-- The source's loop is a scan. -/
theorem leastStep_eq (ctx : BalanceCtx) (cells : List UInt64) (offset : UInt64) :
    leastStep ctx cells offset = visit (fun k =>
      ctx.candidateIndex ((offset + UInt64.ofNat k).toNat % ctx.candidateLen)) (cellAt cells) := by
  funext best k
  unfold leastStep visit cellAt
  dsimp only
  cases ctx.candidateIndex ((offset + UInt64.ofNat k).toNat % ctx.candidateLen) <;> rfl

/-- The position computed in round `k`: the sum restarts at `2^64`. -/
theorem position_eq (offset : UInt64) (k n : Nat) :
    (offset + UInt64.ofNat k).toNat % n = (offset.toNat + k) % 2 ^ 64 % n := by
  rw [UInt64.toNat_add, UInt64.toNat_ofNat', Nat.add_mod_mod]

/-! ## A true minimum

First which candidates the scan meets, then what it picks of them. -/

/-- The positions that a scan visits, in order. -/
def visited (ctx : BalanceCtx) (offset : UInt64) : List Nat :=
  (List.range ctx.candidateLen).map fun i => (offset + UInt64.ofNat i).toNat % ctx.candidateLen

/-- Every candidate is visited exactly once, and what is picked is the first one of minimal load in cyclic order
    from the offset. -/
structure PicksMinimum (ctx : BalanceCtx) (cells : List UInt64) (offset : UInt64) (picked : Option Nat) :
    Prop where
  once : (visited ctx offset).Perm (List.range ctx.candidateLen)
  first : picked =
    (ctx.candidateList.rotate (offset.toNat % ctx.candidateLen)).argmin fun i => (cellAt cells i).toNat

/-- The offset does not wrap within the scan, or the number of candidates divides the counter's range. -/
def Unbroken (offset : UInt64) (len : Nat) : Prop := offset.toNat + len ≤ 2 ^ 64 ∨ len ∣ 2 ^ 64

/-- Every position is visited once exactly if the scan is unbroken. -/
theorem visited_perm_iff (ctx : BalanceCtx) (offset : UInt64) :
    (visited ctx offset).Perm (List.range ctx.candidateLen) ↔ Unbroken offset ctx.candidateLen := by
  have hvisited : visited ctx offset = scanned (2 ^ 64) ctx.candidateLen offset.toNat := by
    apply List.map_congr_left
    intro k _
    exact position_eq offset k ctx.candidateLen
  rw [hvisited]
  exact scanned_perm_iff offset.toNat_lt

/-- The candidates in the order in which the scan meets them. -/
def met (ctx : BalanceCtx) (offset : UInt64) : List Nat :=
  (List.range ctx.candidateLen).filterMap fun k =>
    ctx.candidateIndex ((offset + UInt64.ofNat k).toNat % ctx.candidateLen)

/-- What the scan meets is a candidate. -/
theorem mem_met {ctx : BalanceCtx} {offset : UInt64} {i : Nat} (h : i ∈ met ctx offset) :
    i ∈ ctx.candidateList := by
  obtain ⟨k, -, hk⟩ := List.mem_filterMap.mp h
  rw [BalanceCtx.candidateIndex_eq] at hk
  exact List.mem_of_getElem? hk

/-- Every position of the scan is that of a candidate, wherever the offset wraps. -/
theorem met_eq_nil_iff {ctx : BalanceCtx} {offset : UInt64} : met ctx offset = [] ↔ ctx.candidateLen = 0 := by
  unfold met
  constructor
  · intro hnil
    by_contra hne
    have hpos : 0 < ctx.candidateLen := Nat.pos_of_ne_zero hne
    have hnone := List.filterMap_eq_nil_iff.mp hnil 0 (List.mem_range.mpr hpos)
    have hlt : (offset + UInt64.ofNat 0).toNat % ctx.candidateLen < ctx.candidateList.length := by
      rw [ctx.length_candidateList]
      exact Nat.mod_lt _ hpos
    rw [ctx.candidateIndex_eq, List.getElem?_eq_getElem hlt] at hnone
    cases hnone
  · intro hzero
    rw [hzero]
    rfl

/-- An unbroken scan meets the candidates in cyclic order. -/
theorem met_eq {ctx : BalanceCtx} {offset : UInt64} (h : Unbroken offset ctx.candidateLen) :
    met ctx offset = ctx.candidateList.rotate (offset.toNat % ctx.candidateLen) := by
  unfold met
  rw [← ctx.length_candidateList, List.rotate_mod, ← filterMap_rotate]
  apply List.filterMap_congr
  intro k hk
  rw [List.mem_range, ctx.length_candidateList] at hk
  rw [ctx.candidateIndex_eq, position_eq, ctx.length_candidateList, mod_mod_of_unbroken hk h]

/-- A missing slot counts as 0, so what is read is below the maximum where the slots are. -/
theorem cellAt_lt {cells : List UInt64} {top : UInt64} (hbelow : ∀ v ∈ cells, v < top) (hpos : 0 < top) (i : Nat) :
    cellAt cells i < top := by
  unfold cellAt
  cases hcell : cells[i]? with
  | none => exact hpos
  | some v => exact hbelow v (List.mem_of_getElem? hcell)

/-- **The scan finds the first least of the candidates it meets.** -/
theorem pickLeast_eq_argmin (ctx : BalanceCtx) {cells : List UInt64}
    (hbelow : ∀ v ∈ cells, v < 18446744073709551615) (offset : UInt64) :
    pickLeast ctx cells offset = (met ctx offset).argmin fun i => (cellAt cells i).toNat := by
  unfold pickLeast
  rw [leastStep_eq, foldl_visit_eq]
  apply scan_eq_argmin UInt64.toNat
  · intro v w
    exact UInt64.lt_iff_toNat_lt
  · intro i _
    exact cellAt_lt hbelow (by decide) i

/-- So it picks the first least of them all. -/
theorem pickLeast_eq {ctx : BalanceCtx} {cells : List UInt64} {offset : UInt64}
    (hbelow : ∀ v ∈ cells, v < 18446744073709551615) (h : Unbroken offset ctx.candidateLen) :
    pickLeast ctx cells offset =
      (ctx.candidateList.rotate (offset.toNat % ctx.candidateLen)).argmin fun i => (cellAt cells i).toNat := by
  rw [pickLeast_eq_argmin ctx hbelow, met_eq h]

/-- The pick is a true minimum exactly in an unbroken scan. One direction is that such a scan meets the
    candidates in cyclic order; for the other the pick itself does not matter, as the visits are part of what is
    asked. -/
theorem picksMinimum_iff {ctx : BalanceCtx} {cells : List UInt64} {offset : UInt64}
    (hbelow : ∀ v ∈ cells, v < 18446744073709551615) :
    PicksMinimum ctx cells offset (pickLeast ctx cells offset) ↔ Unbroken offset ctx.candidateLen := by
  constructor
  · intro h
    exact (visited_perm_iff ctx offset).mp h.once
  · intro h
    exact ⟨(visited_perm_iff ctx offset).mpr h, pickLeast_eq hbelow h⟩

/-- **Least-request and least-time choose a true minimum, unless the offset wraps within a scan** whose number
    of candidates does not divide `2^64`. -/
theorem least_pick_minimum_iff {ctx : BalanceCtx} (hne : ctx.candidateLen ≠ 0) {cells : Option (List UInt64)}
    (hbelow : ∀ v ∈ getOrInit cells ctx.pool.len, v < 18446744073709551615) (offset : UInt64) :
    (PicksMinimum ctx (getOrInit cells ctx.pool.len) offset (LeastRequest.pick ⟨cells, offset⟩ ctx).1 ↔
        Unbroken offset ctx.candidateLen) ∧
      (PicksMinimum ctx (getOrInit cells ctx.pool.len) offset (LeastTime.pick ⟨cells, offset⟩ ctx).1 ↔
        Unbroken offset ctx.candidateLen) := by
  have hrequest : (LeastRequest.pick ⟨cells, offset⟩ ctx).1 =
      pickLeast ctx (getOrInit cells ctx.pool.len) offset := by
    unfold LeastRequest.pick
    rw [if_neg hne]
  have htime : (LeastTime.pick ⟨cells, offset⟩ ctx).1 =
      pickLeast ctx (getOrInit cells ctx.pool.len) offset := by
    unfold LeastTime.pick
    rw [if_neg hne]
  rw [hrequest, htime]
  exact ⟨picksMinimum_iff hbelow, picksMinimum_iff hbelow⟩

/-! ## Backends that read zero

Corollaries for the case that all backends are candidates. Nothing is less than zero, so the first that reads
zero is picked. -/

section
variable {ctx : BalanceCtx} {cells : List UInt64} {offset : UInt64}

/-- Where all backends are eligible, the candidates are the slots. -/
theorem candidates_all (hall : ctx.candidates = .all) :
    ctx.candidateLen = ctx.pool.len ∧ ctx.candidateList = List.range ctx.pool.len := by
  unfold BalanceCtx.candidateLen BalanceCtx.candidateList
  rw [hall]
  exact ⟨rfl, rfl⟩

/-- The scan begins at the slot of its turn. -/
theorem met_all (hall : ctx.candidates = .all) (hpos : 0 < ctx.pool.len) (offset : UInt64) :
    ∃ others, met ctx offset = offset.toNat % ctx.pool.len :: others := by
  obtain ⟨hlen, hlist⟩ := candidates_all hall
  obtain ⟨len, hsucc⟩ := Nat.exists_eq_succ_of_ne_zero (Nat.ne_of_gt hpos)
  have hfirst : ctx.candidateIndex ((offset + UInt64.ofNat 0).toNat % ctx.candidateLen) =
      some (offset.toNat % ctx.pool.len) := by
    have hlt : offset.toNat % ctx.pool.len < ctx.pool.len := Nat.mod_lt _ hpos
    rw [position_eq, Nat.add_zero, Nat.mod_eq_of_lt offset.toNat_lt, hlen, ctx.candidateIndex_eq, hlist,
      List.getElem?_range hlt]
  unfold met
  rw [hlen, hsucc, List.range_succ_eq_map, ← hsucc, ← hlen, List.filterMap_cons, hfirst, hlen]
  exact ⟨_, rfl⟩

/-- A backend that reads zero takes its own turn. -/
theorem pickLeast_turn (hall : ctx.candidates = .all) (hpos : 0 < ctx.pool.len)
    (hbelow : ∀ v ∈ cells, v < 18446744073709551615)
    (hzero : cellAt cells (offset.toNat % ctx.pool.len) = 0) :
    pickLeast ctx cells offset = some (offset.toNat % ctx.pool.len) := by
  obtain ⟨others, hmet⟩ := met_all hall hpos offset
  rw [pickLeast_eq_argmin ctx hbelow, hmet, List.argmin_eq_some_iff]
  refine ⟨List.mem_cons_self, ?_, ?_⟩
  · intro i _
    rw [hzero]
    exact Nat.zero_le _
  · intro i _ _
    rw [List.idxOf_cons_self]
    exact Nat.zero_le _

/-- The only backend that reads zero takes every turn whose scan meets it. -/
theorem pickLeast_only (hall : ctx.candidates = .all) (hbelow : ∀ v ∈ cells, v < 18446744073709551615)
    (hunbroken : Unbroken offset ctx.pool.len) {d : Nat} (hd : d < ctx.pool.len) (hzero : cellAt cells d = 0)
    (hothers : ∀ i < ctx.pool.len, i ≠ d → cellAt cells i ≠ 0) : pickLeast ctx cells offset = some d := by
  obtain ⟨hlen, hlist⟩ := candidates_all hall
  have hmem : ∀ i, i ∈ met ctx offset ↔ i < ctx.pool.len := by
    intro i
    rw [met_eq (by rw [hlen]; exact hunbroken), List.mem_rotate, hlist, List.mem_range]
  rw [pickLeast_eq_argmin ctx hbelow]
  cases hpick : (met ctx offset).argmin fun i => (cellAt cells i).toNat with
  | none =>
      rw [List.argmin_eq_none] at hpick
      have hmet := (hmem d).mpr hd
      rw [hpick] at hmet
      cases hmet
  | some i =>
      have hle := List.le_of_mem_argmin ((hmem d).mpr hd) hpick
      rw [hzero] at hle
      have hread : cellAt cells i = 0 := UInt64.toNat_inj.mp (Nat.le_zero.mp hle)
      by_contra hne
      have hother : i ≠ d := fun heq => hne (congrArg some heq)
      exact hothers i ((hmem i).mp (List.argmin_mem hpick)) hother hread

end

/-! ## Examples -/

/-- Three backends, all of them candidates. -/
def threeCandidates : BalanceCtx :=
  ⟨str "sales", none, .new (List.replicate 3 ⟨str "http", str "up", str "http://up", str "up"⟩), .all⟩

/-- The theorem at three candidates and the loads 5, 5, 0. -/
theorem least_pick_minimum_iff_three :
    (PicksMinimum threeCandidates (getOrInit (some [5, 5, 0]) 3) 4
        (LeastRequest.pick ⟨some [5, 5, 0], 4⟩ threeCandidates).1 ↔ Unbroken 4 threeCandidates.candidateLen) ∧
      (PicksMinimum threeCandidates (getOrInit (some [5, 5, 0]) 3) 4
        (LeastTime.pick ⟨some [5, 5, 0], 4⟩ threeCandidates).1 ↔ Unbroken 4 threeCandidates.candidateLen) :=
  @least_pick_minimum_iff threeCandidates (by decide) (some [5, 5, 0]) (by simp [getOrInit]) 4

/-- **At the wrap point the idle backend is never visited.** -/
theorem wrapped_scan_misses_minimum :
    visited threeCandidates 18446744073709551615 = [0, 0, 1] ∧
      (LeastRequest.pick ⟨some [5, 5, 0], 18446744073709551615⟩ threeCandidates).1 = some 0 ∧
      (LeastTime.pick ⟨some [5, 5, 0], 18446744073709551615⟩ threeCandidates).1 = some 0 ∧
      cellAt [5, 5, 0] 2 < cellAt [5, 5, 0] 0 ∧
      ∀ picked, ¬ PicksMinimum threeCandidates [5, 5, 0] 18446744073709551615 picked := by
  have hvisited : visited threeCandidates 18446744073709551615 = [0, 0, 1] := by decide
  refine ⟨hvisited, by decide, by decide, by decide, ?_⟩
  intro picked h
  have hnodup := h.once.nodup_iff.mpr List.nodup_range
  rw [hvisited] at hnodup
  exact absurd hnodup (by decide)

end Apigate
