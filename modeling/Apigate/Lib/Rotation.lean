import Mathlib.Data.Int.CardIntervalMod
import Mathlib.Data.List.Rotate

/-!
# `Lib.Rotation` — who gets the turns of a rotating counter

A counter that restarts at zero every `M` steps gives turn `k` to slot `k % M % n`. Over any stretch of turns
the shares of two slots differ by at most one, plus one for each restart on the way; and a scan of `n` slots
from any start sees each of them.

The turns that a slot has had among the first `b` are counted as complete laps of `M` turns and a lap under way
(`turns_eq`), and within a lap by the remainders of division (`residues_eq`). A slot with a smaller number is
ahead by one at most in each lap, and never behind; so a stretch that spans several laps adds up one for each
restart in it.

A scan of `n` positions whose counter restarts on the way is the exception. It looks at every slot exactly once
if the restart does not show, because it lies outside of the scan or because `n` divides `M`, and otherwise it
looks at some slot twice (`scanned_perm_iff`).
-/

namespace Lib
namespace Rotation

variable {M n i j : Nat}

/-! ## Between two restarts -/

/-- How many of the numbers below `m` leave remainder `i`. -/
def residues (n i m : Nat) : Nat := m.count (· % n = i)

theorem residues_eq (hi : i < n) (m : Nat) :
    residues n i m = m / n + if i < m % n then 1 else 0 := by
  have hn : 0 < n := by omega
  have hcount := Nat.count_modEq_card m hn i
  simp only [Nat.ModEq, Nat.mod_eq_of_lt hi] at hcount
  exact hcount

/-- A smaller slot is served earlier. -/
theorem residues_le_of_le (hij : i ≤ j) (hj : j < n) (m : Nat) : residues n j m ≤ residues n i m := by
  rw [residues_eq hj, residues_eq (by omega)]
  split <;> split <;> omega

theorem residues_le_succ (hi : i < n) (hj : j < n) (m : Nat) : residues n i m ≤ residues n j m + 1 := by
  rw [residues_eq hi, residues_eq hj]
  split <;> split <;> omega

/-! ## Across restarts

Turns from the first one on. A stretch is the difference of two such counts, and the statements are written with
sums to stay within the natural numbers. -/

/-- How many of the first `b` turns slot `i` gets. -/
def turns (M n i b : Nat) : Nat := b.count (fun k => k % M % n = i)

theorem turns_succ (M n i b : Nat) :
    turns M n i (b + 1) = turns M n i b + if b % M % n = i then 1 else 0 :=
  Nat.count_succ _ _

/-- Complete laps, and the lap that is under way. By induction on the number of turns: the next one belongs to
    the same lap, or it completes it. -/
theorem turns_eq (hM : 0 < M) (b : Nat) :
    turns M n i b = b / M * residues n i M + residues n i (b % M) := by
  induction b with
  | zero => simp [turns, residues]
  | succ b ih =>
      have hlt : b % M < M := Nat.mod_lt b hM
      have hnext : residues n i (b % M + 1) = residues n i (b % M) + if b % M % n = i then 1 else 0 :=
        Nat.count_succ _ _
      rw [turns_succ, ih]
      rcases Nat.lt_or_ge (b % M + 1) M with hin | hend
      · have hdiv : (b + 1) / M = b / M := by
          rw [Nat.succ_div, if_neg, Nat.add_zero]
          intro hdvd
          have hzero := Nat.mod_eq_zero_of_dvd hdvd
          rw [Nat.add_mod, Nat.mod_eq_of_lt (a := 1) (by omega), Nat.mod_eq_of_lt hin] at hzero
          omega
        have hmod : (b + 1) % M = b % M + 1 := by
          rw [Nat.add_mod, Nat.mod_eq_of_lt (a := 1) (by omega), Nat.mod_eq_of_lt hin]
        rw [hdiv, hmod, hnext]
        omega
      · -- the last turn of a lap
        have hlast : b % M + 1 = M := by omega
        have hb : b + 1 = M * (b / M + 1) := by
          have hsplit := Nat.div_add_mod b M
          rw [Nat.mul_succ]
          omega
        have hdiv : (b + 1) / M = b / M + 1 := by rw [hb, Nat.mul_div_cancel_left _ hM]
        have hmod : (b + 1) % M = 0 := by rw [hb, Nat.mul_mod_right]
        have hlap : residues n i M = residues n i (b % M) + if b % M % n = i then 1 else 0 := by
          rw [← hnext, hlast]
        have hzero : residues n i 0 = 0 := rfl
        rw [hdiv, hmod, hzero, Nat.succ_mul]
        omega

/-- The turns up to and including turn `b`. -/
theorem turns_succ_eq (hM : 0 < M) (b : Nat) :
    turns M n i (b + 1) = b / M * residues n i M + residues n i (b % M + 1) := by
  have hnext : residues n i (b % M + 1) = residues n i (b % M) + if b % M % n = i then 1 else 0 :=
    Nat.count_succ _ _
  rw [turns_succ, turns_eq hM, hnext, Nat.add_assoc]

/-- How often the counter restarts in a stretch of `len` turns, after the first of them. -/
def restarts (M start len : Nat) : Nat := (start + len - 1) / M - start / M

/-- **The turns of two slots in a stretch.** The counts at both ends are split into laps. By cases on which slot
    comes first: if it is `i`, each complete lap may give it one turn more, and so may the lap at the end, while
    at the start it has had its turn already; if it is `j`, only the lap at the start can cost one. -/
theorem turns_between (hM : 0 < M) (hi : i < n) (hj : j < n) (start len : Nat) :
    turns M n i (start + len) + turns M n j start ≤
      turns M n j (start + len) + turns M n i start + 1 + restarts M start len := by
  cases len with
  | zero =>
      rw [Nat.add_zero]
      omega
  | succ len =>
      have hmono : start / M ≤ (start + len) / M := Nat.div_le_div_right (by omega)
      obtain ⟨laps, hlaps⟩ := Nat.exists_eq_add_of_le hmono
      have hrestarts : restarts M start (len + 1) = laps := by
        show (start + len) / M - start / M = laps
        omega
      rw [← Nat.add_assoc, turns_succ_eq hM, turns_succ_eq hM, turns_eq hM start, turns_eq hM start, hrestarts,
        hlaps, Nat.add_mul, Nat.add_mul]
      have hend := residues_le_succ hi hj ((start + len) % M + 1)
      -- in a complete lap slot `i` gets at most one turn more, and none more if it comes after `j`
      rcases Nat.le_total i j with hij | hji
      · have hlap : laps * residues n i M ≤ laps * residues n j M + laps := by
          calc laps * residues n i M ≤ laps * (residues n j M + 1) :=
                Nat.mul_le_mul_left _ (residues_le_succ hi hj M)
            _ = laps * residues n j M + laps := Nat.mul_succ _ _
        have hstart := residues_le_of_le hij hj (start % M)
        omega
      · have hlap : laps * residues n i M ≤ laps * residues n j M :=
          Nat.mul_le_mul_left _ (residues_le_of_le hji hi M)
        have hstart := residues_le_succ hj hi (start % M)
        have hend' := residues_le_of_le hji hi ((start + len) % M + 1)
        omega

/-! ## Shares in a schedule

A schedule is a list of entries, of which some follow the counter and others do not. An entry that does not
follow it still uses up a turn, which costs the slot of that turn one entry at most. -/

section
variable {α : Type} {own : α → Bool} {slot : α → Nat}

/-- Turn `start` is taken by the first entry. -/
theorem turns_cons (M n i start len : Nat) :
    turns M n i (start + (len + 1)) + turns M n i (start + 1) =
      turns M n i (start + 1 + len) + turns M n i start + if start % M % n = i then 1 else 0 := by
  have hsame : start + (len + 1) = start + 1 + len := by omega
  rw [hsame, turns_succ]
  omega

/-- Entries that take the slot of their turn get no more turns than the slot has, and miss no more of them than
    there are other entries. -/
theorem share_bounds (schedule : List α) (start : Nat)
    (hslot : ∀ k e, schedule[k]? = some e → own e = true → slot e = (start + k) % M % n) (i : Nat) :
    schedule.countP (fun e => own e && slot e == i) + turns M n i start ≤
        turns M n i (start + schedule.length) ∧
      turns M n i (start + schedule.length) ≤
        schedule.countP (fun e => own e && slot e == i) + turns M n i start +
          schedule.countP (fun e => !own e) := by
  induction schedule generalizing start with
  | nil => simp
  | cons e schedule ih =>
      have hrest : ∀ k e', schedule[k]? = some e' → own e' = true →
          slot e' = (start + 1 + k) % M % n := by
        intro k e' hget hown
        have h := hslot (k + 1) e' (by simpa using hget) hown
        rwa [show start + (k + 1) = start + 1 + k by omega] at h
      obtain ⟨hle, hge⟩ := ih (start + 1) hrest
      have hcons := turns_cons M n i start schedule.length
      rw [List.length_cons, List.countP_cons, List.countP_cons]
      cases hown : own e with
      | true =>
          have hfirst : slot e = start % M % n := hslot 0 e rfl hown
          rw [hfirst]
          by_cases hi : start % M % n = i
          · simp only [hi, beq_self_eq_true, Bool.and_self, Bool.not_true, if_true, if_false,
              Bool.false_eq_true] at hcons ⊢
            omega
          · have hne : (start % M % n == i) = false := beq_eq_false_iff_ne.mpr hi
            simp only [hi, hne, Bool.and_false, Bool.not_true, if_false, Bool.false_eq_true] at hcons ⊢
            omega
      | false =>
          simp only [Bool.false_and, Bool.not_false, if_true, if_false, Bool.false_eq_true]
          split at hcons <;> omega

/-- **The shares of two slots in a stretch of a schedule** differ by at most one, plus one for each entry that
    does not follow the counter and one for each restart. -/
theorem shares_close (hM : 0 < M) (hi : i < n) (hj : j < n) (schedule : List α) (start : Nat)
    (hslot : ∀ k e, schedule[k]? = some e → own e = true → slot e = (start + k) % M % n) :
    schedule.countP (fun e => own e && slot e == i) ≤
      schedule.countP (fun e => own e && slot e == j) + 1 + schedule.countP (fun e => !own e) +
        restarts M start schedule.length := by
  obtain ⟨hle, -⟩ := share_bounds schedule start hslot i
  obtain ⟨-, hge⟩ := share_bounds schedule start hslot j
  have hbetween := turns_between hM hi hj start schedule.length
  omega

end

/-! ## A scan from any start

A scan of all slots in cyclic order is a rotation of their list. -/

/-- A list is read off by its indices. -/
theorem filterMap_range_eq {α : Type} {f : Nat → Option α} (l : List α)
    (h : ∀ k (hk : k < l.length), f k = some l[k]) : (List.range l.length).filterMap f = l := by
  induction l using List.reverseRecOn with
  | nil => rfl
  | append_singleton l a ih =>
      have hbefore : ∀ k (hk : k < l.length), f k = some l[k] := by
        intro k hk
        rw [h k (by simp; omega), List.getElem_append_left hk]
      have hlast : f l.length = some a := by
        rw [h l.length (by simp)]
        simp
      rw [List.length_append, List.length_singleton, List.range_succ, List.filterMap_append, ih hbefore]
      simp [hlast]

/-- The elements of a list in cyclic order from any start. -/
theorem filterMap_rotate {α : Type} (l : List α) (start : Nat) :
    (List.range l.length).filterMap (fun k => l[(start + k) % l.length]?) = l.rotate start := by
  rw [← List.length_rotate l start]
  apply filterMap_range_eq
  intro k hk
  rw [List.length_rotate] at hk ⊢
  have hlt : (start + k) % l.length < l.length := Nat.mod_lt _ (by omega)
  rw [List.getElem_rotate, List.getElem?_eq_getElem hlt]
  simp only [Nat.add_comm]

theorem map_rotate_range (n start : Nat) :
    (List.range n).map (fun k => (start + k) % n) = (List.range n).rotate start := by
  apply List.ext_getElem
  · simp
  · intro k hk hk'
    rw [List.getElem_rotate]
    simp [Nat.add_comm]

/-- The slots from `start` on, `n` of them, are all slots. -/
theorem exists_scan (start : Nat) (hi : i < n) : ∃ k < n, (start + k) % n = i := by
  have hlt : start % n < n := Nat.mod_lt _ (by omega)
  rcases Nat.le_total (start % n) i with hle | hgt
  · refine ⟨i - start % n, by omega, ?_⟩
    rw [← Nat.mod_add_mod, Nat.add_sub_cancel' hle, Nat.mod_eq_of_lt hi]
  · rcases Nat.eq_or_lt_of_le hgt with rfl | hgt
    · exact ⟨0, by omega, rfl⟩
    · -- past the last slot the scan goes on from the first
      have hround : start % n + (n - start % n + i) = n + i := by omega
      refine ⟨n - start % n + i, by omega, ?_⟩
      rw [← Nat.mod_add_mod, hround, Nat.add_mod_left, Nat.mod_eq_of_lt hi]

/-! ## A scan whose counter restarts on the way -/

/-- In any `2 * n` turns in a row every slot has one, though the counter may restart among them. -/
theorem exists_turn {i : Nat} (hi : i < n) (hM : n ≤ M) (start : Nat) : ∃ k < 2 * n, (start + k) % M % n = i := by
  have hlt : start % M < M := Nat.mod_lt _ (by omega)
  rcases Nat.lt_or_ge M (start % M + n) with hrestart | hroom
  · -- after the restart there is a whole round
    obtain ⟨first, hfirst⟩ := Nat.exists_eq_add_of_le (Nat.le_of_lt hlt)
    refine ⟨first + i, by omega, ?_⟩
    have hround : start % M + (first + i) = M + i := by omega
    rw [← Nat.mod_add_mod, hround, Nat.add_mod_left, Nat.mod_eq_of_lt (a := i) (by omega), Nat.mod_eq_of_lt hi]
  · -- before it there is one
    obtain ⟨k, hk, hturn⟩ := exists_scan (start % M) hi
    refine ⟨k, by omega, ?_⟩
    rw [← Nat.mod_add_mod, Nat.mod_eq_of_lt (a := start % M + k) (by omega), hturn]

/-- The slots that a scan of `n` looks at from `start` on when its counter restarts at `M`. -/
def scanned (M n start : Nat) : List Nat := (List.range n).map fun k => (start + k) % M % n

/-- A restart does not show if the scan ends before it, or if the slots divide the counter's range. -/
theorem mod_mod_of_unbroken {start k : Nat} (hk : k < n) (h : start + n ≤ M ∨ n ∣ M) :
    (start + k) % M % n = (start + k) % n := by
  rcases h with hle | hdvd
  · rw [Nat.mod_eq_of_lt (a := start + k) (by omega)]
  · exact Nat.mod_mod_of_dvd _ hdvd

/-- Otherwise two positions of the scan look at one slot. -/
theorem exists_twice {start : Nat} (hstart : start < M) (hlt : M < start + n) (hdvd : ¬ n ∣ M) :
    ∃ k < n, ∃ k' < n, k ≠ k' ∧ (start + k) % M % n = (start + k') % M % n := by
  have hrest : 0 < M % n := Nat.pos_of_ne_zero fun h => hdvd (Nat.dvd_of_mod_eq_zero h)
  have hn : M % n < n := Nat.mod_lt _ (by omega)
  have hM : n * (M / n) + M % n = M := Nat.div_add_mod M n
  -- the first position after the restart
  obtain ⟨first, hfirst⟩ := Nat.exists_eq_add_of_le (Nat.le_of_lt hstart)
  have hzero : (start + first) % M % n = 0 := by rw [← hfirst, Nat.mod_self, Nat.zero_mod]
  rcases Nat.lt_or_ge (M % n) first with hless | hmore
  · -- slot 0 has its turn before the restart as well
    refine ⟨first - M % n, by omega, first, by omega, by omega, ?_⟩
    have hbefore : start + (first - M % n) = n * (M / n) := by omega
    have hsmall : n * (M / n) < M := by omega
    rw [hzero, hbefore, Nat.mod_eq_of_lt hsmall, Nat.mul_mod_right]
  · -- the slot the scan starts with has its turn after the restart as well
    refine ⟨0, by omega, M % n, hn, by omega, ?_⟩
    have hafter : start + M % n = M + (M % n - first) := by omega
    have hbegin : start + 0 = n * (M / n) + (M % n - first) := by omega
    have hsmall : M % n - first < M := by omega
    rw [hafter, Nat.add_mod_left, Nat.mod_eq_of_lt hsmall, Nat.mod_eq_of_lt (a := start + 0) (by omega), hbegin,
      Nat.mul_add_mod]

/-- **A scan looks at every slot exactly once** if and only if no restart shows in it. -/
theorem scanned_perm_iff {start : Nat} (hstart : start < M) :
    (scanned M n start).Perm (List.range n) ↔ start + n ≤ M ∨ n ∣ M := by
  constructor
  · intro hperm
    by_contra hbroken
    obtain ⟨hlt, hdvd⟩ := not_or.mp hbroken
    obtain ⟨k, hk, k', hk', hne, hsame⟩ := exists_twice hstart (by omega) hdvd
    have hnodup : (scanned M n start).Nodup := hperm.nodup_iff.mpr List.nodup_range
    apply hne
    exact List.inj_on_of_nodup_map hnodup (List.mem_range.mpr hk) (List.mem_range.mpr hk') hsame
  · intro hunbroken
    have hsame : scanned M n start = (List.range n).map fun k => (start + k) % n := by
      apply List.map_congr_left
      intro k hk
      exact mod_mod_of_unbroken (List.mem_range.mp hk) hunbroken
    rw [hsame, map_rotate_range]
    exact List.rotate_perm _ _

end Rotation
end Lib
