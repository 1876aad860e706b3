import Mathlib.Data.List.Induction
import Mathlib.Order.Nat

/-!
# `Lib.Smoothing` — a moving average on natural numbers

`smooth w old s` takes the share `1 / w` of the old value away and adds the share `1 / w` of a new sample, both
rounded down; the value `0` means that there is none yet, and the first sample is taken as it is. Rounding twice
does no harm: the new value lies between the old one and the sample, and it is strictly closer to the sample
unless the two shares are equal.

The reason is one inequality, `share_le`: when a number grows, its share grows by no more. So adding a larger
share than is taken away cannot pass the sample. The bounds of a fold follow by induction from the end, as each
new value is between the last one and the newest sample.
-/

namespace Lib
namespace Smoothing

variable {w old s : Nat}

/-- The rule. -/
def smooth (w old s : Nat) : Nat := if old = 0 then s else old - old / w + s / w

/-! ## One step

Upwards and downwards by the same inequality, with the two numbers exchanged. -/

/-- A share grows no faster than the value. -/
theorem share_le (h : old ≤ s) : s / w + old ≤ s + old / w := by
  obtain ⟨d, rfl⟩ := Nat.exists_eq_add_of_le h
  have hshare : (old + d) / w ≤ old / w + d := by
    rcases Nat.eq_zero_or_pos w with rfl | hw
    · simp
    · calc (old + d) / w
          ≤ (old + d * w) / w :=
            Nat.div_le_div_right (Nat.add_le_add_left (Nat.le_mul_of_pos_right d hw) old)
        _ = old / w + d := Nat.add_mul_div_right old d hw
  omega

/-- Below the sample the value does not fall, and it does not pass the sample. -/
theorem smooth_up (h : old ≤ s) : old ≤ smooth w old s ∧ smooth w old s ≤ s := by
  have hshare : old / w ≤ s / w := Nat.div_le_div_right h
  have hgrowth := share_le (w := w) h
  have hle : old / w ≤ old := Nat.div_le_self old w
  unfold smooth
  split <;> omega

/-- And above the sample it does not rise, nor pass it. -/
theorem smooth_down (h : s ≤ old) : s ≤ smooth w old s ∧ smooth w old s ≤ old := by
  have hshare : s / w ≤ old / w := Nat.div_le_div_right h
  have hgrowth := share_le (w := w) h
  have hle : old / w ≤ old := Nat.div_le_self old w
  unfold smooth
  split <;> omega

/-- **One step goes towards the sample**: neither away from it nor past it, and not nowhere unless the shares
    are equal. -/
def Approaches (w old s new : Nat) : Prop :=
  (old ≤ new ∧ new ≤ s ∨ s ≤ new ∧ new ≤ old) ∧
    (old / w ≠ s / w → old < new ∧ new ≤ s ∨ s ≤ new ∧ new < old)

/-- The rule goes towards the sample. -/
theorem smooth_approaches (w old s : Nat) : Approaches w old s (smooth w old s) := by
  have hle : old / w ≤ old := Nat.div_le_self old w
  rcases Nat.le_total old s with h | h
  · obtain ⟨hlow, hhigh⟩ := smooth_up (w := w) h
    refine ⟨Or.inl ⟨hlow, hhigh⟩, fun hne => Or.inl ⟨?_, hhigh⟩⟩
    have hshare : old / w ≤ s / w := Nat.div_le_div_right h
    unfold smooth
    split
    · rename_i hzero
      rcases Nat.eq_zero_or_pos s with rfl | hs
      · exact absurd (by rw [hzero]) hne
      · omega
    · omega
  · obtain ⟨hlow, hhigh⟩ := smooth_down (w := w) h
    refine ⟨Or.inr ⟨hlow, hhigh⟩, fun hne => Or.inr ⟨hlow, ?_⟩⟩
    have hshare : s / w ≤ old / w := Nat.div_le_div_right h
    unfold smooth
    split
    · rename_i hzero
      obtain rfl : s = 0 := by omega
      exact absurd (by rw [hzero]) hne
    · omega

/-- So old value and sample bound the new one. -/
theorem smooth_le_max (w old s : Nat) : smooth w old s ≤ max old s := by
  rcases Nat.le_total old s with h | h
  · exact (smooth_up h).2.trans (Nat.le_max_right _ _)
  · exact (smooth_down h).2.trans (Nat.le_max_left _ _)

/-- The value falls back to `0` only if it was `0` and the sample is. -/
theorem smooth_eq_zero_iff (hw : 1 < w) : smooth w old s = 0 ↔ old = 0 ∧ s = 0 := by
  unfold smooth
  split
  · simp_all
  · rename_i hne
    have hlt : old / w < old := Nat.div_lt_self (by omega) hw
    constructor
    · intro hsum
      have hkept : old - old / w = 0 := Nat.eq_zero_of_add_eq_zero_right hsum
      omega
    · rintro ⟨hzero, -⟩
      exact absurd hzero hne

/-! ## All samples

Folds of the rule that begin with no value. -/

/-- The newest sample comes last. -/
theorem foldl_smooth_concat (samples : List Nat) (s : Nat) :
    (samples ++ [s]).foldl (smooth w) 0 = smooth w (samples.foldl (smooth w) 0) s := by
  rw [List.foldl_append]
  rfl

/-- **The value is `0` exactly when all samples are.** -/
theorem foldl_smooth_eq_zero_iff (hw : 1 < w) (samples : List Nat) :
    samples.foldl (smooth w) 0 = 0 ↔ ∀ s ∈ samples, s = 0 := by
  induction samples using List.reverseRecOn with
  | nil => simp
  | append_singleton samples s ih =>
      rw [foldl_smooth_concat, smooth_eq_zero_iff hw, ih]
      simp only [List.mem_append, List.mem_singleton]
      constructor
      · rintro ⟨hall, rfl⟩ t (ht | rfl)
        · exact hall t ht
        · rfl
      · intro hall
        exact ⟨fun t ht => hall t (Or.inl ht), hall s (Or.inr rfl)⟩

/-- **The value lies between the smallest and the largest sample.** -/
theorem foldl_smooth_between {samples : List Nat} (hne : samples ≠ []) :
    (∃ s ∈ samples, s ≤ samples.foldl (smooth w) 0) ∧ ∃ s ∈ samples, samples.foldl (smooth w) 0 ≤ s := by
  induction samples using List.reverseRecOn with
  | nil => exact absurd rfl hne
  | append_singleton samples s ih =>
      rw [foldl_smooth_concat]
      have hlast : s ∈ samples ++ [s] := List.mem_append_right _ (List.mem_singleton.mpr rfl)
      rcases Nat.eq_zero_or_pos (samples.foldl (smooth w) 0) with hzero | hpos
      · -- nothing but zeros so far: the sample is taken as it is
        have hfirst : smooth w 0 s = s := if_pos rfl
        rw [hzero, hfirst]
        exact ⟨⟨s, hlast, Nat.le_refl s⟩, ⟨s, hlast, Nat.le_refl s⟩⟩
      · have hsome : samples ≠ [] := by
          rintro rfl
          exact Nat.lt_irrefl 0 hpos
        obtain ⟨⟨lo, hlo, hlole⟩, ⟨hi, hhi, hhile⟩⟩ := ih hsome
        have hmem : ∀ t ∈ samples, t ∈ samples ++ [s] := fun t ht => List.mem_append_left _ ht
        rcases Nat.le_total (samples.foldl (smooth w) 0) s with h | h
        · obtain ⟨hlow, hhigh⟩ := smooth_up (w := w) h
          exact ⟨⟨lo, hmem lo hlo, hlole.trans hlow⟩, ⟨s, hlast, hhigh⟩⟩
        · obtain ⟨hlow, hhigh⟩ := smooth_down (w := w) h
          exact ⟨⟨s, hlast, hlow⟩, ⟨hi, hmem hi hhi, hhigh.trans hhile⟩⟩

end Smoothing
end Lib
