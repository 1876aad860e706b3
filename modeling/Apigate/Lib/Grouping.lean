import Mathlib.Data.List.Perm.Basic

/-!
# `Lib.Grouping` — taking a list apart

A list falls into the groups of its elements that share a key, and into the first element with a property and
the rest. Nothing is lost either way, nor is anything there twice.

Both are statements about permutations, since taking a list apart changes the order and nothing else. From them
follows what a program that works group by group may rely on: lists that differ in their order have groups that
differ in their order, and hence of the same sizes.
-/

namespace Lib
namespace Grouping

variable {α κ : Type}

/-! ## Groups by key

The keys are given as a list without repetitions, in the order in which their groups are wanted. -/

variable [DecidableEq κ]

/-- The elements with key `k`, in order. -/
def groupOf (key : α → κ) (xs : List α) (k : κ) : List α := xs.filter fun x => key x = k

theorem groupOf_cons (key : α → κ) (x : α) (xs : List α) (k : κ) :
    groupOf key (x :: xs) k = if key x = k then x :: groupOf key xs k else groupOf key xs k := by
  unfold groupOf
  rw [List.filter_cons]
  simp only [decide_eq_true_eq]

theorem key_of_mem {key : α → κ} {xs : List α} {k : κ} {x : α} (h : x ∈ groupOf key xs k) : key x = k :=
  of_decide_eq_true (List.mem_filter.mp h).2

/-- The groups of a reordered list are reordered inside. -/
theorem groupOf_perm {key : α → κ} {xs ys : List α} (h : xs.Perm ys) (k : κ) :
    (groupOf key xs k).Perm (groupOf key ys k) := h.filter _

/-- The groups of the keys `ks`, one after the other, are the elements with one of these keys. By induction on
    the keys: the group of a new key and the elements with one of the others have nothing in common. -/
theorem flatten_groupOf_perm_filter (key : α → κ) (xs : List α) {ks : List κ} (hks : ks.Nodup) :
    (ks.map (groupOf key xs)).flatten.Perm (xs.filter fun x => key x ∈ ks) := by
  induction hks with
  | nil =>
      simp only [List.not_mem_nil, decide_false, List.filter_false]
      exact .refl _
  | @cons k ks hk _ ih =>
      have hfirst : (xs.filter fun x => key x ∈ k :: ks).filter (fun x => key x = k) = groupOf key xs k := by
        unfold groupOf
        rw [List.filter_filter]
        apply List.filter_congr
        intro x _
        by_cases hx : key x = k
        · simp [hx]
        · simp [hx]
      have hrest : (xs.filter fun x => key x ∈ k :: ks).filter (fun x => !decide (key x = k)) =
          xs.filter fun x => key x ∈ ks := by
        rw [List.filter_filter]
        apply List.filter_congr
        intro x _
        by_cases hx : key x = k
        · have hnot : k ∉ ks := fun hmem => hk k hmem rfl
          simp [hx, hnot]
        · simp [hx]
      have hsplit := List.filter_append_perm (fun x => decide (key x = k)) (xs.filter fun x => key x ∈ k :: ks)
      rw [hfirst, hrest] at hsplit
      exact (ih.append_left _).trans hsplit

/-- **Nothing is lost** when the groups of all keys are joined. -/
theorem flatten_groupOf_perm (key : α → κ) (xs : List α) {ks : List κ} (hks : ks.Nodup)
    (hall : ∀ x ∈ xs, key x ∈ ks) : (ks.map (groupOf key xs)).flatten.Perm xs := by
  have hfilter : (xs.filter fun x => key x ∈ ks) = xs :=
    List.filter_eq_self.mpr fun x hx => decide_eq_true (hall x hx)
  exact (flatten_groupOf_perm_filter key xs hks).trans (.of_eq hfilter)

/-! ## The first element with a property

Taken out of its list and put in front. -/

/-- The first element with the property, if there is one, and the rest are the whole list. -/
theorem find?_append_eraseP_perm (p : α → Bool) (xs : List α) :
    ((xs.find? p).toList ++ xs.eraseP p).Perm xs := by
  induction xs with
  | nil => exact .refl _
  | cons x xs ih =>
      cases hx : p x with
      | true =>
          rw [List.find?_cons_of_pos hx, List.eraseP_cons_of_pos hx]
          exact .refl _
      | false =>
          have hne : ¬ p x = true := by simp [hx]
          rw [List.find?_cons_of_neg hne, List.eraseP_cons_of_neg hne]
          exact List.perm_middle.trans (ih.cons x)

/-- Lists that differ only in their order, and agree on that first element, agree on the rest. -/
theorem eraseP_perm {p : α → Bool} {xs ys : List α} (h : xs.Perm ys) (hfind : xs.find? p = ys.find? p) :
    (xs.eraseP p).Perm (ys.eraseP p) := by
  have hall : ((xs.find? p).toList ++ xs.eraseP p).Perm ((xs.find? p).toList ++ ys.eraseP p) := by
    have hys := find?_append_eraseP_perm p ys
    rw [← hfind] at hys
    exact (find?_append_eraseP_perm p xs).trans (h.trans hys.symm)
  exact (List.perm_append_left_iff _).mp hall

end Grouping
end Lib
