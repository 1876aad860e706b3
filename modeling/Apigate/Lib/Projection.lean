import Mathlib.Data.List.Basic
import Apigate.Lib.Runs

/-!
# `Lib.Projection` — the part of a run that concerns one component

A component of a system has a view of its states, and some of the system's actions are actions of it. If every
action that is one of the component changes the view as the component does by itself, and every other action
leaves the view alone, then the view of a run is a run of the component (`run_labels`). So two systems that do the
same with a component leave it in the same state, whatever else they do (`view_eq_of_labels`).
-/

namespace Lib
namespace Projection
open Runs

variable {S A C B : Type}

/-- The actions of the component in a run. -/
def labels (step : S → A → Option S) (label : S → A → Option B) : S → List A → List B
  | _, [] => []
  | s, a :: as => (label s a).toList ++ ((step s a).map fun s' => labels step label s' as).getD []

/-- The system treats the component as the component does by itself. -/
structure Projects (step : S → A → Option S) (view : S → C) (label : S → A → Option B)
    (own : C → B → Option C) : Prop where
  moves : ∀ {s s' : S} {a : A} {b : B}, step s a = some s' → label s a = some b →
    own (view s) b = some (view s')
  stays : ∀ {s s' : S} {a : A}, step s a = some s' → label s a = none → view s' = view s

section
variable {step : S → A → Option S} {view : S → C} {label : S → A → Option B} {own : C → B → Option C}

theorem labels_cons {s s' : S} {a : A} (h : step s a = some s') (as : List A) :
    labels step label s (a :: as) = (label s a).toList ++ labels step label s' as := by
  rw [labels, h]
  rfl

/-- **The view of a run is a run of the component.** -/
theorem run_labels (h : Projects step view label own) {s s' : S} {as : List A} (hrun : run step s as = some s') :
    run own (view s) (labels step label s as) = some (view s') := by
  induction as generalizing s with
  | nil =>
      obtain rfl := Option.some.inj hrun
      rfl
  | cons a as ih =>
      obtain ⟨s₁, hstep, hrest⟩ := run_cons.mp hrun
      rw [labels_cons hstep]
      cases hlabel : label s a with
      | none =>
          rw [← h.stays hstep hlabel]
          exact ih hrest
      | some b => exact run_cons.mpr ⟨view s₁, h.moves hstep hlabel, ih hrest⟩

/-- **The view depends on the component's own actions only.** -/
theorem view_eq_of_labels {T D : Type} {step' : T → D → Option T} {view' : T → C} {label' : T → D → Option B}
    (h : Projects step view label own) (h' : Projects step' view' label' own) {s s' : S} {t t' : T}
    {as : List A} {ds : List D} (hrun : run step s as = some s') (hrun' : run step' t ds = some t')
    (hstart : view s = view' t) (hlabels : labels step label s as = labels step' label' t ds) :
    view s' = view' t' := by
  have hview := run_labels h hrun
  rw [hstart, hlabels, run_labels h' hrun'] at hview
  exact (Option.some.inj hview).symm

end

/-! ## A table and the entries of one kind -/

section
variable {α : Type} {q : α → Bool}

/-- The place of entry `i` among the entries of its kind. -/
def rank (q : α → Bool) (l : List α) (i : Nat) : Nat := (l.take i).countP q

/-- The table around one of its entries. -/
theorem exists_split {l : List α} {i : Nat} {x : α} (h : l[i]? = some x) :
    ∃ before after, l = before ++ x :: after ∧ before.length = i := by
  obtain ⟨hi, hx⟩ := List.getElem?_eq_some_iff.mp h
  refine ⟨l.take i, l.drop (i + 1), ?_, List.length_take_of_le (Nat.le_of_lt hi)⟩
  rw [← hx, List.getElem_cons_drop, List.take_append_drop]

theorem rank_middle (before after : List α) (x : α) :
    rank q (before ++ x :: after) before.length = (before.filter q).length := by
  rw [rank, List.take_left, List.countP_eq_length_filter]

theorem set_middle (before after : List α) (x y : α) :
    (before ++ x :: after).set before.length y = before ++ y :: after := by
  rw [List.set_append_right _ _ (Nat.le_refl _), Nat.sub_self, List.set_cons_zero]

/-- An entry has its place among those of its kind. -/
theorem getElem?_rank {l : List α} {i : Nat} {x : α} (h : l[i]? = some x) (hx : q x = true) :
    (l.filter q)[rank q l i]? = some x := by
  obtain ⟨before, after, rfl, rfl⟩ := exists_split h
  rw [rank_middle, List.filter_append, List.filter_cons_of_pos hx, List.getElem?_append_right (Nat.le_refl _),
    Nat.sub_self]
  rfl

/-- Replacing an entry by one of the same kind. -/
theorem filter_set {l : List α} {i : Nat} {x y : α} (h : l[i]? = some x) (hx : q x = true) (hy : q y = true) :
    (l.set i y).filter q = (l.filter q).set (rank q l i) y := by
  obtain ⟨before, after, rfl, rfl⟩ := exists_split h
  rw [rank_middle, set_middle, List.filter_append, List.filter_append, List.filter_cons_of_pos hx,
    List.filter_cons_of_pos hy, set_middle]

/-- Replacing an entry of another kind by one of another kind. -/
theorem filter_set_other {l : List α} {i : Nat} {x y : α} (h : l[i]? = some x) (hx : q x = false)
    (hy : q y = false) : (l.set i y).filter q = l.filter q := by
  obtain ⟨before, after, rfl, rfl⟩ := exists_split h
  have hx' : ¬ q x = true := by simp [hx]
  have hy' : ¬ q y = true := by simp [hy]
  rw [set_middle, List.filter_append, List.filter_append, List.filter_cons_of_neg hx', List.filter_cons_of_neg hy']

end
end Projection
end Lib
