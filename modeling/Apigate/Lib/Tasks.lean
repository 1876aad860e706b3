import Mathlib.Data.List.Perm.Basic

/-!
# `Lib.Tasks` — tasks that do not get in each other's way

A task looks at a state and decides what to do and how to end; a list of tasks stops at the first that fails.
Where no task does anything that a later one looks at, each decides as on the first state
(`runTasks_eq_together`). Where what they do commutes as well, up to an equivalence that operations respect,
their order decides only which of several failures is the first (`runTasks_perm`).

That a task's decision and its operations are apart is what makes this work: `Ignores` is about decisions, and
`commute` about operations, which are applied without asking the task again. A task that fails has still done
something, so nothing is said of the states after a failure.
-/

namespace Lib
namespace Tasks

variable {S A E : Type}

/-- The operations that a task performs on a state, and how it ends. -/
abbrev Task (S A E : Type) := S → List A × Except E Unit

section
variable (apply : S → A → S)

/-- One task after the other, up to the first that fails: all operations, and the end. -/
def runTasks : List (Task S A E) → S → List A × Except E Unit
  | [], _ => ([], .ok ())
  | f :: fs, s =>
      match f s with
      | (ops, .error e) => (ops, .error e)
      | (ops, .ok ()) =>
          let (rest, result) := runTasks fs (ops.foldl apply s)
          (ops ++ rest, result)

/-- The same with every task looking at one state. -/
def together : List (Task S A E) → S → List A × Except E Unit
  | [], _ => ([], .ok ())
  | f :: fs, s =>
      match f s with
      | (ops, .error e) => (ops, .error e)
      | (ops, .ok ()) =>
          let (rest, result) := together fs s
          (ops ++ rest, result)

/-- Nothing that `f` does makes a difference to `g`. -/
def Ignores (g f : Task S A E) : Prop := ∀ s t, g ((f s).1.foldl apply t) = g t

variable (same : S → S → Prop)

/-- Neither looks at what the other does, and what they do can be done in either order. -/
structure Independent (f g : Task S A E) : Prop where
  left : Ignores apply f g
  right : Ignores apply g f
  commute : ∀ s s' t,
    same ((g s').1.foldl apply ((f s).1.foldl apply t)) ((f s).1.foldl apply ((g s').1.foldl apply t))

end

variable {apply : S → A → S} {same : S → S → Prop}

/-! ## Tasks that look at one state

`together` lets every task look at the state before the first. It is what a list of tasks amounts to when nobody
minds what was done before, and in it the order is of little account: which task fails is decided at once for
all. -/

/-- Only what the tasks decide there matters of that state. -/
theorem together_congr {fs : List (Task S A E)} {s t : S} (h : ∀ f ∈ fs, f s = f t) :
    together fs s = together fs t := by
  induction fs with
  | nil => rfl
  | cons f fs ih =>
      unfold together
      rw [h f List.mem_cons_self, ih fun g hg => h g (List.mem_cons_of_mem _ hg)]

/-- **Tasks that ignore what is done before them** decide as on the first state. By induction on the list: the
    rest is run on the state that the first task leaves, and there each of its tasks decides as before it. -/
theorem runTasks_eq_together {fs : List (Task S A E)} (h : fs.Pairwise fun f g => Ignores apply g f) (s : S) :
    runTasks apply fs s = together fs s := by
  induction fs generalizing s with
  | nil => rfl
  | cons f fs ih =>
      unfold runTasks together
      split
      · rfl
      · rename_i ops hf
        have hignore : ∀ g ∈ fs, g (ops.foldl apply s) = g s := by
          intro g hg
          have hg := List.rel_of_pairwise_cons h hg s s
          rw [hf] at hg
          exact hg
        rw [ih h.of_cons, together_congr hignore]

/-- Where no task fails, every one does what it does on that state. -/
theorem together_of_ok {fs : List (Task S A E)} {s : S} (h : ∀ f ∈ fs, (f s).2 = .ok ()) :
    together fs s = (fs.flatMap fun f => (f s).1, .ok ()) := by
  induction fs with
  | nil => rfl
  | cons f fs ih =>
      have hf : f s = ((f s).1, .ok ()) := Prod.ext rfl (h f List.mem_cons_self)
      rw [together, hf, ih fun g hg => h g (List.mem_cons_of_mem _ hg)]
      rfl

/-- Where one fails, the end is a failure of one. -/
theorem together_of_error {fs : List (Task S A E)} {s : S} (h : ¬ ∀ f ∈ fs, (f s).2 = .ok ()) :
    ∃ f ∈ fs, ∃ e, (f s).2 = .error e ∧ (together fs s).2 = .error e := by
  induction fs with
  | nil => exact absurd (fun f hf => nomatch hf) h
  | cons f fs ih =>
      rcases hf : f s with ⟨ops, result⟩
      cases result with
      | error e => exact ⟨f, List.mem_cons_self, e, by rw [hf], by rw [together, hf]⟩
      | ok done =>
          have hrest : ¬ ∀ g ∈ fs, (g s).2 = .ok () := by
            intro hrest
            refine h fun g hg => ?_
            rcases List.mem_cons.mp hg with rfl | hg
            · rw [hf]
            · exact hrest g hg
          obtain ⟨g, hg, e, herror, hend⟩ := ih hrest
          exact ⟨g, List.mem_cons_of_mem _ hg, e, herror, by rw [together, hf]; exact hend⟩

/-! ## Operations in another order

Operations need not commute on the nose. They commute up to an equivalence, and because operations respect it,
what is exchanged at the beginning of a long list makes no difference at its end. -/

section
variable (hrespects : ∀ s t a, same s t → same (apply s a) (apply t a))
include hrespects

/-- A list of operations respects the equivalence if each of them does. -/
theorem foldl_respects {s t : S} (h : same s t) (ops : List A) : same (ops.foldl apply s) (ops.foldl apply t) := by
  induction ops generalizing s t with
  | nil => exact h
  | cons a ops ih => exact ih (hrespects s t a h)

/-- Operations commute as lists if they commute one by one. -/
theorem foldl_comm (hsame : Equivalence same) {as bs : List A}
    (h : ∀ a ∈ as, ∀ b ∈ bs, ∀ s, same (apply (apply s a) b) (apply (apply s b) a)) (s : S) :
    same (bs.foldl apply (as.foldl apply s)) (as.foldl apply (bs.foldl apply s)) := by
  induction as generalizing s with
  | nil => exact hsame.refl _
  | cons a as ih =>
      -- one operation of the one list goes behind the other list
      have hone : ∀ s, same (bs.foldl apply (apply s a)) (apply (bs.foldl apply s) a) := by
        have ha := h a List.mem_cons_self
        clear ih h
        induction bs with
        | nil => exact fun s => hsame.refl _
        | cons b bs ih =>
            intro s
            refine hsame.trans (foldl_respects hrespects (ha b List.mem_cons_self s) bs) ?_
            exact ih (fun b' hb' => ha b' (List.mem_cons_of_mem _ hb')) (apply s b)
      refine hsame.trans (ih (fun a' ha' => h a' (List.mem_cons_of_mem _ ha')) (apply s a)) ?_
      exact foldl_respects hrespects (hone s) as

/-- What independent tasks decide on one state can be done in any order of the tasks. By induction on the
    permutation: a swap of two neighbours is `commute`, and the rest respects it. -/
theorem foldl_flatMap_perm (hsame : Equivalence same) {fs gs : List (Task S A E)} (hperm : fs.Perm gs)
    (h : fs.Pairwise (Independent apply same)) (s t : S) :
    same ((fs.flatMap fun f => (f s).1).foldl apply t) ((gs.flatMap fun f => (f s).1).foldl apply t) := by
  induction hperm generalizing t with
  | nil => exact hsame.refl _
  | cons f _ ih =>
      rw [List.flatMap_cons, List.flatMap_cons, List.foldl_append, List.foldl_append]
      exact ih h.of_cons _
  | swap f g fs =>
      have hfg := List.rel_of_pairwise_cons h List.mem_cons_self
      simp only [List.flatMap_cons, List.foldl_append]
      exact foldl_respects hrespects (hfg.commute s s t) _
  | trans hperm _ ih₁ ih₂ =>
      have h₂ := hperm.pairwise h fun hfg =>
        ⟨hfg.right, hfg.left, fun s s' t => hsame.symm (hfg.commute s' s t)⟩
      exact hsame.trans (ih₁ h t) (ih₂ h₂ t)

/-- **Independent tasks can be done in any order.** Either all of them succeed in both orders, with states in
    the end that are the same; or both fail, each with what one of the tasks says of the first state. By cases
    on whether all tasks succeed on the first state, where both lists may be taken together. -/
theorem runTasks_perm (hsame : Equivalence same) {fs gs : List (Task S A E)} (hperm : fs.Perm gs)
    (h : fs.Pairwise (Independent apply same)) (s : S) :
    ((runTasks apply fs s).2 = .ok () ∧ (runTasks apply gs s).2 = .ok () ∧
        same ((runTasks apply fs s).1.foldl apply s) ((runTasks apply gs s).1.foldl apply s)) ∨
      ∃ f ∈ fs, ∃ g ∈ fs, ∃ e e', (f s).2 = .error e ∧ (g s).2 = .error e' ∧
        (runTasks apply fs s).2 = .error e ∧ (runTasks apply gs s).2 = .error e' := by
  have hback : gs.Pairwise (Independent apply same) := hperm.pairwise h fun hfg =>
    ⟨hfg.right, hfg.left, fun s s' t => hsame.symm (hfg.commute s' s t)⟩
  rw [runTasks_eq_together (h.imp Independent.right) s, runTasks_eq_together (hback.imp Independent.right) s]
  by_cases hok : ∀ f ∈ fs, (f s).2 = .ok ()
  · rw [together_of_ok hok, together_of_ok fun g hg => hok g (hperm.mem_iff.mpr hg)]
    exact .inl ⟨rfl, rfl, foldl_flatMap_perm hrespects hsame hperm h s s⟩
  · have hbackFails : ¬ ∀ g ∈ gs, (g s).2 = .ok () := fun hgs => hok fun f hf => hgs f (hperm.mem_iff.mp hf)
    obtain ⟨f, hf, e, hfe, hend⟩ := together_of_error hok
    obtain ⟨g, hg, e', hge, hend'⟩ := together_of_error hbackFails
    exact .inr ⟨f, hf, g, hperm.mem_iff.mpr hg, e, e', hfe, hge, hend, hend'⟩

end

end Tasks
end Lib
