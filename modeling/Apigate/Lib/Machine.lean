import Mathlib.Data.List.Forall2

/-!
# `Lib.Machine` — machines that answer every input

`step s i` is what a machine in state `s` answers to input `i`, and the state after it. A machine simulates
another one on some of its inputs when the two answer these alike and stay related, and every other input keeps
them related while the other machine stands still (`answersAt_of_simulation`). Where a step may fail, inputs
that commute can be given in any order (`attempt_perm`).

That two inputs commute is asked of successful steps only: wherever the one succeeds and then the other, they do
so the other way round as well. So a run that succeeds can be reordered, and a run that fails fails in every
order, if not always with the same error (`AgreeUpToOrder`).
-/

namespace Lib
namespace Machine

variable {S T I O : Type}

/-- The answers to a list of inputs. -/
def answers (step : S → I → O × S) : S → List I → List O
  | _, [] => []
  | s, i :: is => (step s i).1 :: answers step (step s i).2 is

/-- The answers to those inputs of a list that satisfy `p`. -/
def answersAt (step : S → I → O × S) (p : I → Bool) : S → List I → List O
  | _, [] => []
  | s, i :: is =>
      if p i then (step s i).1 :: answersAt step p (step s i).2 is else answersAt step p (step s i).2 is

/-- The state after a list of inputs. -/
def after (step : S → I → O × S) (s : S) (is : List I) : S := is.foldl (fun s i => (step s i).2) s

/-- **Simulation on the inputs that satisfy `p`.** The machine answers them as the other machine does when it
    gets only them, and the two end in related states. By induction on the inputs, for any pair of related
    states. -/
theorem answersAt_of_simulation {step : S → I → O × S} {step' : T → I → O × T} {p : I → Bool}
    {R : S → T → Prop}
    (hagree : ∀ s t i, R s t → p i = true → (step s i).1 = (step' t i).1 ∧ R (step s i).2 (step' t i).2)
    (hstutter : ∀ s t i, R s t → p i = false → R (step s i).2 t) {s : S} {t : T} (h : R s t) (is : List I) :
    answersAt step p s is = answers step' t (is.filter p) ∧ R (after step s is) (after step' t (is.filter p)) := by
  induction is generalizing s t with
  | nil => exact ⟨rfl, h⟩
  | cons i is ih =>
      cases hp : p i with
      | true =>
          obtain ⟨hanswer, hnext⟩ := hagree s t i h hp
          obtain ⟨hanswers, hafter⟩ := ih hnext
          rw [List.filter_cons_of_pos hp, answersAt, if_pos hp, answers, hanswer, hanswers]
          exact ⟨rfl, hafter⟩
      | false =>
          have hne : ¬ p i = true := by simp [hp]
          obtain ⟨hanswers, hafter⟩ := ih (hstutter s t i h hp)
          rw [List.filter_cons_of_neg hne, answersAt, if_neg hne, hanswers]
          exact ⟨rfl, hafter⟩

/-! ## Steps that may fail

Runs that stop at the first failure, with every input beside its answer, so that answers can be compared when
the inputs are reordered. -/

variable {E : Type}

/-- Every input with its answer, and the state at the end; the first failure ends the run. -/
def attempt (step : S → I → Except E (O × S)) : S → List I → Except E (List (I × O) × S)
  | s, [] => .ok ([], s)
  | s, i :: is =>
      match step s i with
      | .error e => .error e
      | .ok (o, s) =>
          match attempt step s is with
          | .error e => .error e
          | .ok (os, s) => .ok ((i, o) :: os, s)

variable {step : S → I → Except E (O × S)}

/-- A run succeeds when its first step does and the rest does from there. -/
theorem attempt_cons_ok_iff {s t : S} {i : I} {is : List I} {os : List (I × O)} :
    attempt step s (i :: is) = .ok (os, t) ↔
      ∃ o s' os', step s i = .ok (o, s') ∧ attempt step s' is = .ok (os', t) ∧ os = (i, o) :: os' := by
  rw [attempt]
  constructor
  · intro h
    cases hstep : step s i with
    | error e =>
        rw [hstep] at h
        cases h
    | ok r =>
        cases hrest : attempt step r.2 is with
        | error e =>
            simp only [hstep, hrest] at h
            cases h
        | ok r' =>
            simp only [hstep, hrest] at h
            cases h
            exact ⟨r.1, r.2, r'.1, rfl, hrest, rfl⟩
  · rintro ⟨o, s', os', hstep, hrest, rfl⟩
    simp only [hstep, hrest]

/-- A run over two lists is a run over the first and one over the second. -/
theorem attempt_append_ok_iff {s t : S} {is js : List I} {os : List (I × O)} :
    attempt step s (is ++ js) = .ok (os, t) ↔
      ∃ os₁ s' os₂, attempt step s is = .ok (os₁, s') ∧ attempt step s' js = .ok (os₂, t) ∧
        os = os₁ ++ os₂ := by
  induction is generalizing s os with
  | nil =>
      constructor
      · intro h
        exact ⟨[], s, os, rfl, h, rfl⟩
      · rintro ⟨os₁, s', os₂, ⟨⟩, h, rfl⟩
        exact h
  | cons i is ih =>
      simp only [List.cons_append, attempt_cons_ok_iff, ih]
      constructor
      · rintro ⟨o, s', _, hstep, ⟨os₁, s'', os₂, his, hjs, rfl⟩, rfl⟩
        exact ⟨_, s'', os₂, ⟨o, s', os₁, hstep, his, rfl⟩, hjs, rfl⟩
      · rintro ⟨_, s'', os₂, ⟨o, s', os₁, hstep, his, rfl⟩, hjs, rfl⟩
        exact ⟨o, s', _, hstep, ⟨os₁, s'', os₂, his, hjs, rfl⟩, rfl⟩

/-- Wherever `i` succeeds and then `j`, `j` succeeds and then `i`, with the same answers and the same end. -/
def CommutesBefore (step : S → I → Except E (O × S)) (i j : I) : Prop :=
  ∀ s s' t o o', step s i = .ok (o, s') → step s' j = .ok (o', t) →
    ∃ s'', step s j = .ok (o', s'') ∧ step s'' i = .ok (o, t)

/-- The order of the two does not matter. -/
def Commute (step : S → I → Except E (O × S)) (i j : I) : Prop :=
  CommutesBefore step i j ∧ CommutesBefore step j i

/-- Inputs that leave the state alone commute. -/
theorem commute_of_reads {i j : I} (hi : ∀ s o s', step s i = .ok (o, s') → s' = s)
    (hj : ∀ s o s', step s j = .ok (o, s') → s' = s) : Commute step i j := by
  have hbefore : ∀ i j, (∀ s o s', step s i = .ok (o, s') → s' = s) →
      (∀ s o s', step s j = .ok (o, s') → s' = s) → CommutesBefore step i j := by
    intro i j hi hj s s' t o o' hstep hstep'
    cases hi s o s' hstep
    cases hj s o' t hstep'
    exact ⟨s, hstep', hstep⟩
  exact ⟨hbefore i j hi hj, hbefore j i hj hi⟩

/-- **Inputs that commute can be given in any order**: each is answered as before, and the run ends where it
    did. By induction on the permutation; a swap of two neighbours is what commuting says. -/
theorem attempt_perm {is js : List I} (hperm : is.Perm js) (hcommute : is.Pairwise (Commute step)) {s t : S}
    {os : List (I × O)} (h : attempt step s is = .ok (os, t)) :
    ∃ os', attempt step s js = .ok (os', t) ∧ os.Perm os' := by
  induction hperm generalizing s os with
  | nil => exact ⟨os, h, .refl os⟩
  | cons i _ ih =>
      obtain ⟨o, s', rest, hstep, hrest, rfl⟩ := attempt_cons_ok_iff.mp h
      obtain ⟨rest', hrest', hp⟩ := ih hcommute.of_cons hrest
      exact ⟨_, attempt_cons_ok_iff.mpr ⟨o, s', rest', hstep, hrest', rfl⟩, hp.cons _⟩
  | swap i j is =>
      obtain ⟨o, s₁, _, hj, hrest, rfl⟩ := attempt_cons_ok_iff.mp h
      obtain ⟨o', s₂, rest, hi, hend, rfl⟩ := attempt_cons_ok_iff.mp hrest
      have hji : Commute step j i := List.rel_of_pairwise_cons hcommute List.mem_cons_self
      obtain ⟨s₃, hi', hj'⟩ := hji.1 s s₁ s₂ o o' hj hi
      exact ⟨_, attempt_cons_ok_iff.mpr
        ⟨o', s₃, _, hi', attempt_cons_ok_iff.mpr ⟨o, s₂, rest, hj', hend, rfl⟩, rfl⟩, .swap _ _ rest⟩
  | trans hp _ ih₁ ih₂ =>
      obtain ⟨os₁, h₁, hp₁⟩ := ih₁ hcommute h
      obtain ⟨os₂, h₂, hp₂⟩ := ih₂ (hp.pairwise hcommute fun h => ⟨h.2, h.1⟩) h₁
      exact ⟨os₂, h₂, hp₁.trans hp₂⟩

/-- The same for groups of inputs that stay in their order: inputs of different groups need not commute. By
    induction on the groups, with `attempt_perm` for each. -/
theorem attempt_groups_perm {gs hs : List (List I)}
    (hgroups : List.Forall₂ (fun is js => is.Perm js ∧ is.Pairwise (Commute step)) gs hs) {s t : S}
    {os : List (I × O)} (h : attempt step s gs.flatten = .ok (os, t)) :
    ∃ os', attempt step s hs.flatten = .ok (os', t) ∧ os.Perm os' := by
  induction hgroups generalizing s os with
  | nil => exact ⟨os, h, .refl os⟩
  | cons hgroup _ ih =>
      rw [List.flatten_cons] at h
      obtain ⟨os₁, s', os₂, his, hrest, rfl⟩ := attempt_append_ok_iff.mp h
      obtain ⟨os₁', hjs, hp₁⟩ := attempt_perm hgroup.1 hgroup.2 his
      obtain ⟨os₂', hrest', hp₂⟩ := ih hrest
      exact ⟨_, attempt_append_ok_iff.mpr ⟨os₁', s', os₂', hjs, hrest', rfl⟩, hp₁.append hp₂⟩

/-- Both runs fail, or they give the same answers up to their order and end in the same state. -/
def AgreeUpToOrder {A : Type} : Except E (List A × S) → Except E (List A × S) → Prop
  | .ok (as, s), .ok (bs, t) => as.Perm bs ∧ s = t
  | .error _, .error _ => True
  | .ok _, .error _ | .error _, .ok _ => False

/-- Success carries over in both directions, and so does failure. -/
theorem agree_of_groups_perm {gs hs : List (List I)}
    (hgroups : List.Forall₂ (fun is js => is.Perm js ∧ is.Pairwise (Commute step)) gs hs) (s : S) :
    AgreeUpToOrder (attempt step s gs.flatten) (attempt step s hs.flatten) := by
  have hback : List.Forall₂ (fun is js => is.Perm js ∧ is.Pairwise (Commute step)) hs gs := by
    refine hgroups.flip.imp ?_
    rintro is js ⟨hperm, hcommute⟩
    exact ⟨hperm.symm, hperm.pairwise hcommute fun h => ⟨h.2, h.1⟩⟩
  cases hg : attempt step s gs.flatten with
  | ok r =>
      obtain ⟨os, hother, hperm⟩ := attempt_groups_perm hgroups hg
      rw [hother]
      exact ⟨hperm, rfl⟩
  | error e =>
      cases hh : attempt step s hs.flatten with
      | error e' => trivial
      | ok r =>
          obtain ⟨os, hother, -⟩ := attempt_groups_perm hback hh
          cases hg.symm.trans hother

end Machine
end Lib
