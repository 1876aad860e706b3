/-!
# `Lib.Runs` — runs of a labelled transition system

`step s a` is the state after action `a`, if `a` is possible in `s`. `Throughout P` says that `P` holds in every
state of a run, `EachStep G` that every step of it is taken in a state and with an action that satisfy `G`. The
rules turn what one step preserves into what a whole run preserves.

A condition on steps is one on runs that can be stated about any list of actions, since a list that cannot be
run to its end takes only the steps up to where it stops. The rules are of three kinds. `throughout_of_eachStep`
is the invariant rule. `throughout_iff_eachStep` makes the condition on the steps exact: it asks that a step
which violates the condition be seen in the very next state, and then a property of all states characterizes the
steps. And `eachStep_of_eachStep` passes from one condition to another, along an invariant.
-/

namespace Lib
namespace Runs

variable {S A : Type}

/-- The state after a list of actions, if each is possible in its turn. -/
def run (step : S → A → Option S) : S → List A → Option S
  | s, [] => some s
  | s, a :: as => (step s a).bind (run step · as)

/-- `P` holds in the first state and in every state after it. -/
def Throughout (step : S → A → Option S) (P : S → Prop) : S → List A → Prop
  | s, [] => P s
  | s, a :: as => P s ∧ ∀ s', step s a = some s' → Throughout step P s' as

/-- Every step that is taken satisfies `G`. -/
def EachStep (step : S → A → Option S) (G : S → A → Prop) : S → List A → Prop
  | _, [] => True
  | s, a :: as => ∀ s', step s a = some s' → G s a ∧ EachStep step G s' as

/-- Steps that can be checked one by one can be checked along a run. -/
instance EachStep.decidable {step : S → A → Option S} {G : S → A → Prop} [∀ s a, Decidable (G s a)] :
    ∀ (s : S) (as : List A), Decidable (EachStep step G s as)
  | _, [] => isTrue trivial
  | s, a :: as =>
      match hs : step s a with
      | none => isTrue fun s' hs' => by rw [hs] at hs'; cases hs'
      | some s₁ =>
          have : Decidable (EachStep step G s₁ as) := EachStep.decidable s₁ as
          decidable_of_iff (G s a ∧ EachStep step G s₁ as)
            ⟨fun h s' hs' => by rw [hs] at hs'; exact Option.some.inj hs' ▸ h, fun h => h s₁ hs⟩

section
variable {step : S → A → Option S} {P I : S → Prop} {G : S → A → Prop}

/-- A run, by its first action, -/
theorem run_cons {s s' : S} {a : A} {as : List A} :
    run step s (a :: as) = some s' ↔ ∃ s₁, step s a = some s₁ ∧ run step s₁ as = some s' := by
  simp only [run, Option.bind_eq_some_iff]

/-- and by a part of its actions. -/
theorem run_append {s s' : S} {as bs : List A} :
    run step s (as ++ bs) = some s' ↔ ∃ s₁, run step s as = some s₁ ∧ run step s₁ bs = some s' := by
  induction as generalizing s with
  | nil => simp [run]
  | cons a as ih =>
      rw [List.cons_append, run_cons]
      constructor
      · rintro ⟨s₁, hstep, hrun⟩
        obtain ⟨s₂, has, hbs⟩ := ih.mp hrun
        exact ⟨s₂, run_cons.mpr ⟨s₁, hstep, has⟩, hbs⟩
      · rintro ⟨s₂, has, hbs⟩
        obtain ⟨s₁, hstep, hrun⟩ := run_cons.mp has
        exact ⟨s₁, hstep, ih.mpr ⟨s₂, hrun, hbs⟩⟩

/-- **An invariant of the steps that satisfy `G` holds throughout a run of them.** -/
theorem throughout_of_eachStep (hstep : ∀ s a s', I s → G s a → step s a = some s' → I s')
    (hP : ∀ s, I s → P s) {s : S} {as : List A} (hs : I s) (hG : EachStep step G s as) :
    Throughout step P s as := by
  induction as generalizing s with
  | nil => exact hP s hs
  | cons a as ih =>
      refine ⟨hP s hs, ?_⟩
      intro s' hs'
      obtain ⟨hGs, hGrest⟩ := hG s' hs'
      exact ih (hstep s a s' hs hGs hs') hGrest

/-- If moreover a step that does not satisfy `G` breaks `P`, then `P` holds throughout exactly the runs whose
    steps satisfy `G`. -/
theorem throughout_iff_eachStep (hstep : ∀ s a s', I s → G s a → step s a = some s' → I s')
    (hP : ∀ s, I s → P s) (hbreak : ∀ s a s', I s → ¬ G s a → step s a = some s' → ¬ P s')
    {s : S} {as : List A} (hs : I s) : Throughout step P s as ↔ EachStep step G s as := by
  refine ⟨?_, throughout_of_eachStep hstep hP hs⟩
  induction as generalizing s with
  | nil => exact fun _ => trivial
  | cons a as ih =>
      rintro ⟨-, hrest⟩ s' hs'
      have hPs' : P s' := by
        have h := hrest s' hs'
        cases as with
        | nil => exact h
        | cons b bs => exact h.1
      have hGs : G s a := Classical.byContradiction fun hG => hbreak s a s' hs hG hs' hPs'
      exact ⟨hGs, ih (hstep s a s' hs hGs hs') (hrest s' hs')⟩

/-- One step after another. -/
theorem EachStep.cons {s s' : S} {a : A} {as : List A} (hs : step s a = some s') (hG : G s a)
    (hrest : EachStep step G s' as) : EachStep step G s (a :: as) := by
  intro s₁ hs₁
  rw [hs] at hs₁
  obtain rfl := Option.some.inj hs₁
  exact ⟨hG, hrest⟩

/-- The step that action `k` takes. -/
theorem EachStep.get {s s₁ s₂ : S} {as : List A} {a : A} (h : EachStep step G s as) (k : Nat)
    (ha : as[k]? = some a) (hrun : run step s (as.take k) = some s₁) (hstep : step s₁ a = some s₂) :
    G s₁ a := by
  induction as generalizing s k with
  | nil => cases ha
  | cons b as ih =>
      cases k with
      | zero =>
          obtain rfl := Option.some.inj ha
          obtain rfl := Option.some.inj hrun
          exact (h s₂ hstep).1
      | succ k =>
          obtain ⟨s', hs', hrest⟩ := run_cons.mp hrun
          exact ih (h s' hs').2 k ha hrest

/-- An invariant of the steps that satisfy `G` holds after a run of them. -/
theorem invariant_of_eachStep (hstep : ∀ s a s', I s → G s a → step s a = some s' → I s') {s s' : S}
    {as : List A} (hs : I s) (hG : EachStep step G s as) (hrun : run step s as = some s') : I s' := by
  induction as generalizing s with
  | nil => exact Option.some.inj hrun ▸ hs
  | cons a as ih =>
      obtain ⟨s₁, hs₁, hrest⟩ := run_cons.mp hrun
      obtain ⟨hGs, hGrest⟩ := hG s₁ hs₁
      exact ih (hstep s a s₁ hs hGs hs₁) hGrest hrest

/-- An invariant of every step holds after every run. -/
theorem invariant_of_run (hstep : ∀ s a s', I s → step s a = some s' → I s') {s s' : S} {as : List A}
    (hs : I s) (hrun : run step s as = some s') : I s' := by
  induction as generalizing s with
  | nil => exact Option.some.inj hrun ▸ hs
  | cons a as ih =>
      obtain ⟨s₁, hs₁, hrest⟩ := run_cons.mp hrun
      exact ih (hstep s a s₁ hs hs₁) hrest

/-- The same for an invariant of the actions so far and the state they lead to. -/
theorem invariant_of_history {J : List A → S → Prop}
    (hstep : ∀ past s a s', J past s → step s a = some s' → J (past ++ [a]) s') {s s' : S} {as : List A}
    (hs : J [] s) (hrun : run step s as = some s') : J as s' := by
  have hall : ∀ (past : List A) (s : S), J past s → run step s as = some s' → J (past ++ as) s' := by
    clear hs hrun
    induction as with
    | nil =>
        intro past s hs hrun
        obtain rfl := Option.some.inj hrun
        rw [List.append_nil]
        exact hs
    | cons a as ih =>
        intro past s hs hrun
        obtain ⟨s₁, hs₁, hrest⟩ := run_cons.mp hrun
        have hnext := ih (past ++ [a]) s₁ (hstep past s a s₁ hs hs₁) hrest
        rwa [List.append_assoc] at hnext
  exact hall [] s hs hrun

end
end Runs
end Lib
