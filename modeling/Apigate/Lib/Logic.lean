import Apigate.Lib.Alike

/-!
# `Lib.Logic` — program logics, as far as putting programs together goes

A long program is put together from short ones, and to reason about it is to go through its text and to compose
what is known of the parts. This walk does not depend on what is asserted. It is the same for partial
correctness (`Triple`), for runs that end either way (`Ends`), and for two runs side by side (`Coupled`),
because it only uses that the judgement holds of `pure` and composes along `>>=`.

`Logic` is that much of a program logic. Its judgement is about two programs, so that it covers two runs; the
logics of one run do not look at the second. A theorem about a text proved for every `Logic` is a proof rule for
each of the three instances below.
-/

namespace Lib.Prog

variable {σ ε τ κ ι A : Type}

/-- A judgement about programs of one shape, with an assertion before and one after. -/
structure Logic (σ ε τ A : Type) where
  Holds : {α : Type} → A → Prog σ ε τ α → Prog σ ε τ α → (α → A) → Prop
  pure : ∀ {α : Type} {Q : α → A} (a : α), Holds (Q a) (Pure.pure a) (Pure.pure a) Q
  bind : ∀ {α β : Type} {P : A} {Q : α → A} {S : β → A} {p q : Prog σ ε τ α} {k l : α → Prog σ ε τ β},
    Holds P p q Q → (∀ a, Holds (Q a) (k a) (l a) S) → Holds P (p >>= k) (q >>= l) S

/-- **A list of programs.** `K rest` is what holds when the items with the keys `rest` are still to come, and
    each program takes its own key off the front. -/
theorem Logic.runAll (L : Logic σ ε τ A) {K : List κ → A} {key : ι → κ} {f g : ι → Prog σ ε τ Unit} {is js : List ι}
    (h : List.Forall₂ (fun i j => ∀ rest, L.Holds (K (key i :: rest)) (f i) (g j) fun _ => K rest) is js)
    (rest : List κ) :
    L.Holds (K (is.map key ++ rest)) (runAll (is.map f)) (runAll (js.map g)) fun _ => K rest := by
  induction h with
  | nil => exact L.pure (Q := fun _ => K rest) ()
  | cons hij _ ih => exact L.bind (hij _) fun _ => ih

/-- Partial correctness. -/
abbrev Logic.triple : Logic σ ε τ (σ → List τ → Prop) where
  Holds P p _ Q := Triple P p Q
  pure _ := Triple.pure fun _ _ h => h
  bind := Triple.bind

/-- Runs that end either way. -/
abbrev Logic.ends (E : ε → σ → List τ → Prop) : Logic σ ε τ (σ → List τ → Prop) where
  Holds P p _ Q := Ends P p Q E
  pure _ := Ends.pure fun _ _ h => h
  bind := Ends.bind

/-- Two runs side by side. -/
abbrev Logic.coupled (E : ε → ε → Pairing σ τ) : Logic σ ε τ (Pairing σ τ) where
  Holds P p q Q := Coupled P p q Q E
  pure := Coupled.pure
  bind := Coupled.bind

end Lib.Prog
