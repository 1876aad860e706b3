import Apigate.Lib.Prog
import Mathlib.Data.List.Forall2

/-!
# `Lib.Alike` — two runs side by side

An assertion about two runs relates their states and their traces so far. `Coupled P p q Q E` is `Ends` for two
programs: from states and traces that satisfy `P` both end normally, with one value, or both stop. It composes
along `>>=` as `Ends` does, since two programs that agree on the value go on with the same continuation.

Most often there is one relation that everything keeps. `Alike R f g p q` is that case: states are compared by
`R`, errors after the renaming `f`, and events after the renaming `g`. Whatever `R`, `f` and `g` forget is all
that tells the two runs apart:

* with `R` the equality, two programs that differ in what `f` and `g` forget only;
* with `p` and `q` the same program and nothing renamed, a program that does not tell related states apart.

`Alike` is a congruence of the program constructors, and so it is proved along the text of a program.
-/

namespace Lib

variable {σ ε ε' τ τ' α β : Type}

/-- The outcome with its error and its events renamed. -/
def Outcome.relabel (f : ε → ε') (g : τ → τ') (o : Outcome σ ε τ α) : Outcome σ ε' τ' α :=
  ⟨o.result.mapError f, o.state, o.trace.map g⟩

namespace Prog

/-- What one asserts about two runs: the state and the trace so far of the one, and of the other. -/
abbrev Pairing (σ τ : Type) := σ → List τ → σ → List τ → Prop

/-- **Two runs side by side.** Both end normally, with one value, and `Q` holds; or both stop, and `E` does. -/
def Coupled (P : Pairing σ τ) (p q : Prog σ ε τ α) (Q : α → Pairing σ τ) (E : ε → ε → Pairing σ τ) : Prop :=
  ∀ s before t before', P s before t before' →
    (∃ a, (p s).result = .ok a ∧ (q t).result = .ok a ∧
      Q a (p s).state (before ++ (p s).trace) (q t).state (before' ++ (q t).trace)) ∨
    ∃ e e', (p s).result = .error e ∧ (q t).result = .error e' ∧
      E e e' (p s).state (before ++ (p s).trace) (q t).state (before' ++ (q t).trace)

section
variable {P : Pairing σ τ} {Q : α → Pairing σ τ} {S : β → Pairing σ τ} {E : ε → ε → Pairing σ τ}

theorem Coupled.pure (a : α) : Coupled (Q a) (Pure.pure a : Prog σ ε τ α) (Pure.pure a) Q E := by
  intro s before t before' h
  refine .inl ⟨a, rfl, rfl, ?_⟩
  simpa [Pure.pure, Prog.pure] using h

/-- **Sequences**: where the first parts end normally the second ones are the same continuation, at one value. -/
theorem Coupled.bind {p q : Prog σ ε τ α} {k l : α → Prog σ ε τ β} (hp : Coupled P p q Q E)
    (hk : ∀ a, Coupled (Q a) (k a) (l a) S E) : Coupled P (p >>= k) (q >>= l) S E := by
  intro s before t before' hP
  rcases hp s before t before' hP with ⟨a, hpa, hqa, hQ⟩ | ⟨e, e', hpe, hqe, hE⟩
  · rw [bind_of_ok hpa, bind_of_ok hqa, ← List.append_assoc, ← List.append_assoc]
    exact hk a _ _ _ _ hQ
  · rw [bind_of_error hpe, bind_of_error hqe]
    exact .inr ⟨e, e', rfl, rfl, hE⟩

end

/-! ## One relation that everything keeps -/

/-- The states are related, and the traces are the same after the renaming. -/
def Likewise (R : σ → σ → Prop) (g : τ → τ') : Pairing σ τ := fun s tr t tr' => R s t ∧ tr.map g = tr'.map g

/-- Stopped with errors that are the same after the renaming. -/
def StoppedLikewise (R : σ → σ → Prop) (f : ε → ε') (g : τ → τ') (e e' : ε) : Pairing σ τ := fun s tr t tr' =>
  f e = f e' ∧ Likewise R g s tr t tr'

/-- From related states the two run alike, and end in related states. -/
abbrev Alike (R : σ → σ → Prop) (f : ε → ε') (g : τ → τ') (p q : Prog σ ε τ α) : Prop :=
  Coupled (Likewise R g) p q (fun _ => Likewise R g) (StoppedLikewise R f g)

variable {R : σ → σ → Prop} {f : ε → ε'} {g : τ → τ'}

/-- Two results that agree after the renaming both succeed, with one value, or both fail. -/
theorem mapError_cases {r r' : Except ε α} (h : r.mapError f = r'.mapError f) :
    (∃ a, r = .ok a ∧ r' = .ok a) ∨ ∃ e e', r = .error e ∧ r' = .error e' ∧ f e = f e' := by
  cases r with
  | ok a =>
      cases r' with
      | ok b =>
          cases h
          exact Or.inl ⟨a, rfl, rfl⟩
      | error e => cases h
  | error e =>
      cases r' with
      | ok b => cases h
      | error e' =>
          injection h with h
          exact Or.inr ⟨e, e', rfl, rfl, h⟩

@[simp] theorem mapError_id (r : Except ε α) : r.mapError id = r := by
  cases r <;> rfl

/-- What the two outcomes have in common, field by field. The traces before the programs play no role: they are
    related anyway, and the renaming of a list is taken part by part. -/
theorem alike_iff {p q : Prog σ ε τ α} :
    Alike R f g p q ↔ ∀ s t, R s t → (p s).result.mapError f = (q t).result.mapError f ∧
      R (p s).state (q t).state ∧ (p s).trace.map g = (q t).trace.map g := by
  constructor
  · intro h s t hst
    rcases h s [] t [] ⟨hst, rfl⟩ with ⟨a, hpa, hqa, hstate, htrace⟩ | ⟨e, e', hpe, hqe, he, hstate, htrace⟩
    · exact ⟨by rw [hpa, hqa], hstate, by simpa using htrace⟩
    · exact ⟨by rw [hpe, hqe]; exact congrArg Except.error he, hstate, by simpa using htrace⟩
  · rintro h s before t before' ⟨hst, hbefore⟩
    obtain ⟨hresult, hstate, htrace⟩ := h s t hst
    have hall : (before ++ (p s).trace).map g = (before' ++ (q t).trace).map g := by
      rw [List.map_append, List.map_append, hbefore, htrace]
    rcases mapError_cases hresult with ⟨a, hpa, hqa⟩ | ⟨e, e', hpe, hqe, he⟩
    · exact .inl ⟨a, hpa, hqa, hstate, hall⟩
    · exact .inr ⟨e, e', hpe, hqe, he, hstate, hall⟩

/-- Between equal states: the two outcomes are the same after the renaming. -/
theorem alike_eq_iff {p q : Prog σ ε τ α} : Alike Eq f g p q ↔ ∀ s, (p s).relabel f g = (q s).relabel f g := by
  simp only [alike_iff, Outcome.relabel, Outcome.mk.injEq]
  exact ⟨fun h s => h s s rfl, fun h s t hst => hst ▸ h s⟩

theorem Alike.refl (p : Prog σ ε τ α) : Alike Eq f g p p := alike_eq_iff.mpr fun _ => rfl

theorem Alike.pure {a : α} : Alike R f g (Pure.pure a : Prog σ ε τ α) (Pure.pure a) :=
  alike_iff.mpr fun _ _ hst => ⟨rfl, hst, rfl⟩

theorem Alike.bind {p q : Prog σ ε τ α} {k l : α → Prog σ ε τ β} (hp : Alike R f g p q)
    (hk : ∀ a, Alike R f g (k a) (l a)) : Alike R f g (p >>= k) (q >>= l) := Coupled.bind hp hk

theorem Alike.gets {a b : σ → α} (h : ∀ s t, R s t → a s = b t) :
    Alike R f g (gets a : Prog σ ε τ α) (gets b) :=
  alike_iff.mpr fun s t hst => ⟨congrArg Except.ok (h s t hst), hst, rfl⟩

theorem Alike.modify {a b : σ → σ} (h : ∀ s t, R s t → R (a s) (b t)) :
    Alike R f g (modify a : Prog σ ε τ Unit) (modify b) := alike_iff.mpr fun s t hst => ⟨rfl, h s t hst, rfl⟩

theorem Alike.lift {a b : σ → Except ε α × σ}
    (h : ∀ s t, R s t → (a s).1.mapError f = (b t).1.mapError f ∧ R (a s).2 (b t).2) :
    Alike R f g (lift a : Prog σ ε τ α) (lift b) :=
  alike_iff.mpr fun s t hst => ⟨(h s t hst).1, (h s t hst).2, rfl⟩

theorem Alike.ofExcept {r r' : Except ε α} (h : r.mapError f = r'.mapError f) :
    Alike R f g (ofExcept r : Prog σ ε τ α) (ofExcept r') := alike_iff.mpr fun _ _ hst => ⟨h, hst, rfl⟩

/-- A stage marks what it ends with: the marks must agree wherever the errors do. -/
theorem Alike.stage {mark mark' : Option ε → τ} {p q : Prog σ ε τ α} (hp : Alike R f g p q)
    (hok : g (mark none) = g (mark' none))
    (herr : ∀ e e', f e = f e' → g (mark (some e)) = g (mark' (some e'))) :
    Alike R f g (stage mark p) (stage mark' q) := by
  rw [alike_iff] at hp ⊢
  intro s t hst
  obtain ⟨hresult, hstate, htrace⟩ := hp s t hst
  refine ⟨hresult, hstate, ?_⟩
  unfold Prog.stage
  rcases mapError_cases hresult with ⟨a, hpa, hqa⟩ | ⟨e, e', hpe, hqe, he⟩
  · simp [hpa, hqa, errorOf, htrace, hok]
  · simp [hpe, hqe, errorOf, htrace, herr e e' he]

end Prog
end Lib
