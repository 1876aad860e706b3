import Mathlib.Data.List.Basic
import Mathlib.Data.List.Forall2

/-!
# `Lib.Fold` — loops that may stop

A loop over a list whose body may fail (`Except`) or also panic (`ExceptT` over `Option`). Its invariants speak
of the part of the list that has been processed: `foldlM_invariant` for a loop that has come to its end,
`foldlM_progress` for showing that it does.

The body sees one element and what the rounds before it have left. An invariant that mentions the elements
processed so far can say what that is in terms of the list, and then the end of the loop is the invariant of the
whole list. A loop ends early for two reasons, and they are told apart by the two layers of the result: an error
is a value that the loop returns, a panic is no value at all. That is why a loop that does not panic need not
come to its end, and why the rules for panics ask for more: `foldlM_of_not_panics` is for a part of the list in
which nothing else can go wrong.
-/

namespace Lib
namespace Fold

variable {α β ε : Type}

/-- Translating the errors changes no success. -/
theorem mapError_eq_ok {ε' : Type} {x : Except ε α} {f : ε → ε'} {a : α} : x.mapError f = .ok a ↔ x = .ok a := by
  cases x with
  | error e => exact ⟨fun h => (by cases h), fun h => (by cases h)⟩
  | ok b => exact ⟨fun h => (by cases h; rfl), fun h => (by cases h; rfl)⟩

/-! ## Every element on its own

A loop that only collects. Its rounds know nothing of each other. -/

/-- A `mapM` succeeds where the function does, element by element. -/
theorem mapM_ok_iff {f : α → Except ε β} {xs : List α} {ys : List β} :
    xs.mapM f = .ok ys ↔ List.Forall₂ (fun x y => f x = .ok y) xs ys := by
  induction xs generalizing ys with
  | nil =>
      constructor
      · rintro ⟨⟩
        exact .nil
      · rintro ⟨⟩
        rfl
  | cons x xs ih =>
      rw [List.mapM_cons]
      constructor
      · intro h
        cases hx : f x with
        | error e =>
            rw [hx] at h
            cases h
        | ok y =>
            cases hxs : xs.mapM f with
            | error e =>
                rw [hx, hxs] at h
                cases h
            | ok ys' =>
                rw [hx, hxs] at h
                cases h
                exact .cons hx (ih.mp hxs)
      · intro h
        cases h with
        | cons hx hxs =>
            rw [hx, ih.mpr hxs]
            rfl

/-- Whether a `mapM` succeeds, without its value. -/
theorem exists_mapM_ok_iff (f : α → Except ε β) (xs : List α) :
    (∃ ys, xs.mapM f = .ok ys) ↔ ∀ x ∈ xs, ∃ y, f x = .ok y := by
  simp only [mapM_ok_iff]
  induction xs with
  | nil => simp
  | cons x xs ih =>
      simp only [List.forall₂_cons_left_iff, List.forall_mem_cons, ← ih]
      constructor
      · rintro ⟨_, y, ys, hx, hxs, rfl⟩
        exact ⟨⟨y, hx⟩, ys, hxs⟩
      · rintro ⟨⟨y, hx⟩, ys, hxs⟩
        exact ⟨y :: ys, y, ys, hx, hxs, rfl⟩

/-! ## Loops

Values and panics of a computation and of a sequence of two, then of loops. -/

/-- The computation neither panics nor fails, and this is its value. -/
def Yields (x : ExceptT ε Option α) (a : α) : Prop := x = (some (.ok a) : Option (Except ε α))

/-- One computation after another, -/
theorem Yields.bind {x : ExceptT ε Option α} {a : α} (hx : Yields x a) {f : α → ExceptT ε Option β} {b : β}
    (hf : Yields (f a) b) : Yields (x >>= f) b := by
  unfold Yields at hx hf ⊢
  rw [hx]
  exact hf

/-- and back: a sequence has a value only through one of its first part. -/
theorem yields_bind {x : ExceptT ε Option α} {f : α → ExceptT ε Option β} {b : β} (h : Yields (x >>= f) b) :
    ∃ a, Yields x a ∧ Yields (f a) b := by
  match x, h with
  | some (.ok a), h => exact ⟨a, rfl, h⟩

/-- There is one value at most. -/
theorem Yields.unique {x : ExceptT ε Option α} {a b : α} (ha : Yields x a) (hb : Yields x b) : a = b := by
  unfold Yields at ha hb
  rw [ha] at hb
  cases hb
  rfl

/-- The computation panics. -/
def Panics (x : ExceptT ε Option α) : Prop := x = (none : Option (Except ε α))

/-- A computation that does not panic has a result, if only an error. -/
theorem not_panics_iff {x : ExceptT ε Option α} : ¬ Panics x ↔ ∃ r, x = (some r : Option (Except ε α)) :=
  Option.ne_none_iff_exists'

/-- A sequence panics in its first part, or goes on to the second and panics there. -/
theorem panics_bind {x : ExceptT ε Option α} {f : α → ExceptT ε Option β} :
    Panics (x >>= f) ↔ Panics x ∨ ∃ a, Yields x a ∧ Panics (f a) := by
  match x with
  | none => exact iff_of_true rfl (Or.inl rfl)
  | some (.error e) =>
      refine iff_of_false (fun h => by cases h) ?_
      rintro (h | ⟨a, h, -⟩) <;> cases h
  | some (.ok a) =>
      constructor
      · intro h
        exact Or.inr ⟨a, rfl, h⟩
      · rintro (h | ⟨_, ⟨⟩, h⟩)
        · cases h
        · exact h

/-- **Invariant of a loop**: what each round preserves holds at the end. -/
theorem foldlM_invariant {f : β → α → ExceptT ε Option β} {I : List α → β → Prop}
    (hstep : ∀ {s a b b'}, I s b → Yields (f b a) b' → I (s ++ [a]) b') {s l : List α} {b b' : β}
    (hb : I s b) (h : Yields (l.foldlM f b) b') : I (s ++ l) b' := by
  induction l generalizing s b with
  | nil =>
      cases h
      rw [List.append_nil]
      exact hb
  | cons a l ih =>
      rw [List.foldlM_cons] at h
      obtain ⟨b₁, h₁, hrest⟩ := yields_bind h
      have hnext := ih (hstep hb h₁) hrest
      rwa [List.append_assoc] at hnext

/-- **Progress of a loop**: where the invariant lets every round go on, the loop comes to its end. -/
theorem foldlM_progress {f : β → α → ExceptT ε Option β} {I : List α → β → Prop} {s l : List α}
    (hstep : ∀ {p a q b}, l = p ++ a :: q → I (s ++ p) b →
      ∃ b', Yields (f b a) b' ∧ I (s ++ p ++ [a]) b') {b : β} (hb : I s b) :
    ∃ b', Yields (l.foldlM f b) b' ∧ I (s ++ l) b' := by
  induction l generalizing s b with
  | nil =>
      refine ⟨b, rfl, ?_⟩
      rw [List.append_nil]
      exact hb
  | cons a l ih =>
      have hhere : I (s ++ []) b := by rwa [List.append_nil]
      obtain ⟨b₁, h₁, hI⟩ := hstep (p := []) rfl hhere
      rw [List.append_nil] at hI
      have hrest : ∀ {p c q b₂}, l = p ++ c :: q → I (s ++ [a] ++ p) b₂ →
          ∃ b', Yields (f b₂ c) b' ∧ I (s ++ [a] ++ p ++ [c]) b' := by
        intro p c q b₂ hl hb₂
        rw [List.append_assoc s [a] p, List.singleton_append] at hb₂ ⊢
        exact hstep (by rw [hl, List.cons_append]) hb₂
      obtain ⟨b', h', hI'⟩ := ih hrest hI
      rw [List.append_assoc, List.singleton_append] at hI'
      refine ⟨b', ?_, hI'⟩
      rw [List.foldlM_cons]
      exact h₁.bind h'

/-- **Where a loop panics**: in a round that it comes to. -/
theorem foldlM_panics {f : β → α → ExceptT ε Option β} {l : List α} {b : β} (h : Panics (l.foldlM f b)) :
    ∃ p a q b', l = p ++ a :: q ∧ Yields (p.foldlM f b) b' ∧ Panics (f b' a) := by
  induction l generalizing b with
  | nil => cases h
  | cons a l ih =>
      rw [List.foldlM_cons] at h
      rcases panics_bind.mp h with h | ⟨b₁, hstep, hrest⟩
      · exact ⟨[], a, l, b, rfl, rfl, h⟩
      · obtain ⟨p, c, q, b', rfl, hp, hc⟩ := ih hrest
        refine ⟨a :: p, c, q, b', rfl, ?_, hc⟩
        rw [List.foldlM_cons]
        exact hstep.bind hp

/-- **A loop that does not panic**, and in whose rounds nothing else can go wrong, comes to its end. -/
theorem foldlM_of_not_panics {f : β → α → ExceptT ε Option β} {I : List α → β → Prop} {s l : List α}
    (hstep : ∀ {p a q b}, l = p ++ a :: q → I (s ++ p) b → ¬ Panics (f b a) →
      ∃ b', Yields (f b a) b' ∧ I (s ++ p ++ [a]) b') {b : β} (hb : I s b) (h : ¬ Panics (l.foldlM f b)) :
    ∃ b', Yields (l.foldlM f b) b' ∧ I (s ++ l) b' := by
  -- the invariant remembers that the loop has come to the round, which therefore does not panic
  have hloop := foldlM_progress (s := []) (l := l) (f := f)
    (I := fun p b' => I (s ++ p) b' ∧ Yields (p.foldlM f b) b') ?_ ⟨by rwa [List.append_nil], rfl⟩
  · obtain ⟨b', hb', hI, -⟩ := hloop
    exact ⟨b', hb', hI⟩
  · rintro p a q b₁ hl ⟨hI, hp⟩
    have hround : ¬ Panics (f b₁ a) := by
      intro hpanics
      apply h
      rw [hl, List.foldlM_append]
      refine panics_bind.mpr (Or.inr ⟨b₁, hp, ?_⟩)
      rw [List.foldlM_cons]
      exact panics_bind.mpr (Or.inl hpanics)
    obtain ⟨b', hb', hI'⟩ := hstep hl hI hround
    refine ⟨b', hb', ?_, ?_⟩
    · rwa [← List.append_assoc]
    · rw [List.foldlM_append]
      refine hp.bind ?_
      rw [List.foldlM_cons]
      exact hb'.bind rfl

/-- Such a loop comes to each of its rounds, which does not panic. -/
theorem foldlM_comes_to {f : β → α → ExceptT ε Option β} {I : List α → β → Prop} {s p : List α}
    (hstep : ∀ {p' c q' b}, p = p' ++ c :: q' → I (s ++ p') b → ¬ Panics (f b c) →
      ∃ b', Yields (f b c) b' ∧ I (s ++ p' ++ [c]) b') {a : α} {q : List α} {b : β} (hb : I s b)
    (h : ¬ Panics ((p ++ a :: q).foldlM f b)) : ∃ b', I (s ++ p) b' ∧ ¬ Panics (f b' a) := by
  rw [List.foldlM_append, panics_bind, not_or, not_exists] at h
  obtain ⟨b', hb', hI⟩ := foldlM_of_not_panics hstep hb h.1
  refine ⟨b', hI, fun hpanics => h.2 b' ⟨hb', ?_⟩⟩
  rw [List.foldlM_cons]
  exact panics_bind.mpr (Or.inl hpanics)

end Fold
end Lib
