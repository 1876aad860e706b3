import Mathlib.Data.List.Basic

/-!
# `Lib.Prog` — programs with a state, early exits and a trace

`Prog σ ε τ α` reads and changes a state `σ`, may stop early with an error `ε` (the `?` of Rust), and writes a
trace of events `τ`. A program is the function from the state it starts in to its `Outcome`, so a fact about all
runs is a fact about all states. What is said about programs here:

* `Triple P p Q` — partial correctness: from a state and trace so far that satisfy `P`, a run that ends normally
  satisfies `Q`;
* `Ends P p Q E` — the same for runs that end either way, with `E` for those that stop early;
* `Emits P p` — whatever the run does, each of its events satisfies `P`;
* `Staged` — **fail fast**: the run went through named stages in order, each once, and stopped at the first that
  failed.

An assertion speaks about the trace since the beginning and not about the events of the program in hand. This is
what makes the rule for `>>=` compose without a word about concatenation, and it turns fail fast into an
ordinary assertion: `Progress stageOf stages rest` says which stages are still to come, each stage takes one off
the front (`Ends.progress`), and a program that gets from all of them to none is staged (`staged_of_ends`).
-/

namespace Lib

/-- How a run ends: its result, the state it leaves, the events it emitted. -/
structure Outcome (σ ε τ α : Type) where
  result : Except ε α
  state : σ
  trace : List τ

def Prog (σ ε τ α : Type) := σ → Outcome σ ε τ α

namespace Prog

variable {σ ε τ κ α β : Type}

protected def pure (a : α) : Prog σ ε τ α := fun s => ⟨.ok a, s, []⟩

protected def bind (p : Prog σ ε τ α) (q : α → Prog σ ε τ β) : Prog σ ε τ β := fun s =>
  match (p s).result with
  | .ok a => { q a (p s).state with trace := (p s).trace ++ (q a (p s).state).trace }
  | .error e => ⟨.error e, (p s).state, (p s).trace⟩

instance : Monad (Prog σ ε τ) where
  pure := Prog.pure
  bind := Prog.bind

/-- Read something of the state. -/
def gets (f : σ → α) : Prog σ ε τ α := fun s => ⟨.ok (f s), s, []⟩

def modify (f : σ → σ) : Prog σ ε τ Unit := fun s => ⟨.ok (), f s, []⟩

/-- Add events to the trace. -/
def tell (events : List τ) : Prog σ ε τ Unit := fun s => ⟨.ok (), s, events⟩

/-- A fallible operation on the state. -/
def lift (f : σ → Except ε α × σ) : Prog σ ε τ α := fun s => ⟨(f s).1, (f s).2, []⟩

/-- Continue with the value, or stop with the error. -/
def ofExcept (r : Except ε α) : Prog σ ε τ α := fun s => ⟨r, s, []⟩

/-- The error of a result, if it is one. -/
def errorOf : Except ε α → Option ε
  | .ok _ => none
  | .error e => some e

/-- Run a stage and record the error it ended with, if any. -/
def stage (mark : Option ε → τ) (p : Prog σ ε τ α) : Prog σ ε τ α := fun s =>
  { p s with trace := (p s).trace ++ [mark (errorOf (p s).result)] }

/-- Run a list of programs one after the other. -/
def runAll : List (Prog σ ε τ Unit) → Prog σ ε τ Unit
  | [] => Prog.pure ()
  | p :: ps => p >>= fun _ => runAll ps

/-! ## Runs that end normally -/

theorem bind_of_ok {p : Prog σ ε τ α} {q : α → Prog σ ε τ β} {s : σ} {a : α}
    (h : (p s).result = .ok a) :
    (p >>= q) s = ⟨(q a (p s).state).result, (q a (p s).state).state,
      (p s).trace ++ (q a (p s).state).trace⟩ := by
  simp only [Bind.bind, Prog.bind, h]

theorem bind_of_error {p : Prog σ ε τ α} {q : α → Prog σ ε τ β} {s : σ} {e : ε}
    (h : (p s).result = .error e) : (p >>= q) s = ⟨.error e, (p s).state, (p s).trace⟩ := by
  simp only [Bind.bind, Prog.bind, h]

/-- A sequence ends normally when both parts do. -/
theorem bind_result_ok {p : Prog σ ε τ α} {q : α → Prog σ ε τ β} {s : σ} {b : β}
    (h : ((p >>= q) s).result = .ok b) :
    ∃ a, (p s).result = .ok a ∧ (q a (p s).state).result = .ok b ∧
      ((p >>= q) s).state = (q a (p s).state).state ∧
      ((p >>= q) s).trace = (p s).trace ++ (q a (p s).state).trace := by
  cases hp : (p s).result with
  | ok a =>
      rw [bind_of_ok hp] at h ⊢
      exact ⟨a, rfl, h, rfl, rfl⟩
  | error e =>
      rw [bind_of_error hp] at h
      cases h

/-- Partial correctness. Assertions speak about the state and the trace so far. -/
def Triple (P : σ → List τ → Prop) (p : Prog σ ε τ α) (Q : α → σ → List τ → Prop) : Prop :=
  ∀ s before, P s before → ∀ a, (p s).result = .ok a → Q a (p s).state (before ++ (p s).trace)

section
variable {P P' : σ → List τ → Prop} {Q Q' : α → σ → List τ → Prop} {R : β → σ → List τ → Prop}

theorem Triple.pure {a : α} (h : ∀ s tr, P s tr → Q a s tr) :
    Triple P (Pure.pure a : Prog σ ε τ α) Q := by
  rintro s before hP a' ⟨⟩
  simpa [Pure.pure, Prog.pure] using h s before hP

theorem Triple.bind {p : Prog σ ε τ α} {q : α → Prog σ ε τ β} (hp : Triple P p Q)
    (hq : ∀ a, Triple (Q a) (q a) R) : Triple P (p >>= q) R := by
  intro s before hP b h
  obtain ⟨a, hpa, hqb, hstate, htrace⟩ := bind_result_ok h
  rw [hstate, htrace, ← List.append_assoc]
  exact hq a _ _ (hp s before hP a hpa) b hqb

theorem Triple.weaken {p : Prog σ ε τ α} (h : Triple P' p Q') (hpre : ∀ s tr, P s tr → P' s tr)
    (hpost : ∀ a s tr, Q' a s tr → Q a s tr) : Triple P p Q := fun s before hP a hrun =>
  hpost _ _ _ (h s before (hpre _ _ hP) a hrun)

/-- A fact that does not depend on the state is a hypothesis. -/
theorem Triple.of_pure {φ : Prop} {p : Prog σ ε τ α} (h : φ → Triple P p Q) :
    Triple (fun s tr => P s tr ∧ φ) p Q := fun s before hP => h hP.2 s before hP.1

/-- It holds afterwards as well. -/
theorem Triple.and_pure {φ : Prop} {p : Prog σ ε τ α} (h : Triple P p Q) :
    Triple (fun s tr => P s tr ∧ φ) p fun a s tr => Q a s tr ∧ φ := fun s before hP a hrun =>
  ⟨h s before hP.1 a hrun, hP.2⟩

theorem Triple.gets {f : σ → α} (h : ∀ s tr, P s tr → Q (f s) s tr) :
    Triple P (gets f : Prog σ ε τ α) Q := by
  rintro s before hP a ⟨⟩
  simpa [Prog.gets] using h s before hP

theorem Triple.modify {f : σ → σ} {Q : Unit → σ → List τ → Prop} (h : ∀ s tr, P s tr → Q () (f s) tr) :
    Triple P (modify f) (ε := ε) Q := by
  rintro s before hP a ⟨⟩
  simpa [Prog.modify] using h s before hP

theorem Triple.lift {f : σ → Except ε α × σ}
    (h : ∀ s tr a, P s tr → (f s).1 = .ok a → Q a (f s).2 tr) : Triple P (lift f) Q := by
  intro s before hP a hrun
  simpa [Prog.lift] using h s before a hP hrun

theorem Triple.ofExcept {r : Except ε α} (h : ∀ s tr a, P s tr → r = .ok a → Q a s tr) :
    Triple P (ofExcept r) Q := by
  intro s before hP a hrun
  simpa [Prog.ofExcept] using h s before a hP hrun

/-- A stage adds its mark. -/
theorem Triple.stage {mark : Option ε → τ} {p : Prog σ ε τ α} (hp : Triple P p Q')
    (h : ∀ a s tr, Q' a s tr → Q a s (tr ++ [mark none])) : Triple P (stage mark p) Q := by
  intro s before hP a hrun
  have hok : (p s).result = .ok a := hrun
  have := h a _ _ (hp s before hP a hok)
  simpa [Prog.stage, hok, errorOf] using this

end

/-! ## Runs that end either way -/

/-- Like `Triple`, with an assertion for runs that stop early as well. -/
def Ends (P : σ → List τ → Prop) (p : Prog σ ε τ α) (Q : α → σ → List τ → Prop)
    (E : ε → σ → List τ → Prop) : Prop :=
  ∀ s before, P s before →
    (∀ a, (p s).result = .ok a → Q a (p s).state (before ++ (p s).trace)) ∧
      ∀ e, (p s).result = .error e → E e (p s).state (before ++ (p s).trace)

section
variable {P P' : σ → List τ → Prop} {Q Q' : α → σ → List τ → Prop} {R : β → σ → List τ → Prop}
  {E E' : ε → σ → List τ → Prop}

theorem Ends.pure {a : α} (h : ∀ s tr, P s tr → Q a s tr) : Ends P (Pure.pure a : Prog σ ε τ α) Q E := by
  intro s before hP
  constructor
  · rintro a' ⟨⟩
    simpa [Pure.pure, Prog.pure] using h s before hP
  · rintro e ⟨⟩

theorem Ends.bind {p : Prog σ ε τ α} {q : α → Prog σ ε τ β} (hp : Ends P p Q E)
    (hq : ∀ a, Ends (Q a) (q a) R E) : Ends P (p >>= q) R E := by
  intro s before hP
  obtain ⟨hok, herr⟩ := hp s before hP
  cases hr : (p s).result with
  | ok a =>
      rw [bind_of_ok hr, ← List.append_assoc]
      exact hq a _ _ (hok a hr)
  | error e =>
      rw [bind_of_error hr]
      constructor
      · rintro b ⟨⟩
      · rintro e' ⟨⟩
        exact herr e hr

theorem Ends.weaken {p : Prog σ ε τ α} (h : Ends P' p Q' E') (hpre : ∀ s tr, P s tr → P' s tr)
    (hpost : ∀ a s tr, Q' a s tr → Q a s tr) (hstop : ∀ e s tr, E' e s tr → E e s tr) : Ends P p Q E := by
  intro s before hP
  obtain ⟨hok, herr⟩ := h s before (hpre s before hP)
  exact ⟨fun a ha => hpost _ _ _ (hok a ha), fun e he => hstop _ _ _ (herr e he)⟩

/-- The runs that end normally. -/
theorem Ends.triple {p : Prog σ ε τ α} (h : Ends P p Q E) : Triple P p Q := fun s before hP => (h s before hP).1

theorem Ends.gets {f : σ → α} (h : ∀ s tr, P s tr → Q (f s) s tr) : Ends P (gets f : Prog σ ε τ α) Q E := by
  intro s before hP
  constructor
  · rintro a ⟨⟩
    simpa [Prog.gets] using h s before hP
  · rintro e ⟨⟩

theorem Ends.modify {f : σ → σ} {Q : Unit → σ → List τ → Prop} (h : ∀ s tr, P s tr → Q () (f s) tr) :
    Ends P (modify f : Prog σ ε τ Unit) Q E := by
  intro s before hP
  constructor
  · rintro a ⟨⟩
    simpa [Prog.modify] using h s before hP
  · rintro e ⟨⟩

theorem Ends.lift {f : σ → Except ε α × σ} (hok : ∀ s tr a, P s tr → (f s).1 = .ok a → Q a (f s).2 tr)
    (herr : ∀ s tr e, P s tr → (f s).1 = .error e → E e (f s).2 tr) : Ends P (lift f) Q E := by
  intro s before hP
  constructor
  · intro a ha
    simpa [Prog.lift] using hok s before a hP ha
  · intro e he
    simpa [Prog.lift] using herr s before e hP he

theorem Ends.ofExcept {r : Except ε α} (hok : ∀ s tr a, P s tr → r = .ok a → Q a s tr)
    (herr : ∀ s tr e, P s tr → r = .error e → E e s tr) : Ends P (ofExcept r) Q E := by
  intro s before hP
  constructor
  · intro a ha
    simpa [Prog.ofExcept] using hok s before a hP ha
  · intro e he
    simpa [Prog.ofExcept] using herr s before e hP he

/-- A stage adds its mark, whichever way it ends. -/
theorem Ends.stage {mark : Option ε → τ} {p : Prog σ ε τ α} {A : α → σ → List τ → Prop}
    {B : ε → σ → List τ → Prop} (hp : Ends P p A B) (hok : ∀ a s tr, A a s tr → Q a s (tr ++ [mark none]))
    (herr : ∀ e s tr, B e s tr → E e s (tr ++ [mark (some e)])) : Ends P (stage mark p) Q E := by
  intro s before hP
  obtain ⟨hpok, hperr⟩ := hp s before hP
  constructor
  · intro a ha
    have ha : (p s).result = .ok a := ha
    simpa [Prog.stage, ha, errorOf] using hok a _ _ (hpok a ha)
  · intro e he
    have he : (p s).result = .error e := he
    simpa [Prog.stage, he, errorOf] using herr e _ _ (hperr e he)

end

/-! ## What a program may emit -/

/-- Every event of every run, however it ends, satisfies `P`. -/
def Emits (P : τ → Prop) (p : Prog σ ε τ α) : Prop := ∀ s, ∀ e ∈ (p s).trace, P e

section
variable {P : τ → Prop}

theorem Emits.pure {a : α} : Emits P (Pure.pure a : Prog σ ε τ α) := by
  rintro s e ⟨⟩

theorem Emits.gets {f : σ → α} : Emits P (gets f : Prog σ ε τ α) := by
  rintro s e ⟨⟩

theorem Emits.modify {f : σ → σ} : Emits P (modify f : Prog σ ε τ Unit) := by
  rintro s e ⟨⟩

theorem Emits.tell {events : List τ} (h : ∀ e ∈ events, P e) :
    Emits P (tell events : Prog σ ε τ Unit) := fun _ => h

theorem Emits.lift {f : σ → Except ε α × σ} : Emits P (lift f : Prog σ ε τ α) := by
  rintro s e ⟨⟩

theorem Emits.ofExcept {r : Except ε α} : Emits P (ofExcept r : Prog σ ε τ α) := by
  rintro s e ⟨⟩

/-- What comes second may rely on what the first returned. -/
theorem Emits.bind_result {p : Prog σ ε τ α} {q : α → Prog σ ε τ β} (hp : Emits P p)
    (hq : ∀ s a, (p s).result = .ok a → Emits P (q a)) : Emits P (p >>= q) := by
  intro s e he
  cases hr : (p s).result with
  | ok a =>
      rw [bind_of_ok hr] at he
      rcases List.mem_append.mp he with he | he
      · exact hp s e he
      · exact hq s a hr _ e he
  | error err =>
      rw [bind_of_error hr] at he
      exact hp s e he

theorem Emits.bind {p : Prog σ ε τ α} {q : α → Prog σ ε τ β} (hp : Emits P p)
    (hq : ∀ a, Emits P (q a)) : Emits P (p >>= q) := Emits.bind_result hp fun _ a _ => hq a

end

/-! ## Fail fast -/

/-- The run went through `stages` in order, each once, and stopped at the first that failed, with its error;
    `stageOf` reads stage marks off events. -/
def Staged (stageOf : τ → Option (κ × Option ε)) (stages : List κ) (o : Outcome σ ε τ α) : Prop :=
  match o.result with
  | .ok _ => o.trace.filterMap stageOf = stages.map (·, none)
  | .error e => ∃ done failed rest, stages = done ++ failed :: rest ∧
      o.trace.filterMap stageOf = done.map (·, none) ++ [(failed, some e)]

/-- So far the run has gone through the first of `stages`, and `rest` are still to come. -/
def Progress (stageOf : τ → Option (κ × Option ε)) (stages rest : List κ) : σ → List τ → Prop := fun _ tr =>
  ∃ done, stages = done ++ rest ∧ tr.filterMap stageOf = done.map (·, none)

/-- The run has stopped with this error, at the first of the stages that failed. -/
def StoppedAt (stageOf : τ → Option (κ × Option ε)) (stages : List κ) : ε → σ → List τ → Prop := fun e _ tr =>
  ∃ done failed rest, stages = done ++ failed :: rest ∧
    tr.filterMap stageOf = done.map (·, none) ++ [(failed, some e)]

section
variable {stageOf : τ → Option (κ × Option ε)} {stages rest : List κ}

theorem progress_nil (s : σ) : Progress stageOf stages stages s [] := ⟨[], rfl, rfl⟩

/-- Events that mark no stage change nothing. -/
theorem Progress.append_quiet {s s' : σ} {tr events : List τ} (h : Progress stageOf stages rest s tr)
    (hquiet : ∀ e ∈ events, stageOf e = none) : Progress stageOf stages rest s' (tr ++ events) := by
  obtain ⟨done, hstages, hmarks⟩ := h
  refine ⟨done, hstages, ?_⟩
  rw [List.filterMap_append, List.filterMap_eq_nil_iff.mpr hquiet, hmarks, List.append_nil]

/-- **One stage**, whatever happens inside, if nothing else is marked there: the run gets past it, or stops at it. -/
theorem Ends.progress {mark : Option ε → τ} {k : κ} {p : Prog σ ε τ α}
    (hmark : ∀ b, stageOf (mark b) = some (k, b)) (hquiet : Emits (stageOf · = none) p) :
    Ends (Progress stageOf stages (k :: rest)) (Prog.stage mark p) (fun _ => Progress stageOf stages rest)
      (StoppedAt stageOf stages) := by
  intro s before hprogress
  -- up to the end of the inner program nothing has been marked
  have hinside : Progress stageOf stages (k :: rest) (p s).state (before ++ (p s).trace) :=
    hprogress.append_quiet (hquiet s)
  obtain ⟨done, hstages, hmarks⟩ := hinside
  constructor
  · intro a ha
    have ha : (p s).result = .ok a := ha
    refine ⟨done ++ [k], by simp [hstages], ?_⟩
    simp only [Prog.stage, ha, errorOf, ← List.append_assoc]
    rw [List.filterMap_append, hmarks]
    simp [hmark]
  · intro e he
    have he : (p s).result = .error e := he
    refine ⟨done, k, rest, hstages, ?_⟩
    simp only [Prog.stage, he, errorOf, ← List.append_assoc]
    rw [List.filterMap_append, hmarks]
    simp [hmark]

/-- Progress through all the stages makes every run a staged one. -/
theorem staged_of_ends {p : Prog σ ε τ α}
    (h : Ends (Progress stageOf stages stages) p (fun _ => Progress stageOf stages []) (StoppedAt stageOf stages))
    (s : σ) : Staged stageOf stages (p s) := by
  obtain ⟨hok, herr⟩ := h s [] (progress_nil s)
  unfold Staged
  cases hresult : (p s).result with
  | ok a =>
      obtain ⟨done, hstages, hmarks⟩ := hok a hresult
      rw [List.append_nil] at hstages
      subst hstages
      exact hmarks
  | error e => exact herr e hresult

end

end Prog
end Lib
