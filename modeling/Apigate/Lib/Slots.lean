import Mathlib.Data.List.Induction
import Mathlib.Data.List.Nodup
import Mathlib.Data.List.Perm.Basic

/-!
# `Lib.Slots` — settings that may be made once

A list of settings, each for one slot, is entered from left to right; a setting for a slot that is taken stops
the entry. A list is entered whole when its settings are for different slots, and then each slot holds the
setting that is for it.

The order of the settings does not matter for what is entered and matters for what stops the entry: the first
setting for a slot that an earlier one has taken, whatever comes after it. Both theorems, `enterAll_ok_iff` and
`enterAll_error_iff`, follow the entry from the empty table, so that what a slot holds is due to the list alone.

Programs seldom keep a table. They keep a record with a field for each slot, and an operation that sets a field
or returns an error of its own. `Builder` says when such a record is a table in disguise: its operation refuses
exactly the taken slots, changes no other slot when it accepts, and the record holds nothing besides. Then
folding the operation over a list is entering the list (`Builder.foldlM_eq`), and the theorems about tables
become theorems about the record.
-/

namespace Lib
namespace Slots

variable {κ α : Type} [DecidableEq κ] (slot : α → κ)

/-- The slots before the first setting. -/
def empty : κ → Option α := fun _ => none

/-- Enter a setting, unless its slot is taken. -/
def enter (m : κ → Option α) (a : α) : Except α (κ → Option α) :=
  match m (slot a) with
  | some _ => .error a
  | none => .ok (Function.update m (slot a) (some a))

/-- Enter settings from left to right. -/
def enterAll (m : κ → Option α) (as : List α) : Except α (κ → Option α) := as.foldlM (enter slot) m

/-- The setting of a list for a slot, if no other one is for it. -/
def settled (as : List α) : κ → Option α := fun k => as.find? fun a => decide (slot a = k)

variable {slot}

/-- A free slot is filled. -/
theorem enter_of_none {m : κ → Option α} {a : α} (h : m (slot a) = none) :
    enter slot m a = .ok (Function.update m (slot a) (some a)) := by
  unfold enter
  rw [h]

/-- A taken slot refuses, and says which setting it refused. -/
theorem enter_of_isSome {m : κ → Option α} {a : α} (h : (m (slot a)).isSome) : enter slot m a = .error a := by
  obtain ⟨b, hb⟩ := Option.isSome_iff_exists.mp h
  unfold enter
  rw [hb]

/-- A slot holds something if some setting is for it. -/
theorem settled_isSome {as : List α} {k : κ} : (settled slot as k).isSome ↔ k ∈ as.map slot := by
  unfold settled
  rw [List.find?_isSome, List.mem_map]
  constructor
  · rintro ⟨a, ha, hk⟩
    exact ⟨a, ha, of_decide_eq_true hk⟩
  · rintro ⟨a, ha, hk⟩
    exact ⟨a, ha, decide_eq_true hk⟩

theorem settled_eq_none {as : List α} {k : κ} : settled slot as k = none ↔ k ∉ as.map slot := by
  rw [← settled_isSome, Option.not_isSome_iff_eq_none]

/-- The setting for a slot, where no two are for one slot. The search finds the first setting for the slot, and
    there is only one. -/
theorem settled_eq_some_iff {as : List α} (hnodup : (as.map slot).Nodup) {k : κ} {a : α} :
    settled slot as k = some a ↔ a ∈ as ∧ slot a = k := by
  unfold settled
  constructor
  · intro h
    exact ⟨List.mem_of_find?_eq_some h, by simpa using List.find?_some h⟩
  · rintro ⟨ha, rfl⟩
    induction as with
    | nil => cases ha
    | cons b as ih =>
        rw [List.map_cons, List.nodup_cons] at hnodup
        rcases List.mem_cons.mp ha with rfl | ha
        · exact List.find?_cons_of_pos (decide_eq_true rfl)
        · have hba : slot b ≠ slot a := fun heq => hnodup.1 (heq ▸ List.mem_map_of_mem ha)
          rw [List.find?_cons_of_neg (by simpa using hba)]
          exact ih hnodup.2 ha

/-- One setting more, for a slot of its own: at that slot the search passes all the others, and at another slot
    it does not come as far. -/
theorem settled_concat {as : List α} {a : α} (h : slot a ∉ as.map slot) :
    settled slot (as ++ [a]) = Function.update (settled slot as) (slot a) (some a) := by
  funext k
  unfold settled
  rw [List.find?_append]
  by_cases hk : k = slot a
  · subst hk
    have hnone : (as.find? fun b => decide (slot b = slot a)) = none :=
      settled_eq_none.mpr h
    rw [hnone, Function.update_self]
    simp
  · rw [Function.update_of_ne hk]
    have hlast : ([a].find? fun b => decide (slot b = k)) = none := by
      simp [Ne.symm hk]
    rw [hlast, Option.or_none]

/-- **What is entered** in an empty table: settings for different slots. By induction on the list from its end,
    since the last setting meets the table of all the others: it is refused if one of them is for its slot, and
    otherwise the table is theirs with this setting in it. -/
theorem enterAll_ok_iff {as : List α} {m : κ → Option α} :
    enterAll slot empty as = .ok m ↔ (as.map slot).Nodup ∧ m = settled slot as := by
  induction as using List.reverseRecOn generalizing m with
  | nil =>
      constructor
      · intro h
        cases h
        exact ⟨.nil, rfl⟩
      · rintro ⟨-, rfl⟩
        rfl
  | append_singleton as a ih =>
      have hfold : enterAll slot empty (as ++ [a]) = (enterAll slot empty as).bind (enter slot · a) := by
        unfold enterAll
        rw [List.foldlM_append]
        cases as.foldlM (enter slot) empty with
        | error b => rfl
        | ok m =>
            simp only [List.foldlM_cons, List.foldlM_nil, bind_pure]
            rfl
      rw [hfold, List.map_append, List.map_singleton, List.nodup_append_comm]
      rw [List.singleton_append, List.nodup_cons]
      constructor
      · intro h
        cases has : enterAll slot empty as with
        | error b =>
            rw [has] at h
            cases h
        | ok m' =>
            obtain ⟨hnodup, rfl⟩ := ih.mp has
            rw [has] at h
            by_cases ha : slot a ∈ as.map slot
            · rw [Except.bind, enter_of_isSome (settled_isSome.mpr ha)] at h
              cases h
            · rw [Except.bind, enter_of_none (settled_eq_none.mpr ha)] at h
              cases h
              exact ⟨⟨ha, hnodup⟩, (settled_concat ha).symm⟩
      · rintro ⟨⟨ha, hnodup⟩, rfl⟩
        rw [ih.mpr ⟨hnodup, rfl⟩, Except.bind, enter_of_none (settled_eq_none.mpr ha), settled_concat ha]

/-- **What stops the entry**: the first setting for a slot that an earlier one has taken. Forwards by induction
    from the end of the list, where either the settings before the last one have failed already or the last one
    does. Backwards, the settings in front are entered, and a failure is not undone by what follows. -/
theorem enterAll_error_iff {as : List α} {a : α} :
    enterAll slot empty as = .error a ↔
      ∃ before after, as = before ++ a :: after ∧ (before.map slot).Nodup ∧ slot a ∈ before.map slot := by
  constructor
  · intro h
    induction as using List.reverseRecOn with
    | nil => cases h
    | append_singleton as b ih =>
        unfold enterAll at h ih
        rw [List.foldlM_append] at h
        cases has : as.foldlM (enter slot) empty with
        | error c =>
            rw [has] at h ih
            cases h
            obtain ⟨before, after, rfl, hnodup, ha⟩ := ih rfl
            exact ⟨before, after ++ [b], by rw [List.append_assoc, List.cons_append], hnodup, ha⟩
        | ok m =>
            obtain ⟨hnodup, rfl⟩ := enterAll_ok_iff.mp has
            rw [has] at h
            by_cases hb : slot b ∈ as.map slot
            · have henter := enter_of_isSome (settled_isSome.mpr hb)
              change (enter slot (settled slot as) b >>= pure) = _ at h
              rw [henter] at h
              cases h
              exact ⟨as, [], rfl, hnodup, hb⟩
            · have henter := enter_of_none (settled_eq_none.mpr hb)
              change (enter slot (settled slot as) b >>= pure) = _ at h
              rw [henter] at h
              cases h
  · rintro ⟨before, after, rfl, hnodup, ha⟩
    have hbefore : before.foldlM (enter slot) empty = .ok (settled slot before) := enterAll_ok_iff.mpr ⟨hnodup, rfl⟩
    unfold enterAll
    rw [List.foldlM_append, hbefore]
    show (do let m ← enter slot (settled slot before) a; after.foldlM (enter slot) m) = _
    rw [enter_of_isSome (settled_isSome.mpr ha)]
    rfl

/-! ## Builders

A record is a table of slots if its operation does to the slots what `enter` does. That the slots determine the
record is needed for one direction only, namely to know the record from the table. -/

section
variable {β ε : Type} (slot)

/-- A record that is a table of slots, with an operation that enters a setting or says why not. -/
structure Builder (slots : β → κ → Option α) (apply : β → α → Except ε β) (duplicate : α → ε) : Prop where
  taken : ∀ {b a}, (slots b (slot a)).isSome → apply b a = .error (duplicate a)
  free : ∀ {b a}, slots b (slot a) = none →
    ∃ b', apply b a = .ok b' ∧ slots b' = Function.update (slots b) (slot a) (some a)
  injective : Function.Injective slots

variable {slot} {slots : β → κ → Option α} {apply : β → α → Except ε β} {duplicate : α → ε}

/-- Applying settings to the record is entering them in its table. By induction on the list, one step of the
    table for one of the record. -/
theorem Builder.foldlM_eq (h : Builder slot slots apply duplicate) (b : β) (as : List α) :
    (as.foldlM apply b).map slots = (enterAll slot (slots b) as).mapError duplicate := by
  induction as generalizing b with
  | nil => rfl
  | cons a as ih =>
      unfold enterAll at ih ⊢
      rw [List.foldlM_cons, List.foldlM_cons]
      cases hslot : slots b (slot a) with
      | none =>
          obtain ⟨b', hb', hslots⟩ := h.free hslot
          rw [hb', enter_of_none hslot, ← hslots]
          exact ih b'
      | some c =>
          have htaken : (slots b (slot a)).isSome := by rw [hslot]; rfl
          rw [h.taken htaken, enter_of_isSome htaken]
          rfl

/-- **What a builder takes**: settings for different slots, and its slots then hold them. The record is the only
    one with these slots. -/
theorem Builder.foldlM_ok_iff (h : Builder slot slots apply duplicate) {b₀ b : β} (hb₀ : slots b₀ = empty)
    {as : List α} : as.foldlM apply b₀ = .ok b ↔ (as.map slot).Nodup ∧ slots b = settled slot as := by
  have hfold := h.foldlM_eq b₀ as
  rw [hb₀] at hfold
  rw [← enterAll_ok_iff]
  constructor
  · intro hb
    rw [hb] at hfold
    cases hall : enterAll slot empty as with
    | error a =>
        rw [hall] at hfold
        cases hfold
    | ok m =>
        rw [hall] at hfold
        rw [Except.ok.inj hfold]
  · intro hall
    rw [hall] at hfold
    cases hb : as.foldlM apply b₀ with
    | error e =>
        rw [hb] at hfold
        cases hfold
    | ok b' =>
        rw [hb] at hfold
        rw [h.injective (Except.ok.inj hfold)]

/-- A builder takes settings for different slots. -/
theorem Builder.exists_foldlM (h : Builder slot slots apply duplicate) {b₀ : β} (hb₀ : slots b₀ = empty)
    {as : List α} (hnodup : (as.map slot).Nodup) : ∃ b, as.foldlM apply b₀ = .ok b ∧ slots b = settled slot as := by
  cases hb : as.foldlM apply b₀ with
  | ok b => exact ⟨b, rfl, ((h.foldlM_ok_iff hb₀).mp hb).2⟩
  | error e =>
      have hfold := h.foldlM_eq b₀ as
      rw [hb₀, hb, enterAll_ok_iff.mpr ⟨hnodup, rfl⟩] at hfold
      cases hfold

/-- **What a builder refuses**: the first setting for a slot that is taken. -/
theorem Builder.foldlM_error (h : Builder slot slots apply duplicate) {b₀ : β} (hb₀ : slots b₀ = empty)
    {before after : List α} {a : α} (hnodup : (before.map slot).Nodup) (ha : slot a ∈ before.map slot) :
    (before ++ a :: after).foldlM apply b₀ = .error (duplicate a) := by
  have hfold := h.foldlM_eq b₀ (before ++ a :: after)
  rw [hb₀, enterAll_error_iff.mpr ⟨before, after, rfl, hnodup, ha⟩] at hfold
  cases hb : (before ++ a :: after).foldlM apply b₀ with
  | error e =>
      rw [hb] at hfold
      rw [Except.error.inj hfold]
  | ok b =>
      rw [hb] at hfold
      cases hfold

end

end Slots
end Lib
