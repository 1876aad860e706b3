import Mathlib.Data.List.Basic
import Mathlib.Data.List.Induction

/-!
# `Lib.MultiMap` — a map that may hold several values under one key

The entries are kept in order, so the values of one key keep their relative order. `insert` replaces every value
of its key, `remove` drops every value of its key; used with `insert` alone it is an ordinary hash map.

Maps are compared in two ways. `getAll` and `get?` look up one key, and there are lemmas for each operation at
the key that it is about and at another one. Equality of maps is equality of entries, and for that removal is
generalised to a list of keys (`without`): removals one after the other are one removal, their order does not
matter, and two lists of keys leave the same map if and only if they agree on the keys that occur
(`without_inj`).

The last section is about maps that are built by insertions. The value under a key is the one inserted last
(`latest?`), and this is what such a map is for; `mem_ofList` says that nothing else is left in it.
-/

namespace Lib

/-- Entries in order; a key may occur several times. -/
structure MultiMap (κ ν : Type) where
  entries : List (κ × ν)
  deriving DecidableEq

namespace MultiMap

variable {κ ν : Type} [DecidableEq κ]

def empty : MultiMap κ ν := ⟨[]⟩

/-- Every value of a key, in order. -/
def getAll (m : MultiMap κ ν) (k : κ) : List ν := (m.entries.filter (fun e => e.1 = k)).map Prod.snd

/-- The first value of a key. -/
def get? (m : MultiMap κ ν) (k : κ) : Option ν := (m.getAll k).head?

def containsKey (m : MultiMap κ ν) (k : κ) : Bool := m.entries.any (fun e => e.1 = k)

/-- Drop every value of a key. -/
def remove (m : MultiMap κ ν) (k : κ) : MultiMap κ ν := ⟨m.entries.filter (fun e => e.1 ≠ k)⟩

/-- Drop every value of every key of a list. -/
def without (m : MultiMap κ ν) (ks : List κ) : MultiMap κ ν := ⟨m.entries.filter (fun e => e.1 ∉ ks)⟩

/-- Replace every value of a key by one. -/
def insert (m : MultiMap κ ν) (k : κ) (v : ν) : MultiMap κ ν := ⟨(m.remove k).entries ++ [(k, v)]⟩

/-- What is removed is gone. -/
@[simp] theorem getAll_remove_self (m : MultiMap κ ν) (k : κ) : (m.remove k).getAll k = [] := by
  simp [getAll, remove]

/-- Other keys keep their values, in their order. -/
theorem getAll_remove_of_ne (m : MultiMap κ ν) {k j : κ} (h : j ≠ k) :
    (m.remove k).getAll j = m.getAll j := by
  unfold getAll remove
  simp only [List.filter_filter]
  congr 1
  apply List.filter_congr
  intro e _
  by_cases hj : e.1 = j
  · simp [hj, h]
  · simp [hj]

/-- What is inserted is the only value of its key. -/
@[simp] theorem getAll_insert_self (m : MultiMap κ ν) (k : κ) (v : ν) :
    (m.insert k v).getAll k = [v] := by
  have h := getAll_remove_self m k
  unfold getAll at h ⊢
  simp only [insert, List.filter_append, List.map_append, h]
  simp

theorem getAll_insert_of_ne (m : MultiMap κ ν) {k j : κ} (v : ν) (h : j ≠ k) :
    (m.insert k v).getAll j = m.getAll j := by
  rw [← getAll_remove_of_ne m h]
  unfold getAll
  simp [insert, Ne.symm h]

theorem get?_remove_of_ne (m : MultiMap κ ν) {k j : κ} (h : j ≠ k) : (m.remove k).get? j = m.get? j := by
  unfold get?
  rw [getAll_remove_of_ne m h]

/-- Removal, at any key. -/
theorem get?_remove (m : MultiMap κ ν) (k j : κ) : (m.remove k).get? j = if k = j then none else m.get? j := by
  by_cases hk : k = j
  · rw [if_pos hk, ← hk, get?, getAll_remove_self]
    rfl
  · rw [if_neg hk, get?_remove_of_ne m (Ne.symm hk)]

/-- There is nothing to drop under a key without values. -/
theorem remove_of_get?_eq_none {m : MultiMap κ ν} {k : κ} (h : m.get? k = none) : m.remove k = m := by
  have hnone : m.entries.filter (fun e => e.1 = k) = [] := List.map_eq_nil_iff.mp (List.head?_eq_none_iff.mp h)
  unfold remove
  congr 1
  apply List.filter_eq_self.mpr
  intro e he
  have hne := List.filter_eq_nil_iff.mp hnone e he
  simpa using hne

/-! ## Dropping several keys

Removal of a list of keys, which behaves like the set of them. -/

/-- One key is a list of one. -/
theorem remove_eq_without (m : MultiMap κ ν) (k : κ) : m.remove k = m.without [k] := by
  unfold remove without
  simp only [List.mem_singleton]

theorem without_nil (m : MultiMap κ ν) : m.without [] = m := by
  unfold without
  simp only [List.not_mem_nil, not_false_eq_true, decide_true, List.filter_true]

/-- Two removals are one. -/
theorem without_without (m : MultiMap κ ν) (ks js : List κ) :
    (m.without ks).without js = m.without (ks ++ js) := by
  unfold without
  rw [List.filter_filter]
  congr 1
  apply List.filter_congr
  intro e _
  simp only [List.mem_append, not_or, Bool.decide_and, Bool.and_comm]

/-- Removing keys one after the other. -/
theorem foldl_remove_eq (ks : List κ) (m : MultiMap κ ν) : ks.foldl remove m = m.without ks := by
  induction ks generalizing m with
  | nil => exact (without_nil m).symm
  | cons k ks ih =>
      rw [List.foldl_cons, ih, remove_eq_without, without_without]
      rfl

/-- The order of two removals does not matter. -/
theorem without_comm (m : MultiMap κ ν) (ks js : List κ) :
    (m.without ks).without js = (m.without js).without ks := by
  rw [without_without, without_without, without]
  unfold without
  simp only [List.mem_append, Or.comm]

theorem remove_comm (m : MultiMap κ ν) (k j : κ) : (m.remove k).remove j = (m.remove j).remove k := by
  simp only [remove_eq_without]
  exact without_comm m [k] [j]

/-- Lookup after a removal, by cases on whether the key is among the removed. -/
theorem getAll_without (m : MultiMap κ ν) (ks : List κ) (j : κ) :
    (m.without ks).getAll j = if j ∈ ks then [] else m.getAll j := by
  unfold getAll without
  rw [List.filter_filter]
  by_cases hj : j ∈ ks
  · rw [if_pos hj, List.filter_eq_nil_iff.mpr, List.map_nil]
    intro e _ hkept
    simp only [Bool.and_eq_true, decide_eq_true_eq] at hkept
    exact hkept.2 (hkept.1 ▸ hj)
  · rw [if_neg hj]
    congr 1
    apply List.filter_congr
    intro e _
    by_cases he : e.1 = j
    · simp [he, hj]
    · simp [he]

/-- Two lists of keys leave the same entries exactly when they agree on the keys there are. -/
theorem without_inj {m : MultiMap κ ν} {ks js : List κ} :
    m.without ks = m.without js ↔ ∀ e ∈ m.entries, (e.1 ∈ ks ↔ e.1 ∈ js) := by
  constructor
  · intro h e he
    have hentries : m.entries.filter (fun e => e.1 ∉ ks) = m.entries.filter (fun e => e.1 ∉ js) :=
      congrArg entries h
    have hmem : e ∈ m.entries.filter (fun e => e.1 ∉ ks) ↔ e ∈ m.entries.filter (fun e => e.1 ∉ js) := by
      rw [hentries]
    simp only [List.mem_filter, he, true_and, decide_eq_true_eq] at hmem
    exact not_iff_not.mp hmem
  · intro h
    unfold without
    congr 1
    apply List.filter_congr
    intro e he
    simp only [h e he]

/-! ## One insertion after the other

`latest?` is found from the end of the list, and so its lemmas go by `concat` and `append`: what comes later
hides what came before. -/

/-- The value that a list of insertions leaves under a key: the last one. -/
def latest? (xs : List (κ × ν)) (k : κ) : Option ν := (xs.reverse.find? (fun e => e.1 = k)).map Prod.snd

@[simp] theorem latest?_nil (k : κ) : latest? ([] : List (κ × ν)) k = none := rfl

/-- One more insertion hides what was under its key. -/
theorem latest?_concat (xs : List (κ × ν)) (e : κ × ν) (k : κ) :
    latest? (xs ++ [e]) k = if e.1 = k then some e.2 else latest? xs k := by
  unfold latest?
  rw [List.reverse_append, List.reverse_singleton, List.singleton_append, List.find?_cons]
  by_cases hk : e.1 = k
  · rw [if_pos hk, decide_eq_true hk]
    rfl
  · rw [if_neg hk, decide_eq_false hk]

/-- Of two lists the second hides the first. -/
theorem latest?_append (xs ys : List (κ × ν)) (k : κ) :
    latest? (xs ++ ys) k = (latest? ys k).or (latest? xs k) := by
  unfold latest?
  rw [List.reverse_append, List.find?_append]
  cases ys.reverse.find? (fun e => e.1 = k) <;> rfl

theorem latest?_eq_none_iff {xs : List (κ × ν)} {k : κ} : latest? xs k = none ↔ ∀ e ∈ xs, e.1 ≠ k := by
  unfold latest?
  rw [Option.map_eq_none_iff, List.find?_eq_none]
  simp only [List.mem_reverse, decide_eq_true_eq]

/-- The last value under a key is one of those inserted. -/
theorem mem_of_latest? {xs : List (κ × ν)} {k : κ} {v : ν} (h : latest? xs k = some v) : (k, v) ∈ xs := by
  obtain ⟨⟨j, w⟩, he, rfl⟩ := Option.map_eq_some_iff.mp h
  have hkey := List.find?_some he
  obtain rfl : j = k := of_decide_eq_true hkey
  exact List.mem_reverse.mp (List.mem_of_find?_eq_some he)

/-- The map after a list of insertions. -/
def ofList (xs : List (κ × ν)) : MultiMap κ ν := xs.foldl (fun m e => m.insert e.1 e.2) empty

theorem ofList_concat (xs : List (κ × ν)) (e : κ × ν) : ofList (xs ++ [e]) = (ofList xs).insert e.1 e.2 := by
  unfold ofList
  rw [List.foldl_append]
  rfl

/-- Insertion, at any key. -/
theorem get?_insert (m : MultiMap κ ν) (k j : κ) (v : ν) :
    (m.insert k v).get? j = if k = j then some v else m.get? j := by
  unfold get?
  by_cases hk : k = j
  · rw [if_pos hk, ← hk, getAll_insert_self]
    rfl
  · rw [if_neg hk, getAll_insert_of_ne m v (Ne.symm hk)]

/-- The entries after an insertion: the new one, and the old ones under other keys. -/
theorem mem_insert_entries {m : MultiMap κ ν} {k : κ} {v : ν} {e : κ × ν} :
    e ∈ (m.insert k v).entries ↔ if k = e.1 then v = e.2 else e ∈ m.entries := by
  obtain ⟨j, w⟩ := e
  simp only [insert, remove, List.mem_append, List.mem_filter, List.mem_singleton, Prod.mk.injEq,
    decide_eq_true_eq]
  split
  · subst_vars
    simp [eq_comm]
  · rename_i hk
    simp [Ne.symm hk]

/-- Nothing but the last insertions is kept. -/
theorem mem_ofList {xs : List (κ × ν)} {e : κ × ν} : e ∈ (ofList xs).entries ↔ latest? xs e.1 = some e.2 := by
  induction xs using List.reverseRecOn with
  | nil => simp [ofList, empty]
  | append_singleton xs e' ih =>
      rw [ofList_concat, mem_insert_entries, latest?_concat, ih]
      split <;> simp

/-- Looking up in the map and in the list that it was built from comes to the same. -/
theorem latest?_entries (xs : List (κ × ν)) (k : κ) : latest? (ofList xs).entries k = latest? xs k := by
  cases hkept : latest? (ofList xs).entries k with
  | some v => exact (mem_ofList.mp (mem_of_latest? hkept)).symm
  | none =>
      cases hlast : latest? xs k with
      | none => rfl
      | some v =>
          have hmem : (k, v) ∈ (ofList xs).entries := mem_ofList.mpr hlast
          exact absurd rfl (latest?_eq_none_iff.mp hkept _ hmem)

end MultiMap
end Lib
