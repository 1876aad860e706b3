import Mathlib.Data.List.Basic

/-!
# `Lib.Segments` — separated segments of a list

`List.splitOn` cuts a list at every separator and keeps the empty segments. Two readings of a separated
text drop some of them:

* `nonEmptySegs` keeps the non-empty segments only (a splitter followed by a filter);
* `pieces` is what a scanner sees that stops on an **empty remainder**: every segment, except an empty one
  at the very end (a trailing separator is not a segment, a doubled one is).

The two agree on a list without empty inner segments (`nonEmptySegs_eq_pieces`), which is when a pattern
compiled from the first reading can be matched against the second.
-/

namespace Lib
namespace Segments

variable {α : Type}

/-! ## Dropping an empty last segment

What is lost by stopping on an empty remainder, on the list of segments. -/

/-- A list of segments without an empty last one. -/
def dropEmptyLast (us : List (List α)) : List (List α) :=
  match us.getLast? with
  | some [] => us.dropLast
  | _ => us

/-- An empty last segment is dropped, -/
theorem dropEmptyLast_append_nil (us : List (List α)) : dropEmptyLast (us ++ [[]]) = us := by
  simp [dropEmptyLast]

/-- any other is kept, -/
theorem dropEmptyLast_of_ne {us : List (List α)} (h : us.getLast? ≠ some []) :
    dropEmptyLast us = us := by
  unfold dropEmptyLast
  split
  · rename_i heq
    exact absurd heq h
  · rfl

/-- and those in front of it stay. -/
theorem dropEmptyLast_cons {u : List α} {us : List (List α)} (h : us ≠ []) :
    dropEmptyLast (u :: us) = u :: dropEmptyLast us := by
  unfold dropEmptyLast
  rw [List.getLast?_cons_of_ne_nil h, List.dropLast_cons_of_ne_nil h]
  split <;> rfl

/-- The last segment is all that can be dropped. -/
theorem dropEmptyLast_prefix (us : List (List α)) : dropEmptyLast us <+: us := by
  unfold dropEmptyLast
  split
  · exact List.dropLast_prefix us
  · exact List.prefix_rfl

/-- An empty last segment is a separator at the end. -/
theorem intercalate_concat_nil {sep : α} {us : List (List α)} (h : us ≠ []) :
    [sep].intercalate (us ++ [[]]) = [sep].intercalate us ++ [sep] := by
  induction us with
  | nil => exact absurd rfl h
  | cons u us ih =>
      cases us with
      | nil => simp [List.intercalate]
      | cons v us =>
          have hne : v :: us ≠ [] := List.cons_ne_nil v us
          have hne' : v :: us ++ [[]] ≠ [] := by simp
          rw [List.cons_append, List.intercalate_cons_of_ne_nil hne', ih hne, List.intercalate_cons_of_ne_nil hne]
          simp only [List.append_assoc]

/-! ## The two readings

Where they differ: at empty inner segments, which a filter drops and a scanner sees. -/

variable [BEq α]

/-- The non-empty segments. -/
def nonEmptySegs (sep : α) (s : List α) : List (List α) :=
  (s.splitOn sep).filter (fun u => !u.isEmpty)

/-- The segments up to an empty remainder: the last one is dropped when it is empty. -/
def pieces (sep : α) (s : List α) : List (List α) := dropEmptyLast (s.splitOn sep)

@[simp] theorem nonEmptySegs_nil (sep : α) : nonEmptySegs sep ([] : List α) = [] := by
  simp [nonEmptySegs]

@[simp] theorem pieces_nil (sep : α) : pieces sep ([] : List α) = [] := by
  simp [pieces, dropEmptyLast]

/-- Pieces are segments. -/
theorem pieces_isPrefix (sep : α) (s : List α) : pieces sep s <+: s.splitOn sep := dropEmptyLast_prefix _

/-- **The two readings agree** when no inner segment is empty. -/
theorem nonEmptySegs_eq_pieces {sep : α} {s : List α} (h : [] ∉ (s.splitOn sep).dropLast) :
    nonEmptySegs sep s = pieces sep s := by
  have hne : s.splitOn sep ≠ [] := List.splitOn_ne_nil sep s
  have hsplit := List.dropLast_append_getLast hne
  have hkeep : (s.splitOn sep).dropLast.filter (fun u => !u.isEmpty) = (s.splitOn sep).dropLast := by
    rw [List.filter_eq_self]
    intro u hu
    cases u with
    | nil => exact absurd hu h
    | cons a u => rfl
  unfold nonEmptySegs pieces
  rw [← hsplit, List.filter_append, hkeep]
  cases hlast : (s.splitOn sep).getLast hne with
  | nil => rw [dropEmptyLast_append_nil]; simp
  | cons a u => rw [dropEmptyLast_of_ne (by simp)]; simp

/-! ## Cutting at the first separator

Both readings as recursions: a list has no separator, or a first one with a segment in front of it. Proofs about
them are by induction along this cut, which makes the list shorter. -/

variable [LawfulBEq α]

/-- A list either has no separator or is cut by its first one. -/
theorem cut_first (sep : α) (s : List α) :
    sep ∉ s ∨ ∃ u t, s = u ++ sep :: t ∧ sep ∉ u := by
  by_cases h : sep ∈ s
  · exact Or.inr (List.eq_append_cons_of_mem h)
  · exact Or.inl h

/-- The segments up to and behind the first separator, -/
theorem splitOn_append {sep : α} {u : List α} (hu : sep ∉ u) (t : List α) :
    (u ++ sep :: t).splitOn sep = u :: t.splitOn sep := List.splitOn_append_cons_self_of_not_mem hu t

/-- No segment contains the separator. -/
theorem not_mem_of_mem_splitOn {sep : α} {s u : List α} (h : u ∈ s.splitOn sep) : sep ∉ u := by
  rcases cut_first sep s with hs | ⟨a, b, rfl, ha⟩
  · rw [List.splitOn_eq_singleton hs, List.mem_singleton] at h
    exact h ▸ hs
  · rw [splitOn_append ha] at h
    rcases List.mem_cons.mp h with rfl | h
    · exact ha
    · exact not_mem_of_mem_splitOn h
termination_by s.length
decreasing_by subst_vars; simp; omega

/-- There is one segment more than there are separators. -/
theorem length_splitOn (sep : α) (s : List α) : (s.splitOn sep).length = s.count sep + 1 := by
  rcases cut_first sep s with hs | ⟨u, t, rfl, hu⟩
  · rw [List.splitOn_eq_singleton hs, List.count_eq_zero_of_not_mem hs]
    rfl
  · rw [splitOn_append hu, List.length_cons, length_splitOn sep t, List.count_append,
      List.count_eq_zero_of_not_mem hu, List.count_cons_self, Nat.zero_add]
termination_by s.length
decreasing_by subst_vars; simp; omega

/-- A list without a separator is one piece, if it is not empty; -/
theorem pieces_of_not_mem {sep : α} {s : List α} (hs : sep ∉ s) (hne : s ≠ []) : pieces sep s = [s] := by
  unfold pieces
  rw [List.splitOn_eq_singleton hs]
  exact dropEmptyLast_of_ne (by simpa using hne)

/-- and the first separator ends the first piece. -/
theorem pieces_append {sep : α} {u : List α} (hu : sep ∉ u) (t : List α) :
    pieces sep (u ++ sep :: t) = u :: pieces sep t := by
  unfold pieces
  rw [splitOn_append hu, dropEmptyLast_cons (List.splitOn_ne_nil sep t)]

/-- **What has these pieces**: their join, which may end in a separator, and does so if the last of them is empty. -/
theorem pieces_eq_iff {sep : α} {s : List α} {us : List (List α)} :
    pieces sep s = us ↔
      (∀ u ∈ us, sep ∉ u) ∧
        (s = [sep].intercalate us ∧ us.getLast? ≠ some [] ∨ us ≠ [] ∧ s = [sep].intercalate us ++ [sep]) := by
  constructor
  · rintro rfl
    refine ⟨fun u hu => not_mem_of_mem_splitOn ((pieces_isPrefix sep s).subset hu), ?_⟩
    have hjoin : [sep].intercalate (s.splitOn sep) = s := List.intercalate_splitOn sep
    unfold pieces
    obtain ⟨init, last, hsplit⟩ : ∃ init last, s.splitOn sep = init ++ [last] :=
      ⟨_, _, (List.dropLast_append_getLast (List.splitOn_ne_nil sep s)).symm⟩
    rw [hsplit] at hjoin ⊢
    cases last with
    | nil =>
        rw [dropEmptyLast_append_nil]
        cases init with
        | nil => exact Or.inl ⟨by simpa using hjoin.symm, by simp⟩
        | cons u init => exact Or.inr ⟨by simp, by rw [← hjoin, intercalate_concat_nil (by simp)]⟩
    | cons a last =>
        rw [dropEmptyLast_of_ne (by simp)]
        exact Or.inl ⟨hjoin.symm, by simp⟩
  · rintro ⟨hsep, ⟨rfl, hlast⟩ | ⟨hne, rfl⟩⟩
    · cases us with
      | nil => simp
      | cons u us =>
          unfold pieces
          rw [List.splitOn_intercalate sep hsep (by simp), dropEmptyLast_of_ne hlast]
    · unfold pieces
      have hsep' : ∀ u ∈ us ++ [[]], sep ∉ u := by
        rw [List.forall_mem_append, List.forall_mem_singleton]
        exact ⟨hsep, List.not_mem_nil⟩
      rw [← intercalate_concat_nil hne, List.splitOn_intercalate sep hsep' (by simp), dropEmptyLast_append_nil]

/-- Without a separator there is one segment, or none. -/
theorem nonEmptySegs_of_not_mem {sep : α} {s : List α} (hs : sep ∉ s) :
    nonEmptySegs sep s = [s].filter (fun u => !u.isEmpty) := by
  unfold nonEmptySegs
  rw [List.splitOn_eq_singleton hs]

/-- The segments on both sides of a separator. -/
theorem nonEmptySegs_append (sep : α) (s t : List α) :
    nonEmptySegs sep (s ++ sep :: t) = nonEmptySegs sep s ++ nonEmptySegs sep t := by
  unfold nonEmptySegs
  rw [List.splitOn_append_cons_self, List.filter_append]

/-- A separator in front is not part of a segment. -/
@[simp] theorem nonEmptySegs_cons_sep (sep : α) (s : List α) :
    nonEmptySegs sep (sep :: s) = nonEmptySegs sep s := by
  have h := nonEmptySegs_append sep [] s
  rwa [nonEmptySegs_nil, List.nil_append, List.nil_append] at h

/-- Nor are any number of them. -/
theorem nonEmptySegs_replicate_append (sep : α) (k : Nat) (s : List α) :
    nonEmptySegs sep (List.replicate k sep ++ s) = nonEmptySegs sep s := by
  induction k with
  | zero => rfl
  | succ k ih => rw [List.replicate_succ, List.cons_append, nonEmptySegs_cons_sep, ih]

/-- A list without non-empty segments has separators only. -/
theorem nonEmptySegs_eq_nil {sep : α} {s : List α} (h : nonEmptySegs sep s = []) : ∀ a ∈ s, a = sep := by
  rcases cut_first sep s with hs | ⟨u, t, rfl, hu⟩
  · rw [nonEmptySegs_of_not_mem hs] at h
    cases s with
    | nil => simp
    | cons a s => simp at h
  · rw [nonEmptySegs_append, List.append_eq_nil_iff, nonEmptySegs_of_not_mem hu] at h
    have hrest := nonEmptySegs_eq_nil h.2
    cases u with
    | nil => simpa using hrest
    | cons a u => simp at h
termination_by s.length
decreasing_by subst_vars; simp; omega

/-- What such a segment is like. -/
theorem mem_nonEmptySegs {sep : α} {s u : List α} (h : u ∈ nonEmptySegs sep s) : u ≠ [] ∧ sep ∉ u := by
  obtain ⟨hmem, hne⟩ := List.mem_filter.mp h
  exact ⟨by simpa using hne, not_mem_of_mem_splitOn hmem⟩

end Segments
end Lib
