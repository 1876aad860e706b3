import Apigate.Proxy
import Apigate.Lib.Segments

/-!
# `Correctness.Capture` — the offset scanner is segment-wise matching

`capture_raw` walks the path with slices and byte offsets. On a text it never panics, and it computes what
`matchRanges` computes on the list of path segments (`captureRaw_eq`); the ranges it returns slice the path at
exactly the segments that stand opposite a parameter (`slices_matchRanges`).

Slicing a text panics inside of a character. The scanner only cuts at a slash, and a slash is a byte of its own,
so both sides of it are texts again; this is the invariant of the loop, that what remains is a text. What the
offset means is not in the loop's invariant: `matchRanges` carries the same offset, and that the ranges slice
what they should is shown of it afterwards, on the list of segments, where `before` is what has been walked
over.

The two readings differ at the end of the path. A remainder that has become empty ends the loop, which is why
the segments are `pieces`: an empty last segment, behind a trailing slash, is none.
-/

namespace Apigate
open Lib Text Segments

/-- A segment pattern against path segments, with the byte range of every captured segment. -/
def matchRanges : Nat → List SrcSeg → List Str → Option (List (Nat × Nat))
  | _, [], [] => some []
  | off, .lit t :: src, q :: qs => if q = t then matchRanges (off + (q.length + 1)) src qs else none
  | off, .param :: src, q :: qs =>
      (matchRanges (off + (q.length + 1)) src qs).map ((off, off + q.length) :: ·)
  | _, _, _ => none

/-- The segments that stand opposite a parameter. -/
def capturedSegs : List SrcSeg → List Str → List Str
  | .lit _ :: src, _ :: qs => capturedSegs src qs
  | .param :: src, q :: qs => q :: capturedSegs src qs
  | _, _ => []

/-- Without segments left the offset does not matter. -/
theorem matchRanges_nil (off off' : Nat) (src : List SrcSeg) :
    matchRanges off src [] = matchRanges off' src [] := by
  cases src with
  | nil => rfl
  | cons s src => cases s <;> rfl

/-- And then the pattern is at its end, too. -/
theorem matchRanges_nil_eq_some {off : Nat} {src : List SrcSeg} {rs : List (Nat × Nat)}
    (h : matchRanges off src [] = some rs) : src = [] ∧ rs = [] := by
  cases src with
  | nil =>
      cases h
      exact ⟨rfl, rfl⟩
  | cons s src => cases s <;> cases h

/-- A match uses up pattern and path together. -/
theorem matchRanges_length {off : Nat} {src : List SrcSeg} {qs : List Str} {rs : List (Nat × Nat)}
    (h : matchRanges off src qs = some rs) : src.length = qs.length := by
  induction src generalizing off qs rs with
  | nil =>
      cases qs with
      | nil => rfl
      | cons q qs => cases h
  | cons s src ih =>
      cases qs with
      | nil => cases s <;> cases h
      | cons q qs =>
          cases s with
          | lit t =>
              rw [matchRanges] at h
              split at h
              · simp [ih h]
              · cases h
          | param =>
              rw [matchRanges, Option.map_eq_some_iff] at h
              obtain ⟨rs', h, -⟩ := h
              simp [ih h]

/-! ## The scanner

From the slices of one round to the loop, and from the loop to the function. -/

theorem slash_ascii : slash < 0x80 := by decide

/-- A non-empty remainder has a first segment: the scanner's two cases. -/
theorem pieces_ne_nil {s : Str} (h : s ≠ []) : pieces slash s ≠ [] := by
  rcases cut_first slash s with hs | ⟨u, t, rfl, hu⟩
  · rw [pieces_of_not_mem hs h]
    simp
  · rw [pieces_append hu]
    simp

/-- The slices around the first slash of a text. -/
theorem slices_at_slash {u t : Str} (h : Utf8 (u ++ slash :: t)) :
    slice? (u ++ slash :: t) 0 u.length = some u ∧
      slice? (u ++ slash :: t) (u.length + 1) (u ++ slash :: t).length = some t := by
  constructor
  · have := slice?_middle (a := []) (m := u) (c := slash :: t) (boundary_zero _)
      (by simpa using boundary_at_ascii slash_ascii)
    simpa using this
  · have := slice?_middle (a := u ++ [slash]) (m := t) (c := [])
      (by simpa using boundary_after_ascii slash_ascii h)
      (by simpa [Nat.add_assoc, Nat.add_comm 1] using boundary_length (u ++ slash :: t))
    simpa [Nat.add_assoc, Nat.add_comm 1] using this

/-- **The loop is segment-wise matching.** By induction on the pattern, with what remains of the path cut at its
    first slash: none is left, there is no slash, or there is a segment before one. -/
theorem captureLoop_eq {src : List SrcSeg} {off : Nat} {remaining : Str} {captures : List (Nat × Nat)}
    (h : Utf8 remaining) :
    captureLoop src off remaining captures =
      some ((matchRanges off src (pieces slash remaining)).map (captures ++ ·)) := by
  induction src generalizing off remaining captures with
  | nil =>
      rw [captureLoop]
      -- nothing may be left when the pattern ends
      by_cases he : remaining = []
      · subst he
        simp [matchRanges]
      · obtain ⟨q, qs, hq⟩ := List.exists_cons_of_ne_nil (pieces_ne_nil he)
        rw [hq]
        simp [matchRanges, he]
  | cons s src ih =>
      rw [captureLoop]
      by_cases he : remaining = []
      · -- the path ends before the pattern does
        subst he
        cases s <;> simp [matchRanges]
      · rw [if_neg (by simpa using he)]
        rcases cut_first slash remaining with hs | ⟨u, t, rfl, hu⟩
        · -- the last segment: nothing is left behind it
          rw [pieces_of_not_mem hs he, find_eq_none.mpr hs]
          simp only [Option.bind_eq_bind, Option.bind_some, Option.pure_def]
          cases s with
          | lit expected =>
              simp only [matchRanges]
              by_cases heq : remaining = expected
              · rw [if_pos heq, if_neg (by simpa using heq), ih utf8_nil, pieces_nil,
                  matchRanges_nil 0]
              · rw [if_neg heq, if_pos heq]
                rfl
          | param =>
              simp only [matchRanges]
              rw [ih utf8_nil, pieces_nil, matchRanges_nil 0 (off + (remaining.length + 1)), Option.map_map]
              congr 2
              funext rs
              simp
        · -- a segment up to its slash
          obtain ⟨hseg, hrest⟩ := slices_at_slash h
          have ht := (h.of_append_ascii slash_ascii).2
          rw [find_append_cons hu, pieces_append hu]
          simp only [Option.bind_eq_bind, Option.bind_some, Option.pure_def, hseg, hrest]
          cases s with
          | lit expected =>
              simp only [matchRanges]
              by_cases heq : u = expected
              · rw [if_pos heq, if_neg (by simpa using heq), ih ht]
              · rw [if_neg heq, if_pos heq]
                rfl
          | param =>
              simp only [matchRanges]
              rw [ih ht, Option.map_map]
              congr 2
              funext rs
              simp

/-- **`capture_raw` on a text never panics**; after the leading slash it matches the path's segments. -/
theorem captureRaw_eq {src : List SrcSeg} {content : Str} (h : Utf8 (slash :: content)) :
    captureRaw src (slash :: content) = some (matchRanges 1 src (pieces slash content)) := by
  have hc : Utf8 content := (Utf8.of_append_ascii (s := []) slash_ascii h).2
  unfold captureRaw
  rw [show slash :: content = str "/" ++ content from rfl, stripPrefix?_append]
  simp only
  rw [captureLoop_eq hc]
  simp

/-- A path that does not start with a slash has no captures. -/
theorem captureRaw_no_slash {src : List SrcSeg} {path : Str} (h : ∀ content, path ≠ slash :: content) :
    captureRaw src path = some none := by
  unfold captureRaw
  rw [stripPrefix?_eq_none.mpr]
  rintro ⟨t, ht⟩
  exact h t ht.symm

/-! ## What the ranges slice

The boundaries of a segment are the start and the end of the path and the slashes between. -/

/-- **The ranges slice the captured segments**, all on character boundaries. -/
theorem slices_matchRanges {src : List SrcSeg} {before rem path : Str} {rs : List (Nat × Nat)}
    (hpath : path = before ++ rem) (hrem : Utf8 rem)
    (h : matchRanges before.length src (pieces slash rem) = some rs) :
    rs.map (fun r => slice? path r.1 r.2) = (capturedSegs src (pieces slash rem)).map some := by
  induction src generalizing before rem rs with
  | nil =>
      cases hq : pieces slash rem with
      | nil =>
          rw [hq] at h
          cases h
          rfl
      | cons q qs =>
          rw [hq] at h
          cases h
  | cons s src ih =>
      rcases cut_first slash rem with hs | ⟨u, t, rfl, hu⟩
      · by_cases he : rem = []
        · subst he
          rw [pieces_nil] at h
          cases (matchRanges_nil_eq_some h).1
        · -- the last segment ends with the path
          rw [pieces_of_not_mem hs he] at h ⊢
          subst hpath
          have hslice := slice?_middle (a := before) (m := rem) (c := [])
            (by simpa using boundary_of_utf8_suffix hrem)
            (by simpa using boundary_length (before ++ rem))
          rw [List.append_nil] at hslice
          cases s with
          | lit t =>
              rw [matchRanges] at h
              split at h
              · obtain ⟨rfl, rfl⟩ := matchRanges_nil_eq_some h
                rfl
              · cases h
          | param =>
              rw [matchRanges, Option.map_eq_some_iff] at h
              obtain ⟨rs', h, rfl⟩ := h
              obtain ⟨rfl, rfl⟩ := matchRanges_nil_eq_some h
              simp [capturedSegs, hslice]
      · -- what is behind the slash starts after it
        have ht := (hrem.of_append_ascii slash_ascii).2
        have hpath' : path = (before ++ u ++ [slash]) ++ t := by rw [hpath]; simp
        have hlen : (before ++ u ++ [slash]).length = before.length + (u.length + 1) := by
          simp
        rw [pieces_append hu] at h ⊢
        cases s with
        | lit expected =>
            rw [matchRanges] at h
            split at h
            · exact ih hpath' ht (by rw [hlen]; exact h)
            · cases h
        | param =>
            rw [matchRanges, Option.map_eq_some_iff] at h
            obtain ⟨rs', h, rfl⟩ := h
            have hslice := slice?_middle (a := before) (m := u) (c := slash :: t)
              (by simpa using boundary_of_utf8_suffix (s := before) hrem)
              (by simpa using boundary_at_ascii (s := before ++ u) (t := t) slash_ascii)
            rw [List.append_assoc, ← hpath] at hslice
            simp [capturedSegs, hslice, ih hpath' ht (by rw [hlen]; exact h)]

end Apigate
