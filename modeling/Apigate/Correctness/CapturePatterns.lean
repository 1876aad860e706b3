import Mathlib.Data.List.Forall2
import Apigate.Correctness.Capture

/-!
# `Correctness.CapturePatterns` — the paths that `capture_raw` takes for those of its pattern

The scanner stops on an empty remainder, so it cannot tell a path that has ended from one that has an empty
segment there. Its captures are those of the pattern exactly where that does not show: no empty segment stands
opposite a parameter, and none is the last of a path without a trailing slash (`capture_raw_exact_iff`).

There are two readings of a path. A pattern means lists of segments that fit it, `Fits`, written with slashes
between them and perhaps one at the end (`Spells`). The scanner cuts the path in its own way (`CutInto`) and
lets more fit: any segment opposite a parameter, an empty one too (`FitsLoosely`). What it does on its reading
is known exactly (`captureRaw_ok_iff`, `exists_matchRanges_iff`), so it remains to compare readings. If no empty
segment stands opposite a parameter the two notions of fitting agree, and a spelling is a cut if no segment has
a slash in it and an empty last one has a slash behind it. The three ways to be misread are the failures of
these three conditions.

For the other direction each of the ways has to be seen in the result. An empty captured segment gives an empty
range. A path that is one of the pattern would have to be accepted, that is, cut into segments that fit loosely;
but what the scanner cuts has no slash, and it has fewer segments than the pattern if an empty last one is
dropped.
-/

namespace Apigate
open Lib Text Segments

/-! ## Paths of a pattern

What is meant by a pattern and by its captures, without a scanner. -/

/-- A path segment for a segment of the pattern; an empty one may stand opposite a parameter. -/
inductive FitsLoosely : SrcSeg → Str → Prop where
  | lit (text : Str) : FitsLoosely (.lit text) text
  | param (value : Str) : FitsLoosely .param value

/-- A path segment for a segment of the pattern. -/
inductive Fits : SrcSeg → Str → Prop where
  | lit (text : Str) : Fits (.lit text) text
  | param {value : Str} : value ≠ [] → slash ∉ value → Fits .param value

/-- The path is made of the segments, with or without a slash at the end. -/
def Spells (path : Str) (segs : List Str) : Prop :=
  path = slash :: [slash].intercalate segs ∨ segs ≠ [] ∧ path = slash :: ([slash].intercalate segs ++ [slash])

/-- The path is one of the pattern. -/
def PathOf (src : List SrcSeg) (path : Str) : Prop := ∃ segs, List.Forall₂ Fits src segs ∧ Spells path segs

/-- The ranges are those of the parameters: increasing, disjoint, not empty, and each slices its segment out of
    the path, which is free of slashes. -/
structure CapturesOf (src : List SrcSeg) (path : Str) (rs : List (Nat × Nat)) : Prop where
  values : ∃ segs, List.Forall₂ Fits src segs ∧ Spells path segs ∧
    rs.map (fun r => slice? path r.1 r.2) = (capturedSegs src segs).map some
  count : rs.length = src.count .param
  increasing : rs.Pairwise fun r r' => r.2 < r'.1
  nonEmpty : ∀ r ∈ rs, r.1 < r.2
  inPath : ∀ r ∈ rs, r.2 ≤ path.length
  onBoundaries : ∀ r ∈ rs, isCharBoundary path r.1 = true ∧ isCharBoundary path r.2 = true
  noSlash : ∀ r ∈ rs, ∀ value, slice? path r.1 r.2 = some value → slash ∉ value

/-- `capture_raw` takes exactly the paths of the pattern, and captures their parameters. -/
structure CapturesExactly (src : List SrcSeg) (path : Str) : Prop where
  returns : ∃ r, captureRaw src path = some r
  accepts : (∃ rs, captureRaw src path = some (some rs)) ↔ PathOf src path
  captures : ∀ rs, captureRaw src path = some (some rs) → CapturesOf src path rs

/-! ## Matching

What the loop does with a list of segments, by induction on the pattern. -/

section
variable {src : List SrcSeg} {segs : List Str}

/-- The loop accepts segments that fit loosely. -/
theorem exists_matchRanges_iff {off : Nat} :
    (∃ rs, matchRanges off src segs = some rs) ↔ List.Forall₂ FitsLoosely src segs := by
  induction src generalizing off segs with
  | nil =>
      cases segs with
      | nil => exact iff_of_true ⟨[], rfl⟩ .nil
      | cons q qs => exact iff_of_false (by rintro ⟨rs, ⟨⟩⟩) (by rintro ⟨⟩)
  | cons s src ih =>
      cases segs with
      | nil => exact iff_of_false (by rintro ⟨rs, h⟩; cases s <;> cases h) (by rintro ⟨⟩)
      | cons q qs =>
          rw [List.forall₂_cons, ← ih]
          cases s with
          | lit text =>
              rw [matchRanges]
              by_cases hq : q = text
              · subst hq
                rw [if_pos rfl, and_iff_right (.lit q)]
              · rw [if_neg hq]
                refine iff_of_false (by rintro ⟨rs, ⟨⟩⟩) ?_
                rintro ⟨⟨⟩, -⟩
                exact hq rfl
          | param =>
              rw [matchRanges, and_iff_right (.param q)]
              simp

/-- The ranges come one after the other, one for each parameter. -/
theorem matchRanges_increasing {off : Nat} {rs : List (Nat × Nat)} (h : matchRanges off src segs = some rs) :
    rs.length = src.count .param ∧ (∀ r ∈ rs, off ≤ r.1 ∧ r.1 ≤ r.2) ∧ rs.Pairwise fun r r' => r.2 < r'.1 := by
  induction src generalizing off segs rs with
  | nil =>
      cases segs with
      | nil =>
          cases h
          simp
      | cons q qs => cases h
  | cons s src ih =>
      cases segs with
      | nil => cases s <;> cases h
      | cons q qs =>
          cases s with
          | lit text =>
              rw [matchRanges] at h
              split at h
              · obtain ⟨hcount, hafter, hpairs⟩ := ih h
                refine ⟨by simpa using hcount, ?_, hpairs⟩
                intro r hr
                have := hafter r hr
                omega
              · cases h
          | param =>
              rw [matchRanges, Option.map_eq_some_iff] at h
              obtain ⟨rs, h, rfl⟩ := h
              obtain ⟨hcount, hafter, hpairs⟩ := ih h
              refine ⟨by simpa using hcount, ?_, ?_⟩
              · rw [List.forall_mem_cons]
                refine ⟨⟨Nat.le_refl _, Nat.le_add_right _ _⟩, ?_⟩
                intro r hr
                have := hafter r hr
                omega
              · refine List.pairwise_cons.mpr ⟨?_, hpairs⟩
                intro r hr
                have := (hafter r hr).1
                show off + q.length < r.1
                omega

/-- A segment that fits does so loosely. -/
theorem Fits.loosely {s : SrcSeg} {seg : Str} (h : Fits s seg) : FitsLoosely s seg := by
  cases h with
  | lit => exact .lit seg
  | param => exact .param seg

/-- What fits loosely fits, if no segment opposite a parameter is empty. -/
theorem forall₂_fits_iff (hslash : ∀ seg ∈ segs, slash ∉ seg) :
    List.Forall₂ Fits src segs ↔ List.Forall₂ FitsLoosely src segs ∧ [] ∉ capturedSegs src segs := by
  induction src generalizing segs with
  | nil =>
      cases segs with
      | nil => simp [capturedSegs]
      | cons q qs => simp
  | cons s src ih =>
      cases segs with
      | nil => simp
      | cons q qs =>
          obtain ⟨hq, hqs⟩ := List.forall_mem_cons.mp hslash
          rw [List.forall₂_cons, List.forall₂_cons, ih hqs]
          cases s with
          | lit text =>
              have hsame : Fits (.lit text) q ↔ FitsLoosely (.lit text) q := by
                refine ⟨Fits.loosely, ?_⟩
                rintro ⟨⟩
                exact .lit _
              rw [hsame, and_assoc]
              rfl
          | param =>
              have hsame : Fits .param q ↔ [] ≠ q := by
                refine ⟨?_, fun hne => .param hne.symm hq⟩
                intro h
                cases h with
                | param hne _ => exact hne.symm
              rw [hsame, and_iff_right (FitsLoosely.param q), capturedSegs, List.mem_cons, not_or]
              exact and_left_comm

/-- A captured segment is one of the path's. -/
theorem mem_of_mem_capturedSegs {value : Str} (h : value ∈ capturedSegs src segs) : value ∈ segs := by
  induction src generalizing segs with
  | nil => cases h
  | cons s src ih =>
      cases segs with
      | nil => cases s <;> cases h
      | cons q qs =>
          cases s with
          | lit text => exact List.mem_cons_of_mem _ (ih h)
          | param =>
              rcases List.mem_cons.mp h with rfl | h
              · exact List.mem_cons_self
              · exact List.mem_cons_of_mem _ (ih h)

/-- A pattern that fits segments without slashes has no slash in its literals. -/
theorem noSlash_of_fits {segs' : List Str} (h : List.Forall₂ FitsLoosely src segs)
    (hslash : ∀ seg ∈ segs, slash ∉ seg) (h' : List.Forall₂ Fits src segs') : ∀ seg ∈ segs', slash ∉ seg := by
  induction h generalizing segs' with
  | nil =>
      cases h'
      simp
  | @cons s q src qs hq _ ih =>
      obtain ⟨hqslash, hqsslash⟩ := List.forall_mem_cons.mp hslash
      cases h' with
      | cons hfits hrest =>
          refine List.forall_mem_cons.mpr ⟨?_, ih hqsslash hrest⟩
          cases hfits with
          | lit =>
              cases hq
              exact hqslash
          | param _ hvalue => exact hvalue

end

/-! ## Cutting a path

`pieces` as a relation, so that it can be compared with `Spells`, which differs in one condition. -/

/-- What the scanner cuts a path into: a last segment that is empty needs a slash behind it. -/
def CutInto (path : Str) (segs : List Str) : Prop :=
  (∀ seg ∈ segs, slash ∉ seg) ∧
    (path = slash :: [slash].intercalate segs ∧ segs.getLast? ≠ some [] ∨
      segs ≠ [] ∧ path = slash :: ([slash].intercalate segs ++ [slash]))

/-- The cut of a path is that of what follows its first slash. -/
theorem cutInto_slash {content : Str} {segs : List Str} :
    CutInto (slash :: content) segs ↔ pieces slash content = segs := by
  rw [pieces_eq_iff, CutInto]
  simp only [List.cons.injEq, true_and]

/-- A path spells the segments it is cut into. -/
theorem CutInto.spells {path : Str} {segs : List Str} (h : CutInto path segs) : Spells path segs :=
  h.2.imp And.left id

section
variable {src : List SrcSeg} {path : Str} (hutf8 : Utf8 path)
include hutf8

/-- **What `capture_raw` returns** are the ranges of the segments that it cuts the path into. -/
theorem captureRaw_ok_iff {rs : List (Nat × Nat)} :
    captureRaw src path = some (some rs) ↔ ∃ segs, CutInto path segs ∧ matchRanges 1 src segs = some rs := by
  by_cases hslash : ∃ content, path = slash :: content
  · obtain ⟨content, rfl⟩ := hslash
    simp only [captureRaw_eq hutf8, Option.some.injEq, cutInto_slash, exists_eq_left']
  · rw [captureRaw_no_slash fun content h => hslash ⟨content, h⟩]
    refine iff_of_false (fun h => by cases h) ?_
    rintro ⟨segs, ⟨-, ⟨h, -⟩ | ⟨-, h⟩⟩, -⟩
    · exact hslash ⟨_, h⟩
    · exact hslash ⟨_, h⟩

/-- It returns something for every text. -/
theorem captureRaw_returns : ∃ r, captureRaw src path = some r := by
  by_cases hslash : ∃ content, path = slash :: content
  · obtain ⟨content, rfl⟩ := hslash
    exact ⟨_, captureRaw_eq hutf8⟩
  · exact ⟨_, captureRaw_no_slash fun content h => hslash ⟨content, h⟩⟩

/-- It accepts the paths that are cut into segments that fit loosely. -/
theorem captureRaw_accepts_iff :
    (∃ rs, captureRaw src path = some (some rs)) ↔ ∃ segs, CutInto path segs ∧ List.Forall₂ FitsLoosely src segs := by
  constructor
  · rintro ⟨rs, h⟩
    obtain ⟨segs, hcut, hmatch⟩ := (captureRaw_ok_iff hutf8).mp h
    exact ⟨segs, hcut, exists_matchRanges_iff.mp ⟨rs, hmatch⟩⟩
  · rintro ⟨segs, hcut, hfits⟩
    obtain ⟨rs, hmatch⟩ := exists_matchRanges_iff.mpr hfits
    exact ⟨rs, (captureRaw_ok_iff hutf8).mpr ⟨segs, hcut, hmatch⟩⟩

/-- The ranges slice the captured segments. -/
theorem CutInto.slices {segs : List Str} (hcut : CutInto path segs) {rs : List (Nat × Nat)}
    (h : matchRanges 1 src segs = some rs) :
    rs.map (fun r => slice? path r.1 r.2) = (capturedSegs src segs).map some := by
  obtain ⟨content, rfl⟩ : ∃ content, path = slash :: content := by
    rcases hcut.2 with ⟨h, -⟩ | ⟨-, h⟩
    · exact ⟨_, h⟩
    · exact ⟨_, h⟩
  obtain rfl := cutInto_slash.mp hcut
  have hpath : slash :: content = [slash] ++ content := rfl
  exact slices_matchRanges hpath (hutf8.of_append_ascii (s := []) slash_ascii).2 h

/-! ## The main result -/

omit hutf8 in
variable (src path) in
/-- How `capture_raw` misreads a path. -/
inductive Misread : Prop where
  /-- An empty segment of the path stands opposite a parameter. -/
  | emptyParam {segs : List Str} : CutInto path segs → List.Forall₂ FitsLoosely src segs →
      [] ∈ capturedSegs src segs → Misread
  /-- The last segment of the pattern is an empty literal, and the path has no slash behind it. -/
  | emptyLast {segs : List Str} : List.Forall₂ Fits src segs → path = slash :: [slash].intercalate segs →
      segs.getLast? = some [] → Misread
  /-- A literal of the pattern has a slash. -/
  | slashInLit {segs : List Str} {seg : Str} : List.Forall₂ Fits src segs → Spells path segs → seg ∈ segs →
      slash ∈ seg → Misread

/-- A path that is misread is not captured exactly. By cases on how it is misread. -/
theorem CapturesExactly.not_misread (h : CapturesExactly src path) : ¬ Misread src path := by
  -- a path of the pattern is accepted, so it has been cut into segments without slashes
  have hpathOf : ∀ {segs : List Str}, List.Forall₂ Fits src segs → Spells path segs →
      (∀ seg ∈ segs, slash ∉ seg) ∧ ∃ segs', CutInto path segs' ∧ segs'.length = segs.length := by
    intro segs hfits hspells
    obtain ⟨segs', hcut, hloose⟩ := (captureRaw_accepts_iff hutf8).mp (h.accepts.mpr ⟨segs, hfits, hspells⟩)
    exact ⟨noSlash_of_fits hloose hcut.1 hfits, segs', hcut, hloose.length_eq.symm.trans hfits.length_eq⟩
  intro hmisread
  cases hmisread with
  | emptyParam hcut hfits hempty =>
      obtain ⟨rs, hmatch⟩ := exists_matchRanges_iff.mpr hfits
      have hcaptures := h.captures rs ((captureRaw_ok_iff hutf8).mpr ⟨_, hcut, hmatch⟩)
      have hslice : some [] ∈ rs.map fun r => slice? path r.1 r.2 := by
        rw [hcut.slices hutf8 hmatch]
        exact List.mem_map_of_mem hempty
      obtain ⟨r, hr, hslice⟩ := List.mem_map.mp hslice
      have hlength := (slice?_checked hslice).2.2.2
      have hnonEmpty := hcaptures.nonEmpty r hr
      rw [List.length_nil] at hlength
      omega
  | @emptyLast segs hfits hpath hlast =>
      obtain ⟨hslash, segs', hcut, hlength⟩ := hpathOf hfits (Or.inl hpath)
      subst hpath
      have hne : segs ≠ [] := by
        rintro rfl
        cases hlast
      -- the empty last segment is dropped
      have hcut' := cutInto_slash.mp hcut
      rw [pieces, List.splitOn_intercalate slash hslash hne, dropEmptyLast, hlast] at hcut'
      have hshort := congrArg List.length hcut'
      have hpos := List.length_pos_iff.mpr hne
      rw [List.length_dropLast] at hshort
      omega
  | slashInLit hfits hspells hseg hslash => exact (hpathOf hfits hspells).1 _ hseg hslash

/-- A path that is not misread is captured exactly. The segments of the scanner are those of the pattern, and
    what holds of a range is read off the segment that it slices. -/
theorem capturesExactly_of_not_misread (h : ¬ Misread src path) : CapturesExactly src path := by
  -- what has been accepted fits the pattern
  have hfits : ∀ {segs : List Str}, CutInto path segs → List.Forall₂ FitsLoosely src segs →
      List.Forall₂ Fits src segs ∧ [] ∉ capturedSegs src segs := by
    intro segs hcut hloose
    have hempty : [] ∉ capturedSegs src segs := fun hempty => h (.emptyParam hcut hloose hempty)
    exact ⟨(forall₂_fits_iff hcut.1).mpr ⟨hloose, hempty⟩, hempty⟩
  refine ⟨captureRaw_returns hutf8, ?_, ?_⟩
  · rw [captureRaw_accepts_iff hutf8]
    constructor
    · rintro ⟨segs, hcut, hloose⟩
      exact ⟨segs, (hfits hcut hloose).1, hcut.spells⟩
    · rintro ⟨segs, hsegs, hspells⟩
      have hslash : ∀ seg ∈ segs, slash ∉ seg := fun seg hseg hmem => h (.slashInLit hsegs hspells hseg hmem)
      refine ⟨segs, ⟨hslash, ?_⟩, hsegs.imp fun _ _ hfit => hfit.loosely⟩
      exact hspells.imp (fun hpath => ⟨hpath, fun hlast => h (.emptyLast hsegs hpath hlast)⟩) id
  · intro rs hrs
    obtain ⟨segs, hcut, hmatch⟩ := (captureRaw_ok_iff hutf8).mp hrs
    obtain ⟨hsegs, hempty⟩ := hfits hcut (exists_matchRanges_iff.mp ⟨rs, hmatch⟩)
    obtain ⟨hcount, -, hincreasing⟩ := matchRanges_increasing hmatch
    have hslices := hcut.slices hutf8 hmatch
    -- every range slices a captured segment
    have hvalue : ∀ r ∈ rs, ∃ value ∈ capturedSegs src segs, slice? path r.1 r.2 = some value := by
      intro r hr
      have hmem : slice? path r.1 r.2 ∈ (capturedSegs src segs).map some := by
        rw [← hslices]
        exact List.mem_map_of_mem hr
      obtain ⟨value, hvalue, hslice⟩ := List.mem_map.mp hmem
      exact ⟨value, hvalue, hslice.symm⟩
    refine ⟨⟨segs, hsegs, hcut.spells, hslices⟩, hcount, hincreasing, ?_, ?_, ?_, ?_⟩
    · intro r hr
      obtain ⟨value, hmem, hslice⟩ := hvalue r hr
      have hlength := (slice?_checked hslice).2.2.2
      have hne : value ≠ [] := fun hnil => hempty (hnil ▸ hmem)
      have hpos := List.length_pos_iff.mpr hne
      omega
    · intro r hr
      obtain ⟨value, -, hslice⟩ := hvalue r hr
      exact (slice?_checked hslice).1
    · intro r hr
      obtain ⟨value, -, hslice⟩ := hvalue r hr
      exact ⟨(slice?_checked hslice).2.1, (slice?_checked hslice).2.2.1⟩
    · intro r hr value' hslice'
      obtain ⟨value, hmem, hslice⟩ := hvalue r hr
      obtain rfl : value = value' := Option.some.inj (hslice.symm.trans hslice')
      exact hcut.1 value (mem_of_mem_capturedSegs hmem)

end

/-- **`capture_raw` takes exactly the paths of its pattern, unless it misreads the path.** For every pattern and
    every path text: it never panics, accepts the path if and only if it is one of the pattern, and then
    captures each parameter by a range of its own, if and only if the path is not misread. -/
theorem capture_raw_exact_iff (src : List SrcSeg) {path : Str} (hutf8 : Utf8 path) :
    CapturesExactly src path ↔ ¬ Misread src path :=
  ⟨fun h => h.not_misread hutf8, fun h => capturesExactly_of_not_misread hutf8 h⟩

/-! ## Examples -/

/-- The theorem at one pattern and path. -/
theorem capture_raw_exact_iff_items :
    CapturesExactly [.lit (str "items"), .param] (str "/items/42") ↔
      ¬ Misread [.lit (str "items"), .param] (str "/items/42") :=
  capture_raw_exact_iff _ (utf8_str "/items/42")

/-- **An empty segment is captured**: the parameter takes `/items//` with an empty range, and does not take
    `/items/`. And a pattern of one empty literal does not take the path `/`. -/
theorem empty_segment_captured :
    captureRaw [.lit (str "items"), .param] (str "/items//") = some (some [(7, 7)]) ∧
      ¬ CapturesExactly [.lit (str "items"), .param] (str "/items//") ∧
      captureRaw [.lit (str "items"), .param] (str "/items/") = some none ∧
      captureRaw [.lit []] (str "/") = some none ∧ PathOf [.lit []] (str "/") := by
  have hcaptured : captureRaw [.lit (str "items"), .param] (str "/items//") = some (some [(7, 7)]) := by
    decide +kernel
  refine ⟨hcaptured, fun h => ?_, by decide +kernel, rfl, [[]], .cons (.lit []) .nil, Or.inl rfl⟩
  exact absurd ((h.captures _ hcaptured).nonEmpty (7, 7) List.mem_cons_self) (by decide)

end Apigate
