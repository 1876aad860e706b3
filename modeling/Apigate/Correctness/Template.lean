import Mathlib.Algebra.GroupWithZero.Nat
import Mathlib.Data.List.Chain
import Mathlib.Data.List.Forall2
import Apigate.Macros.Template
import Apigate.Correctness.Capture

/-!
# `Correctness.Template` — compiled rewrite templates mean what they say

The meaning of a target text is stated on the text itself: it is a sequence of `Part`s, literals and `{name}`
references, and a reference stands for the request-path segment at the position of the segment `{name}` in the
route path (`paramValue`). The compiler turns names into positional indices and the proxy turns indices into
byte ranges; the theorem at the end composes the two.

The compiler has two loops. The one over the route path goes segment by segment (`parseSourceLoop_ok`) and
collects the names, at most 256 of them and all different. The one over the target goes byte by byte, with a
number for the place where the current literal began, and slices the target at such numbers. It is followed with
a split of the target, `done ++ lit ++ rest`: `done` has been compiled, `lit` is the literal that is being read
and has no brace, and `rest` is still to come. The numbers of the loop are the lengths of these texts, so no
slice is out of bounds, and the invariant (`CompiledToLit`) says that the chunks so far are compiled from `done`
(`parseTargetLoop_ok`).

The proxy captures ranges of the request path (`Correctness.Capture`), one for each name of the route path. So
the `k`-th capture is the segment at the position of the `k`-th name (`capturedSegs_getElem`), and rendering the
chunks appends what the pieces stand for (`renderChunks_compiled`). All slices are at character borders because
they are at slashes or at the ends of the path, which is where it is used that the path is text.

Two more facts about accepted templates are kept with the invariant, as the compiler takes care of them: no
literal is empty and no two stand in a row (`Tidy`), and the length it stores is that of all literals.
-/

namespace Apigate
open Lib Text Segments

/-! ## The meaning of a target

Without the compiler. A text that can be read as pieces at all can be read in one way only, but for how its
literals are split. -/

/-- A piece of a target text. -/
inductive Part where
  | lit (text : Str)
  | param (name : Str)
  deriving DecidableEq

/-- `{name}` -/
def braced (name : Str) : Str := openBrace :: (name ++ [closeBrace])

namespace Part

/-- The text of a piece in the target. -/
def source : Part → Str
  | lit text => text
  | param name => braced name

/-- Literals have no braces; names are not empty and end at the first closing brace. With this a target has only
    one reading as pieces, up to splitting literals. -/
def WellFormed : Part → Prop
  | lit text => openBrace ∉ text ∧ closeBrace ∉ text
  | param name => name ≠ [] ∧ closeBrace ∉ name

/-- What a piece stands for, given what the names stand for. -/
def value (f : Str → Option Str) : Part → Option Str
  | lit text => some text
  | param name => f name

end Part

/-- The request-path segment at the position of `{name}` in the route path, whose empty segments do not count.
    -/
def paramValue (routePath path name : Str) : Option Str := do
  let position ← (nonEmptySegs slash routePath).findIdx? (· == braced name)
  ((path.drop 1).splitOn slash)[position]?

/-! ## Route segments

A segment of the route path is a parameter if it begins and ends with a brace, and its name is what stands
between. The source cuts it out with a slice. -/

/-- What the check of both ends means. -/
theorem isBraced_iff {seg : Str} : isBraced seg = true ↔ ∃ name, seg = braced name := by
  unfold isBraced startsWith endsWith
  rw [show str "\x7b" = [openBrace] from rfl]
  constructor
  · intro h
    rw [Bool.and_eq_true] at h
    obtain ⟨h1, h2⟩ := h
    obtain ⟨inner, rfl⟩ := List.isPrefixOf_iff_prefix.mp h1
    rw [beq_iff_eq] at h2
    cases inner using List.reverseRecOn with
    | nil => cases h2
    | append_singleton name b _ =>
        rw [← List.append_assoc, List.getLast?_append] at h2
        cases h2
        exact ⟨name, rfl⟩
  · rintro ⟨name, rfl⟩
    simp [braced, List.isPrefixOf, List.getLast?_cons]

/-- The name can be read off. -/
theorem braced_injective {n m : Str} (h : braced n = braced m) : n = m := by
  unfold braced at h
  exact List.append_cancel_right (List.cons.inj h).2

theorem isBraced_braced (name : Str) : isBraced (braced name) = true := isBraced_iff.mpr ⟨name, rfl⟩

/-- The name of a braced segment. -/
def segName (seg : Str) : Option Str := if isBraced seg then some (seg.drop 1).dropLast else none

@[simp] theorem segName_braced (name : Str) : segName (braced name) = some name := by
  unfold segName
  rw [if_pos (isBraced_braced name)]
  simp [braced]

theorem segName_eq_none {seg : Str} (h : isBraced seg = false) : segName seg = none := by
  rw [segName, if_neg (by simp [h])]

/-- The source segment of a route segment. -/
def segSrc (seg : Str) : SrcSeg := if isBraced seg then .param else .lit seg

theorem segSrc_braced (name : Str) : segSrc (braced name) = .param := by
  rw [segSrc, if_pos (isBraced_braced name)]

theorem segSrc_of_not_braced {seg : Str} (h : isBraced seg = false) : segSrc seg = .lit seg := by
  rw [segSrc, if_neg (by simp [h])]

/-- The slice `&seg[1..seg.len() - 1]` of a braced segment is its name. -/
theorem slice_braced {name x : Str}
    (h : slice? (braced name) 1 ((braced name).length - 1) = some x) : x = name := by
  refine eq_of_slice?_middle (a := [openBrace]) (m := name) (c := [closeBrace]) ?_
  rw [← h]
  simp [braced, Nat.add_comm]

/-- The names of a route path that is accepted. -/
structure NamesAccepted (names : List Str) : Prop where
  nonEmpty : ∀ name ∈ names, name ≠ []
  distinct : names.Nodup
  atMost : names.length ≤ 256

theorem NamesAccepted.nil : NamesAccepted [] := ⟨by simp, .nil, by simp⟩

/-- **The source parser** translates segment by segment and collects the names in order, at most 256. By
    induction on the segments; the three ways in which it refuses a name are the three fields of
    `NamesAccepted`. -/
theorem parseSourceLoop_ok {segs : List Str} {src src' : List SrcSegIr} {params params' : List Str}
    (h : parseSourceLoop segs src params = some (.ok (src', params'))) (hparams : NamesAccepted params) :
    src'.map SrcSegIr.emit = src.map SrcSegIr.emit ++ segs.map segSrc ∧
      params' = params ++ segs.filterMap segName ∧ NamesAccepted params' := by
  induction segs generalizing src params with
  | nil =>
      cases h
      simp [hparams]
  | cons seg segs ih =>
      rw [parseSourceLoop] at h
      by_cases hb : isBraced seg = true
      · obtain ⟨name, rfl⟩ := isBraced_iff.mp hb
        rw [if_pos hb] at h
        simp only [Option.bind_eq_bind, Option.bind_eq_some_iff] at h
        obtain ⟨x, hslice, h⟩ := h
        obtain rfl := slice_braced hslice
        -- an empty name, a name declared twice, a 257th name
        split at h
        · cases h
        rename_i hne
        split at h
        · cases h
        rename_i hnew
        split at h
        · cases h
        rename_i hroom
        have hnext : NamesAccepted (params ++ [x]) := by
          constructor
          · rw [List.forall_mem_append, List.forall_mem_singleton]
            exact ⟨hparams.nonEmpty, by simpa using hne⟩
          · rw [List.nodup_append]
            refine ⟨hparams.distinct, by simp, ?_⟩
            rintro a ha b hb rfl
            exact hnew (by simpa [List.mem_singleton.mp hb] using ha)
          · rw [List.length_append, List.length_singleton]
            simp only [maxCaptureParams] at hroom
            omega
        obtain ⟨hsrc, hnames, hlen⟩ := ih h hnext
        refine ⟨?_, ?_, hlen⟩
        · rw [hsrc]
          simp [SrcSegIr.emit, segSrc, hb]
        · rw [hnames]
          simp
      · rw [if_neg hb] at h
        obtain ⟨hsrc, hnames, hlen⟩ := ih h hparams
        refine ⟨?_, ?_, hlen⟩
        · rw [hsrc]
          simp [SrcSegIr.emit, segSrc, hb]
        · rw [hnames]
          simp [segName, hb]

/-- The source parser does not fail with an index overflow: its own limit on the number of names has another
    error. -/
theorem parseSourceLoop_no_overflow {segs : List Str} {src : List SrcSegIr} {params : List Str} :
    parseSourceLoop segs src params ≠ some (.error .captureIndexOverflow) := by
  induction segs generalizing src params with
  | nil => simp [parseSourceLoop]
  | cons seg segs ih =>
      rw [parseSourceLoop]
      split
      · simp only [Option.bind_eq_bind, ne_eq, Option.bind_eq_some_iff, not_exists, not_and]
        intro name _
        split
        · simp
        split
        · simp
        split
        · simp
        exact ih
      · exact ih

/-! ## The target parser

What has been compiled, in three strengths. `Compiled` is about the meaning. `CompiledTidily` adds what is
stored with the chunks, and `CompiledToLit` that a literal may begin here, since there is none just before. -/

/-- A piece and the chunk compiled from it. -/
inductive Part.Compiles (params : List Str) : Part → DstChunkIr → Prop
  | lit (text : Str) : Part.Compiles params (.lit text) (.lit text)
  | param (name : Str) (k : Nat) (hk : params.findIdx? (· == name) = some k) (hlt : k < 256) :
      Part.Compiles params (.param name) (.capture (UInt8.ofNat k))

/-- `dst` is compiled from a reading of `text` as well-formed pieces. -/
def Compiled (params : List Str) (text : Str) (dst : List DstChunkIr) : Prop :=
  ∃ parts : List Part, (∀ p ∈ parts, p.WellFormed) ∧ text = parts.flatMap Part.source ∧
    List.Forall₂ (Part.Compiles params) parts dst

theorem Compiled.nil (params : List Str) : Compiled params [] [] := ⟨[], by simp, rfl, .nil⟩

/-- One more piece and the chunk compiled from it. -/
theorem Compiled.append {params : List Str} {text : Str} {dst : List DstChunkIr} {p : Part}
    {c : DstChunkIr} (h : Compiled params text dst) (hp : p.WellFormed) (hc : p.Compiles params c) :
    Compiled params (text ++ p.source) (dst ++ [c]) := by
  obtain ⟨parts, hwf, rfl, hparts⟩ := h
  refine ⟨parts ++ [p], ?_, by simp, ?_⟩
  · intro q hq
    rcases List.mem_append.mp hq with hq | hq
    · exact hwf q hq
    · rw [List.mem_singleton.mp hq]
      exact hp
  · exact List.rel_append hparts (.cons hc .nil)

def DstChunk.IsLit : DstChunk → Prop
  | .lit _ => True
  | .capture _ => False

/-- The length of the literal text of a chunk. -/
def DstChunk.litLength : DstChunk → Nat
  | .lit text => text.length
  | .capture _ => 0

/-- The length of the literal text of some chunks. -/
def staticLength (chunks : List DstChunk) : Nat := (chunks.map DstChunk.litLength).sum

/-- No empty literal, and no two literals in a row. -/
structure Tidy (chunks : List DstChunk) : Prop where
  noEmpty : .lit [] ∉ chunks
  noAdjacent : chunks.IsChain fun c d => ¬ (c.IsLit ∧ d.IsLit)

/-- What has been compiled: tidy chunks, and the length of their literals. -/
structure CompiledTidily (params : List Str) (text : Str) (dst : List DstChunkIr) (n : Nat) : Prop where
  compiled : Compiled params text dst
  tidy : Tidy (dst.map DstChunkIr.emit)
  total : n = staticLength (dst.map DstChunkIr.emit)

/-- What has been compiled where a literal begins: the last chunk is no literal. -/
structure CompiledToLit (params : List Str) (text : Str) (dst : List DstChunkIr) (n : Nat) : Prop
    extends CompiledTidily params text dst n where
  lastCapture : ∀ c ∈ (dst.map DstChunkIr.emit).getLast?, ¬ c.IsLit

theorem CompiledToLit.nil (params : List Str) : CompiledToLit params [] [] 0 :=
  ⟨⟨Compiled.nil params, ⟨by simp, .nil⟩, rfl⟩, by simp⟩

/-- A chunk that is no empty literal, and no literal behind another one. -/
theorem Tidy.append {chunks : List DstChunk} {c : DstChunk} (h : Tidy chunks) (hc : c ≠ .lit [])
    (hlast : ∀ d ∈ chunks.getLast?, ¬ (d.IsLit ∧ c.IsLit)) : Tidy (chunks ++ [c]) := by
  constructor
  · rw [List.mem_append, not_or, List.mem_singleton]
    exact ⟨h.noEmpty, hc.symm⟩
  · refine List.isChain_append.mpr ⟨h.noAdjacent, .singleton c, ?_⟩
    intro d hd e he
    obtain rfl : c = e := Option.some.inj he
    exact hlast d hd

/-- A literal: it is not empty, and no literal stands before it. -/
theorem CompiledToLit.append_lit {params : List Str} {done lit : Str} {dst : List DstChunkIr} {n : Nat}
    (h : CompiledToLit params done dst n) (hne : lit ≠ []) (hopen : openBrace ∉ lit) (hclose : closeBrace ∉ lit) :
    CompiledTidily params (done ++ lit) (dst ++ [.lit lit]) (n + lit.length) := by
  refine ⟨h.compiled.append (p := .lit lit) ⟨hopen, hclose⟩ (.lit lit), ?_, ?_⟩
  · rw [List.map_append]
    exact h.tidy.append (fun hlit => hne (DstChunk.lit.inj hlit)) fun d hd hlits => h.lastCapture d hd hlits.1
  · rw [h.total]
    simp [staticLength, DstChunkIr.emit, DstChunk.litLength]

/-- A reference: a literal may begin behind it. -/
theorem CompiledTidily.append_capture {params : List Str} {done name : Str} {dst : List DstChunkIr} {n : Nat}
    {k : UInt8} (h : CompiledTidily params done dst n) (hwf : (Part.param name).WellFormed)
    (hk : Part.Compiles params (.param name) (.capture k)) :
    CompiledToLit params (done ++ braced name) (dst ++ [.capture k]) n := by
  refine ⟨⟨h.compiled.append hwf hk, ?_, ?_⟩, ?_⟩
  · rw [List.map_append]
    exact h.tidy.append (fun hlit => by cases hlit) fun d _ hlits => hlits.2
  · rw [h.total]
    simp [staticLength, DstChunkIr.emit, DstChunk.litLength]
  · rw [List.map_append, List.map_singleton, List.getLast?_concat]
    rintro c ⟨⟩
    exact id

/-- Closing the literal in front of a reference, or at the end. An empty one is not pushed, so the chunks stay
    tidy; the slice is `lit`, because the numbers are the lengths of what is before and after it. -/
theorem pushLit_ok {params : List Str} {target done lit rest : Str} {dst dst' : List DstChunkIr}
    {n n' : Nat} (ht : target = done ++ lit ++ rest) (hopen : openBrace ∉ lit) (hclose : closeBrace ∉ lit)
    (hdone : CompiledToLit params done dst n)
    (h : pushLit target done.length (done.length + lit.length) dst n = some (dst', n')) :
    CompiledTidily params (done ++ lit) dst' n' := by
  unfold pushLit at h
  split at h
  · rename_i hlt
    simp only [Option.bind_eq_bind, Option.bind_eq_some_iff] at h
    obtain ⟨x, hslice, h⟩ := h
    cases h
    rw [ht] at hslice
    obtain rfl := eq_of_slice?_middle hslice
    have hne : x ≠ [] := List.ne_nil_of_length_pos (by omega)
    exact hdone.append_lit hne hopen hclose
  · cases h
    obtain rfl : lit = [] := List.length_eq_zero_iff.mp (by omega)
    rw [List.append_nil]
    exact hdone.toCompiledTidily

/-- **A reference**: at an opening brace the loop closes the literal before it, reads the name up to the first
    closing brace, and goes on after that with the capture of the name. -/
theorem parseTargetLoop_reference {target before rest : Str} {params : List Str} {litStart : Nat}
    {dst dst' : List DstChunkIr} {n n' : Nat} (ht : target = before ++ openBrace :: rest)
    (h : parseTargetLoop target params before.length litStart dst n = some (.ok (dst', n'))) :
    ∃ dst1 n1 name after k, pushLit target litStart before.length dst n = some (dst1, n1) ∧
      rest = name ++ closeBrace :: after ∧ (Part.param name).WellFormed ∧
      Part.Compiles params (.param name) (.capture k) ∧
      parseTargetLoop target params (before ++ braced name).length (before ++ braced name).length
        (dst1 ++ [.capture k]) n1 = some (.ok (dst', n')) := by
  have hi : before.length < target.length := by
    rw [ht]
    simp
  have hb : target[before.length] = openBrace := by simp [ht]
  rw [parseTargetLoop, dif_pos hi, if_pos hb] at h
  simp only [Option.bind_eq_bind, Option.bind_eq_some_iff] at h
  obtain ⟨⟨dst1, n1⟩, hpush, tail, htail, h⟩ := h
  have ht' : target = (before ++ [openBrace]) ++ rest := by rw [ht]; simp
  have hcut : before.length + 1 = (before ++ [openBrace]).length := by simp
  rw [hcut] at htail h
  obtain rfl : tail = rest := by
    refine eq_of_slice?_middle (a := before ++ [openBrace]) (c := []) ?_
    rw [← htail, ht', List.append_nil, ← List.length_append]
  cases hfind : find closeBrace tail with
  | none =>
      rw [hfind] at h
      cases h
  | some close =>
      rw [hfind] at h
      obtain ⟨name, after, rfl, rfl, hname⟩ := find_eq_some hfind
      simp only [Option.bind_eq_some_iff] at h
      obtain ⟨x, hslice, h⟩ := h
      obtain rfl : x = name := by
        refine eq_of_slice?_middle (a := before ++ [openBrace]) (c := closeBrace :: after) ?_
        rw [← hslice, ht', List.append_assoc]
      split at h
      · cases h
      rename_i hne
      cases hidx : params.findIdx? (· == x) with
      | none =>
          rw [hidx] at h
          cases h
      | some k =>
          rw [hidx] at h
          by_cases hk : k < 256
          · simp only [u8?, if_pos hk] at h
            refine ⟨dst1, n1, x, after, UInt8.ofNat k, hpush, rfl, ⟨by simpa using hne, hname⟩,
              .param x k hidx hk, ?_⟩
            have hend : (before ++ braced x).length = (before ++ [openBrace]).length + x.length + 1 := by
              simp [braced]
              omega
            rw [hend]
            exact h
          · simp only [u8?, if_neg hk] at h
            cases h

/-- **The byte loop.** With the text before `litStart` compiled and no brace since, a successful run has
    compiled the whole target, tidily. The induction is on the text still to read. -/
theorem parseTargetLoop_ok {target : Str} {params : List Str} {done lit rest : Str}
    {dst dst' : List DstChunkIr} {n n' : Nat} (ht : target = done ++ lit ++ rest)
    (hopen : openBrace ∉ lit) (hclose : closeBrace ∉ lit) (hdone : CompiledToLit params done dst n)
    (h : parseTargetLoop target params (done.length + lit.length) done.length dst n =
      some (.ok (dst', n'))) : CompiledTidily params target dst' n' := by
  induction hk : rest.length using Nat.strong_induction_on generalizing done lit rest dst n with
  | _ k ih =>
    cases rest with
    | nil =>
        -- the end of the text closes the last literal
        rw [List.append_nil] at ht
        have hlen : target.length = done.length + lit.length := by rw [ht, List.length_append]
        rw [parseTargetLoop, dif_neg (by omega), hlen] at h
        simp only [Option.bind_eq_bind, Option.bind_eq_some_iff] at h
        obtain ⟨⟨dst1, n1⟩, hpush, h⟩ := h
        cases h
        have ht' : target = done ++ lit ++ [] := by rw [List.append_nil, ← ht]
        have hcomp := pushLit_ok ht' hopen hclose hdone hpush
        rwa [← ht] at hcomp
    | cons b rest =>
        by_cases hbo : b = openBrace
        · -- a reference closes the literal before it
          subst hbo
          rw [← List.length_append] at h
          obtain ⟨dst1, n1, name, after, i, hpush, rfl, hwf, hcompiles, h⟩ := parseTargetLoop_reference ht h
          rw [List.length_append] at hpush
          have hnext := (pushLit_ok ht hopen hclose hdone hpush).append_capture hwf hcompiles
          refine @ih after.length (by simp at hk; omega) (done ++ lit ++ braced name) [] after _ n1
            ?_ (by simp) (by simp) hnext h rfl
          simp [ht, braced]
        · -- a byte of a literal, unless it is a stray brace
          have hi : done.length + lit.length < target.length := by
            rw [ht]
            simp
          have hb : target[done.length + lit.length] = b := by
            simp only [ht]
            rw [List.getElem_append_right (by simp)]
            simp
          rw [parseTargetLoop, dif_pos hi, hb, if_neg hbo] at h
          by_cases hbc : b = closeBrace
          · rw [if_pos hbc] at h
            cases h
          · rw [if_neg hbc] at h
            refine @ih rest.length (by simp at hk; omega) done (lit ++ [b]) rest _ n (by simp [ht]) ?_ ?_
              hdone ?_ rfl
            · simp [hopen, Ne.symm hbo]
            · simp [hclose, Ne.symm hbc]
            · simpa [Nat.add_assoc] using h

/-- With at most 256 names every index fits a `u8`. By induction on the bytes still to read. -/
theorem parseTargetLoop_no_overflow {target : Str} {params : List Str} (hle : params.length ≤ 256)
    {i litStart : Nat} {dst : List DstChunkIr} {n : Nat} :
    parseTargetLoop target params i litStart dst n ≠ some (.error .captureIndexOverflow) := by
  induction hk : target.length - i using Nat.strong_induction_on generalizing i litStart dst n with
  | _ k ih =>
    rw [parseTargetLoop]
    split
    · split
      · simp only [Option.bind_eq_bind, ne_eq, Option.bind_eq_some_iff, not_exists, not_and]
        intro p _ tail _
        split
        · simp
        · simp only [Option.bind_eq_some_iff, not_exists, not_and]
          intro name _
          split
          · simp
          split
          · simp
          rename_i k0 hidx
          have hk0 : k0 < 256 := by
            have := (List.findIdx?_eq_some_iff_getElem.mp hidx).1
            omega
          simp only [u8?, if_pos hk0]
          exact ih _ (by omega) rfl
      · split
        · simp
        · exact ih _ (by omega) rfl
    · simp only [Option.bind_eq_bind, ne_eq, Option.bind_eq_some_iff, not_exists, not_and]
      intro p _
      simp

/-! ## The compiler

Both loops on the text of one route attribute, and what an attribute without a target or with a fixed one
becomes. -/

/-- The names a route path declares, in order. -/
def routeParams (routePath : Str) : List Str := (nonEmptySegs slash routePath).filterMap segName

/-- The source pattern of a route path. -/
def routeSrc (routePath : Str) : List SrcSeg := (nonEmptySegs slash routePath).map segSrc

/-- **What an accepted template is**: the route path's pattern, and chunks compiled from the target. -/
theorem compileRewriteTemplate_ok {routePath target : Str} {tpl : RewriteTemplate}
    (h : compileRewriteTemplate routePath target = some (.ok tpl)) :
    tpl.src = routeSrc routePath ∧ NamesAccepted (routeParams routePath) ∧
      ∃ dst, CompiledTidily (routeParams routePath) target dst tpl.staticLen ∧
        tpl.dst = dst.map DstChunkIr.emit := by
  unfold compileRewriteTemplate at h
  simp only [Option.bind_eq_bind, Option.bind_eq_some_iff] at h
  obtain ⟨source, hsource, h⟩ := h
  match source, h with
  | .ok (src, params), h =>
      simp only [Option.bind_eq_some_iff] at h
      obtain ⟨result, htarget, h⟩ := h
      match result, h with
      | .ok (dst, n), h =>
          cases h
          obtain ⟨hsrc, rfl, hnames⟩ := parseSourceLoop_ok hsource .nil
          refine ⟨by simpa [emit, routeSrc] using hsrc, hnames, dst, ?_, rfl⟩
          have hloop : parseTargetLoop target (routeParams routePath) 0 0 [] 0 = some (.ok (dst, n)) := by
            simpa [parseRewriteTarget, routeParams] using htarget
          exact @parseTargetLoop_ok target _ [] [] target _ _ _ _ rfl (by simp) (by simp) (CompiledToLit.nil _) hloop

/-- The rewrite of a route attribute: it has no target, a fixed one, or a compiled one. -/
theorem buildRewriteSpec_ok {path : Str} {target : Option Str} {spec : RewriteSpec}
    (h : buildRewriteSpec path target = some (.ok spec)) :
    target = none ∧ spec = .stripPrefix ∨
      ∃ dest, target = some dest ∧ (openBrace ∉ dest ∧ spec = .static dest ∨
        ∃ tpl, compileRewriteTemplate path dest = some (.ok tpl) ∧ spec = .template tpl) := by
  cases target with
  | none =>
      obtain rfl := Except.ok.inj (Option.some.inj h)
      exact .inl ⟨rfl, rfl⟩
  | some dest =>
      refine .inr ⟨dest, rfl, ?_⟩
      unfold buildRewriteSpec at h
      dsimp only at h
      by_cases hbrace : dest.contains openBrace = true
      · rw [if_pos hbrace] at h
        right
        cases hcompile : compileRewriteTemplate path dest with
        | none => simp [hcompile] at h
        | some result =>
            rw [hcompile] at h
            cases result with
            | error e => cases h
            | ok tpl =>
                obtain rfl := Except.ok.inj (Option.some.inj h)
                exact ⟨tpl, rfl, rfl⟩
      · rw [if_neg hbrace] at h
        obtain rfl := Except.ok.inj (Option.some.inj h)
        exact .inl ⟨fun hmem => hbrace (List.contains_iff_mem.mpr hmem), rfl⟩

/-- The compiler never reports an index overflow: the source parser does not, and it accepts no more names than
    the target parser can number. -/
theorem compileRewriteTemplate_no_overflow (routePath target : Str) :
    compileRewriteTemplate routePath target ≠ some (.error .captureIndexOverflow) := by
  unfold compileRewriteTemplate
  simp only [Option.bind_eq_bind, ne_eq, Option.bind_eq_some_iff, not_exists, not_and]
  intro source hsource
  match source with
  | .error e =>
      rintro ⟨rfl⟩
      exact parseSourceLoop_no_overflow hsource
  | .ok (src, params) =>
      obtain ⟨-, -, hnames⟩ := parseSourceLoop_ok hsource .nil
      simp only [Option.bind_eq_some_iff, not_exists, not_and]
      intro result htarget
      match result with
      | .error e =>
          rintro ⟨rfl⟩
          exact parseTargetLoop_no_overflow hnames.atMost htarget
      | .ok (dst, n) => simp

/-! ## Rendering

From the chunks back to the pieces. A capture is an index into the ranges, and a range is cut out of the path;
that the index is in bounds and the range well formed is shown together with what comes out. -/

/-- The `k`-th captured segment is the one at the position of the `k`-th name. By induction on the segments of
    the route path, which are matched one by one with those of the request path: a literal moves the position
    on, a parameter the position and the index. -/
theorem capturedSegs_getElem {segs qs : List Str} {name : Str} {k off : Nat} {rs : List (Nat × Nat)}
    (hk : (segs.filterMap segName).findIdx? (· == name) = some k)
    (hm : matchRanges off (segs.map segSrc) qs = some rs) :
    ∃ position q, segs.findIdx? (· == braced name) = some position ∧ qs[position]? = some q ∧
      (capturedSegs (segs.map segSrc) qs)[k]? = some q := by
  induction segs generalizing qs k off rs with
  | nil => simp at hk
  | cons seg segs ih =>
      cases qs with
      | nil =>
          have := matchRanges_length hm
          simp at this
      | cons q qs =>
          by_cases hb : isBraced seg = true
          · obtain ⟨n, rfl⟩ := isBraced_iff.mp hb
            rw [List.map_cons, segSrc, if_pos hb] at hm ⊢
            rw [matchRanges, Option.map_eq_some_iff] at hm
            obtain ⟨rs', hm, -⟩ := hm
            rw [List.filterMap_cons, segName_braced] at hk
            rw [List.findIdx?_cons] at hk ⊢
            by_cases hn : n = name
            · subst hn
              simp only [beq_self_eq_true, if_true, Option.some.injEq] at hk ⊢
              subst hk
              exact ⟨0, q, rfl, rfl, rfl⟩
            · -- another parameter: one index and one position further
              have hne : (braced n == braced name) = false := by
                simpa using fun h => hn (braced_injective h)
              rw [if_neg (by simpa using hn), Option.map_eq_some_iff] at hk
              obtain ⟨k', hk', rfl⟩ := hk
              obtain ⟨position, q', hpos, hq', hcap⟩ := ih hk' hm
              refine ⟨position + 1, q', ?_, by simpa using hq', by simpa [capturedSegs] using hcap⟩
              rw [hne, hpos]
              rfl
          · -- a literal: one position further, the same index
            have hne : (seg == braced name) = false := by
              rw [beq_eq_false_iff_ne]
              rintro rfl
              exact hb (isBraced_braced name)
            rw [List.map_cons, segSrc, if_neg hb] at hm ⊢
            rw [matchRanges] at hm
            split at hm
            · rw [List.filterMap_cons, segName_eq_none (Bool.eq_false_iff.mpr hb)] at hk
              obtain ⟨position, q', hpos, hq', hcap⟩ := ih hk hm
              refine ⟨position + 1, q', ?_, by simpa using hq', by simpa [capturedSegs] using hcap⟩
              rw [List.findIdx?_cons, hne, hpos]
              rfl
            · cases hm

/-- The value of a declared name, on a path that matches the route path's pattern. -/
theorem paramValue_of_match {routePath content name : Str} {k : Nat} {rs : List (Nat × Nat)}
    (hk : (routeParams routePath).findIdx? (· == name) = some k)
    (hm : matchRanges 1 (routeSrc routePath) (pieces slash content) = some rs) :
    ∃ v, paramValue routePath (slash :: content) name = some v ∧ slash ∉ v ∧
      (capturedSegs (routeSrc routePath) (pieces slash content))[k]? = some v := by
  obtain ⟨position, v, hpos, hv, hcap⟩ := capturedSegs_getElem hk hm
  -- the scanner's segments are the first segments of the path
  have hsplit : (content.splitOn slash)[position]? = some v := by
    obtain ⟨rest, hrest⟩ := pieces_isPrefix slash content
    rw [← hrest, List.getElem?_append_left (List.getElem?_eq_some_iff.mp hv).1, hv]
  refine ⟨v, ?_, not_mem_of_mem_splitOn (List.mem_of_getElem? hsplit), hcap⟩
  unfold paramValue
  rw [hpos]
  simpa using hsplit

/-- Every referenced name is a declared one, since only those have been compiled. -/
theorem index_of_mem_compiled {params : List Str} {parts : List Part} {dst : List DstChunkIr}
    {name : Str} (hparts : List.Forall₂ (Part.Compiles params) parts dst) (hmem : .param name ∈ parts) :
    ∃ k, params.findIdx? (· == name) = some k := by
  induction hparts with
  | nil => cases hmem
  | cons hpart _ ih =>
      rcases List.mem_cons.mp hmem with rfl | hmem
      · cases hpart with
        | param _ k hk _ => exact ⟨k, hk⟩
      · exact ih hmem

/-- **Rendering the chunks** appends what the pieces stand for: no index is out of range and no slice panics. By
    induction on the pieces and their chunks, with the text that has been rendered before. -/
theorem renderChunks_compiled {params : List Str} {parts : List Part} {dst : List DstChunkIr} {path : Str}
    {rs : List (Nat × Nat)} {vs : List Str} {f : Str → Option Str} (out : Str)
    (hparts : List.Forall₂ (Part.Compiles params) parts dst)
    (hslices : rs.map (fun r => slice? path r.1 r.2) = vs.map some)
    (hf : ∀ name k, params.findIdx? (· == name) = some k → ∃ v, f name = some v ∧ vs[k]? = some v) :
    ∃ values, parts.mapM (Part.value f) = some values ∧
      renderChunks path rs (dst.map DstChunkIr.emit) out = some (out ++ values.flatten) := by
  induction hparts generalizing out with
  | nil => exact ⟨[], rfl, by simp [renderChunks]⟩
  | cons hpart _ ih =>
      cases hpart with
      | lit text =>
          obtain ⟨values, hvalues, hrender⟩ := ih (out ++ text)
          refine ⟨text :: values, ?_, ?_⟩
          · show (Part.lit text :: _).mapM (Part.value f) = some (text :: values)
            rw [List.mapM_cons, hvalues]
            rfl
          · simp [renderChunks, DstChunkIr.emit, hrender]
      | param name k hk hlt =>
          obtain ⟨v, hv, hvk⟩ := hf name k hk
          obtain ⟨values, hvalues, hrender⟩ := ih (out ++ v)
          have hrange : (rs.map (fun r => slice? path r.1 r.2))[k]? = some (some v) := by
            rw [hslices, List.getElem?_map, hvk]
            rfl
          rw [List.getElem?_map, Option.map_eq_some_iff] at hrange
          obtain ⟨r, hr, hslice⟩ := hrange
          refine ⟨v :: values, ?_, ?_⟩
          · show (Part.param name :: _).mapM (Part.value f) = some (v :: values)
            rw [List.mapM_cons, hvalues, Part.value, hv]
            rfl
          · simp [renderChunks, DstChunkIr.emit, Nat.mod_eq_of_lt hlt, hr, hslice, hrender]

/-- A path whose segments do not match the pattern is not rendered. -/
theorem renderTemplate_no_match {routePath target content : Str} {tpl : RewriteTemplate}
    {query : Option Str} (hpath : Utf8 (slash :: content))
    (h : compileRewriteTemplate routePath target = some (.ok tpl))
    (hm : matchRanges 1 (routeSrc routePath) (pieces slash content) = none) :
    renderTemplate tpl (slash :: content) query = some none := by
  obtain ⟨hsrc, -⟩ := compileRewriteTemplate_ok h
  unfold renderTemplate
  rw [captureRaw_eq hpath, hsrc, hm]
  rfl

/-- **A path that matches is rendered**: with `f` giving every declared name its captured segment, the result is
    the target with `f` substituted. -/
theorem renderTemplate_match {routePath target content : Str} {tpl : RewriteTemplate}
    {query : Option Str} {rs : List (Nat × Nat)} {f : Str → Option Str} (hpath : Utf8 (slash :: content))
    (h : compileRewriteTemplate routePath target = some (.ok tpl))
    (hm : matchRanges 1 (routeSrc routePath) (pieces slash content) = some rs)
    (hf : ∀ name k, (routeParams routePath).findIdx? (· == name) = some k → ∃ v, f name = some v ∧
      (capturedSegs (routeSrc routePath) (pieces slash content))[k]? = some v) :
    ∃ (parts : List Part) (values : List Str), (∀ p ∈ parts, p.WellFormed) ∧
      target = parts.flatMap Part.source ∧ parts.mapM (Part.value f) = some values ∧
      (∀ name, .param name ∈ parts → ∃ k, (routeParams routePath).findIdx? (· == name) = some k) ∧
      renderTemplate tpl (slash :: content) query = some (some (values.flatten ++ querySuffix query)) := by
  obtain ⟨hsrc, -, dst, ⟨⟨parts, hwf, htarget, hparts⟩, -, -⟩, hdst⟩ := compileRewriteTemplate_ok h
  have hcontent : Utf8 content := (Utf8.of_append_ascii (s := []) slash_ascii hpath).2
  have hsplit : slash :: content = [slash] ++ content := rfl
  have hslices := slices_matchRanges hsplit hcontent hm
  obtain ⟨values, hvalues, hrender⟩ := renderChunks_compiled [] hparts hslices hf
  refine ⟨parts, values, hwf, htarget, hvalues, fun name => index_of_mem_compiled hparts, ?_⟩
  unfold renderTemplate
  rw [captureRaw_eq hpath, hsrc, hm, hdst]
  simp only [Option.bind_eq_bind, Option.bind_some, hrender, List.nil_append]

/-- **Compiled rewrite templates mean what they say.** No accepted template overflows a capture index, and
    rendering one on any request path and query never panics. A string it renders is the target with each
    `{name}` replaced by the request-path segment at the position of `{name}` in the route path, everything else
    unchanged, followed by the query; the replaced values contain no slash. A path without a leading slash is
    not rendered, nor is one whose segments do not match; these are the cases of the proof. -/
theorem compiled_template_is_faithful (routePath target : Str) :
    compileRewriteTemplate routePath target ≠ some (.error .captureIndexOverflow) ∧
    ∀ tpl, compileRewriteTemplate routePath target = some (.ok tpl) →
      ∀ (path : Str) (query : Option Str), Utf8 path →
        ∃ rendered, renderTemplate tpl path query = some rendered ∧
          ∀ out, rendered = some out →
            ∃ (parts : List Part) (values : List Str), (∀ p ∈ parts, p.WellFormed) ∧
              target = parts.flatMap Part.source ∧
              parts.mapM (Part.value (paramValue routePath path)) = some values ∧
              out = values.flatten ++ querySuffix query ∧
              ∀ name v, .param name ∈ parts → paramValue routePath path name = some v → slash ∉ v := by
  refine ⟨compileRewriteTemplate_no_overflow routePath target, ?_⟩
  intro tpl htpl path query hpath
  by_cases hslash : ∃ content, path = slash :: content
  · obtain ⟨content, rfl⟩ := hslash
    cases hm : matchRanges 1 (routeSrc routePath) (pieces slash content) with
    | none => exact ⟨none, renderTemplate_no_match hpath htpl hm, fun out h => nomatch h⟩
    | some rs =>
        have hf : ∀ name k, (routeParams routePath).findIdx? (· == name) = some k →
            ∃ v, paramValue routePath (slash :: content) name = some v ∧
              (capturedSegs (routeSrc routePath) (pieces slash content))[k]? = some v := by
          intro name k hk
          obtain ⟨v, hv, -, hcap⟩ := paramValue_of_match hk hm
          exact ⟨v, hv, hcap⟩
        obtain ⟨parts, values, hwf, htarget, hvalues, hnames, hrender⟩ :=
          @renderTemplate_match routePath target content tpl query rs _ hpath htpl hm hf
        refine ⟨_, hrender, ?_⟩
        rintro out ⟨⟩
        refine ⟨parts, values, hwf, htarget, hvalues, rfl, fun name v hmem hv => ?_⟩
        obtain ⟨k, hk⟩ := hnames name hmem
        obtain ⟨v', hv', hslash, -⟩ := paramValue_of_match hk hm
        rw [hv] at hv'
        exact Option.some.inj hv' ▸ hslash
  · refine ⟨none, ?_, fun out h => nomatch h⟩
    unfold renderTemplate
    rw [captureRaw_no_slash (fun content h => hslash ⟨content, h⟩)]
    rfl

/-- The theorem at one route, target and request. -/
theorem compiled_template_is_faithful_sales :
    ∃ rendered, renderTemplate
        ⟨[.lit (str "sales"), .param], [.lit (str "/internal/"), .capture 0, .lit (str "/v1")], 13⟩
        (str "/sales/7") (some (str "q=1")) = some rendered ∧
      ∀ out, rendered = some out →
        ∃ (parts : List Part) (values : List Str), (∀ p ∈ parts, p.WellFormed) ∧
          str "/internal/{id}/v1" = parts.flatMap Part.source ∧
          parts.mapM (Part.value (paramValue (str "/sales/{id}") (str "/sales/7"))) = some values ∧
          out = values.flatten ++ querySuffix (some (str "q=1")) ∧
          ∀ name v, .param name ∈ parts →
            paramValue (str "/sales/{id}") (str "/sales/7") name = some v → slash ∉ v :=
  (compiled_template_is_faithful (str "/sales/{id}") (str "/internal/{id}/v1")).2 _
    (by decide +kernel) (str "/sales/7") (some (str "q=1")) (utf8_str _)

end Apigate
