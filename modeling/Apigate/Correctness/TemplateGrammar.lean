import Apigate.Correctness.Template

/-!
# `Correctness.TemplateGrammar` — what the template compiler accepts

The compiler never panics on a text, and accepts exactly the route paths with usable names and the targets that
read as literals and references to these names (`template_compiler_accepts_grammar`). The soundness half is in
`Correctness.Template`; here the loops are run forward, over a text that is known to be in the grammar.

Panics are the delicate part. Both loops work on byte offsets and slice the text at them, and a slice that does
not fall on character boundaries is a panic in Rust. The invariant is that every offset the loop remembers is
such a boundary: it starts at one, and it moves only behind an ASCII byte, `{`, `}` or `/`, which is always a
character of its own. So the proofs carry the text in front of the loop, cut into what is done and the literal
in progress, and the hypothesis that the cut is a boundary (`pushLit_total`, `boundary_after_reference`).

The target loop then has one lemma for each thing that can stand in front of it: a reference that is never
closed, a reference, a byte, a literal. That it never panics is by induction on what is left of the text; that
it accepts is by induction on the pieces of the target.

One kind of name is out of reach. A route path may declare `{a}b}`, whose name has a brace in it, but a
reference ends at the first closing brace (`reference_ends_at_first_brace`), so no target can refer to it.
-/

namespace Apigate
open Lib Text Segments

/-- Braces are ASCII, so no byte inside another character is one. -/
theorem openBrace_ascii : openBrace < 0x80 := by decide

theorem closeBrace_ascii : closeBrace < 0x80 := by decide

/-! ## The route path

The source parser looks at one segment after another, and slices only the name out of a segment in braces. The
one panic that is possible is excluded once (`slice_braced_eq`). -/

/-- The segments of a text are texts: the slash is ASCII, and to cut a text at an ASCII byte leaves texts on
    both sides. By recursion on the length, one segment at a time. -/
theorem utf8_of_mem_splitOn {s u : Str} (h : Utf8 s) (hu : u ∈ s.splitOn slash) : Utf8 u := by
  rcases cut_first slash s with hs | ⟨a, b, rfl, ha⟩
  · rw [List.splitOn_eq_singleton hs, List.mem_singleton] at hu
    exact hu ▸ h
  · obtain ⟨hfirst, hrest⟩ := h.of_append_ascii slash_ascii
    rw [splitOn_append ha] at hu
    rcases List.mem_cons.mp hu with rfl | hu
    · exact hfirst
    · exact utf8_of_mem_splitOn hrest hu
termination_by s.length
decreasing_by subst_vars; simp; omega

/-- The slice between the braces of a segment does not panic. -/
theorem slice_braced_eq {name : Str} (h : Utf8 (braced name)) :
    slice? (braced name) 1 ((braced name).length - 1) = some name := by
  have hopen : isCharBoundary (braced name) 1 = true := boundary_after_ascii (s := []) openBrace_ascii h
  have hclose : isCharBoundary (braced name) (1 + name.length) = true := by
    have := boundary_at_ascii (s := openBrace :: name) (t := []) closeBrace_ascii
    rwa [List.length_cons, Nat.add_comm] at this
  have hend : (braced name).length - 1 = 1 + name.length := by
    simp [braced, Nat.add_comm]
  rw [hend]
  exact slice?_middle (a := [openBrace]) (m := name) (c := [closeBrace]) hopen hclose

section
variable {segs : List Str} {src : List SrcSegIr} {params : List Str}

/-- The loop over the segments does not panic, whether it accepts them or not. -/
theorem parseSourceLoop_total (hutf8 : ∀ seg ∈ segs, Utf8 seg) : ∃ r, parseSourceLoop segs src params = some r := by
  induction segs generalizing src params with
  | nil => exact ⟨_, rfl⟩
  | cons seg segs ih =>
      obtain ⟨hseg, hsegs⟩ := List.forall_mem_cons.mp hutf8
      rw [parseSourceLoop]
      by_cases hb : isBraced seg = true
      · obtain ⟨name, rfl⟩ := isBraced_iff.mp hb
        rw [if_pos hb, slice_braced_eq hseg, Option.bind_eq_bind, Option.bind_some]
        split
        · exact ⟨_, rfl⟩
        split
        · exact ⟨_, rfl⟩
        split
        · exact ⟨_, rfl⟩
        exact ih hsegs
      · rw [if_neg hb]
        exact ih hsegs

/-- The source parser accepts usable names. The list of names found so far is part of the hypothesis, since a
    name is refused because of those before it: the induction is on the segments, with one more name in the
    list. -/
theorem parseSourceLoop_accepts (hutf8 : ∀ seg ∈ segs, Utf8 seg)
    (hnames : NamesAccepted (params ++ segs.filterMap segName)) :
    ∃ r, parseSourceLoop segs src params = some (.ok r) := by
  induction segs generalizing src params with
  | nil => exact ⟨_, rfl⟩
  | cons seg segs ih =>
      obtain ⟨hseg, hsegs⟩ := List.forall_mem_cons.mp hutf8
      rw [parseSourceLoop]
      by_cases hb : isBraced seg = true
      · obtain ⟨name, rfl⟩ := isBraced_iff.mp hb
        rw [List.filterMap_cons_some (segName_braced name)] at hnames
        have hne : name ≠ [] := hnames.nonEmpty name (by simp)
        have hnew : name ∉ params := by
          intro hmem
          exact (List.nodup_append.mp hnames.distinct).2.2 name hmem name List.mem_cons_self rfl
        have hroom : params.length < 256 := by
          have := hnames.atMost
          rw [List.length_append, List.length_cons] at this
          omega
        rw [if_pos hb, slice_braced_eq hseg, Option.bind_eq_bind, Option.bind_some, if_neg (by simpa using hne),
          if_neg (by simpa using hnew), if_neg (by simpa [maxCaptureParams] using hroom)]
        apply ih hsegs
        rwa [List.append_assoc, List.singleton_append]
      · rw [if_neg hb]
        rw [List.filterMap_cons_none (segName_eq_none (Bool.eq_false_iff.mpr hb))] at hnames
        exact ih hsegs hnames

end

/-! ## The target

The loop walks over the bytes with an index and remembers where the current literal began. In the lemmas the
index is the length of the text behind it, `before` or `done ++ lit`, so that a step of the loop is a step along
that text. -/

section
variable {target : Str} {params : List Str} {dst : List DstChunkIr} {n : Nat}

/-- Closing a literal does not panic at character boundaries. -/
theorem pushLit_total (dst : List DstChunkIr) (n : Nat) {done lit rest : Str} (ht : target = done ++ lit ++ rest)
    (hstart : isCharBoundary target done.length = true)
    (hend : isCharBoundary target (done ++ lit).length = true) :
    ∃ r, pushLit target done.length (done ++ lit).length dst n = some r := by
  unfold pushLit
  split
  · subst ht
    rw [List.length_append] at hend ⊢
    rw [slice?_middle hstart hend]
    exact ⟨_, rfl⟩
  · exact ⟨_, rfl⟩

/-- What is read behind an opening brace: the rest of the target, which is where the source looks for the
    closing one. The slice begins behind an ASCII byte, so it does not panic. -/
theorem slice_after_openBrace {before rest : Str} (hutf8 : Utf8 target) (ht : target = before ++ openBrace :: rest) :
    slice? target (before.length + 1) target.length = some rest := by
  have hsplit : target = before ++ [openBrace] ++ rest ++ [] := by simp [ht]
  have hlength : target.length = (before ++ [openBrace]).length + rest.length := by
    rw [← List.length_append, List.append_assoc, List.singleton_append, ← ht]
  have hstart : isCharBoundary target (before ++ [openBrace]).length = true := by
    rw [List.length_append, List.length_singleton, ht]
    exact boundary_after_ascii openBrace_ascii (ht ▸ hutf8)
  have hcut := slice?_middle (hsplit ▸ hstart) (by rw [← hsplit, ← hlength]; exact boundary_length target)
  rw [← hsplit, ← hlength] at hcut
  simpa using hcut

/-- A reference that no brace closes is an error, and not a literal. -/
theorem parseTargetLoop_unclosed {before rest : Str} (hutf8 : Utf8 target) (ht : target = before ++ openBrace :: rest)
    (hrest : closeBrace ∉ rest) {litStart : Nat} {dst1 : List DstChunkIr} {n1 : Nat}
    (hpush : pushLit target litStart before.length dst n = some (dst1, n1)) :
    parseTargetLoop target params before.length litStart dst n = some (.error .unclosedToParameter) := by
  rw [parseTargetLoop, dif_pos (by rw [ht]; simp), if_pos (by simp [ht])]
  simp only [Option.bind_eq_bind, hpush, Option.bind_some, slice_after_openBrace hutf8 ht, find_eq_none.mpr hrest]

/-- **At a reference** the loop reads the name, looks it up, and goes on behind the closing brace. -/
theorem parseTargetLoop_at_reference {before name after : Str} (hutf8 : Utf8 target)
    (ht : target = before ++ braced name ++ after) (hname : closeBrace ∉ name) {litStart : Nat}
    {dst1 : List DstChunkIr} {n1 : Nat} (hpush : pushLit target litStart before.length dst n = some (dst1, n1)) :
    parseTargetLoop target params before.length litStart dst n =
      if name.isEmpty then some (.error .emptyToParameter)
      else
        match params.findIdx? (· == name) with
        | none => some (.error (.unknownToParameter name))
        | some k =>
            match u8? k with
            | none => some (.error .captureIndexOverflow)
            | some k => parseTargetLoop target params (before ++ braced name).length (before ++ braced name).length
                (dst1 ++ [.capture k]) n1 := by
  have hopened : target = before ++ openBrace :: (name ++ closeBrace :: after) := by
    rw [ht]
    simp [braced]
  have hi : before.length < target.length := by
    rw [hopened]
    simp
  have hb : target[before.length] = openBrace := by simp [hopened]
  have hafter : isCharBoundary target (before ++ [openBrace]).length = true := by
    rw [List.length_append, List.length_singleton, hopened]
    exact boundary_after_ascii openBrace_ascii (hopened ▸ hutf8)
  have hslice : slice? target (before.length + 1) (before.length + 1 + name.length) = some name := by
    have hsplit : target = before ++ [openBrace] ++ name ++ closeBrace :: after := by simp [hopened]
    have hclose : isCharBoundary target ((before ++ [openBrace]).length + name.length) = true := by
      rw [← List.length_append, hsplit]
      exact boundary_at_ascii closeBrace_ascii
    have hcut := slice?_middle (hsplit ▸ hafter) (hsplit ▸ hclose)
    rw [← hsplit] at hcut
    simpa using hcut
  have hend : before.length + 1 + name.length + 1 = (before ++ braced name).length := by
    simp [braced]
    omega
  -- the round of the loop, with each of its lookups in its place
  have hround := parseTargetLoop.eq_def target params before.length litStart dst n
  rw [dif_pos hi, if_pos hb] at hround
  simp only [Option.bind_eq_bind, hpush, Option.bind_some, slice_after_openBrace hutf8 hopened,
    find_append_cons hname, hslice, hend] at hround
  exact hround

/-- A byte that is no brace belongs to the literal in progress; only the index moves. -/
theorem parseTargetLoop_at_byte {before rest : Str} {b : UInt8} (ht : target = before ++ b :: rest)
    (hopen : b ≠ openBrace) (hclose : b ≠ closeBrace) (litStart : Nat) :
    parseTargetLoop target params before.length litStart dst n =
      parseTargetLoop target params (before ++ [b]).length litStart dst n := by
  have hi : before.length < target.length := by
    rw [ht]
    simp
  have hb : target[before.length] = b := by simp [ht]
  rw [parseTargetLoop, dif_pos hi, hb, if_neg hopen, if_neg hclose, List.length_append, List.length_singleton]

/-- The bytes of a literal, one after the other. -/
theorem parseTargetLoop_at_literal {before lit rest : Str} (ht : target = before ++ lit ++ rest)
    (hopen : openBrace ∉ lit) (hclose : closeBrace ∉ lit) (litStart : Nat) :
    parseTargetLoop target params before.length litStart dst n =
      parseTargetLoop target params (before ++ lit).length litStart dst n := by
  induction lit generalizing before with
  | nil => rw [List.append_nil]
  | cons b lit ih =>
      obtain ⟨hbo, hopen⟩ := not_or.mp (mt List.mem_cons.mpr hopen)
      obtain ⟨hbc, hclose⟩ := not_or.mp (mt List.mem_cons.mpr hclose)
      have hbyte : target = before ++ b :: (lit ++ rest) := by
        rw [ht]
        simp
      have hrest : target = before ++ [b] ++ lit ++ rest := by
        rw [ht]
        simp
      rw [parseTargetLoop_at_byte hbyte (Ne.symm hbo) (Ne.symm hbc), ih hrest hopen hclose]
      simp

/-- Behind the closing brace of a reference is a character boundary, and this is where the next literal begins.
    It carries the invariant over the one place where the loop moves its start. -/
theorem boundary_after_reference {before name after : Str} (hutf8 : Utf8 target)
    (ht : target = before ++ braced name ++ after) :
    isCharBoundary target (before ++ braced name).length = true := by
  have hclosed : target = (before ++ openBrace :: name) ++ closeBrace :: after := by
    rw [ht]
    simp [braced]
  have hlength : (before ++ braced name).length = (before ++ openBrace :: name).length + 1 := by
    simp [braced]
    omega
  rw [hlength, hclosed]
  exact boundary_after_ascii closeBrace_ascii (hclosed ▸ hutf8)

/-- **The byte loop never panics** on a text, from a literal that begins at a character boundary. By strong
    induction on what is left: a reference takes several bytes at once, and every other byte takes one. At an
    opening brace either a closing one follows somewhere, and the loop goes on behind it, or none does, and it
    ends with an error. -/
theorem parseTargetLoop_total {done lit rest : Str} (hutf8 : Utf8 target) (ht : target = done ++ lit ++ rest)
    (hstart : isCharBoundary target done.length = true) :
    ∃ r, parseTargetLoop target params (done ++ lit).length done.length dst n = some r := by
  induction hk : rest.length using Nat.strong_induction_on generalizing done lit rest dst n with
  | _ k ih =>
    cases rest with
    | nil =>
        have hend : target.length = (done ++ lit).length := by rw [ht, List.append_nil]
        obtain ⟨r, hpush⟩ := pushLit_total dst n ht hstart
          (by rw [← hend]; exact boundary_length target)
        rw [parseTargetLoop, dif_neg (by omega), hend, hpush]
        exact ⟨_, rfl⟩
    | cons b rest =>
        by_cases hbo : b = openBrace
        · subst hbo
          have hend : isCharBoundary target (done ++ lit).length = true := by
            rw [ht]
            exact boundary_at_ascii openBrace_ascii
          obtain ⟨⟨dst1, n1⟩, hpush⟩ := pushLit_total dst n ht hstart hend
          rcases cut_first closeBrace rest with hnone | ⟨name, after, rfl, hname⟩
          · rw [parseTargetLoop_unclosed hutf8 ht hnone hpush]
            exact ⟨_, rfl⟩
          · have hreference : target = done ++ lit ++ braced name ++ after := by
              rw [ht]
              simp [braced]
            rw [parseTargetLoop_at_reference hutf8 hreference hname hpush]
            split
            · exact ⟨_, rfl⟩
            split
            · exact ⟨_, rfl⟩
            split
            · exact ⟨_, rfl⟩
            have hnext := fun k => @ih after.length (by simp at hk; omega) (dst1 ++ [.capture k]) n1
              (done ++ lit ++ braced name) [] after (by rw [hreference, List.append_nil])
              (boundary_after_reference hutf8 hreference) rfl
            rw [List.append_nil] at hnext
            exact hnext _
        · by_cases hbc : b = closeBrace
          · subst hbc
            rw [parseTargetLoop, dif_pos (by rw [ht]; simp), if_neg (by simp [ht, hbo]), if_pos (by simp [ht])]
            exact ⟨_, rfl⟩
          · rw [parseTargetLoop_at_byte ht hbo hbc, List.append_assoc]
            refine ih rest.length (by simp at hk; omega) (by rw [ht]; simp) hstart rfl

/-- **The byte loop accepts** a target that reads as pieces with declared names. The induction is on the pieces.
    A literal does not end where its piece ends: two literals may follow one another, and the loop reads them as
    one, which is why the text in progress is part of the statement. At most 256 names can be declared, so the
    index of a name always fits its byte. -/
theorem parseTargetLoop_accepts {done lit : Str} {parts : List Part} (hutf8 : Utf8 target)
    (ht : target = done ++ lit ++ parts.flatMap Part.source) (hstart : isCharBoundary target done.length = true)
    (hparts : ∀ p ∈ parts, p.WellFormed ∧ ∀ name, p = .param name → name ∈ params) (hle : params.length ≤ 256) :
    ∃ r, parseTargetLoop target params (done ++ lit).length done.length dst n = some (.ok r) := by
  induction parts generalizing done lit dst n with
  | nil =>
      have hend : target.length = (done ++ lit).length := by rw [ht, List.flatMap_nil, List.append_nil]
      obtain ⟨r, hpush⟩ := pushLit_total dst n ht hstart (by rw [← hend]; exact boundary_length target)
      rw [parseTargetLoop, dif_neg (by omega), hend, hpush]
      exact ⟨_, rfl⟩
  | cons p parts ih =>
      obtain ⟨⟨hwf, hdeclared⟩, hrest⟩ := List.forall_mem_cons.mp hparts
      rw [List.flatMap_cons, ← List.append_assoc] at ht
      cases p with
      | lit text =>
          -- the literal goes on
          rw [parseTargetLoop_at_literal ht hwf.1 hwf.2]
          have ht' : target = done ++ (lit ++ text) ++ parts.flatMap Part.source := by
            rw [ht, Part.source, List.append_assoc done lit text]
          rw [show done ++ lit ++ (Part.lit text).source = done ++ (lit ++ text) from List.append_assoc ..]
          exact ih ht' hstart hrest
      | param name =>
          have hend : isCharBoundary target (done ++ lit).length = true := by
            rw [ht, List.append_assoc]
            exact boundary_at_ascii openBrace_ascii
          obtain ⟨⟨dst1, n1⟩, hpush⟩ := pushLit_total dst n (ht.trans (List.append_assoc ..)) hstart hend
          obtain ⟨k, hk⟩ : ∃ k, params.findIdx? (· == name) = some k := by
            rw [← Option.isSome_iff_exists, List.findIdx?_isSome, List.any_eq_true]
            exact ⟨name, hdeclared name rfl, beq_self_eq_true name⟩
          have hk256 : k < 256 := by
            have := (List.findIdx?_eq_some_iff_getElem.mp hk).1
            omega
          rw [parseTargetLoop_at_reference hutf8 ht hwf.2 hpush, if_neg (by simpa using hwf.1), hk]
          simp only [u8?, if_pos hk256]
          have hnext := @ih (dst1 ++ [.capture (UInt8.ofNat k)]) n1 (done ++ lit ++ braced name) []
            (by rw [List.append_nil]; exact ht) (boundary_after_reference hutf8 ht) hrest
          rwa [List.append_nil] at hnext

end

/-! ## Printing

Compilation loses nothing: from the chunks the target can be written down again. A chunk that captures knows the
position of its name only, so printing looks the name up in the list of the route path. -/

/-- The text a chunk is written as. -/
def DstChunk.print (names : List Str) : DstChunk → Option Str
  | .lit text => some text
  | .capture k => names[k.toNat]?.map braced

/-- The target that some chunks are written as. -/
def printTarget (names : List Str) (chunks : List DstChunk) : Option Str :=
  (chunks.mapM (DstChunk.print names)).map List.flatten

/-- **Compiled chunks are written as their pieces.** Chunk by chunk, along the compilation relation. -/
theorem printTarget_of_compiled {names : List Str} {target : Str} {dst : List DstChunkIr}
    (h : Compiled names target dst) : printTarget names (dst.map DstChunkIr.emit) = some target := by
  obtain ⟨parts, -, rfl, hparts⟩ := h
  have hprint : (dst.map DstChunkIr.emit).mapM (DstChunk.print names) = some (parts.map Part.source) := by
    induction hparts with
    | nil => rfl
    | @cons p c parts dst hpc _ ih =>
        rw [List.map_cons, List.mapM_cons, ih, List.map_cons]
        cases hpc with
        | lit text => rfl
        | param name k hk hlt =>
            obtain ⟨hlength, hname, -⟩ := List.findIdx?_eq_some_iff_getElem.mp hk
            have hprint : DstChunk.print names (DstChunkIr.capture (UInt8.ofNat k)).emit = some (braced name) := by
              show names[(UInt8.ofNat k).toNat]?.map braced = _
              rw [UInt8.toNat_ofNat_of_lt' hlt, List.getElem?_eq_getElem hlength, eq_of_beq hname]
              rfl
            rw [hprint]
            rfl
  rw [printTarget, hprint, Option.map_some, List.flatMap_def]

/-! ## The main result -/

/-- The text reads as literals without braces and references to the names. -/
def ReadsAsTarget (names : List Str) (target : Str) : Prop :=
  ∃ parts : List Part, (∀ p ∈ parts, p.WellFormed ∧ ∀ name, p = .param name → name ∈ names) ∧
    target = parts.flatMap Part.source

/-- **The template compiler accepts exactly its grammar and loses nothing.** For every route path and every
    target text: it never panics; it succeeds exactly when the names of the route path are usable and the target
    reads as literals and references to them; and then the chunks are tidy, are written as the target, and have
    the stated literal length. -/
theorem template_compiler_accepts_grammar {routePath target : Str} (hroute : Utf8 routePath) (htarget : Utf8 target) :
    (∃ r, compileRewriteTemplate routePath target = some r) ∧
      ((∃ tpl, compileRewriteTemplate routePath target = some (.ok tpl)) ↔
        NamesAccepted (routeParams routePath) ∧ ReadsAsTarget (routeParams routePath) target) ∧
      ∀ tpl, compileRewriteTemplate routePath target = some (.ok tpl) →
        Tidy tpl.dst ∧ printTarget (routeParams routePath) tpl.dst = some target ∧
          tpl.staticLen = staticLength tpl.dst := by
  have hsegs : ∀ seg ∈ nonEmptySegs slash routePath, Utf8 seg := fun seg hseg =>
    utf8_of_mem_splitOn hroute (List.mem_filter.mp hseg).1
  have hstart : isCharBoundary target ([] : Str).length = true := boundary_zero target
  refine ⟨?_, ⟨?_, ?_⟩, ?_⟩
  · obtain ⟨source, hsource⟩ := @parseSourceLoop_total _ [] [] hsegs
    unfold compileRewriteTemplate parseRouteSource
    rw [hsource]
    cases source with
    | error e => exact ⟨_, rfl⟩
    | ok parsed =>
        obtain ⟨src, params⟩ := parsed
        obtain ⟨result, hresult⟩ := @parseTargetLoop_total target params [] 0 [] [] target htarget rfl hstart
        rw [List.append_nil, List.length_nil] at hresult
        simp only [Option.bind_eq_bind, Option.bind_some, parseRewriteTarget, hresult]
        cases result with
        | error e => exact ⟨_, rfl⟩
        | ok compiled => exact ⟨_, rfl⟩
  · rintro ⟨tpl, h⟩
    obtain ⟨-, hnames, dst, ⟨⟨parts, hwf, hreads, hparts⟩, -, -⟩, -⟩ := compileRewriteTemplate_ok h
    refine ⟨hnames, parts, ?_, hreads⟩
    intro p hp
    refine ⟨hwf p hp, ?_⟩
    rintro name rfl
    obtain ⟨k, hk⟩ := index_of_mem_compiled hparts hp
    obtain ⟨hlength, hname, -⟩ := List.findIdx?_eq_some_iff_getElem.mp hk
    exact eq_of_beq hname ▸ List.getElem_mem hlength
  · rintro ⟨hnames, parts, hparts, hreads⟩
    obtain ⟨⟨src, params⟩, hsource⟩ := @parseSourceLoop_accepts _ [] [] hsegs hnames
    obtain ⟨-, rfl, -⟩ := parseSourceLoop_ok hsource .nil
    obtain ⟨⟨dst, n⟩, hresult⟩ := @parseTargetLoop_accepts target (routeParams routePath) [] 0 [] [] parts htarget
      hreads hstart hparts hnames.atMost
    rw [List.append_nil, List.length_nil] at hresult
    refine ⟨emit ⟨src, dst, n⟩, ?_⟩
    unfold compileRewriteTemplate parseRouteSource
    rw [hsource]
    show (parseRewriteTarget target (routeParams routePath)).bind _ = _
    rw [parseRewriteTarget, hresult]
    rfl
  · intro tpl h
    obtain ⟨-, -, dst, hdst, hchunks⟩ := compileRewriteTemplate_ok h
    rw [hchunks]
    exact ⟨hdst.tidy, printTarget_of_compiled hdst.compiled, hdst.total⟩

/-! ## Examples -/

/-- The theorem at one route and target. -/
theorem template_compiler_accepts_grammar_sales :
    Tidy [.lit (str "/internal/"), .capture 0, .lit (str "/v1")] ∧
      printTarget [str "id"] [.lit (str "/internal/"), .capture 0, .lit (str "/v1")] =
        some (str "/internal/\x7bid\x7d/v1") ∧
      13 = staticLength [.lit (str "/internal/"), .capture 0, .lit (str "/v1")] :=
  (template_compiler_accepts_grammar (utf8_str "/sales/\x7bid\x7d") (utf8_str "/internal/\x7bid\x7d/v1")).2.2
    ⟨[.lit (str "sales"), .param], [.lit (str "/internal/"), .capture 0, .lit (str "/v1")], 13⟩ (by decide +kernel)

/-- **A name with a closing brace** can be declared, but a reference to it is not read as one: the target of a
    single reference to a declared name is rejected. -/
theorem reference_ends_at_first_brace :
    routeParams (str "/\x7ba\x7db\x7d") = [str "a\x7db"] ∧ NamesAccepted [str "a\x7db"] ∧
      str "\x7ba\x7db\x7d" = [Part.param (str "a\x7db")].flatMap Part.source ∧
      compileRewriteTemplate (str "/\x7ba\x7db\x7d") (str "\x7ba\x7db\x7d") =
        some (.error (.unknownToParameter (str "a"))) :=
  ⟨by decide +kernel, ⟨by decide, by decide, by decide⟩, by decide, by decide +kernel⟩

end Apigate
