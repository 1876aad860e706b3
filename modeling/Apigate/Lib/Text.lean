import Mathlib.Data.List.Basic
import Mathlib.Data.List.Infix

/-!
# `Lib.Text` — UTF-8 text as byte lists

A `str` is a byte list that is the UTF-8 encoding of some list of scalar values. The standard library
functions below work on the bytes, as the originals do: prefixes, searches for an ASCII byte, trimming,
and **checked** slicing — `slice?` answers `none` exactly where `&s[a..b]` panics (an index out of
order, out of range, or inside a character).

The one fact that keeps slices legal is `Utf8.of_append_ascii`: cutting a text at an ASCII byte leaves
two texts, so the offsets just before and just after an ASCII byte are always character boundaries.
-/

namespace Lib

/-- The bytes of a `str`. -/
abbrev Str := List UInt8

/-- The bytes of a literal. -/
def str (s : String) : Str := s.toByteArray.data.toList

namespace Text

/-! ## Validity

A character is one ASCII byte, or a lead byte and others that are not ASCII (`encode_shape`). This
is all that is ever used of the encoding. -/

/-- The bytes are the UTF-8 encoding of some characters. -/
def Utf8 (s : Str) : Prop := ∃ cs : List Char, s = cs.flatMap String.utf8EncodeChar

/-- `b` starts a character: `(b as i8) >= -0x40`. -/
def isLead (b : UInt8) : Bool := decide (b < 0x80) || decide (0xC0 ≤ b)

/-- `str::is_char_boundary`. -/
def isCharBoundary (s : Str) (i : Nat) : Bool :=
  i == 0 || match s[i]? with
    | none => i == s.length
    | some b => isLead b

/-- The empty text, -/
theorem utf8_nil : Utf8 [] := ⟨[], rfl⟩

/-- a literal, -/
theorem utf8_str (s : String) : Utf8 (str s) := by
  obtain ⟨cs, hcs⟩ := s.isValidUTF8
  refine ⟨cs, ?_⟩
  unfold str
  rw [hcs, List.utf8Encode, List.toList_data_toByteArray]

/-- and two texts in a row are texts. -/
theorem utf8_append {s t : Str} (hs : Utf8 s) (ht : Utf8 t) : Utf8 (s ++ t) := by
  obtain ⟨cs, rfl⟩ := hs
  obtain ⟨ds, rfl⟩ := ht
  exact ⟨cs ++ ds, by rw [List.flatMap_append]⟩

/-- Setting bits makes a byte no smaller. -/
theorem le_or (x y : UInt8) : y ≤ x ||| y := by
  rw [UInt8.le_iff_toNat_le, UInt8.toNat_or]
  exact Nat.right_le_or

/-- A byte from `0xC0` on is a lead. -/
theorem isLead_of_le {b : UInt8} (h : 0xC0 ≤ b) : isLead b = true := by simp [isLead, h]

/-- A byte from `0x80` on is not ASCII. -/
theorem not_ascii_of_le {a b : UInt8} (ha : 0x80 ≤ a) (h : a ≤ b) : ¬ b < 0x80 :=
  UInt8.not_lt.mpr (UInt8.le_trans ha h)

/-- A one-byte encoding is an ASCII byte. -/
theorem ascii_of_utf8Size_one {c : Char} (h : c.utf8Size = 1) : c.val.toUInt8 < 0x80 := by
  have h7 : c.val ≤ 0x7f := Char.utf8Size_eq_one_iff.mp h
  rw [UInt32.le_iff_toNat_le] at h7
  rw [UInt8.lt_iff_toNat_lt, UInt32.toNat_toUInt8]
  have h7' : (0x7f : UInt32).toNat = 127 := rfl
  have h8 : (0x80 : UInt8).toNat = 128 := rfl
  omega

/-- The encoding of one character: a single ASCII byte, or a lead followed by non-ASCII bytes. -/
theorem encode_shape (c : Char) :
    ∃ b rest, String.utf8EncodeChar c = b :: rest ∧ isLead b = true ∧
      (b < 0x80 → rest = []) ∧ ∀ x ∈ rest, ¬ x < 0x80 := by
  have hcont : ∀ x : UInt8, ¬ (x &&& 0x3f ||| 0x80) < 0x80 := fun x =>
    not_ascii_of_le (by decide) (le_or _ _)
  match hsz : c.utf8Size, c.utf8Size_pos, c.utf8Size_le_four with
  | 1, _, _ =>
      have hlt := ascii_of_utf8Size_one hsz
      exact ⟨_, _, String.utf8EncodeChar_eq_singleton hsz, by rw [isLead, decide_eq_true hlt]; rfl,
        fun _ => rfl, by simp⟩
  | 2, _, _ =>
      have hl : (0xC0 : UInt8) ≤ (c.val >>> 6).toUInt8 &&& 0x1f ||| 0xc0 := le_or _ _
      refine ⟨_, _, String.utf8EncodeChar_eq_cons_cons hsz, isLead_of_le hl,
        fun h => absurd h (not_ascii_of_le (by decide) hl), ?_⟩
      intro x hx
      simp only [List.mem_singleton] at hx
      exact hx ▸ hcont _
  | 3, _, _ =>
      have hl : (0xC0 : UInt8) ≤ (c.val >>> 12).toUInt8 &&& 0x0f ||| 0xe0 :=
        UInt8.le_trans (show (0xC0 : UInt8) ≤ 0xe0 by decide) (le_or _ _)
      refine ⟨_, _, String.utf8EncodeChar_eq_cons_cons_cons hsz, isLead_of_le hl,
        fun h => absurd h (not_ascii_of_le (by decide) hl), ?_⟩
      intro x hx
      simp only [List.mem_cons, List.not_mem_nil, or_false] at hx
      rcases hx with rfl | rfl <;> exact hcont _
  | 4, _, _ =>
      have hl : (0xC0 : UInt8) ≤ (c.val >>> 18).toUInt8 &&& 0x07 ||| 0xf0 :=
        UInt8.le_trans (show (0xC0 : UInt8) ≤ 0xf0 by decide) (le_or _ _)
      refine ⟨_, _, String.utf8EncodeChar_eq_cons_cons_cons_cons hsz, isLead_of_le hl,
        fun h => absurd h (not_ascii_of_le (by decide) hl), ?_⟩
      intro x hx
      simp only [List.mem_cons, List.not_mem_nil, or_false] at hx
      rcases hx with rfl | rfl | rfl <;> exact hcont _

/-- A text starts with a lead byte. -/
theorem Utf8.head_lead {b : UInt8} {s : Str} (h : Utf8 (b :: s)) : isLead b = true := by
  obtain ⟨cs, hcs⟩ := h
  cases cs with
  | nil => simp at hcs
  | cons c cs =>
      obtain ⟨b', rest, henc, hlead, -, -⟩ := encode_shape c
      rw [List.flatMap_cons, henc, List.cons_append] at hcs
      exact (List.cons.inj hcs).1 ▸ hlead

/-- **Cutting at an ASCII byte.** Both sides of an ASCII byte of a text are texts. -/
theorem Utf8.of_append_ascii {s t : Str} {b : UInt8} (hb : b < 0x80) (h : Utf8 (s ++ b :: t)) :
    Utf8 s ∧ Utf8 t := by
  obtain ⟨cs, hcs⟩ := h
  induction cs generalizing s with
  | nil => simp at hcs
  | cons c cs ih =>
      obtain ⟨x, rest, henc, -, hone, hcont⟩ := encode_shape c
      rw [List.flatMap_cons] at hcs
      -- either the cut is past the first character, or the first character is the ASCII byte itself
      rcases List.append_eq_append_iff.mp hcs with ⟨u, hu, hrest⟩ | ⟨u, hu, hrest⟩
      · cases u with
        | nil =>
            rw [List.append_nil] at hu
            have ⟨_, ht⟩ := ih (s := []) (by simpa using hrest)
            exact ⟨⟨[c], by simp [hu]⟩, ht⟩
        | cons y u =>
            rw [List.cons_append] at hrest
            obtain ⟨rfl, ht⟩ := List.cons.inj hrest
            cases s with
            | nil =>
                rw [List.nil_append, henc] at hu
                obtain ⟨rfl, hu'⟩ := List.cons.inj hu
                obtain rfl : u = [] := by rw [← hu']; exact hone hb
                exact ⟨utf8_nil, ⟨cs, by simpa using ht⟩⟩
            | cons z s =>
                -- a continuation byte is never ASCII
                rw [henc, List.cons_append] at hu
                obtain ⟨-, hu'⟩ := List.cons.inj hu
                exact absurd hb (hcont b (by rw [hu']; simp))
      · obtain ⟨hs', ht⟩ := ih hrest.symm
        obtain ⟨ds, rfl⟩ := hs'
        exact ⟨⟨c :: ds, by rw [hu, List.flatMap_cons]⟩, ht⟩

/-! ## Checked slices

The offsets that occur are next to an ASCII byte, or at an end; they are boundaries, and so the slices succeed. -/

/-- `&s[a..b]`; `none` where it panics. -/
def slice? (s : Str) (a b : Nat) : Option Str :=
  if a ≤ b ∧ b ≤ s.length ∧ isCharBoundary s a = true ∧ isCharBoundary s b = true then
    some ((s.take b).drop a)
  else none

/-- What a slice that succeeds has checked. -/
theorem slice?_checked {s x : Str} {a b : Nat} (h : slice? s a b = some x) :
    b ≤ s.length ∧ isCharBoundary s a = true ∧ isCharBoundary s b = true ∧ a + x.length = b := by
  unfold slice? at h
  split at h
  · rename_i hchecks
    obtain ⟨hab, hb, hstart, hend⟩ := hchecks
    cases h
    refine ⟨hb, hstart, hend, ?_⟩
    rw [List.length_drop, List.length_take]
    omega
  · cases h

/-- The start of a text is a boundary, -/
theorem boundary_zero (s : Str) : isCharBoundary s 0 = true := by simp [isCharBoundary]

/-- and so is its end. -/
theorem boundary_length (s : Str) : isCharBoundary s s.length = true := by
  simp [isCharBoundary]

/-- The offset of a byte that starts a text (or ends one) is a boundary. -/
theorem boundary_of_utf8_suffix {s t : Str} (ht : Utf8 t) :
    isCharBoundary (s ++ t) s.length = true := by
  unfold isCharBoundary
  cases t with
  | nil => simp
  | cons b t => simp [ht.head_lead]

/-- The offset just before an ASCII byte is a boundary. -/
theorem boundary_at_ascii {s t : Str} {b : UInt8} (hb : b < 0x80) :
    isCharBoundary (s ++ b :: t) s.length = true := by
  unfold isCharBoundary
  simp [isLead, hb]

/-- The offset just after an ASCII byte of a text is a boundary. -/
theorem boundary_after_ascii {s t : Str} {b : UInt8} (hb : b < 0x80) (h : Utf8 (s ++ b :: t)) :
    isCharBoundary (s ++ b :: t) (s.length + 1) = true := by
  have := boundary_of_utf8_suffix (s := s ++ [b]) (h.of_append_ascii hb).2
  simpa using this

/-- A slice whose two ends are boundaries is the middle part. -/
theorem slice?_middle {a m c : Str} (ha : isCharBoundary (a ++ m ++ c) a.length = true)
    (hb : isCharBoundary (a ++ m ++ c) (a.length + m.length) = true) :
    slice? (a ++ m ++ c) a.length (a.length + m.length) = some m := by
  unfold slice?
  rw [if_pos ⟨Nat.le_add_right _ _, by simp, ha, hb⟩]
  rw [show a.length + m.length = (a ++ m).length by simp, List.take_left, List.drop_left]

/-- Whatever the checks say, a slice that succeeds is the middle part. -/
theorem eq_of_slice?_middle {a m c x : Str}
    (h : slice? (a ++ m ++ c) a.length (a.length + m.length) = some x) : x = m := by
  unfold slice? at h
  split at h
  · cases h
    rw [show a.length + m.length = (a ++ m).length by simp, List.take_left, List.drop_left]
  · cases h

/-! ## Prefixes, searches, trimming

Each function of the library as it works on bytes, with what it says of the text in terms of concatenation. -/

/-- `str::strip_prefix`. -/
def stripPrefix? (p s : Str) : Option Str := if p <+: s then some (s.drop p.length) else none

/-- A prefix is removed, -/
theorem stripPrefix?_append (p s : Str) : stripPrefix? p (p ++ s) = some s := by
  unfold stripPrefix?
  rw [if_pos (List.prefix_append p s), List.drop_left]

/-- which says how the text began, -/
theorem stripPrefix?_eq_some {p s t : Str} : stripPrefix? p s = some t ↔ s = p ++ t := by
  constructor
  · unfold stripPrefix?
    split
    · rename_i h
      obtain ⟨u, rfl⟩ := h
      rw [List.drop_left]
      rintro ⟨⟩
      rfl
    · rintro ⟨⟩
  · rintro rfl
    exact stripPrefix?_append p t

/-- unless it is none. -/
theorem stripPrefix?_eq_none {p s : Str} : stripPrefix? p s = none ↔ ¬ p <+: s := by
  simp [stripPrefix?]

/-- `str::starts_with`. -/
def startsWith (s p : Str) : Bool := p.isPrefixOf s

/-- `str::ends_with` for one ASCII byte. -/
def endsWith (s : Str) (b : UInt8) : Bool := s.getLast? == some b

/-- `str::trim_end_matches` for one ASCII byte. -/
def trimEndMatches (b : UInt8) (s : Str) : Str := (s.reverse.dropWhile (· == b)).reverse

/-- ASCII white space as `str::trim` sees it. -/
def isSpace (b : UInt8) : Bool := b == 0x20 || (0x09 ≤ b && b ≤ 0x0D)

/-- `str::trim`, on ASCII text. -/
def trim (s : Str) : Str := ((s.dropWhile isSpace).reverse.dropWhile isSpace).reverse

/-- `str::contains` of a substring. -/
def contains (s needle : Str) : Bool := s.tails.any (fun t => needle.isPrefixOf t)

/-- A substring is an infix. -/
theorem contains_iff {s needle : Str} : contains s needle = true ↔ needle <:+: s := by
  simp only [contains, List.any_eq_true, List.mem_tails, List.isPrefixOf_iff_prefix,
    List.infix_iff_prefix_suffix, and_comm]

/-- `str::find` for one ASCII byte: the offset of its first occurrence. -/
def find (b : UInt8) (s : Str) : Option Nat := s.findIdx? (· == b)

/-- A found byte splits the text around its first occurrence. -/
theorem find_eq_some {b : UInt8} {s : Str} {i : Nat} (h : find b s = some i) :
    ∃ u t, s = u ++ b :: t ∧ u.length = i ∧ b ∉ u := by
  unfold find at h
  obtain ⟨hi, hb, hbefore⟩ := List.findIdx?_eq_some_iff_getElem.mp h
  refine ⟨s.take i, s.drop (i + 1), ?_, by simp; omega, ?_⟩
  · have hsi : s[i] = b := by simpa using hb
    rw [← hsi, List.cons_getElem_drop_succ, List.take_append_drop]
  · intro hmem
    obtain ⟨j, hj, hjb⟩ := List.mem_iff_getElem.mp hmem
    rw [List.length_take] at hj
    rw [List.getElem_take] at hjb
    have := hbefore j (by omega)
    simp [hjb] at this

/-- The first occurrence is found, -/
theorem find_append_cons {b : UInt8} {u t : Str} (hu : b ∉ u) : find b (u ++ b :: t) = some u.length := by
  unfold find
  rw [List.findIdx?_append, List.findIdx?_eq_none_iff.mpr]
  · simp [List.findIdx?_cons]
  · intro x hx
    simp only [beq_eq_false_iff_ne, ne_eq]
    rintro rfl
    exact hu hx

/-- unless there is none. -/
theorem find_eq_none {b : UInt8} {s : Str} : find b s = none ↔ b ∉ s := by
  unfold find
  rw [List.findIdx?_eq_none_iff]
  constructor
  · intro h hb
    have := h b hb
    simp at this
  · rintro h x hx
    simp only [beq_eq_false_iff_ne, ne_eq]
    rintro rfl
    exact h hx

end Text
end Lib
