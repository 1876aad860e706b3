import Apigate.Lib.Text

/-!
# `Lib.MediaType` — the grammar of media types

A media type is a name, of which the letters may be of either case, and a list of parameters:

    parameters = *( OWS ";" OWS [ token "=" ( token / quoted-string ) ] )

The relation `Parameters` reads a text as such a list. `tchar` says which bytes a token is made of, and `lower`
gives the lower case of a byte.
-/

namespace Lib
namespace MediaType

open Text

/-! ## Parameters -/

/-- Optional white space. -/
def IsOws (s : Str) : Prop := ∀ b ∈ s, b = 0x20 ∨ b = 0x09

def IsToken (tchar : UInt8 → Bool) (s : Str) : Prop := s ≠ [] ∧ ∀ b ∈ s, tchar b = true

/-- A byte that stands for itself in a quoted string. -/
def IsQuotedText (b : UInt8) : Prop := b = 0x09 ∨ (0x20 ≤ b ∧ b ≠ 0x22 ∧ b ≠ 0x5C ∧ b ≠ 0x7F)

/-- A byte that may follow a backslash in a quoted string. -/
def IsQuotable (b : UInt8) : Prop := b = 0x09 ∨ (0x20 ≤ b ∧ b ≠ 0x7F)

/-- What stands between the quotes. -/
inductive QuotedBody : Str → Prop where
  | nil : QuotedBody []
  | text {b : UInt8} {s : Str} : IsQuotedText b → QuotedBody s → QuotedBody (b :: s)
  | pair {b : UInt8} {s : Str} : IsQuotable b → QuotedBody s → QuotedBody (0x5C :: b :: s)

inductive IsValue (tchar : UInt8 → Bool) : Str → Prop where
  | token {s : Str} : IsToken tchar s → IsValue tchar s
  | quoted {s : Str} : QuotedBody s → IsValue tchar (0x22 :: (s ++ [0x22]))

/-- The text is a list of parameters with these names and values. -/
inductive Parameters (tchar : UInt8 → Bool) : Str → List (Str × Str) → Prop where
  | nil : Parameters tchar [] []
  | blank {a b rest : Str} {ps : List (Str × Str)} : IsOws a → IsOws b → Parameters tchar rest ps →
      Parameters tchar (a ++ 0x3B :: (b ++ rest)) ps
  | param {a b name value rest : Str} {ps : List (Str × Str)} : IsOws a → IsOws b → IsToken tchar name →
      IsValue tchar value → Parameters tchar rest ps →
      Parameters tchar (a ++ 0x3B :: (b ++ name ++ 0x3D :: (value ++ rest))) ((name, value) :: ps)

section
variable {tchar : UInt8 → Bool} {s : Str} {ps : List (Str × Str)}

/-- A list of parameters is empty, or begins with white space or a semicolon. -/
theorem Parameters.head (h : Parameters tchar s ps) :
    s = [] ∨ ∃ b t, s = b :: t ∧ (b = 0x3B ∨ b = 0x20 ∨ b = 0x09) := by
  have hfront : ∀ {a t : Str}, IsOws a → ∃ b u, a ++ 0x3B :: t = b :: u ∧ (b = 0x3B ∨ b = 0x20 ∨ b = 0x09) := by
    intro a t ha
    cases a with
    | nil => exact ⟨_, _, rfl, Or.inl rfl⟩
    | cons b a => exact ⟨_, _, rfl, Or.inr (ha b List.mem_cons_self)⟩
  cases h with
  | nil => exact Or.inl rfl
  | blank ha _ _ => exact Or.inr (hfront ha)
  | param ha _ _ _ _ => exact Or.inr (hfront ha)

/-- The name of a parameter stands behind white space or a semicolon, and an equals sign follows it. -/
theorem Parameters.name_at (h : Parameters tchar s ps) {p : Str × Str} (hp : p ∈ ps) :
    ∃ before b after, s = before ++ b :: (p.1 ++ 0x3D :: after) ∧ (b = 0x3B ∨ b = 0x20 ∨ b = 0x09) := by
  induction h with
  | nil => cases hp
  | @blank a b rest ps _ _ _ ih =>
      obtain ⟨before, c, after, rfl, hc⟩ := ih hp
      exact ⟨a ++ 0x3B :: (b ++ before), c, after, by simp, hc⟩
  | @param a b name value rest ps _ hb _ _ _ ih =>
      rcases List.mem_cons.mp hp with rfl | hp
      · cases b using List.reverseRecOn with
        | nil => exact ⟨a, 0x3B, value ++ rest, by simp, Or.inl rfl⟩
        | append_singleton b c _ =>
            exact ⟨a ++ 0x3B :: b, c, value ++ rest, by simp, Or.inr (hb c (by simp))⟩
      · obtain ⟨before, c, after, rfl, hc⟩ := ih hp
        exact ⟨a ++ 0x3B :: (b ++ name ++ 0x3D :: (value ++ before)), c, after, by simp, hc⟩

end

/-! ## Media types -/

/-- What is asked of a media type: its name, in lower case, and a parameter that it must carry, if any. -/
structure Wanted where
  name : Str
  parameter : Option Str

section
variable (tchar : UInt8 → Bool) (lower : UInt8 → UInt8)

/-- The text is a list of parameters with the one that is asked for. -/
def Parameterised (wanted : Wanted) (rest : Str) : Prop :=
  ∃ ps, Parameters tchar rest ps ∧ ∀ name ∈ wanted.parameter, ∃ p ∈ ps, p.1.map lower = name

/-- The text is the media type that is asked for. -/
def IsMediaType (wanted : Wanted) (s : Str) : Prop :=
  ∃ name rest, s = name ++ rest ∧ name.map lower = wanted.name ∧ Parameterised tchar lower wanted rest

end

/-- Behind the name in lower case. -/
theorem isMediaType_append {tchar : UInt8 → Bool} {lower : UInt8 → UInt8} {wanted : Wanted}
    (hlower : wanted.name.map lower = wanted.name) {rest : Str} :
    IsMediaType tchar lower wanted (wanted.name ++ rest) ↔ Parameterised tchar lower wanted rest := by
  constructor
  · rintro ⟨name, rest', h, hname, hrest'⟩
    have hlength : wanted.name.length = name.length := by rw [← hname, List.length_map]
    obtain ⟨-, rfl⟩ := List.append_inj h hlength
    exact hrest'
  · intro hrest
    exact ⟨_, rest, rfl, hlower, hrest⟩

end MediaType
end Lib
