import Apigate.Http
import Mathlib.Data.List.TakeWhile

/-!
# `Correctness.PathText` — how a text is read as path and query

The parser of `PathAndQuery` belongs to the `http` crate. What is known of it is what it makes of a text that
it accepts: everything from the first `#` on is dropped, the path ends at the first `?`, and what follows
that is the query.
-/

namespace Apigate
open Lib Text

/-- `#` -/
abbrev hash : UInt8 := 0x23

/-- The text up to the first `#`, cut at the first `?` of it. -/
def PathAndQuery.ofText (s : Str) : PathAndQuery :=
  let s := s.takeWhile (· != hash)
  ⟨s.takeWhile (· != questionMark), (find questionMark s).map fun i => s.drop (i + 1)⟩

/-- A text that the parser accepts is read as `PathAndQuery.ofText` says. -/
def Crates.ReadsText {V : Type} (crates : Crates V) : Prop :=
  ∀ s pq, crates.pathAndQuery s = .ok pq → pq = .ofText s

/-- A text without `#` that the parser accepts is kept as it is. -/
def Crates.KeepsText {V : Type} (crates : Crates V) : Prop :=
  ∀ s pq, hash ∉ s → crates.pathAndQuery s = .ok pq → pq = .ofText s

/-- A text from the root, without the part from `#` on. -/
def cuttingPathAndQuery (s : Str) : Except Str PathAndQuery :=
  if startsWith s (str "/") then .ok (.ofText s) else .error (str "invalid uri")

/-- `Crates.plain` with this parser. -/
def Crates.cutting : Crates Str :=
  { Crates.plain with
    pathAndQuery := cuttingPathAndQuery
    pathAndQueryFromStatic := fromStaticOf cuttingPathAndQuery
    fromStatic_ok := fromStaticOf_ok cuttingPathAndQuery }

theorem cutting_readsText : Crates.cutting.ReadsText := by
  intro s pq h
  unfold Crates.cutting cuttingPathAndQuery at h
  dsimp only at h
  split at h
  · exact (Except.ok.inj h).symm
  · cases h

theorem cutting_keepsText : Crates.cutting.KeepsText := fun s pq _ h => cutting_readsText s pq h

/-! ## Cutting -/

theorem bne_of_not_mem {b : UInt8} {u : Str} (hu : b ∉ u) : ∀ x ∈ u, (x != b) = true := by
  intro x hx
  apply bne_iff_ne.mpr
  rintro rfl
  exact hu hx

theorem takeWhile_ne_self {b : UInt8} {u : Str} (hu : b ∉ u) : u.takeWhile (· != b) = u :=
  List.takeWhile_eq_self_iff.mpr (bne_of_not_mem hu)

theorem takeWhile_ne_append {b : UInt8} {u : Str} (hu : b ∉ u) (t : Str) :
    (u ++ b :: t).takeWhile (· != b) = u := by
  rw [List.takeWhile_append_of_pos (bne_of_not_mem hu)]
  simp

/-- What follows a `#` is dropped. -/
theorem ofText_fragment {u : Str} (hu : hash ∉ u) (t : Str) :
    PathAndQuery.ofText (u ++ hash :: t) = .ofText u := by
  unfold PathAndQuery.ofText
  rw [takeWhile_ne_append hu, takeWhile_ne_self hu]

/-- A text without `?` is a path. -/
theorem ofText_path {u : Str} (hhash : hash ∉ u) (hmark : questionMark ∉ u) :
    PathAndQuery.ofText u = ⟨u, none⟩ := by
  unfold PathAndQuery.ofText
  dsimp only
  rw [takeWhile_ne_self hhash, takeWhile_ne_self hmark, find_eq_none.mpr hmark]
  rfl

/-- What follows the first `?` is the query. -/
theorem ofText_query {u q : Str} (hu : hash ∉ u) (hmark : questionMark ∉ u) (hq : hash ∉ q) :
    PathAndQuery.ofText (u ++ questionMark :: q) = ⟨u, some q⟩ := by
  have hhash : hash ∉ u ++ questionMark :: q := by
    simp only [List.mem_append, List.mem_cons, not_or]
    exact ⟨hu, by decide, hq⟩
  unfold PathAndQuery.ofText
  dsimp only
  rw [takeWhile_ne_self hhash, takeWhile_ne_append hmark, find_append_cons hmark]
  simp

/-! ## What a URI holds -/

/-- The four forms of a request target. -/
inductive Uri.InForm : Uri → Prop
  | origin (path : Str) (query : Option Str) : InForm ⟨none, none, some ⟨slash :: path, query⟩⟩
  | absolute (scheme authority : Str) (pq : PathAndQuery) : InForm ⟨some scheme, some authority, some pq⟩
  | authority (authority : Str) : InForm ⟨none, some authority, none⟩
  | asterisk : InForm ⟨none, none, some ⟨str "*", none⟩⟩

/-- What the parser leaves in a URI: a path without `?` and `#`, a query without `#`. -/
def Uri.WellFormed (uri : Uri) : Prop :=
  ∀ pq, uri.pathAndQuery = some pq →
    questionMark ∉ pq.path ∧ hash ∉ pq.path ∧ ∀ q, pq.query = some q → hash ∉ q

theorem Uri.WellFormed.path {uri : Uri} (h : uri.WellFormed) : questionMark ∉ uri.path ∧ hash ∉ uri.path := by
  unfold Uri.path
  cases hpq : uri.pathAndQuery with
  | none =>
      dsimp only
      split <;> decide
  | some pq =>
      dsimp only
      split
      · decide
      · exact ⟨(h pq hpq).1, (h pq hpq).2.1⟩

theorem Uri.WellFormed.query {uri : Uri} (h : uri.WellFormed) {q : Str} (hq : uri.query = some q) :
    hash ∉ q := by
  obtain ⟨pq, hpq, hquery⟩ := Option.bind_eq_some_iff.mp hq
  exact (h pq hpq).2.2 q hquery

end Apigate
