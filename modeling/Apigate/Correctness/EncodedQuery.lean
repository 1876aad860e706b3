import Apigate.PartsCtx
import Apigate.Correctness.PathText

/-!
# `Correctness.EncodedQuery` — `set_encoded_query` replaces the query and nothing else

The operation takes the URI out of the request before it rebuilds it, so a failure of the rebuild would leave
the default URI behind. The check that comes first leaves only combinations that `Uri::from_parts` accepts: the
operation either succeeds and changes the query only, or fails and changes nothing (`set_encoded_query_atomic`).

The rebuild is a function of three parts. It fails for a scheme without an authority, for an authority with a
path and no scheme, and for a scheme without a path; here a path is always given. A URI of a request has one of
four forms, and in three of them scheme and authority are both there or both missing, which the rebuild accepts.
The fourth has an authority only, and this is what the check is for (`replacePathAndQuery_setsQuery`).

Before that, path and query are written as one text and parsed. As the path of a request has neither `?` nor
`#`, and the new query has no `#`, they are read back as they were written (`ofText_encoded`), if the parser
takes them at all. That a second call changes nothing needs none of this: after a success the query is there
already, and after a failure it is the same call on the same head.
-/

namespace Apigate
open Lib Text

variable {V : Type}

/-- The query that an encoded text stands for: the empty one removes it. -/
def encodedQuery (encoded : Str) : Option Str := if encoded.isEmpty then none else some encoded

/-- What `set_encoded_query` may do to a request head. -/
structure SetsQuery (before : PartsCtx V) (encoded : Str)
    (outcome : Except ApigateError Unit × PartsCtx V) : Prop where
  /-- On success the query is the new one, and the rest of the URI is what it was. -/
  ok : outcome.1 = .ok () →
    outcome.2.parts.uri.query = encodedQuery encoded ∧
      outcome.2.parts.uri.scheme = before.parts.uri.scheme ∧
      outcome.2.parts.uri.authority = before.parts.uri.authority ∧
      outcome.2.parts.uri.path = before.parts.uri.path
  /-- On failure the URI is what it was. -/
  error : ∀ err, outcome.1 = .error err → outcome.2.parts.uri = before.parts.uri
  /-- Nothing else is touched. -/
  frame : outcome.2 = before.setUri outcome.2.parts.uri

/-! ## Its cases

Nothing is done, something fails, or a new URI is put together. -/

/-- An error that leaves the head as it is. -/
theorem SetsQuery.fails (ctx : PartsCtx V) (encoded : Str) (err : ApigateError) :
    SetsQuery ctx encoded (.error err, ctx) := ⟨fun h => (by cases h), fun _ _ => rfl, rfl⟩

/-- A query that is there already. -/
theorem SetsQuery.same {ctx : PartsCtx V} {encoded : Str} (h : ctx.parts.uri.query = encodedQuery encoded) :
    SetsQuery ctx encoded (.ok (), ctx) := ⟨fun _ => ⟨h, rfl, rfl, rfl⟩, fun _ h => (by cases h), rfl⟩

/-- A path is never empty where there is one. -/
theorem Uri.path_ne_nil {uri : Uri} {pq : PathAndQuery} (h : uri.pathAndQuery = some pq) : uri.path ≠ [] := by
  unfold Uri.path
  rw [h]
  dsimp only
  split
  · decide
  · rename_i hne
    simpa using hne

/-- Of the four forms only the authority form has no path, and it is the only one with an authority and no
    scheme. -/
theorem Uri.InForm.parts {uri : Uri} (h : uri.InForm) :
    (∃ pq, uri.pathAndQuery = some pq ∧ uri.scheme.isSome = uri.authority.isSome) ∨
      (uri.scheme.isSome = false ∧ uri.authority.isSome = true) := by
  cases h with
  | origin path query => exact Or.inl ⟨_, rfl, rfl⟩
  | absolute scheme authority pq => exact Or.inl ⟨_, rfl, rfl⟩
  | authority authority => exact Or.inr ⟨rfl, rfl⟩
  | asterisk => exact Or.inl ⟨_, rfl, rfl⟩

/-- The rebuilt URI. -/
theorem SetsQuery.rebuilt {ctx : PartsCtx V} {pq : PathAndQuery} (hpq : ctx.parts.uri.pathAndQuery = some pq)
    (encoded : Str) :
    SetsQuery ctx encoded (.ok (), ctx.setUri ⟨ctx.parts.uri.scheme, ctx.parts.uri.authority,
      some ⟨ctx.parts.uri.path, encodedQuery encoded⟩⟩) := by
  refine ⟨fun _ => ⟨rfl, rfl, rfl, ?_⟩, fun _ h => (by cases h), rfl⟩
  have hne := Uri.path_ne_nil hpq
  show (if ctx.parts.uri.path.isEmpty then str "/" else ctx.parts.uri.path) = ctx.parts.uri.path
  rw [if_neg (by simpa using hne)]

/-- **The check covers what the rebuild rejects.** -/
theorem replacePathAndQuery_setsQuery (crates : Crates V) {ctx : PartsCtx V} (hform : ctx.parts.uri.InForm)
    (encoded : Str) :
    SetsQuery ctx encoded (ctx.replacePathAndQuery crates ⟨ctx.parts.uri.path, encodedQuery encoded⟩) := by
  unfold PartsCtx.replacePathAndQuery
  rcases hform.parts with ⟨pq, hpq, hboth⟩ | ⟨hscheme, hauthority⟩
  · have hrebuilt := SetsQuery.rebuilt hpq encoded
    cases hscheme : ctx.parts.uri.scheme with
    | none =>
        rw [hscheme] at hboth hrebuilt
        obtain hauthority := Option.not_isSome_iff_eq_none.mp (by rw [← hboth]; simp)
        rw [hauthority] at hrebuilt ⊢
        exact hrebuilt
    | some scheme =>
        rw [hscheme] at hboth hrebuilt
        obtain ⟨authority, hauthority⟩ := Option.isSome_iff_exists.mp hboth.symm
        rw [hauthority] at hrebuilt ⊢
        exact hrebuilt
  · rw [hscheme, hauthority]
    exact SetsQuery.fails ctx encoded _

/-- The text that is parsed is read as the path and the new query. -/
theorem ofText_encoded {path encoded : Str} (hmark : questionMark ∉ path) (hhash : hash ∉ path)
    (hencoded : hash ∉ encoded) :
    PathAndQuery.ofText (if encoded.isEmpty then path else path ++ str "?" ++ encoded) =
      ⟨path, encodedQuery encoded⟩ := by
  unfold encodedQuery
  split
  · exact ofText_path hhash hmark
  · rw [List.append_assoc]
    exact ofText_query hhash hmark hencoded

/-- There is no `#` in this text. -/
theorem hash_not_mem_text {path encoded : Str} (hhash : hash ∉ path) (hencoded : hash ∉ encoded) :
    hash ∉ (if encoded.isEmpty then path else path ++ str "?" ++ encoded) := by
  split
  · exact hhash
  · simp only [List.mem_append, not_or]
    exact ⟨⟨hhash, by decide⟩, hencoded⟩

/-- The fast path: the query is already the new one. -/
theorem fast_path_iff (query : Option Str) (encoded : Str) :
    ((encoded.isEmpty && query.isNone) || (!encoded.isEmpty && query == some encoded)) = true ↔
      query = encodedQuery encoded := by
  unfold encodedQuery
  cases hempty : encoded.isEmpty with
  | true => simp
  | false => simp

/-- **What `set_encoded_query` does.** By cases as in the source: the fast path, the root path without a query,
    and the text that is parsed. -/
theorem setEncodedQuery_setsQuery {crates : Crates V} (hkeeps : crates.KeepsText) {ctx : PartsCtx V}
    (hform : ctx.parts.uri.InForm) (huri : ctx.parts.uri.WellFormed) {encoded : Str}
    (hencoded : hash ∉ encoded) : SetsQuery ctx encoded (ctx.setEncodedQuery crates encoded) := by
  unfold PartsCtx.setEncodedQuery
  dsimp only
  split
  · rename_i hfast
    exact SetsQuery.same ((fast_path_iff _ _).mp hfast)
  · split
    · rename_i hroot
      -- the root path is not parsed
      obtain ⟨hempty, hpath⟩ := Bool.and_eq_true_iff.mp hroot
      have hreplaced := replacePathAndQuery_setsQuery crates hform encoded
      rw [beq_iff_eq.mp hpath, encodedQuery, if_pos hempty] at hreplaced
      exact hreplaced
    · cases hparse : crates.pathAndQuery
        (if encoded.isEmpty then ctx.parts.uri.path else ctx.parts.uri.path ++ str "?" ++ encoded) with
      | error err => exact SetsQuery.fails ctx encoded _
      | ok pq =>
          have hread := hkeeps _ pq (hash_not_mem_text huri.path.2 hencoded) hparse
          rw [ofText_encoded huri.path.1 huri.path.2 hencoded] at hread
          rw [hread]
          exact replacePathAndQuery_setsQuery crates hform encoded

/-- A query that is already there is not set again. -/
theorem setEncodedQuery_of_query (crates : Crates V) {ctx : PartsCtx V} {encoded : Str}
    (h : ctx.parts.uri.query = encodedQuery encoded) : ctx.setEncodedQuery crates encoded = (.ok (), ctx) := by
  unfold PartsCtx.setEncodedQuery
  dsimp only
  rw [if_pos ((fast_path_iff _ _).mpr h)]

/-! ## The main result -/

/-- **`set_encoded_query` replaces the query and nothing else, or changes nothing**, and calling it twice is
    calling it once. -/
theorem set_encoded_query_atomic {crates : Crates V} (hkeeps : crates.KeepsText) {ctx : PartsCtx V}
    (hform : ctx.parts.uri.InForm) (huri : ctx.parts.uri.WellFormed) {encoded : Str}
    (hencoded : hash ∉ encoded) :
    SetsQuery ctx encoded (ctx.setEncodedQuery crates encoded) ∧
      (ctx.setEncodedQuery crates encoded).2.setEncodedQuery crates encoded =
        ctx.setEncodedQuery crates encoded := by
  have hsets := setEncodedQuery_setsQuery hkeeps hform huri hencoded
  refine ⟨hsets, ?_⟩
  cases houtcome : ctx.setEncodedQuery crates encoded with
  | mk result after =>
      rw [houtcome] at hsets
      cases result with
      | ok u => exact setEncodedQuery_of_query crates (hsets.ok rfl).1
      | error err =>
          -- the same call on the same head
          have hunchanged : after.parts.uri = ctx.parts.uri := hsets.error err rfl
          have hsame : after = ctx := by
            calc after = ctx.setUri after.parts.uri := hsets.frame
              _ = ctx.setUri ctx.parts.uri := by rw [hunchanged]
              _ = ctx := rfl
          rw [hsame] at houtcome ⊢
          exact houtcome

/-! ## Example -/

/-- `/items?q=1` as a hook sees it. -/
def itemsCtx : PartsCtx Str :=
  ⟨str "sales", str "/items",
    ⟨str "GET", ⟨none, none, some ⟨str "/items", some (str "q=1")⟩⟩, str "HTTP/1.1", .empty, .empty⟩⟩

/-- The head has a path without `?` and `#`. -/
theorem itemsCtx_wellFormed : itemsCtx.parts.uri.WellFormed := by
  rintro pq ⟨⟩
  refine ⟨by decide, by decide, ?_⟩
  rintro q ⟨⟩
  decide

/-- The theorem at this head and the query `page=2`. -/
theorem set_encoded_query_atomic_items :
    SetsQuery itemsCtx (str "page=2") (itemsCtx.setEncodedQuery .cutting (str "page=2")) ∧
      (itemsCtx.setEncodedQuery .cutting (str "page=2")).2.setEncodedQuery .cutting (str "page=2") =
        itemsCtx.setEncodedQuery .cutting (str "page=2") :=
  set_encoded_query_atomic cutting_keepsText (.origin (str "items") (some (str "q=1"))) itemsCtx_wellFormed
    (by decide)

end Apigate
