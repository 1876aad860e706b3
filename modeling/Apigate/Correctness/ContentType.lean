import Apigate.Correctness.ClientHop
import Apigate.Macros.Codegen
import Apigate.Lib.MediaType

/-!
# `Correctness.ContentType` — what the `Content-Type` guards let through

A guard takes a text that begins with the media type and, for `multipart`, holds `boundary=` somewhere. The
media type that is meant is another set of texts: the guard agrees with it exactly where it does not misjudge
the header, in one of four ways (`content_type_guards_exact_iff`).

The two guards are one function of the source with other texts, so they are one structure here, `TypeGuard`, and
what the proofs need of the texts are its fields: the name is not empty, it is in lower case, and the error is a
415.

What is meant is `Wants`, by the grammar of media types in `Lib.MediaType`: the name in any case, and behind it
a list of parameters with the one that is asked for. What the code does is `Takes`. A header that only one of
the two accepts is found by asking where they can part. If the guard takes the value, it begins with the name,
and what follows must fail to be such a list (`tail`). If the media type is there and the guard refuses, it is
because of the name (`capitals`), because the value is no visible text, which a quoted string allows
(`undecodable`), or because of the needle (`needle`). The rest is that the guard stands at the front of its
phase.
-/

namespace Apigate
open Lib Text MediaType Pipe

variable {V : Type}

/-! ## The two guards

The code, by its condition: the rest runs, or the guard's error ends the pipeline. -/

/-- What a generated guard asks for: a media type, a text that must occur in the value, and its error. -/
structure TypeGuard where
  wanted : Wanted
  needle : Option Str
  error : ApigatePipelineError
  nonEmpty : wanted.name ≠ []
  lowerCase : wanted.name.map HeaderName.lowerByte = wanted.name
  unsupported : error.statusCode = 415

def formGuard : TypeGuard where
  wanted := ⟨str "application/x-www-form-urlencoded", none⟩
  needle := none
  error := .expectedFormUrlEncoded
  nonEmpty := by decide
  lowerCase := by decide
  unsupported := rfl

def multipartGuard : TypeGuard where
  wanted := ⟨str "multipart/form-data", some (str "boundary")⟩
  needle := some (str "boundary=")
  error := .expectedMultipartFormData
  nonEmpty := by decide
  lowerCase := by decide
  unsupported := rfl

namespace TypeGuard

variable (g : TypeGuard)

/-- The code of the guard. -/
def run : Pipe V Unit := contentTypeGuard g.wanted.name g.needle g.error

/-- The parameters that the guard asks for. -/
def Parameterised (rest : Str) : Prop :=
  MediaType.Parameterised HeaderName.isTokenByte HeaderName.lowerByte g.wanted rest

/-- The request has the media type that is meant. -/
def Wants (headers : HeaderMap) : Prop :=
  ∃ v, headers.get? .contentType = some v ∧
    IsMediaType HeaderName.isTokenByte HeaderName.lowerByte g.wanted v

/-- The value is visible text. -/
def Visible (v : HeaderValue) : Prop := HeaderValue.toStr v = some v

/-- The request has a value that the guard takes. -/
def Takes (headers : HeaderMap) : Prop :=
  ∃ v, headers.get? .contentType = some v ∧ Visible v ∧ g.wanted.name <+: v ∧ ∀ needle ∈ g.needle, needle <:+: v

/-- The condition of the code. -/
theorem takes_iff (headers : HeaderMap) :
    (!startsWith (((headers.get? .contentType).bind HeaderValue.toStr).getD []) g.wanted.name ||
      g.needle.any fun needle =>
        !contains (((headers.get? .contentType).bind HeaderValue.toStr).getD []) needle) = true ↔
      ¬ g.Takes headers := by
  have hnil : ¬ g.wanted.name <+: [] := fun h => g.nonEmpty (List.prefix_nil.mp h)
  rw [← Bool.not_eq_false, not_iff_not, Bool.or_eq_false_iff, Bool.not_eq_false']
  unfold Takes startsWith
  cases hv : headers.get? .contentType with
  | none => simp [hnil]
  | some v =>
      cases hs : HeaderValue.toStr v with
      | none =>
          have hvisible : ¬ Visible v := by simp [Visible, hs]
          simp [hs, hnil, hvisible]
      | some s =>
          obtain rfl := HeaderValue.eq_of_toStr hs
          have hvisible : Visible s := hs
          have hneedle : (g.needle.any fun needle => !contains s needle) = false ↔
              ∀ needle ∈ g.needle, needle <:+: s := by
            cases g.needle with
            | none => simp
            | some needle => simp [contains_iff]
          simp [hs, hvisible, hneedle]

/-- A guard that takes the value lets the rest run. -/
theorem run_of_takes {env : Env V} (h : g.Takes env.ctx.parts.headers) :
    g.run env = ⟨.ok (), env, [.stage .contentType none]⟩ := by
  have hpass := mt (g.takes_iff env.ctx.parts.headers).mp (not_not.mpr h)
  simp only [run, contentTypeGuard, Pipe.stage, Prog.stage, Prog.lift, if_neg hpass]
  rfl

/-- One that does not stops with its error, and has changed nothing. -/
theorem run_of_not_takes {env : Env V} (h : ¬ g.Takes env.ctx.parts.headers) :
    g.run env = ⟨.error (.ofPipeline g.error), env, [.stage .contentType (some (.ofPipeline g.error))]⟩ := by
  have hstop := (g.takes_iff env.ctx.parts.headers).mpr h
  simp only [run, contentTypeGuard, Pipe.stage, Prog.stage, Prog.lift, if_pos hstop]
  rfl

/-! ## Where guard and media type part

Both are conditions on one value, so that they can be compared behind the name. -/

/-- How a guard misjudges a header. -/
inductive Misjudges (headers : HeaderMap) : Prop where
  /-- Visible text goes on behind the name, and holds the needle, but is no list of parameters with the one that
      is asked for. -/
  | tail {rest : Str} : headers.get? .contentType = some (g.wanted.name ++ rest) → Visible (g.wanted.name ++ rest) →
      (∀ needle ∈ g.needle, needle <:+: g.wanted.name ++ rest) → ¬ g.Parameterised rest → Misjudges headers
  /-- The name is written with capital letters. -/
  | capitals {name rest : Str} : headers.get? .contentType = some (name ++ rest) → name ≠ g.wanted.name →
      name.map HeaderName.lowerByte = g.wanted.name → g.Parameterised rest → Misjudges headers
  /-- A quoted string of the parameters has bytes that are no visible text. -/
  | undecodable {rest : Str} : headers.get? .contentType = some (g.wanted.name ++ rest) → g.Parameterised rest →
      ¬ Visible (g.wanted.name ++ rest) → Misjudges headers
  /-- The name of the parameter is written with capital letters, so the needle does not occur. -/
  | needle {needle rest : Str} : headers.get? .contentType = some (g.wanted.name ++ rest) → g.Parameterised rest →
      needle ∈ g.needle → ¬ needle <:+: g.wanted.name ++ rest → Misjudges headers

/-- A value that begins with the name, seen by the guard, -/
theorem takes_append {headers : HeaderMap} {rest : Str}
    (h : headers.get? .contentType = some (g.wanted.name ++ rest)) :
    g.Takes headers ↔
      Visible (g.wanted.name ++ rest) ∧ ∀ needle ∈ g.needle, needle <:+: g.wanted.name ++ rest := by
  simp only [Takes, h, Option.some.injEq, exists_eq_left', List.prefix_append, true_and]

/-- and by the grammar. -/
theorem wants_append {headers : HeaderMap} {rest : Str}
    (h : headers.get? .contentType = some (g.wanted.name ++ rest)) : g.Wants headers ↔ g.Parameterised rest := by
  simp only [Wants, h, Option.some.injEq, exists_eq_left', isMediaType_append g.lowerCase]
  rfl

/-- **Guard and media type agree** except where the guard misjudges the header. -/
theorem takes_iff_wants (headers : HeaderMap) : (g.Takes headers ↔ g.Wants headers) ↔ ¬ g.Misjudges headers := by
  constructor
  · intro hagree hmisjudges
    cases hmisjudges with
    | tail hv hvisible hneedle hrest =>
        exact hrest ((g.wants_append hv).mp (hagree.mp ((g.takes_append hv).mpr ⟨hvisible, hneedle⟩)))
    | @capitals name rest hv hname hlower hrest =>
        obtain ⟨v, hv', -, hprefix, -⟩ := hagree.mpr ⟨_, hv, name, rest, rfl, hlower, hrest⟩
        obtain rfl := Option.some.inj (hv.symm.trans hv')
        have hlength : g.wanted.name.length = name.length := by rw [← hlower, List.length_map]
        obtain ⟨rest', h⟩ := hprefix
        exact hname (List.append_inj h hlength).1.symm
    | undecodable hv hrest hvisible =>
        exact hvisible ((g.takes_append hv).mp (hagree.mpr ((g.wants_append hv).mpr hrest))).1
    | needle hv hrest hneedle hmissing =>
        exact hmissing (((g.takes_append hv).mp (hagree.mpr ((g.wants_append hv).mpr hrest))).2 _ hneedle)
  · intro hright
    constructor
    · rintro ⟨v, hv, hvisible, ⟨rest, rfl⟩, hneedle⟩
      by_contra hwants
      exact hright (.tail hv hvisible hneedle (mt (g.wants_append hv).mpr hwants))
    · rintro ⟨v, hv, name, rest, rfl, hlower, hrest⟩
      by_cases hname : name = g.wanted.name
      · subst hname
        refine (g.takes_append hv).mpr ⟨?_, ?_⟩
        · by_contra hvisible
          exact hright (.undecodable hv hrest hvisible)
        · intro needle hneedle
          by_contra hmissing
          exact hright (.needle hv hrest hneedle hmissing)
      · exact absurd (.capitals hv hname hlower hrest) hright

/-! ## Guarded phases

From the condition to the phase that it guards. -/

/-- A phase that goes on with `rest` if and only if the request has the media type that is meant, and else stops
    with 415, the body unread. -/
structure GuardsExactly (phase rest : Pipe V Body) (env : Env V) : Prop where
  passes : g.Wants env.ctx.parts.headers →
    phase env = { rest env with trace := .stage .contentType none :: (rest env).trace }
  rejects : ¬ g.Wants env.ctx.parts.headers →
    phase env = ⟨.error (.ofPipeline g.error), env, [.stage .contentType (some (.ofPipeline g.error))]⟩ ∧
      (ApigateError.ofPipeline g.error).statusCodeForLog = 415

/-- A guard in front of a phase is exact where it does not misjudge the header. -/
theorem guardsExactly_iff (rest : Pipe V Body) (env : Env V) :
    g.GuardsExactly (g.run >>= fun _ => rest) rest env ↔ ¬ g.Misjudges env.ctx.parts.headers := by
  rw [← takes_iff_wants]
  have hpasses : g.Takes env.ctx.parts.headers → (g.run >>= fun _ => rest) env =
      { rest env with trace := .stage .contentType none :: (rest env).trace } := by
    intro htakes
    have hrun := g.run_of_takes htakes
    rw [Prog.bind_of_ok (a := ()) (by rw [hrun]), hrun]
    rfl
  have hstops : ¬ g.Takes env.ctx.parts.headers → (g.run >>= fun _ => rest) env =
      ⟨.error (.ofPipeline g.error), env, [.stage .contentType (some (.ofPipeline g.error))]⟩ := by
    intro htakes
    have hrun := g.run_of_not_takes htakes
    rw [Prog.bind_of_error (e := .ofPipeline g.error) (by rw [hrun]), hrun]
  constructor
  · intro hexact
    constructor
    · intro htakes
      by_contra hwants
      have htrace := congrArg Outcome.trace ((hpasses htakes).symm.trans (hexact.rejects hwants).1)
      cases htrace
    · intro hwants
      by_contra htakes
      have htrace := congrArg Outcome.trace ((hstops htakes).symm.trans (hexact.passes hwants))
      cases htrace
  · intro hagree
    refine ⟨fun hwants => hpasses (hagree.mpr hwants), fun hwants => ⟨hstops (mt hagree.mp hwants), ?_⟩⟩
    exact g.unsupported

end TypeGuard

/-! ## The main result -/

/-- **The guards let exactly the right media types through, except for those they misjudge.** For every request
    and every form route that takes its data from the body, and for every multipart route with a map: the
    guarded phase goes on if and only if the request has the media type that is meant, and stops with 415 and
    the body unread otherwise, if and only if the guard does not misjudge the header. -/
theorem content_type_guards_exact_iff (crates : Crates V) (env : Env V) :
    (∀ (ty : TypeId) (mapFn : Option (MapFn V)) (kind : Method), kind.bodyInQuery = false →
      (formGuard.GuardsExactly (bodyPhase crates (.form ty) mapFn kind.bodyInQuery)
          (formPostBranch crates ty mapFn) env ↔
        ¬ formGuard.Misjudges env.ctx.parts.headers)) ∧
    ∀ (m : MapFn V) (bodyInQuery : Bool),
      (multipartGuard.GuardsExactly (bodyPhase crates .multipart (some m) bodyInQuery)
          (noneMapPhase crates m false) env ↔
        ¬ multipartGuard.Misjudges env.ctx.parts.headers) := by
  constructor
  · intro ty mapFn kind hkind
    rw [← TypeGuard.guardsExactly_iff formGuard (formPostBranch crates ty mapFn), hkind]
    cases mapFn <;> rfl
  · intro m bodyInQuery
    rw [← TypeGuard.guardsExactly_iff multipartGuard (noneMapPhase crates m false)]
    rfl

/-! ## Examples -/

/-- A request with this `Content-Type`, before the body phase. -/
def uploadEnv (contentType : HeaderValue) : Env Str :=
  ⟨⟨str "files", str "/upload", { originParts with headers := MultiMap.empty.insert .contentType contentType }⟩,
    .new .empty (.ofBytes (str "x")) 64⟩

/-- The theorem at a `post` route. -/
theorem content_type_guards_exact_iff_post :
    formGuard.GuardsExactly (bodyPhase .plain (.form 0) none Method.post.bodyInQuery)
        (formPostBranch .plain 0 none) (uploadEnv (str "application/x-www-form-urlencoded")) ↔
      ¬ formGuard.Misjudges (MultiMap.empty.insert .contentType (str "application/x-www-form-urlencoded")) :=
  (content_type_guards_exact_iff .plain _).1 0 none .post rfl

/-- A map that keeps the body. -/
def keepMap : MapFn Str := fun _ _ _ => ([], .ok .keep)

/-- **A parameter that only looks like a boundary** is let through, and so is a longer type; a type in capital
    letters is not. -/
theorem look_alike_boundary_passes :
    ¬ multipartGuard.GuardsExactly (bodyPhase .plain .multipart (some keepMap) false)
        (noneMapPhase .plain keepMap false) (uploadEnv (str "multipart/form-data; x-boundary=1")) ∧
      ¬ formGuard.GuardsExactly (bodyPhase .plain (.form 0) none false) (formPostBranch .plain 0 none)
        (uploadEnv (str "application/x-www-form-urlencoded2")) ∧
      ¬ formGuard.GuardsExactly (bodyPhase .plain (.form 0) none false) (formPostBranch .plain 0 none)
        (uploadEnv (str "Application/X-WWW-Form-Urlencoded")) := by
  refine ⟨fun h => ?_, fun h => ?_, fun h => ?_⟩
  · refine (multipartGuard.guardsExactly_iff _ _).mp h
      (@TypeGuard.Misjudges.tail _ _ (str "; x-boundary=1") rfl rfl ?_ ?_)
    · intro needle hneedle
      obtain rfl := Option.some.inj hneedle
      exact ⟨str "multipart/form-data; x-", str "1", by decide⟩
    · rintro ⟨ps, hps, hboundary⟩
      obtain ⟨p, hp, hname⟩ := hboundary _ rfl
      obtain ⟨before, b, after, hrest, hb⟩ := hps.name_at hp
      -- no eight letters behind a semicolon or a blank are `boundary`
      have hnone : ∀ t ∈ (str "; x-boundary=1").tails, ((t.drop 1).take 8).map HeaderName.lowerByte = str "boundary" →
          t.head? ≠ some 0x3B ∧ t.head? ≠ some 0x20 ∧ t.head? ≠ some 0x09 := by
        decide +kernel
      have hlength : p.1.length = 8 := by rw [← List.length_map HeaderName.lowerByte, hname]; rfl
      have hsuffix : b :: (p.1 ++ 0x3D :: after) ∈ (str "; x-boundary=1").tails :=
        (List.mem_tails _ _).mpr ⟨before, hrest.symm⟩
      have hhead := hnone _ hsuffix (by rw [List.drop_one, List.tail_cons, ← hlength, List.take_left, hname])
      simp only [List.head?_cons, ne_eq, Option.some.injEq] at hhead
      rcases hb with hb | hb | hb
      · exact hhead.1 hb
      · exact hhead.2.1 hb
      · exact hhead.2.2 hb
  · refine (formGuard.guardsExactly_iff _ _).mp h
      (@TypeGuard.Misjudges.tail _ _ (str "2") rfl rfl (by simp [formGuard]) ?_)
    rintro ⟨ps, hps, -⟩
    rcases hps.head with hnil | ⟨b, t, hrest, hb⟩
    · cases hnil
    · obtain rfl : b = 0x32 := (List.cons.inj hrest).1.symm
      revert hb
      decide
  · refine (formGuard.guardsExactly_iff _ _).mp h
      (@TypeGuard.Misjudges.capitals _ _ (str "Application/X-WWW-Form-Urlencoded") [] rfl (by decide) (by decide) ?_)
    exact ⟨[], .nil, fun name hname => by cases hname⟩

end Apigate
