import Apigate.Lib.Slots
import Apigate.Macros.Attributes

/-!
# `Correctness.AttributeGrammar` — what the attributes of routes and services accept

The grammar of the arguments, apart from the parsers: phrases for the arguments, each of which is for one slot.
The parsers accept exactly the lists of arguments for different slots, in any order, and say of another list
which of its arguments is the first that is wrong.

There are two questions about a list of arguments, and they are separated here as they are in the source: how
one argument and the commas are read, and what becomes of the arguments that were read.

* Reading. `reads_parse` says of the parser of one argument which phrases it reads, and the loops of
  `Lib.TokenReader` make a list of it. The keys are compared with string literals one after the other, so the
  proofs go through the chain of comparisons once (`assigned_sound`) and treat what stands behind a key the same
  way for all keys (`phrase_of_map`, `complete_of_map`).
* Entering. A builder with its fields is a table of slots, and `apply` enters an argument in that table
  (`isBuilder`). From there `Lib.Slots` says that a list is entered whole if and only if the slots differ, what
  the table then holds, and that otherwise the first argument for a taken slot is refused.

The order in which the two questions are asked differs. A route attribute enters each argument as soon as it is
read, so its errors come in the order of the tokens; a service attribute reads all arguments first, and an
argument that cannot be read hides a duplicate in front of it. The two theorems about errors say so.

How paths and types are read is `syn`'s business: `Grammar` takes it as a parameter, with what it is relied on
for, and `identGrammar` at the end is one that satisfies it.
-/

namespace Apigate
open Lib TokenReader Slots Syn

/-! ## Tokens

The parsers of single tokens, each with the one token it reads; a token cannot be read in part, so anything may
follow. -/

section
variable {rest : List Token}

/-- An identifier, which is not a keyword. -/
theorem reads_parseIdent :
    Reads parseIdent (fun key w => w = [.ident key]) fun _ => True :=
  (Reads.token _ _).congr (fun key w => by
    constructor
    · rintro ⟨t, rfl, ht⟩
      cases t <;> cases ht
      rfl
    · rintro rfl
      exact ⟨_, rfl, rfl⟩) fun _ h => h

theorem reads_parseLitStr : Reads parseLitStr (fun value w => w = [.litStr value]) fun _ => True :=
  (Reads.token _ _).congr (fun value w => by
    constructor
    · rintro ⟨t, rfl, ht⟩
      cases t <;> cases ht
      rfl
    · rintro rfl
      exact ⟨_, rfl, rfl⟩) fun _ h => h

theorem reads_bracketed : Reads bracketed (fun content w => w = [.group .bracket content]) fun _ => True :=
  (Reads.token _ _).congr (fun content w => by
    constructor
    · rintro ⟨t, rfl, ht⟩
      cases t with
      | group delimiter tokens =>
          cases delimiter <;> cases ht
          rfl
      | _ => cases ht
    · rintro rfl
      exact ⟨_, rfl, rfl⟩) fun _ h => h

theorem reads_parseEq : Reads parseEq (fun _ w => w = [.punct '=']) fun _ => True :=
  (Reads.token _ _).congr (fun value w => by
    constructor
    · rintro ⟨t, rfl, ht⟩
      cases t with
      | punct c =>
          split at ht
          · next heq =>
              cases heq
              rfl
          · cases ht
      | _ => cases ht
    · rintro rfl
      exact ⟨_, rfl, rfl⟩) fun _ h => h

/-- What is assigned stands behind `=`. -/
theorem reads_parseAssigned {α : Type} {p : Parse α} {L : α → List Token → Prop} {F : List Token → Prop}
    (hp : Reads p L F) : Reads (parseAssigned p) (fun a w => ∃ v, w = .punct '=' :: v ∧ L a v) F :=
  (reads_parseEq.bind (fun _ => hp) fun _ _ _ _ _ _ => trivial).congr (fun a w => by
    constructor
    · rintro ⟨-, u, v, rfl, rfl, hv⟩
      exact ⟨v, rfl, hv⟩
    · rintro ⟨v, rfl, hv⟩
      exact ⟨(), [.punct '='], v, rfl, rfl, hv⟩) fun _ h => h

/-- What a comma or the end may follow. -/
abbrev EndsArgument : List Token → Prop := Ends Token.isComma

/-- A list that is read to its end. The loop has the length of the stream for its fuel, and no phrase is empty,
    so it never runs out. -/
theorem parseTerminated_ok_iff {α : Type} {p : Parse α} {L : α → List Token → Prop} (hp : Reads p L EndsArgument)
    (hne : ∀ {a}, ¬ L a []) {ts : List Token} {as : List α} :
    parseTerminated p ts = .ok as ↔ Terminated Token.isComma L as ts := by
  unfold parseTerminated
  rw [terminated_ok_iff hp hne (Nat.le_refl _)]
  constructor
  · rintro ⟨as', rfl, h⟩
    exact h
  · intro h
    exact ⟨as, rfl, h⟩

variable (g : Grammar)

/-- A list of paths in brackets. -/
def PathsPhrase (paths : List Path) (w : List Token) : Prop :=
  ∃ content, w = [.group .bracket content] ∧ Terminated Token.isComma g.PathPhrase paths content

/-- The paths in brackets. The brackets are one token with a stream of their own inside, which is read to its
    end; behind the closing bracket anything may follow. -/
theorem reads_parseBracketedPaths : Reads (parseBracketedPaths g) (PathsPhrase g) fun _ => True := by
  constructor
  · intro ts paths rest h
    unfold parseBracketedPaths at h
    cases hcontent : bracketed ts with
    | error e =>
        rw [hcontent] at h
        cases h
    | ok r =>
        obtain ⟨content, rest'⟩ := r
        rw [hcontent] at h
        obtain ⟨w, rfl, rfl⟩ := reads_bracketed.sound hcontent
        cases hpaths : parseTerminated g.parsePath content with
        | error e =>
            change (do let paths ← parseTerminated g.parsePath content; _) = _ at h
            rw [hpaths] at h
            cases h
        | ok paths' =>
            change (do let paths ← parseTerminated g.parsePath content; _) = _ at h
            rw [hpaths] at h
            cases h
            exact ⟨_, rfl, content, rfl, (parseTerminated_ok_iff g.path_reads g.path_nonempty).mp hpaths⟩
  · rintro paths w rest ⟨content, rfl, hpaths⟩ -
    unfold parseBracketedPaths
    rw [reads_bracketed.complete rfl trivial]
    change (do let paths ← parseTerminated g.parsePath content; _) = _
    rw [(parseTerminated_ok_iff g.path_reads g.path_nonempty).mpr hpaths]
    rfl

end

/-! ## Arguments of a route -/

namespace Attr

/-- What a route argument is for. -/
inductive Slot where
  | target
  | policy
  | before
  | map
  | query
  | data
  | path
  deriving DecidableEq

namespace RouteArg

/-- The three kinds of data are for one slot. -/
def slot : RouteArg → Slot
  | target _ => .target
  | policy _ => .policy
  | before _ => .before
  | map _ => .map
  | query _ => .query
  | json _ | form _ | flag _ => .data
  | pathType _ => .path

/-- How an argument may be written. -/
inductive Phrase (g : Grammar) : RouteArg → List Token → Prop where
  | target (v : Str) : Phrase g (.target v) [.ident (str "to"), .punct '=', .litStr v]
  | policy (v : Str) : Phrase g (.policy v) [.ident (str "policy"), .punct '=', .litStr v]
  | before {v : List Path} {w : List Token} :
      PathsPhrase g v w → Phrase g (.before v) (.ident (str "before") :: .punct '=' :: w)
  | map {v : Path} {w : List Token} : g.PathPhrase v w → Phrase g (.map v) (.ident (str "map") :: .punct '=' :: w)
  | query {v : Ty} {w : List Token} : g.TypePhrase v w → Phrase g (.query v) (.ident (str "query") :: .punct '=' :: w)
  | json {v : Ty} {w : List Token} : g.TypePhrase v w → Phrase g (.json v) (.ident (str "json") :: .punct '=' :: w)
  | form {v : Ty} {w : List Token} : g.TypePhrase v w → Phrase g (.form v) (.ident (str "form") :: .punct '=' :: w)
  | pathType {v : Ty} {w : List Token} :
      g.TypePhrase v w → Phrase g (.pathType v) (.ident (str "path") :: .punct '=' :: w)
  | multipart : Phrase g (.flag .multipart) [.ident (str "multipart")]

variable {g : Grammar}

theorem Phrase.nonempty {arg : RouteArg} : ¬ Phrase g arg [] := by
  intro h
  cases h

/-- What a value is read from, if what is read from it is a phrase of the key. -/
theorem phrase_of_map {α : Type} {p : Parse α} {L : α → List Token → Prop} {F : List Token → Prop} (hp : Reads p L F)
    {f : α → RouteArg} {key : Str} (hf : ∀ {a w}, L a w → Phrase g (f a) (.ident key :: .punct '=' :: w))
    {ts rest : List Token} {arg : RouteArg} (h : TokenReader.map f (parseAssigned p) ts = .ok (arg, rest)) :
    ∃ w, ts = w ++ rest ∧ Phrase g arg (.ident key :: w) := by
  obtain ⟨w, rfl, a, ⟨v, rfl, hv⟩, rfl⟩ := ((reads_parseAssigned hp).map f).sound h
  exact ⟨_, rfl, hf hv⟩

/-- A value behind a known key. By cases on the key, in the order in which the source compares it; under each of
    the eight keys the value is read by `parseAssigned`, and `phrase_of_map` does the rest. -/
theorem assigned_sound {key : Str} {value : Parse RouteArg} (hvalue : assigned g key = some value)
    {ts rest : List Token} {arg : RouteArg} (h : value ts = .ok (arg, rest)) :
    ∃ w, ts = w ++ rest ∧ Phrase g arg (.ident key :: w) := by
  unfold assigned at hvalue
  split_ifs at hvalue with h₁ h₂ h₃ h₄ h₅ h₆ h₇ h₈
  all_goals
    subst key
    obtain rfl := Option.some.inj hvalue
  · exact phrase_of_map reads_parseLitStr (fun hv => hv ▸ .target _) h
  · exact phrase_of_map reads_parseLitStr (fun hv => hv ▸ .policy _) h
  · exact phrase_of_map (reads_parseBracketedPaths g) .before h
  · exact phrase_of_map g.path_reads .map h
  · exact phrase_of_map g.type_reads .query h
  · exact phrase_of_map g.type_reads .json h
  · exact phrase_of_map g.type_reads .form h
  · exact phrase_of_map g.type_reads .pathType h

/-- Behind a known key and `=`, the parser of an argument is the parser of its value. -/
theorem parse_of_assigned {key : Str} {value : Parse RouteArg} (hvalue : assigned g key = some value)
    (ts : List Token) : RouteArg.parse g (.ident key :: .punct '=' :: ts) = value (.punct '=' :: ts) := by
  have hident : parseIdent (.ident key :: .punct '=' :: ts) = .ok (key, .punct '=' :: ts) := rfl
  simp [RouteArg.parse, hident, Bind.bind, Except.bind, peekEq, hvalue]

/-- A phrase of the value is read behind a known key and `=`: the converse of `phrase_of_map`, for any of the
    keys. -/
theorem complete_of_map {α : Type} {p : Parse α} {L : α → List Token → Prop} {F : List Token → Prop}
    (hp : Reads p L F)
    {f : α → RouteArg} (key : Str) (hkey : assigned g key = some (TokenReader.map f (parseAssigned p))) {a : α}
    {w rest : List Token} (hw : L a w) (hrest : F rest) :
    RouteArg.parse g (.ident key :: .punct '=' :: (w ++ rest)) = .ok (f a, rest) := by
  rw [parse_of_assigned hkey]
  exact ((reads_parseAssigned hp).map f).complete (w := .punct '=' :: w) ⟨a, ⟨w, rfl, hw⟩, rfl⟩ hrest

/-- **The arguments of a route.** Soundness by cases on what stands behind the first identifier: an `=`, and
    then the key has to be a known one; or no `=`, and then it has to be the flag. Completeness by cases on the
    phrase. What follows an argument is a comma or the end, and not an `=`, so the bare flag is not taken for a
    key. -/
theorem reads_parse (g : Grammar) : Reads (RouteArg.parse g) (Phrase g) EndsArgument := by
  constructor
  · intro ts arg rest h
    unfold RouteArg.parse at h
    cases hkey : parseIdent ts with
    | error e =>
        rw [hkey] at h
        cases h
    | ok r =>
        obtain ⟨key, rest'⟩ := r
        rw [hkey] at h
        obtain ⟨w, rfl, rfl⟩ := reads_parseIdent.sound hkey
        change (if peekEq rest' then _ else _) = _ at h
        split_ifs at h with heq hflag
        · cases hvalue : assigned g key with
          | none =>
              rw [hvalue] at h
              cases h
          | some value =>
              rw [hvalue] at h
              obtain ⟨w, rfl, hw⟩ := assigned_sound hvalue h
              exact ⟨_, rfl, hw⟩
        · cases h
          subst hflag
          exact ⟨_, rfl, .multipart⟩
  · intro arg w rest h hrest
    cases h with
    | target v => exact complete_of_map reads_parseLitStr (str "to") rfl rfl trivial
    | policy v => exact complete_of_map reads_parseLitStr (str "policy") rfl rfl trivial
    | before hw => exact complete_of_map (reads_parseBracketedPaths g) (str "before") rfl hw trivial
    | map hw => exact complete_of_map g.path_reads (str "map") rfl hw hrest
    | query hw => exact complete_of_map g.type_reads (str "query") rfl hw hrest
    | json hw => exact complete_of_map g.type_reads (str "json") rfl hw hrest
    | form hw => exact complete_of_map g.type_reads (str "form") rfl hw hrest
    | pathType hw => exact complete_of_map g.type_reads (str "path") rfl hw hrest
    | multipart =>
        have hpeek : peekEq rest = false := by
          cases rest with
          | nil => rfl
          | cons t rest =>
              have ht := hrest t rfl
              cases t with
              | punct c =>
                  unfold Token.isComma at ht
                  split at ht
                  · next heq =>
                      cases heq
                      rfl
                  · cases ht
              | _ => rfl
        show (if peekEq rest then _ else _) = _
        rw [hpeek]
        rfl

/-- The error of an argument whose slot is taken. -/
def duplicate : RouteArg → MacroError
  | target v => .new (.litStr v) (str "duplicate `to`")
  | policy v => .new (.litStr v) (str "duplicate `policy`")
  | before _ => .new .callSite (str "duplicate `before`")
  | map _ => .new .callSite (str "duplicate `map`")
  | query _ => .new .callSite (str "duplicate `query`")
  | json _ | form _ | flag _ => .new .callSite (str "only one of `json`, `form`, or `multipart` may be specified")
  | pathType _ => .new .callSite (str "duplicate `path`")

end RouteArg

/-- A value is in a field if its argument is in the slot. -/
theorem eq_some_iff_map {α β : Type} {f : α → β} (hf : Function.Injective f) {x : Option α} {v : α} :
    x = some v ↔ x.map f = some (f v) := (Option.map_injective hf).eq_iff.symm

/-! ## The builder is a table of slots

Each field of the builder is the slot of the argument that sets it. The three kinds of data share the field
`data`, whose `set` refuses a second kind as well as a second argument of the same kind; that is one slot with
another text for its error. -/

/-- The argument that set a data kind. -/
def DataKind.arg? : DataKind → Option RouteArg
  | none => .none
  | json ty => some (.json ty)
  | form ty => some (.form ty)
  | multipart => some (.flag .multipart)

/-- The arguments that a builder has been given. -/
def RouteArgsBuilder.slots (b : RouteArgsBuilder) : Slot → Option RouteArg
  | .target => b.target.map .target
  | .policy => b.policy.map .policy
  | .before => b.before.map .before
  | .map => b.map.map .map
  | .query => b.queryType.map .query
  | .data => b.data.arg?
  | .path => b.pathType.map .pathType

/-- A builder that has been given nothing. -/
theorem RouteArgsBuilder.slots_default : RouteArgsBuilder.default.slots = Slots.empty := by
  funext k
  cases k <;> rfl

/-- A builder is the table of its slots: no two builders have the same. Each field is the image of one slot
    under an injective map. -/
theorem RouteArgsBuilder.slots_injective {b b' : RouteArgsBuilder} (h : b.slots = b'.slots) : b = b' := by
  obtain ⟨target, policy, before, map, queryType, data, pathType⟩ := b
  obtain ⟨target', policy', before', map', queryType', data', pathType'⟩ := b'
  have hmap : ∀ {α : Type} {f : α → RouteArg} {x y : Option α}, Function.Injective f → x.map f = y.map f → x = y :=
    fun hf => (Option.map_injective hf).eq_iff.mp
  have hdata : data = data' := by
    have heq : data.arg? = data'.arg? := congrFun h .data
    cases data <;> cases data' <;> cases heq <;> rfl
  obtain rfl := hmap (fun _ _ => RouteArg.target.inj) (congrFun h .target)
  obtain rfl := hmap (fun _ _ => RouteArg.policy.inj) (congrFun h .policy)
  obtain rfl := hmap (fun _ _ => RouteArg.before.inj) (congrFun h .before)
  obtain rfl := hmap (fun _ _ => RouteArg.map.inj) (congrFun h .map)
  obtain rfl := hmap (fun _ _ => RouteArg.query.inj) (congrFun h .query)
  obtain rfl := hmap (fun _ _ => RouteArg.pathType.inj) (congrFun h .path)
  rw [hdata]

/-- A field that is set is not set again. -/
theorem setOnce_of_isSome {α : Type} {slot : Option α} (h : slot.isSome) (value : α) (span : MacroSpan) (name : Str) :
    setOnce slot value span name = .error (.new span (str "duplicate `" ++ name ++ str "`")) := if_pos h

/-- A kind of data that is chosen is not chosen again, not even the same one. -/
theorem DataKind.set_of_isSome {self : DataKind} (h : self.arg?.isSome) (next : DataKind) (span : MacroSpan) :
    self.set next span = .error (.new span (str "only one of `json`, `form`, or `multipart` may be specified")) := by
  cases self with
  | none => cases h
  | _ => rfl

namespace RouteArgsBuilder

/-- The slot of the argument is taken: the error is the one that belongs to the slot and the argument. -/
theorem apply_of_taken {b : RouteArgsBuilder} {arg : RouteArg} (h : (b.slots arg.slot).isSome) :
    b.apply arg = .error arg.duplicate := by
  have hmap : ∀ {α β : Type} {f : α → β} {x : Option α}, (x.map f).isSome = true → x.isSome = true :=
    fun h => by rwa [Option.isSome_map] at h
  cases arg with
  | json v | form v =>
      simp only [apply, DataKind.set_of_isSome h]
      rfl
  | flag v =>
      cases v
      simp only [apply, DataKind.set_of_isSome h]
      rfl
  | _ =>
      simp only [apply, setOnce_of_isSome (hmap h)]
      rfl

/-- The slot of the argument is free: it is filled, and the other slots are what they were. -/
theorem apply_of_free {b : RouteArgsBuilder} {arg : RouteArg} (h : b.slots arg.slot = none) :
    ∃ b', b.apply arg = .ok b' ∧ b'.slots = Function.update b.slots arg.slot (some arg) := by
  obtain ⟨target, policy, before, map, queryType, data, pathType⟩ := b
  have hdata : arg.slot = .data → data = .none := by
    intro hslot
    rw [hslot] at h
    cases data <;> cases h
    rfl
  cases arg with
  | json v | form v =>
      obtain rfl := hdata rfl
      exact ⟨_, rfl, funext fun k => by cases k <;> rfl⟩
  | flag v =>
      cases v
      obtain rfl := hdata rfl
      exact ⟨_, rfl, funext fun k => by cases k <;> rfl⟩
  | _ =>
      obtain rfl := Option.map_eq_none_iff.mp h
      exact ⟨_, rfl, funext fun k => by cases k <;> rfl⟩

/-- **The builder is a table of slots.** -/
theorem isBuilder : Builder RouteArg.slot slots apply RouteArg.duplicate :=
  ⟨apply_of_taken, apply_of_free, fun _ _ => slots_injective⟩

end RouteArgsBuilder

/-! ## What a route attribute accepts

The two halves together: the loop reads the arguments and folds them into the builder (`led_ok_iff`), and the
fold succeeds if and only if the arguments are for different slots (`Builder.foldlM_ok_iff`). -/

/-- The arguments say what the record holds. -/
structure RouteArgs.Of (args : RouteArgs) (settings : List RouteArg) : Prop where
  target : ∀ v, args.target = some v ↔ .target v ∈ settings
  policy : ∀ v, args.policy = some v ↔ .policy v ∈ settings
  before : ∀ v, .before v ∈ settings → args.before = v
  noBefore : (∀ v, .before v ∉ settings) → args.before = []
  map : ∀ v, args.map = some v ↔ .map v ∈ settings
  query : ∀ v, args.queryType = some v ↔ .query v ∈ settings
  json : ∀ v, args.data = .json v ↔ .json v ∈ settings
  form : ∀ v, args.data = .form v ↔ .form v ∈ settings
  multipart : args.data = .multipart ↔ .flag .multipart ∈ settings
  pathType : ∀ v, args.pathType = some v ↔ .pathType v ∈ settings

/-- What a record holds whose slots are those of a list. Where no two arguments are for one slot, an argument is
    in the list if and only if it is in its slot, and each field is read off its slot. -/
theorem RouteArgsBuilder.of_slots {b : RouteArgsBuilder} {settings : List RouteArg}
    (hnodup : (settings.map RouteArg.slot).Nodup) (h : b.slots = settled RouteArg.slot settings) (path : Str) :
    (b.build path).Of settings := by
  have hmem : ∀ arg, arg ∈ settings ↔ b.slots arg.slot = some arg := by
    intro arg
    rw [h, settled_eq_some_iff hnodup]
    exact ⟨fun ha => ⟨ha, rfl⟩, fun ha => ha.1⟩
  have hdata : ∀ arg : RouteArg, arg.slot = .data → (arg ∈ settings ↔ b.data.arg? = some arg) := by
    intro arg harg
    rw [hmem, harg]
    rfl
  refine ⟨fun v => ?_, fun v => ?_, fun v hv => ?_, fun hnone => ?_, fun v => ?_, fun v => ?_, fun v => ?_,
    fun v => ?_,
    ?_, fun v => ?_⟩
  · rw [hmem]
    exact eq_some_iff_map fun _ _ => RouteArg.target.inj
  · rw [hmem]
    exact eq_some_iff_map fun _ _ => RouteArg.policy.inj
  · have hbefore := (eq_some_iff_map fun _ _ => RouteArg.before.inj).mpr ((hmem _).mp hv)
    simp only [build, hbefore, Option.getD_some]
  · have hbefore : b.before = none := by
      rw [Option.eq_none_iff_forall_ne_some]
      intro v hv
      exact hnone v ((hmem _).mpr ((eq_some_iff_map fun _ _ => RouteArg.before.inj).mp hv))
    simp only [build, hbefore, Option.getD_none]
  · rw [hmem]
    exact eq_some_iff_map fun _ _ => RouteArg.map.inj
  · rw [hmem]
    exact eq_some_iff_map fun _ _ => RouteArg.query.inj
  · rw [hdata _ rfl]
    show b.data = _ ↔ _
    cases b.data <;> simp [DataKind.arg?]
  · rw [hdata _ rfl]
    show b.data = _ ↔ _
    cases b.data <;> simp [DataKind.arg?]
  · rw [hdata _ rfl]
    show b.data = _ ↔ _
    cases b.data <;> simp [DataKind.arg?]
  · rw [hmem]
    exact eq_some_iff_map fun _ _ => RouteArg.pathType.inj

/-- There is one record for a list of arguments, up to the path, which no argument sets. -/
theorem RouteArgs.Of.unique {args args' : RouteArgs} {settings : List RouteArg} (h : args.Of settings)
    (h' : args'.Of settings) (hpath : args.path = args'.path) : args = args' := by
  have hopt : ∀ {α : Type} {x y : Option α}, (∀ v, x = some v ↔ y = some v) → x = y := by
    intro α x y hxy
    exact Option.ext hxy
  have hdata : args.data = args'.data := by
    cases hd : args.data with
    | json v => exact ((h'.json v).mpr ((h.json v).mp hd)).symm
    | form v => exact ((h'.form v).mpr ((h.form v).mp hd)).symm
    | multipart => exact (h'.multipart.mpr (h.multipart.mp hd)).symm
    | none =>
        cases hd' : args'.data with
        | none => rfl
        | json v => exact absurd ((h.json v).mpr ((h'.json v).mp hd')) (by rw [hd]; exact fun h => by cases h)
        | form v => exact absurd ((h.form v).mpr ((h'.form v).mp hd')) (by rw [hd]; exact fun h => by cases h)
        | multipart => exact absurd (h.multipart.mpr (h'.multipart.mp hd')) (by rw [hd]; exact fun h => by cases h)
  have hbefore : args.before = args'.before := by
    by_cases hex : ∃ v, RouteArg.before v ∈ settings
    · obtain ⟨v, hv⟩ := hex
      rw [h.before v hv, h'.before v hv]
    · rw [not_exists] at hex
      rw [h.noBefore hex, h'.noBefore hex]
  obtain ⟨path, target, policy, before, map, queryType, data, pathType⟩ := args
  obtain ⟨path', target', policy', before', map', queryType', data', pathType'⟩ := args'
  obtain rfl := hpath
  obtain rfl := hdata
  obtain rfl := hbefore
  obtain rfl : target = target' := hopt fun v => (h.target v).trans (h'.target v).symm
  obtain rfl : policy = policy' := hopt fun v => (h.policy v).trans (h'.policy v).symm
  obtain rfl : map = map' := hopt fun v => (h.map v).trans (h'.map v).symm
  obtain rfl : queryType = queryType' := hopt fun v => (h.query v).trans (h'.query v).symm
  obtain rfl : pathType = pathType' := hopt fun v => (h.pathType v).trans (h'.pathType v).symm
  rfl

/-- The tokens of a route attribute: a path and arguments for different slots. -/
def RouteArgs.Phrase (g : Grammar) (args : RouteArgs) (ts : List Token) : Prop :=
  ∃ settings u v, ts = .litStr args.path :: u ++ v ∧ Led Token.isComma (RouteArg.Phrase g) settings u ∧
    Stray Token.isComma v ∧ (settings.map RouteArg.slot).Nodup ∧ args.Of settings

section
variable {g : Grammar}

/-- A route attribute is read whole if its arguments are: the loop ends at the end of the stream, and the record
    is built from the path and the builder it leaves. -/
theorem parse_routeArgs (path : Str) (ts : List Token) (args : RouteArgs) :
    parseAll (RouteArgs.parse g) (.litStr path :: ts) = .ok args ↔
      ∃ b, led Token.isComma (RouteArg.parse g) RouteArgsBuilder.apply ts.length .default ts = .ok (b, []) ∧
        args = b.build path := by
  unfold parseAll
  rw [all_ok_iff]
  have hparse : RouteArgs.parse g (.litStr path :: ts) =
      (led Token.isComma (RouteArg.parse g) RouteArgsBuilder.apply ts.length .default ts).map
        fun r => (r.1.build path, r.2) := rfl
  rw [hparse]
  cases led Token.isComma (RouteArg.parse g) RouteArgsBuilder.apply ts.length .default ts with
  | error e =>
      constructor
      · intro h
        cases h
      · rintro ⟨b, h, -⟩
        cases h
  | ok r =>
      obtain ⟨b, rest⟩ := r
      constructor
      · intro h
        cases h
        exact ⟨_, rfl, rfl⟩
      · rintro ⟨b', h, rfl⟩
        cases h
        rfl

/-- Forwards, the loop gives the arguments and the stray comma, and the fold gives their slots. Backwards, the
    builder that holds the arguments is unique, and the record built from it is the given one because there is
    one record for a list of arguments. -/
theorem RouteArgs.parse_ok_iff {ts : List Token} {args : RouteArgs} :
    parseAll (RouteArgs.parse g) ts = .ok args ↔ args.Phrase g ts := by
  constructor
  · intro h
    cases hpath : parseLitStr ts with
    | error e =>
        have hparse : RouteArgs.parse g ts = .error e := by
          unfold RouteArgs.parse
          rw [hpath]
          rfl
        unfold parseAll TokenReader.all at h
        rw [hparse] at h
        cases h
    | ok r =>
        obtain ⟨path, rest⟩ := r
        obtain ⟨w, rfl, rfl⟩ := reads_parseLitStr.sound hpath
        obtain ⟨b, hled, rfl⟩ := (parse_routeArgs path rest args).mp h
        obtain ⟨settings, u, v, rfl, hu, hv, hfold⟩ :=
          (led_ok_iff (RouteArg.reads_parse g) RouteArg.Phrase.nonempty (Nat.le_refl _)).mp hled
        obtain ⟨hnodup, hslots⟩ := (RouteArgsBuilder.isBuilder.foldlM_ok_iff RouteArgsBuilder.slots_default).mp hfold
        exact ⟨settings, u, v, rfl, hu, hv, hnodup, RouteArgsBuilder.of_slots hnodup hslots path⟩
  · rintro ⟨settings, u, v, rfl, hu, hv, hnodup, hof⟩
    -- the builder that holds the arguments
    obtain ⟨b, hfold, hslots⟩ := RouteArgsBuilder.isBuilder.exists_foldlM RouteArgsBuilder.slots_default hnodup
    refine (parse_routeArgs args.path (u ++ v) args).mpr ⟨b, ?_, ?_⟩
    · exact (led_ok_iff (RouteArg.reads_parse g) RouteArg.Phrase.nonempty (Nat.le_refl _)).mpr
        ⟨settings, u, v, rfl, hu, hv, hfold⟩
    · exact hof.unique (RouteArgsBuilder.of_slots hnodup hslots args.path) rfl

/-- **What a route attribute accepts**: a path, and behind it, led by commas and in any order, arguments that
    are for different slots, where `json`, `form` and `multipart` are for one. A comma may stand at the end. The
    record that is read holds what the arguments say. -/
theorem route_attribute_accepts (g : Grammar) (ts : List Token) (args : RouteArgs) :
    parseAll (RouteArgs.parse g) ts = .ok args ↔ args.Phrase g ts := RouteArgs.parse_ok_iff

/-- **The first wrong argument of a route is reported**, whatever stands behind it: one that cannot be read, or
    one for a slot that an earlier argument has taken. The arguments in front of it are entered, and so the loop
    reaches it with the builder that holds them; there it stops, and the rest of the stream is not looked at. -/
theorem route_attribute_error (g : Grammar) (path : Str) {settings : List RouteArg} {u : List Token}
    (hu : Led Token.isComma (RouteArg.Phrase g) settings u) (hnodup : (settings.map RouteArg.slot).Nodup)
    {t s : Token} (ht : t.isComma = true) {rest : List Token} {e : MacroError}
    (hwrong : RouteArg.parse g (s :: rest) = .error e ∨ ∃ arg rest', RouteArg.parse g (s :: rest) = .ok (arg, rest') ∧
      arg.slot ∈ settings.map RouteArg.slot ∧ e = arg.duplicate) :
    parseAll (RouteArgs.parse g) (.litStr path :: (u ++ t :: s :: rest)) = .error e := by
  obtain ⟨b, hfold, hslots⟩ := RouteArgsBuilder.isBuilder.exists_foldlM RouteArgsBuilder.slots_default hnodup
  have hstops : Stops (RouteArg.parse g) RouteArgsBuilder.apply b (s :: rest) e := by
    rcases hwrong with hread | ⟨arg, rest', hread, harg, rfl⟩
    · exact .inl hread
    · refine .inr ⟨arg, rest', hread, RouteArgsBuilder.apply_of_taken ?_⟩
      rw [hslots]
      exact settled_isSome.mpr harg
  have hled := (led_error_iff (RouteArg.reads_parse g) RouteArg.Phrase.nonempty
    (Nat.le_refl (u ++ t :: s :: rest).length)).mpr ⟨settings, u, t, s, rest, b, rfl, hu, hfold, ht, hstops⟩
  have hparse : RouteArgs.parse g (.litStr path :: (u ++ t :: s :: rest)) =
      (led Token.isComma (RouteArg.parse g) RouteArgsBuilder.apply (u ++ t :: s :: rest).length .default
        (u ++ t :: s :: rest)).map fun r => (r.1.build path, r.2) := rfl
  unfold parseAll TokenReader.all
  rw [hparse, hled]
  rfl

end

/-! ## A grammar

Paths and types of one identifier, which are enough to write every kind of argument. They are read by the
parsers of this development, so what `Grammar` demands of `syn` can be met. -/

/-- The path of one identifier. -/
def identPath (ident : Str) : Path := .relative ⟨ident, .none⟩ []

theorem reads_identPath :
    Reads (TokenReader.map identPath parseIdent) (fun path w => ∃ t, w = [.ident t] ∧ identPath t = path)
      EndsArgument :=
  (reads_parseIdent.map identPath).congr (fun _ _ => Iff.rfl) fun _ _ => trivial

/-- Paths and types of one identifier. -/
def identGrammar : Grammar where
  parsePath := TokenReader.map identPath parseIdent
  parseType := TokenReader.map (Ty.path none) (TokenReader.map identPath parseIdent)
  PathPhrase path w := ∃ t, w = [.ident t] ∧ identPath t = path
  TypePhrase ty w := ∃ path, (∃ t, w = [.ident t] ∧ identPath t = path) ∧ .path none path = ty
  path_reads := reads_identPath
  type_reads := reads_identPath.map (Ty.path none)
  path_nonempty := by
    rintro path ⟨t, h, -⟩
    cases h

/-- `, json = Input` -/
def jsonInput : List Token := [.punct ',', .ident (str "json"), .punct '=', .ident (str "Input")]

theorem led_jsonInput :
    Led Token.isComma (RouteArg.Phrase identGrammar) [.json (.path none (identPath (str "Input")))] jsonInput := by
  have harg : RouteArg.Phrase identGrammar (.json (.path none (identPath (str "Input"))))
      [.ident (str "json"), .punct '=', .ident (str "Input")] := .json ⟨_, ⟨_, rfl, rfl⟩, rfl⟩
  exact .cons rfl harg .nil

/-- The theorem at a second body, in front of an argument that does not exist. -/
theorem route_attribute_error_two_bodies :
    parseAll (RouteArgs.parse identGrammar) (.litStr (str "/items") :: (jsonInput ++ .punct ',' ::
      .ident (str "multipart") :: [.punct ',', .ident (str "unknown"), .punct '=', .ident (str "A")])) =
        .error (.new .callSite (str "only one of `json`, `form`, or `multipart` may be specified")) :=
  route_attribute_error identGrammar (str "/items") led_jsonInput (by decide) rfl
    (.inr ⟨.flag .multipart, _, rfl, by decide, rfl⟩)

/-! ## Arguments of a service

Three slots, and an argument is always a key, `=` and a string. The record that collects them is the builder at
the same time. -/

namespace ServiceArg

inductive Slot where
  | name
  | servicePrefix
  | policy
  deriving DecidableEq

def slot : ServiceArg → Slot
  | name _ => .name
  | servicePrefix _ => .servicePrefix
  | policy _ => .policy

/-- How an argument is written. -/
def key : ServiceArg → Str
  | name _ => str "name"
  | servicePrefix _ => str "prefix"
  | policy _ => str "policy"

def value : ServiceArg → Str
  | name v | servicePrefix v | policy v => v

def Phrase (arg : ServiceArg) (w : List Token) : Prop := w = [.ident arg.key, .punct '=', .litStr arg.value]

/-- The error of an argument whose slot is taken. -/
def duplicate (arg : ServiceArg) : MacroError :=
  .new (.litStr arg.value) (str "duplicate `" ++ arg.key ++ str "`")

theorem Phrase.nonempty {arg : ServiceArg} : ¬ arg.Phrase [] := by
  intro h
  cases h

theorem reads_parse : Reads ServiceArg.parse Phrase fun _ => True := by
  constructor
  · intro ts arg rest h
    unfold ServiceArg.parse at h
    cases hkey : parseIdent ts with
    | error e =>
        rw [hkey] at h
        cases h
    | ok r =>
        obtain ⟨key, rest'⟩ := r
        rw [hkey] at h
        obtain ⟨-, rfl, rfl⟩ := reads_parseIdent.sound hkey
        change (parseAssigned parseLitStr rest').bind _ = _ at h
        cases hvalue : parseAssigned parseLitStr rest' with
        | error e =>
            rw [hvalue] at h
            cases h
        | ok r =>
            obtain ⟨value, rest''⟩ := r
            rw [hvalue] at h
            obtain ⟨-, rfl, -, rfl, rfl⟩ := (reads_parseAssigned reads_parseLitStr).sound hvalue
            change (if key = str "name" then _ else _) = _ at h
            split_ifs at h with h₁ h₂ h₃
            all_goals
              subst key
              cases h
              exact ⟨_, rfl, rfl⟩
  · rintro arg w rest rfl -
    cases arg <;> rfl

end ServiceArg

namespace ServiceArgs

/-- The arguments that were entered. -/
def slots (args : ServiceArgs) : ServiceArg.Slot → Option ServiceArg
  | .name => args.name.map .name
  | .servicePrefix => args.servicePrefix.map .servicePrefix
  | .policy => args.policy.map .policy

theorem isBuilder : Builder ServiceArg.slot slots ServiceArgs.enter ServiceArg.duplicate := by
  refine ⟨?_, ?_, ?_⟩
  · intro args arg h
    have hmap : ∀ {α β : Type} {f : α → β} {x : Option α}, (x.map f).isSome = true → x.isSome = true :=
      fun h => by rwa [Option.isSome_map] at h
    cases arg with
    | _ =>
        simp only [ServiceArgs.enter, setOnce_of_isSome (hmap h)]
        rfl
  · intro args arg h
    obtain ⟨name, servicePrefix, policy⟩ := args
    cases arg with
    | _ =>
        obtain rfl := Option.map_eq_none_iff.mp h
        exact ⟨_, rfl, funext fun k => by cases k <;> rfl⟩
  · intro args args' h
    obtain ⟨name, servicePrefix, policy⟩ := args
    obtain ⟨name', servicePrefix', policy'⟩ := args'
    obtain rfl := Option.map_injective (fun _ _ => ServiceArg.name.inj) (congrFun h .name)
    obtain rfl := Option.map_injective (fun _ _ => ServiceArg.servicePrefix.inj) (congrFun h .servicePrefix)
    obtain rfl := Option.map_injective (fun _ _ => ServiceArg.policy.inj) (congrFun h .policy)
    rfl

/-- The arguments say what the record holds. -/
structure Of (args : ServiceArgs) (settings : List ServiceArg) : Prop where
  name : ∀ v, args.name = some v ↔ .name v ∈ settings
  servicePrefix : ∀ v, args.servicePrefix = some v ↔ .servicePrefix v ∈ settings
  policy : ∀ v, args.policy = some v ↔ .policy v ∈ settings

/-- What a record holds whose slots are those of a list for different slots. -/
theorem of_slots {args : ServiceArgs} {settings : List ServiceArg} (hnodup : (settings.map ServiceArg.slot).Nodup)
    (h : args.slots = settled ServiceArg.slot settings) : args.Of settings := by
  have hmem : ∀ arg, arg ∈ settings ↔ args.slots arg.slot = some arg := by
    intro arg
    rw [h, settled_eq_some_iff hnodup]
    exact ⟨fun ha => ⟨ha, rfl⟩, fun ha => ha.1⟩
  refine ⟨fun v => ?_, fun v => ?_, fun v => ?_⟩
  · rw [hmem]
    exact eq_some_iff_map fun _ _ => ServiceArg.name.inj
  · rw [hmem]
    exact eq_some_iff_map fun _ _ => ServiceArg.servicePrefix.inj
  · rw [hmem]
    exact eq_some_iff_map fun _ _ => ServiceArg.policy.inj

/-- There is one record for a list of arguments. -/
theorem Of.unique {args args' : ServiceArgs} {settings : List ServiceArg} (h : args.Of settings)
    (h' : args'.Of settings) : args = args' := by
  obtain ⟨name, servicePrefix, policy⟩ := args
  obtain ⟨name', servicePrefix', policy'⟩ := args'
  obtain rfl : name = name' := Option.ext fun v => (h.name v).trans (h'.name v).symm
  obtain rfl : servicePrefix = servicePrefix' :=
    Option.ext fun v => (h.servicePrefix v).trans (h'.servicePrefix v).symm
  obtain rfl : policy = policy' := Option.ext fun v => (h.policy v).trans (h'.policy v).symm
  rfl

/-- The tokens of a service attribute: arguments for different slots. -/
def Phrase (args : ServiceArgs) (ts : List Token) : Prop :=
  ∃ settings, Terminated Token.isComma ServiceArg.Phrase settings ts ∧ (settings.map ServiceArg.slot).Nodup ∧
    args.Of settings

end ServiceArgs

/-- The arguments of a service are read to the end of the stream, with commas between them. -/
theorem readArguments_ok_iff {ts : List Token} {settings : List ServiceArg} :
    parseTerminated ServiceArg.parse ts = .ok settings ↔
      Terminated Token.isComma ServiceArg.Phrase settings ts :=
  parseTerminated_ok_iff (ServiceArg.reads_parse.congr (fun _ _ => Iff.rfl) fun _ _ => trivial)
    ServiceArg.Phrase.nonempty

/-- What a service attribute makes of its arguments. -/
theorem parse_serviceArgs {ts : List Token} {settings : List ServiceArg}
    (h : Terminated Token.isComma ServiceArg.Phrase settings ts) :
    ServiceArgs.parse ts = settings.foldlM ServiceArgs.enter ⟨none, none, none⟩ := by
  unfold ServiceArgs.parse
  rw [readArguments_ok_iff.mpr h]
  rfl

/-- Reading and entering, one after the other: the arguments are determined by the tokens, and the record by the
    arguments. -/
theorem ServiceArgs.parse_ok_iff {ts : List Token} {args : ServiceArgs} :
    ServiceArgs.parse ts = .ok args ↔ args.Phrase ts := by
  have hempty : (ServiceArgs.mk none none none).slots = Slots.empty := funext fun k => by cases k <;> rfl
  constructor
  · intro h
    cases hread : parseTerminated ServiceArg.parse ts with
    | error e =>
        unfold ServiceArgs.parse at h
        rw [hread] at h
        cases h
    | ok settings =>
        have hsettings := readArguments_ok_iff.mp hread
        rw [parse_serviceArgs hsettings] at h
        obtain ⟨hnodup, hslots⟩ := (ServiceArgs.isBuilder.foldlM_ok_iff hempty).mp h
        exact ⟨settings, hsettings, hnodup, ServiceArgs.of_slots hnodup hslots⟩
  · rintro ⟨settings, hsettings, hnodup, hof⟩
    obtain ⟨args', hfold, hslots⟩ := ServiceArgs.isBuilder.exists_foldlM hempty hnodup
    rw [parse_serviceArgs hsettings, hfold, (ServiceArgs.of_slots hnodup hslots).unique hof]

/-- **What a service attribute accepts**: arguments for different slots, in any order, with commas between them
    and maybe one at the end. The record that is read holds what the arguments say. -/
theorem service_attribute_accepts (ts : List Token) (args : ServiceArgs) :
    ServiceArgs.parse ts = .ok args ↔ args.Phrase ts := ServiceArgs.parse_ok_iff

/-- **What a service attribute reports**: it reads all its arguments before it looks at their slots. So an
    argument that cannot be read, or that no comma separates from the next token, is reported even behind a
    second argument for a slot, and of these the first is reported if all arguments can be read. The first
    disjunct is `terminated_error_iff`, the second `enterAll_error_iff` through the builder. -/
theorem service_attribute_error (ts : List Token) (e : MacroError) :
    ServiceArgs.parse ts = .error e ↔
      (∃ settings u s rest, ts = u ++ s :: rest ∧ Followed Token.isComma ServiceArg.Phrase settings u ∧
        Breaks Token.isComma ServiceArg.parse (.expected (str "`,`")) (s :: rest) e) ∨
      ∃ before arg after, Terminated Token.isComma ServiceArg.Phrase (before ++ arg :: after) ts ∧
        (before.map ServiceArg.slot).Nodup ∧ arg.slot ∈ before.map ServiceArg.slot ∧ e = arg.duplicate := by
  have hempty : (ServiceArgs.mk none none none).slots = Slots.empty := funext fun k => by cases k <;> rfl
  have hread : Reads ServiceArg.parse ServiceArg.Phrase EndsArgument :=
    ServiceArg.reads_parse.congr (fun _ _ => Iff.rfl) fun _ _ => trivial
  rw [← @terminated_error_iff _ _ _ _ _ _ hread ServiceArg.Phrase.nonempty (.expected (str "`,`")) e _ [] ts
    (Nat.le_refl _)]
  constructor
  · intro h
    cases hsettings : parseTerminated ServiceArg.parse ts with
    | error e' =>
        unfold ServiceArgs.parse at h
        rw [hsettings] at h
        cases h
        exact .inl hsettings
    | ok settings =>
        have hphrases := readArguments_ok_iff.mp hsettings
        rw [parse_serviceArgs hphrases] at h
        have hfold := ServiceArgs.isBuilder.foldlM_eq ⟨none, none, none⟩ settings
        rw [hempty, h] at hfold
        cases hall : enterAll ServiceArg.slot Slots.empty settings with
        | ok m =>
            rw [hall] at hfold
            cases hfold
        | error arg =>
            rw [hall] at hfold
            cases hfold
            obtain ⟨before, after, rfl, hnodup, harg⟩ := enterAll_error_iff.mp hall
            exact .inr ⟨before, arg, after, hphrases, hnodup, harg, rfl⟩
  · rintro (h | ⟨before, arg, after, hphrases, hnodup, harg, rfl⟩)
    · have hsettings : parseTerminated ServiceArg.parse ts = .error e := h
      unfold ServiceArgs.parse
      rw [hsettings]
      rfl
    · rw [parse_serviceArgs hphrases]
      exact ServiceArgs.isBuilder.foldlM_error hempty hnodup harg

end Attr
end Apigate
