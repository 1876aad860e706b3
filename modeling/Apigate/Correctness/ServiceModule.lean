import Apigate.Correctness.AttributeGrammar
import Apigate.Correctness.Configuration
import Apigate.Macros.Service

/-!
# `Correctness.ServiceModule` — from the annotated functions of a module to the route table

What a module has to look like to be a service, and what it becomes. A module that is mounted and built puts a
handler into the router for each of its annotated functions, with the path, the policy and the pipeline that its
attribute asks for.

The macro is a loop over the items of the module with an accumulator, and inside it another one over the
attributes of a function. Each is characterised by a relation that says what it accepts without saying how:

* `OneRoute`: among the attributes one is a route, whose arguments are those of a phrase, and the others are not
  (`findRouteAttr_from`, by induction on the attributes, for any position at which they begin);
* `ItemExpands`: what becomes of one item and which route it adds (`extractItem_ok_iff`);
* `ItemsExpand`: item by item, in their order (`extractItems_ok_iff`; from the loop to the relation by the
  invariant of `Lib.Fold`, and back by induction on the relation).

`expandService_ok_iff` puts the parts together, with the arguments of the service in front. From there on no
proof looks at the macro again: `served_of_expansion` takes a function of the module, finds its definition among
those of the expansion, and the entry of that definition in the route table by `compiledFrom_of_build`.
-/

namespace Apigate
open Lib Fold Syn

variable {V ρ σ : Type}

/-! ## The route attribute of a function

The search looks at every attribute, also behind the one it has found, because a second one is an error. What it
has found is known by its position, and erasing that position leaves the other attributes in their order. -/

/-- No attribute is one of a route. -/
def NoRoute (attrs : List Attribute) : Prop := ∀ attr ∈ attrs, Method.fromAttr attr = none

theorem noRoute_nil : NoRoute [] := by
  intro attr h
  cases h

/-- One attribute is a route, of the given kind and arguments; the others, in their order, are not. -/
def OneRoute (g : Grammar) (attrs : List Attribute) (kind : Method) (args : Attr.RouteArgs)
    (others : List Attribute) : Prop :=
  ∃ before attr after tokens, attrs = before ++ attr :: after ∧ others = before ++ after ∧ NoRoute others ∧
    Method.fromAttr attr = some kind ∧ attr.args = .list tokens ∧ args.Phrase g tokens

section
variable {g : Grammar}

/-- The arguments of an attribute are read from its parentheses; without parentheses there are none to read. -/
theorem parseArgs_ok_iff {attr : Attribute} {args : Attr.RouteArgs} :
    attr.parseArgs (Attr.RouteArgs.parse g) = .ok args ↔
      ∃ tokens, attr.args = .list tokens ∧ args.Phrase g tokens := by
  unfold Attribute.parseArgs
  cases attr.args with
  | list tokens =>
      rw [Attr.RouteArgs.parse_ok_iff]
      exact ⟨fun h => ⟨tokens, rfl, h⟩, by rintro ⟨_, ⟨⟩, h⟩; exact h⟩
  | path =>
      constructor
      · intro h
        cases h
      · rintro ⟨_, ⟨⟩, -⟩
  | nameValue tokens =>
      constructor
      · intro h
        cases h
      · rintro ⟨_, ⟨⟩, -⟩

/-- An attribute that is not one of a route is passed over. -/
theorem matchRouteAttr_none {found : Option MatchedRouteAttr} {entry : Attribute × Nat}
    (h : Method.fromAttr entry.1 = none) : matchRouteAttr g found entry = .ok found := by
  unfold matchRouteAttr
  rw [h]

/-- An attribute of a route is the first, and its arguments can be read, or the search fails. -/
theorem matchRouteAttr_some {found r : Option MatchedRouteAttr} {entry : Attribute × Nat} {kind : Method}
    (h : Method.fromAttr entry.1 = some kind) :
    matchRouteAttr g found entry = .ok r ↔
      found = none ∧
        ∃ args tokens, entry.1.args = .list tokens ∧ args.Phrase g tokens ∧ r = some ⟨entry.2, kind, args⟩ := by
  unfold matchRouteAttr
  rw [h]
  dsimp only
  cases hargs : entry.1.parseArgs (Attr.RouteArgs.parse g) with
  | error e =>
      constructor
      · intro h
        cases h
      · rintro ⟨-, args, tokens, htokens, hphrase, -⟩
        rw [parseArgs_ok_iff.mpr ⟨tokens, htokens, hphrase⟩] at hargs
        cases hargs
  | ok args =>
      obtain ⟨tokens, htokens, hphrase⟩ := parseArgs_ok_iff.mp hargs
      cases found with
      | some matched =>
          constructor
          · intro h
            cases h
          · rintro ⟨h, -⟩
            cases h
      | none =>
          constructor
          · intro h
            cases h
            exact ⟨rfl, args, tokens, htokens, hphrase, rfl⟩
          · rintro ⟨-, args', tokens', htokens', hphrase', rfl⟩
            rw [parseArgs_ok_iff.mpr ⟨tokens', htokens', hphrase'⟩] at hargs
            cases hargs
            rfl

/-- A second route attribute is never accepted: behind the first, the search succeeds if and only if there is no
    other. By induction on the attributes. -/
theorem findRouteAttr_found {attrs : List Attribute} {k : Nat} {matched : MatchedRouteAttr}
    {r : Option MatchedRouteAttr} :
    (attrs.zipIdx k).foldlM (matchRouteAttr g) (some matched) = .ok r ↔ NoRoute attrs ∧ r = some matched := by
  induction attrs generalizing k with
  | nil =>
      constructor
      · intro h
        cases h
        exact ⟨noRoute_nil, rfl⟩
      · rintro ⟨-, rfl⟩
        rfl
  | cons attr attrs ih =>
      rw [List.zipIdx_cons, List.foldlM_cons]
      cases hkind : Method.fromAttr attr with
      | none =>
          rw [matchRouteAttr_none hkind]
          show (attrs.zipIdx (k + 1)).foldlM (matchRouteAttr g) (some matched) = .ok r ↔ _
          rw [ih]
          simp [NoRoute, hkind]
      | some kind =>
          constructor
          · intro h
            cases hmatch : matchRouteAttr g (some matched) (attr, k) with
            | error e =>
                rw [hmatch] at h
                cases h
            | ok r' => cases ((matchRouteAttr_some hkind).mp hmatch).1
          · rintro ⟨h, -⟩
            rw [h attr List.mem_cons_self] at hkind
            cases hkind

/-- What a function has for a route attribute: none, or one among others. By induction on the attributes, from
    any position: either the first one is a route, and then `findRouteAttr_found` is about the rest, or it is
    not, and then the rest decides. -/
theorem findRouteAttr_from {attrs : List Attribute} {k : Nat} {r : Option MatchedRouteAttr} :
    (attrs.zipIdx k).foldlM (matchRouteAttr g) none = .ok r ↔
      (NoRoute attrs ∧ r = none) ∨ ∃ before attr after kind args tokens, attrs = before ++ attr :: after ∧
        NoRoute (before ++ after) ∧ Method.fromAttr attr = some kind ∧ attr.args = .list tokens ∧
        args.Phrase g tokens ∧ r = some ⟨k + before.length, kind, args⟩ := by
  induction attrs generalizing k with
  | nil =>
      constructor
      · intro h
        cases h
        exact .inl ⟨noRoute_nil, rfl⟩
      · rintro (⟨-, rfl⟩ | ⟨before, attr, after, -, -, -, h, -⟩)
        · rfl
        · exact absurd h.symm (List.append_ne_nil_of_right_ne_nil _ (List.cons_ne_nil _ _))
  | cons attr attrs ih =>
      rw [List.zipIdx_cons, List.foldlM_cons]
      cases hkind : Method.fromAttr attr with
      | none =>
          rw [matchRouteAttr_none hkind]
          show (attrs.zipIdx (k + 1)).foldlM (matchRouteAttr g) none = .ok r ↔ _
          rw [ih]
          constructor
          · rintro (⟨h, rfl⟩ | ⟨before, attr', after, kind, args, tokens, rfl, h, hkind', htokens, hphrase, rfl⟩)
            · exact .inl ⟨List.forall_mem_cons.mpr ⟨hkind, h⟩, rfl⟩
            · refine .inr ⟨attr :: before, attr', after, kind, args, tokens, rfl,
                List.forall_mem_cons.mpr ⟨hkind, h⟩, hkind', htokens, hphrase, ?_⟩
              rw [List.length_cons, Nat.add_assoc, Nat.add_comm 1]
          · rintro (⟨h, rfl⟩ | ⟨before, attr', after, kind, args, tokens, hattrs, h, hkind', htokens, hphrase, rfl⟩)
            · exact .inl ⟨(List.forall_mem_cons.mp h).2, rfl⟩
            · cases before with
              | nil =>
                  obtain ⟨rfl, -⟩ := List.cons.inj hattrs
                  rw [hkind] at hkind'
                  cases hkind'
              | cons b before =>
                  obtain ⟨rfl, rfl⟩ := List.cons.inj hattrs
                  refine .inr ⟨before, attr', after, kind, args, tokens, rfl, (List.forall_mem_cons.mp h).2, hkind',
                    htokens, hphrase, ?_⟩
                  rw [List.length_cons, Nat.add_assoc, Nat.add_comm 1]
      | some kind =>
          constructor
          · intro h
            cases hmatch : matchRouteAttr g none (attr, k) with
            | error e =>
                rw [hmatch] at h
                cases h
            | ok r' =>
                obtain ⟨-, args, tokens, htokens, hphrase, rfl⟩ := (matchRouteAttr_some hkind).mp hmatch
                rw [hmatch] at h
                obtain ⟨hnone, rfl⟩ := findRouteAttr_found.mp h
                exact .inr ⟨[], attr, attrs, kind, args, tokens, rfl, hnone, hkind, htokens, hphrase, rfl⟩
          · rintro (⟨h, -⟩ | ⟨before, attr', after, kind', args, tokens, hattrs, h, hkind', htokens, hphrase, rfl⟩)
            · rw [h attr List.mem_cons_self] at hkind
              cases hkind
            · cases before with
              | nil =>
                  obtain ⟨rfl, rfl⟩ := List.cons.inj hattrs
                  have hmatch : matchRouteAttr g none (attr, k) = .ok (some ⟨k, kind', args⟩) :=
                    (matchRouteAttr_some hkind').mpr ⟨rfl, args, tokens, htokens, hphrase, rfl⟩
                  rw [hmatch]
                  exact findRouteAttr_found.mpr ⟨h, rfl⟩
              | cons b before =>
                  obtain ⟨rfl, rfl⟩ := List.cons.inj hattrs
                  rw [h attr List.mem_cons_self] at hkind
                  cases hkind

/-- A function without a route. -/
theorem findRouteAttr_none_iff {f : ItemFn} : findRouteAttr g f = .ok none ↔ NoRoute f.attrs := by
  unfold findRouteAttr
  rw [findRouteAttr_from]
  constructor
  · rintro (⟨h, -⟩ | ⟨_, _, _, _, _, _, _, _, _, _, _, h⟩)
    · exact h
    · cases h
  · intro h
    exact .inl ⟨h, rfl⟩

/-- Taking the attribute away leaves the others. -/
theorem eraseIdx_middle {α : Type} (before after : List α) (a : α) :
    (before ++ a :: after).eraseIdx before.length = before ++ after := by
  rw [List.eraseIdx_append_of_length_le (Nat.le_refl _), Nat.sub_self]
  rfl

/-- What the search finds is the one route among the attributes. -/
theorem oneRoute_of_findRouteAttr {f : ItemFn} {matched : MatchedRouteAttr}
    (h : findRouteAttr g f = .ok (some matched)) :
    OneRoute g f.attrs matched.kind matched.args (f.attrs.eraseIdx matched.idx) := by
  unfold findRouteAttr at h
  rcases findRouteAttr_from.mp h with
    ⟨-, h⟩ | ⟨before, attr, after, kind, args, tokens, hattrs, hothers, hkind, htokens, hphrase, hmatched⟩
  · cases h
  · cases hmatched
    refine ⟨before, attr, after, tokens, hattrs, ?_, ?_, hkind, htokens, hphrase⟩
    · rw [hattrs, Nat.zero_add, eraseIdx_middle]
    · rw [hattrs, Nat.zero_add, eraseIdx_middle]
      exact hothers

/-- And the one route is found, at its position. -/
theorem findRouteAttr_of_oneRoute {f : ItemFn} {kind : Method} {args : Attr.RouteArgs} {others : List Attribute}
    (h : OneRoute g f.attrs kind args others) :
    ∃ idx, findRouteAttr g f = .ok (some ⟨idx, kind, args⟩) ∧ f.attrs.eraseIdx idx = others := by
  obtain ⟨before, attr, after, tokens, hattrs, rfl, hothers, hkind, htokens, hphrase⟩ := h
  refine ⟨0 + before.length, ?_, ?_⟩
  · unfold findRouteAttr
    exact findRouteAttr_from.mpr
      (.inr ⟨before, attr, after, kind, args, tokens, hattrs, hothers, hkind, htokens, hphrase, rfl⟩)
  · rw [hattrs, Nat.zero_add, eraseIdx_middle]

end

/-! ## One item, and all of them

A function with a route becomes the same function without that attribute, with a definition and, if there is
anything for it to do, a pipeline function beside it. `Yields` says that a computation neither panics nor fails:
a target that cannot be compiled makes the macro fail, and there is then no expansion at all. -/

section
variable (crates : Crates V) (g : Grammar) (names : Names V)

/-- What the pipeline function of a function is called. -/
def pipelineIdent (ident : Str) : Str := str "__apigate_pipeline_" ++ ident

/-- What a function with a route becomes. -/
def extractedFrom (f : ItemFn) (routeDef : RouteDef (PipelineFn V)) : ExtractedRoute V :=
  ⟨routeDef, routeDef.pipeline.toList.map (pipelineIdent f.ident, ·)⟩

/-- What becomes of an item, and the routes it adds. -/
inductive ItemExpands : Item → Item → List (ExtractedRoute V) → Prop where
  | other (tokens : List Token) : ItemExpands (.other tokens) (.other tokens) []
  | plain (f : ItemFn) : NoRoute f.attrs → ItemExpands (.fn f) (.fn f) []
  | route (f : ItemFn) {kind : Method} {args : Attr.RouteArgs} {others : List Attribute}
      {routeDef : RouteDef (PipelineFn V)} :
      OneRoute g f.attrs kind args others → expandRoute crates kind (args.resolve names) = some (.ok routeDef) →
      ItemExpands (.fn f) (.fn ⟨f.ident, others ++ [.allowDeadCode]⟩)
        [extractedFrom f routeDef]

/-- Item by item. -/
inductive ItemsExpand : List Item → List Item → List (ExtractedRoute V) → Prop where
  | nil : ItemsExpand [] [] []
  | concat {items items' : List Item} {item item' : Item} {extracted new : List (ExtractedRoute V)} :
      ItemsExpand items items' extracted → ItemExpands crates g names item item' new →
      ItemsExpand (items ++ [item]) (items' ++ [item']) (extracted ++ new)

variable {crates g names}

/-- What an item adds to what was extracted before it. -/
def Extracted.add (st : Extracted V) (item : Item) (new : List (ExtractedRoute V)) : Extracted V :=
  ⟨st.items ++ [item], st.routeDefs ++ new.map ExtractedRoute.routeDef,
    st.generatedItems ++ new.flatMap ExtractedRoute.generatedItems⟩

/-- What a function can become: itself, or itself without its route. -/
theorem itemExpands_fn {f : ItemFn} {item' : Item} {new : List (ExtractedRoute V)}
    (h : ItemExpands crates g names (.fn f) item' new) :
    (NoRoute f.attrs ∧ item' = .fn f ∧ new = []) ∨ ∃ kind args others routeDef, OneRoute g f.attrs kind args others ∧
      expandRoute crates kind (args.resolve names) = some (.ok routeDef) ∧
      item' = .fn ⟨f.ident, others ++ [.allowDeadCode]⟩ ∧ new = [extractedFrom f routeDef] := by
  cases h with
  | plain _ hnone => exact .inl ⟨hnone, rfl, rfl⟩
  | route _ hone hdef => exact .inr ⟨_, _, _, _, hone, hdef, rfl, rfl⟩

/-- The macro on a function with a route. -/
theorem expandRouteFromFn_of_ok {f : ItemFn} {matched : MatchedRouteAttr}
    (hfind : findRouteAttr g f = .ok (some matched)) {routeDef : RouteDef (PipelineFn V)}
    (hdef : expandRoute crates matched.kind (matched.args.resolve names) = some (.ok routeDef)) :
    Yields (expandRouteFromFn crates g names f)
      (some (extractedFrom f routeDef), ⟨f.ident, f.attrs.eraseIdx matched.idx ++ [.allowDeadCode]⟩) := by
  unfold expandRouteFromFn
  rw [hfind]
  dsimp only
  rw [hdef]
  rfl

/-- The macro on a function with a route that is not accepted: its arguments are read, but its target cannot be
    compiled, so there is no result. -/
theorem not_expandRouteFromFn {f : ItemFn} {matched : MatchedRouteAttr}
    (hfind : findRouteAttr g f = .ok (some matched))
    (hdef : ∀ routeDef, expandRoute crates matched.kind (matched.args.resolve names) ≠ some (.ok routeDef))
    (r : Option (ExtractedRoute V) × ItemFn) : ¬ Yields (expandRouteFromFn crates g names f) r := by
  intro h
  unfold expandRouteFromFn at h
  rw [hfind] at h
  dsimp only at h
  cases hx : expandRoute crates matched.kind (matched.args.resolve names) with
  | none =>
      rw [hx] at h
      cases h
  | some x =>
      rw [hx] at h
      cases x with
      | error e => cases h
      | ok routeDef => exact hdef routeDef hx

/-- What a function becomes, and its route. By cases on what the search finds, and then on what the attribute
    expands to. -/
theorem expandRouteFromFn_ok {f f' : ItemFn} {extracted : Option (ExtractedRoute V)}
    (h : Yields (expandRouteFromFn crates g names f) (extracted, f')) :
    ItemExpands crates g names (.fn f) (.fn f') extracted.toList := by
  cases hfind : findRouteAttr g f with
  | error e =>
      unfold expandRouteFromFn at h
      rw [hfind] at h
      cases h
  | ok found =>
      cases found with
      | none =>
          unfold expandRouteFromFn at h
          rw [hfind] at h
          cases h
          exact .plain f (findRouteAttr_none_iff.mp hfind)
      | some matched =>
          by_cases hdef : ∃ routeDef,
              expandRoute crates matched.kind (matched.args.resolve names) = some (.ok routeDef)
          · obtain ⟨routeDef, hdef⟩ := hdef
            cases h.unique (expandRouteFromFn_of_ok hfind hdef)
            exact .route f (oneRoute_of_findRouteAttr hfind) hdef
          · rw [not_exists] at hdef
            exact absurd h (not_expandRouteFromFn hfind hdef _)

/-- The converse: what the relation allows is what the macro does. -/
theorem expandRouteFromFn_of_expands {f : ItemFn} {item' : Item} {new : List (ExtractedRoute V)}
    (h : ItemExpands crates g names (.fn f) item' new) :
    ∃ extracted f', Yields (expandRouteFromFn crates g names f) (extracted, f') ∧ item' = .fn f' ∧
      new = extracted.toList := by
  rcases itemExpands_fn h with ⟨hnone, rfl, rfl⟩ | ⟨kind, args, others, routeDef, hone, hdef, rfl, rfl⟩
  · refine ⟨none, f, ?_, rfl, rfl⟩
    unfold expandRouteFromFn
    rw [findRouteAttr_none_iff.mpr hnone]
    rfl
  · obtain ⟨idx, hfind, rfl⟩ := findRouteAttr_of_oneRoute hone
    exact ⟨some (extractedFrom f routeDef), _, expandRouteFromFn_of_ok hfind hdef, rfl, rfl⟩

/-- What is added to what was extracted before: the function as it is left, and its route if it has one. -/
theorem extractItem_of_expanded {st : Extracted V} {f f' : ItemFn} {extracted : Option (ExtractedRoute V)}
    (h : Yields (expandRouteFromFn crates g names f) (extracted, f')) :
    Yields (extractItem crates g names st (.fn f)) (st.add (.fn f') extracted.toList) := by
  unfold extractItem
  refine h.bind ?_
  cases extracted with
  | none =>
      show (some (.ok _) : Option (Except MacroError (Extracted V))) = some (.ok _)
      simp [Extracted.add]
  | some extracted =>
      show (some (.ok _) : Option (Except MacroError (Extracted V))) = some (.ok _)
      simp [Extracted.add]

/-- One round of the loop over the items: by cases on the item. -/
theorem extractItem_ok_iff {st st' : Extracted V} {item : Item} :
    Yields (extractItem crates g names st item) st' ↔
      ∃ item' new, ItemExpands crates g names item item' new ∧ st' = st.add item' new := by
  cases item with
  | other tokens =>
      constructor
      · intro h
        cases h
        exact ⟨_, [], .other tokens, by simp [Extracted.add]⟩
      · rintro ⟨item', new, h, rfl⟩
        cases h
        show (some (.ok _) : Option (Except MacroError (Extracted V))) = some (.ok _)
        simp [Extracted.add]
  | fn f =>
      constructor
      · intro h
        obtain ⟨⟨extracted, f'⟩, hexpand, -⟩ := yields_bind (x := expandRouteFromFn crates g names f) h
        exact ⟨.fn f', extracted.toList, expandRouteFromFn_ok hexpand, h.unique (extractItem_of_expanded hexpand)⟩
      · rintro ⟨item', new, h, rfl⟩
        obtain ⟨extracted, f', hexpand, rfl, rfl⟩ := expandRouteFromFn_of_expands h
        exact extractItem_of_expanded hexpand

/-- **The items of a module**, one after the other. Forwards by the invariant that the accumulator holds what
    the items seen so far have become and added; backwards by induction on the relation, one round of the loop
    for each item. -/
theorem extractItems_ok_iff {items : List Item} {st : Extracted V} :
    Yields (items.foldlM (extractItem crates g names) ⟨[], [], []⟩) st ↔
      ∃ items' extracted, ItemsExpand crates g names items items' extracted ∧
        st = ⟨items', extracted.map ExtractedRoute.routeDef, extracted.flatMap ExtractedRoute.generatedItems⟩ := by
  constructor
  · intro h
    refine foldlM_invariant (s := []) (I := fun items st => ∃ items' extracted,
      ItemsExpand crates g names items items' extracted ∧
        st = ⟨items', extracted.map ExtractedRoute.routeDef, extracted.flatMap ExtractedRoute.generatedItems⟩) ?_
      ⟨[], [], .nil, rfl⟩ h
    rintro seen item st st' ⟨items', extracted, hitems, rfl⟩ hstep
    obtain ⟨item', new, hitem, rfl⟩ := extractItem_ok_iff.mp hstep
    exact ⟨items' ++ [item'], extracted ++ new, .concat hitems hitem, by simp [Extracted.add]⟩
  · rintro ⟨items', extracted, hitems, rfl⟩
    induction hitems with
    | nil => rfl
    | concat hitems hitem ih =>
        rw [List.foldlM_append]
        refine Yields.bind ih ?_
        rw [List.foldlM_cons]
        refine Yields.bind (extractItem_ok_iff.mpr ⟨_, _, hitem, rfl⟩) ?_
        show (some (.ok _) : Option (Except MacroError (Extracted V))) = some (.ok _)
        simp [Extracted.add]

end

/-! ## The module

The arguments first, then the body, then the items; each step can fail, and the expansion needs all of them. -/

section
variable (crates : Crates V) (g : Grammar) (names : Names V)

/-- Step by step through the macro: `ServiceArgs.parse_ok_iff` for its arguments, the body, and
    `extractItems_ok_iff` for its items. -/
theorem expandService_ok_iff {crates : Crates V} {g : Grammar} {names : Names V} {args : List Token}
    {module : ItemMod} {expanded : ExpandedService V} :
    Yields (expandService crates g names args module) expanded ↔
      ∃ (service : Attr.ServiceArgs) (items items' : List Item) (extracted : List (ExtractedRoute V)),
        service.Phrase args ∧ module.content = some items ∧ ItemsExpand crates g names items items' extracted ∧
        expanded = ⟨items', extracted.flatMap ExtractedRoute.generatedItems,
          ⟨service.name.getD module.ident, service.servicePrefix.getD [], service.policy,
            extracted.map ExtractedRoute.routeDef⟩⟩ := by
  unfold expandService
  constructor
  · intro h
    cases hservice : Attr.ServiceArgs.parse args with
    | error e =>
        rw [hservice] at h
        cases h
    | ok service =>
        rw [hservice] at h
        cases hcontent : module.content with
        | none =>
            simp only [hcontent] at h
            cases h
        | some items =>
            simp only [hcontent] at h
            obtain ⟨st, hst, hrest⟩ := yields_bind h
            obtain ⟨items', extracted, hitems, rfl⟩ := extractItems_ok_iff.mp hst
            cases hrest
            exact ⟨service, items, items', extracted, Attr.ServiceArgs.parse_ok_iff.mp hservice, rfl, hitems, rfl⟩
  · rintro ⟨service, items, items', extracted, hservice, hcontent, hitems, rfl⟩
    rw [Attr.ServiceArgs.parse_ok_iff.mpr hservice]
    simp only [hcontent]
    exact Yields.bind (extractItems_ok_iff.mpr ⟨items', extracted, hitems, rfl⟩) rfl

/-- **What a service module expands to.** The macro goes through exactly when its arguments are those of a
    service, the module has a body, and each of its functions has no route attribute or one, whose arguments are
    those of a route and whose target can be compiled. Then every item is kept but for the route attributes, and
    the collection has one definition for each function with a route, in the order of the functions. -/
theorem service_expands_iff (args : List Token) (module : ItemMod) (expanded : ExpandedService V) :
    Yields (expandService crates g names args module) expanded ↔
      ∃ (service : Attr.ServiceArgs) (items items' : List Item) (extracted : List (ExtractedRoute V)),
        service.Phrase args ∧ module.content = some items ∧ ItemsExpand crates g names items items' extracted ∧
        expanded = ⟨items', extracted.flatMap ExtractedRoute.generatedItems,
          ⟨service.name.getD module.ident, service.servicePrefix.getD [], service.policy,
            extracted.map ExtractedRoute.routeDef⟩⟩ := expandService_ok_iff

end

/-! ## The route table

From a function of the module to an entry of the router. The definition of the function is one of the
collection, the collection is mounted by one of the calls, and the builder compiles every definition of every
mounted collection. -/

section
variable {crates : Crates V} {g : Grammar} {names : Names V}

/-- What the macro makes of a route attribute. -/
theorem expandRoute_ok {kind : Method} {args : RouteArgs V} {routeDef : RouteDef (PipelineFn V)}
    (h : expandRoute crates kind args = some (.ok routeDef)) :
    routeDef.method = kind ∧ routeDef.path = args.path ∧ routeDef.policy = args.policy ∧
      buildRewriteSpec args.path args.target = some (.ok routeDef.rewrite) ∧
      routeDef.pipeline = generatePipelineWrapper crates args kind.bodyInQuery := by
  unfold expandRoute at h
  cases hrewrite : buildRewriteSpec args.path args.target with
  | none =>
      rw [hrewrite] at h
      cases h
  | some r =>
      rw [hrewrite] at h
      cases r with
      | error e => cases h
      | ok rewrite =>
          cases h
          exact ⟨rfl, rfl, rfl, rfl, rfl⟩

/-- A function with a route has its definition: by induction on the items. A function has one route, so the
    definition is the one that its attribute expands to. -/
theorem ItemsExpand.definition {items items' : List Item} {extracted : List (ExtractedRoute V)}
    (h : ItemsExpand crates g names items items' extracted) {f : ItemFn} (hf : .fn f ∈ items) {kind : Method}
    {args : Attr.RouteArgs} {others : List Attribute} (hone : OneRoute g f.attrs kind args others) :
    ∃ e ∈ extracted, expandRoute crates kind (args.resolve names) = some (.ok e.routeDef) := by
  induction h with
  | nil => cases hf
  | concat hitems hitem ih =>
      rcases List.mem_append.mp hf with hf | hf
      · obtain ⟨e, he, hdef⟩ := ih hf
        exact ⟨e, List.mem_append_left _ he, hdef⟩
      · obtain rfl := List.mem_singleton.mp hf
        obtain ⟨idx, hfind, -⟩ := findRouteAttr_of_oneRoute hone
        rcases itemExpands_fn hitem with ⟨hnone, -, -⟩ | ⟨kind', args', others', routeDef, hone', hdef, -, rfl⟩
        · rw [findRouteAttr_none_iff.mpr hnone] at hfind
          cases hfind
        · obtain ⟨idx', hfind', -⟩ := findRouteAttr_of_oneRoute hone'
          rw [hfind'] at hfind
          cases hfind
          exact ⟨_, List.mem_append_right _ (List.mem_singleton_self _), hdef⟩

/-- A definition is that of a function with a route, by the same induction. -/
theorem ItemsExpand.function {items items' : List Item} {extracted : List (ExtractedRoute V)}
    (h : ItemsExpand crates g names items items' extracted) {e : ExtractedRoute V} (he : e ∈ extracted) :
    ∃ f kind args others, .fn f ∈ items ∧ OneRoute g f.attrs kind args others ∧
      expandRoute crates kind (args.resolve names) = some (.ok e.routeDef) := by
  induction h with
  | nil => cases he
  | @concat items items' item item' extracted new hitems hitem ih =>
      rcases List.mem_append.mp he with he | he
      · obtain ⟨f, kind, args, others, hf, hone, hdef⟩ := ih he
        exact ⟨f, kind, args, others, List.mem_append_left _ hf, hone, hdef⟩
      · cases hitem with
        | other tokens => cases he
        | plain f hnone => cases he
        | route f hone hdef =>
            obtain rfl := List.mem_singleton.mp he
            exact ⟨f, _, _, _, List.mem_append_right _ (List.mem_singleton_self _), hone, hdef⟩

/-- The metadata of a route is what its attribute and the builder calls ask for. -/
structure AskedFor (crates : Crates V) (names : Names V) (calls : List (BuilderCall V ρ σ))
    (routes : Routes (PipelineFn V)) (kind : Method) (args : Attr.RouteArgs) (m : RouteMeta (PipelineFn V)) :
    Prop where
  service : m.service = routes.service
  servicePrefix : m.servicePrefix = routes.servicePrefix
  routePath : m.routePath = args.path
  pool : ∃ urls, registeredUrls calls routes.service = some urls ∧ PoolOf crates urls m.pool
  policy : registeredPolicy calls (args.policy.or routes.policy) = some m.policy
  pipeline : m.pipeline = generatePipelineWrapper crates (args.resolve names) kind.bodyInQuery
  rewrite : ∃ spec, buildRewriteSpec args.path args.target = some (.ok spec) ∧ spec.toRewrite crates = some m.rewrite

/-- The handler of an annotated function. The metadata of the definition come from the lemmas on the builder,
    and the fields of the definition from `expandRoute_ok`; joined, they are what `AskedFor` asks for. -/
theorem served_of_expansion {args : List Token} {module : ItemMod} {expanded : ExpandedService V}
    (hexpand : Yields (expandService crates g names args module) expanded) {calls : List (BuilderCall V ρ σ)}
    (hmount : expanded.routes ∈ collections calls) {app : App V ρ σ}
    (hbuild : Yields ((AppBuilder.ofCalls calls).build crates) app) {items : List Item}
    (hitems : module.content = some items) {f : ItemFn} (hf : .fn f ∈ items) {kind : Method}
    {routeArgs : Attr.RouteArgs} {others : List Attribute} (hone : OneRoute g f.attrs kind routeArgs others) :
    ∃ (k : Nat) (m : RouteMeta (PipelineFn V)),
      app.router[k]? = some ⟨kind, join expanded.routes.servicePrefix routeArgs.path, k⟩ ∧
      app.inner.routeMetas[k]? = some m ∧ AskedFor crates names calls expanded.routes kind routeArgs m := by
  obtain ⟨service, items₁, items', extracted, -, hcontent, hexpands, hexpanded⟩ := expandService_ok_iff.mp hexpand
  obtain rfl := Option.some.inj (hitems.symm.trans hcontent)
  obtain ⟨e, he, hdef⟩ := hexpands.definition hf hone
  obtain ⟨hmethod, hpath, hpolicy, hrewrite, hpipeline⟩ := expandRoute_ok hdef
  -- the definition is one of the configuration
  have hroutes : e.routeDef ∈ expanded.routes.routes := by
    rw [hexpanded]
    exact List.mem_map_of_mem he
  have hdefinition : (expanded.routes, e.routeDef) ∈ definitions calls :=
    List.mem_flatMap.mpr ⟨expanded.routes, hmount, List.mem_map_of_mem hroutes⟩
  obtain ⟨k, hk⟩ := List.mem_iff_getElem?.mp hdefinition
  obtain ⟨hrouter, m, hm, hdescribes⟩ := (compiledFrom_of_build hbuild).handlers k _ hk
  have hwanted : registeredPolicy calls (routeArgs.policy.or expanded.routes.policy) = some m.policy := by
    have hregistered := hdescribes.policy
    dsimp only at hregistered
    rwa [hpolicy] at hregistered
  refine ⟨k, m, ?_, hm, ?_⟩
  · rw [hrouter, handlerOf, hmethod, hpath]
    rfl
  · exact ⟨hdescribes.service, hdescribes.servicePrefix, hdescribes.routePath.trans hpath, hdescribes.pool,
      hwanted, hdescribes.pipeline.trans hpipeline, _, hrewrite, hdescribes.rewrite⟩

/-- **An annotated function is served.** In every application that is built from calls which mount the expansion
    of a module, each function of the module with a route attribute has a handler, of the attribute's method, at
    its path behind the service prefix, and the handler's metadata are what the attribute asks for. -/
theorem annotated_function_is_served {args : List Token} {module : ItemMod} {expanded : ExpandedService V}
    (hexpand : Yields (expandService crates g names args module) expanded) {calls : List (BuilderCall V ρ σ)}
    (hmount : expanded.routes ∈ collections calls) {app : App V ρ σ}
    (hbuild : Yields ((AppBuilder.ofCalls calls).build crates) app) {items : List Item}
    (hitems : module.content = some items) {f : ItemFn} (hf : .fn f ∈ items) {kind : Method}
    {routeArgs : Attr.RouteArgs} {others : List Attribute} (hone : OneRoute g f.attrs kind routeArgs others) :
    ∃ (k : Nat) (m : RouteMeta (PipelineFn V)),
      app.router[k]? = some ⟨kind, join expanded.routes.servicePrefix routeArgs.path, k⟩ ∧
      app.inner.routeMetas[k]? = some m ∧ AskedFor crates names calls expanded.routes kind routeArgs m :=
  served_of_expansion hexpand hmount hbuild hitems hf hone

end

/-! ## A service

One function with a JSON body, behind a prefix, in a module that is mounted with one backend. -/

/-- Hooks and maps that do nothing. -/
def idleNames : Names Str where
  ty := Types.plain.resolve
  hook _ _ := ([], .ok ())
  map _ _ _ _ := ([], .ok .keep)

/-- `#[apigate::get("/items", json = Input)] async fn items() {}` -/
def itemsFn : ItemFn :=
  ⟨str "items", [⟨Attr.identPath (str "get"), .list (.litStr (str "/items") :: Attr.jsonInput)⟩]⟩

/-- `#[apigate::service(prefix = "/api")] mod sales { ... }` -/
def salesModule : ItemMod := ⟨str "sales", some [.fn itemsFn]⟩

def salesArgs : List Token := [.ident (str "prefix"), .punct '=', .litStr (str "/api")]

/-- What the attribute of the function says. -/
def itemsArgs : Attr.RouteArgs :=
  ⟨str "/items", none, none, [], none, none, .json (.path none (Attr.identPath (str "Input"))), none⟩

theorem oneRoute_itemsFn : OneRoute Attr.identGrammar itemsFn.attrs .get itemsArgs [] := by
  refine ⟨[], _, [], _, rfl, rfl, noRoute_nil, rfl, rfl, ?_⟩
  exact Attr.RouteArgs.parse_ok_iff.mp rfl

/-- The theorem at this module, mounted with a backend. -/
theorem annotated_function_is_served_items :
    ∃ (routes : Routes (PipelineFn Str)) (app : App Str NoRouteKey RoundRobin) (k : Nat)
      (m : RouteMeta (PipelineFn Str)),
      app.router[k]? = some ⟨.get, join routes.servicePrefix (str "/items"), k⟩ ∧ app.inner.routeMetas[k]? = some m ∧
        AskedFor (ρ := NoRouteKey) (σ := RoundRobin) .plain idleNames [.mountService routes [str "http://up"]] routes
          .get
          itemsArgs m := by
  obtain ⟨expanded, hexpand⟩ : ∃ expanded,
      Yields (expandService .plain Attr.identGrammar idleNames salesArgs salesModule) expanded := ⟨_, rfl⟩
  have hcalls : expanded.routes ∈
      collections [BuilderCall.mountService (ρ := NoRouteKey) (σ := RoundRobin) expanded.routes [str "http://up"]] :=
    List.mem_singleton_self _
  obtain ⟨app, hbuild⟩ : ∃ app, Yields ((AppBuilder.ofCalls
      [BuilderCall.mountService (ρ := NoRouteKey) (σ := RoundRobin) expanded.routes [str "http://up"]]).build .plain)
      app := by
    cases hexpand
    exact ⟨_, rfl⟩
  obtain ⟨k, m, hk⟩ := annotated_function_is_served hexpand hcalls hbuild rfl (List.mem_singleton_self _)
    oneRoute_itemsFn
  exact ⟨expanded.routes, app, k, m, hk⟩

/-! ## A service with a rewritten path

A function whose path has a parameter and whose target uses it, expanded by the macro as it stands. -/

/-- What the attribute of `itemFn` says. -/
def itemArgs : Attr.RouteArgs :=
  ⟨str "/items/{id}", some (str "/v2/{id}"), none, [], none, none, .none, none⟩

/-- `#[apigate::get("/items/{id}", to = "/v2/{id}")] async fn item() {}` -/
def itemFn : ItemFn :=
  ⟨str "item", [⟨Attr.identPath (str "get"), .list
    [.litStr itemArgs.path, .punct ',', .ident (str "to"), .punct '=', .litStr (str "/v2/{id}")]⟩]⟩

theorem oneRoute_itemFn : OneRoute Attr.identGrammar itemFn.attrs .get itemArgs [] := by
  refine ⟨[], _, [], _, rfl, rfl, noRoute_nil, rfl, rfl, ?_⟩
  exact Attr.RouteArgs.parse_ok_iff.mp rfl

/-- The definition of its route. -/
def itemRoute : RouteDef (PipelineFn Str) :=
  ⟨.get, itemArgs.path, .template ⟨[.lit (str "items"), .param], [.lit (str "/v2/"), .capture 0], 4⟩, none, none⟩

theorem expandRoute_item : expandRoute .plain .get (itemArgs.resolve idleNames) = some (.ok itemRoute) := by
  have hspec : buildRewriteSpec itemArgs.path itemArgs.target = some (.ok itemRoute.rewrite) := by decide +kernel
  unfold expandRoute
  change (buildRewriteSpec itemArgs.path itemArgs.target).bind _ = _
  rw [hspec]
  rfl

/-- The collection of the service. -/
def itemRoutes : Routes (PipelineFn Str) := ⟨str "sales", str "/api", none, [itemRoute]⟩

theorem expandService_item : Yields (expandService .plain Attr.identGrammar idleNames salesArgs
    ⟨str "sales", some [.fn itemFn]⟩) ⟨[.fn ⟨str "item", [.allowDeadCode]⟩], [], itemRoutes⟩ := by
  refine expandService_ok_iff.mpr ⟨⟨none, some (str "/api"), none⟩, [.fn itemFn], _,
    [extractedFrom itemFn itemRoute], Attr.ServiceArgs.parse_ok_iff.mp rfl, rfl, ?_, rfl⟩
  exact .concat .nil (.route itemFn oneRoute_itemFn expandRoute_item)

def itemRequest : Request Str :=
  ⟨⟨str "GET", ⟨none, none, some ⟨str "/api/items/7", some (str "q=1")⟩⟩, str "HTTP/1.1", .empty, .empty⟩,
    .ofBytes []⟩

end Apigate
