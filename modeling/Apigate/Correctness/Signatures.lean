import Apigate.Macros.Expand
import Apigate.Lib.Grouping

/-!
# `Correctness.Signatures` — accepted signatures bind validly, whatever their order

The bindings are emitted in six groups. What a group borrows is known from the group alone, so the five rules of
`validatePlans` can be compared with the conflicts between the groups; and inside a group the order of the
statements does not matter, so that neither does the order of the parameters.

The five rules count parameters by their kind, while a conflict of borrows is between two statements that stand
in some order. `Lib.Borrow` brings the two together: a row of blocks, each of statements with one borrow, is
free of conflicts if and only if no block conflicts with itself or with a later one, and that depends on the
blocks' sizes only (`Compatible`). The order in which the groups are emitted is used here, once: what is taken
and dropped at once comes before what is held, so `take` and `raw` never stand behind a borrow that lives.

For the order of the parameters there are two parts as well:

* the plans. A reordered signature gives the same plans in another order, except that a map keeps its first
  owned parameter; which one that is has to be the same (`buildParamPlans_perm`);
* the statements. Reordered plans give groups that are reordered inside, and two statements of one group
  commute: those that read leave the state alone, and two `take`s do if they are for different types
  (`pairwise_commute`, `Machine.attempt_groups_perm`).

Acceptance depends on the sizes of the groups, and a permutation does not change these.
-/

namespace Apigate
open Lib Syn Borrow Grouping

/-! ## The six groups

Where each kind of parameter goes, and the statement that binds it. `push` appends a statement to one group, and
so after the loop each group holds the statements of its parameters in their order. -/

inductive BindingGroup where
  | raw
  | ctx
  | take
  | get
  | getMut
  | scope
  deriving DecidableEq

namespace BindingGroup

/-- The order they are emitted in. -/
def emitted : List BindingGroup := [raw, ctx, take, get, getMut, scope]

theorem mem_emitted (g : BindingGroup) : g ∈ emitted := by cases g <;> decide

end BindingGroup

def ParamSource.group : ParamSource → BindingGroup
  | partsCtx => .ctx
  | requestScope => .scope
  | scopeRef _ => .get
  | scopeMut _ => .getMut
  | scopeTake => .take
  | rawBody => .raw

namespace ParamPlan

def group (plan : ParamPlan) : BindingGroup := plan.source.group

def init (plan : ParamPlan) : Init :=
  match plan.source with
  | .partsCtx => .ctx
  | .requestScope => .scope
  | .scopeRef inner => .orMissing (.get inner) inner
  | .scopeMut inner => .orMissing (.getMut inner) inner
  | .scopeTake => .orMissing (.take plan.ty) plan.ty
  | .rawBody => .orMissing .rawBodyCloned plan.ty

/-- The statement that binds the parameter. -/
def binding (plan : ParamPlan) : LetStmt := ⟨plan.pat, plan.ty, plan.init⟩

end ParamPlan

def BindingTokens.of (tokens : BindingTokens) : BindingGroup → List LetStmt
  | .raw => tokens.raw
  | .ctx => tokens.ctx
  | .take => tokens.take
  | .get => tokens.get
  | .getMut => tokens.getMut
  | .scope => tokens.scope

/-- A parameter goes to its own group. -/
theorem push_of (tokens : BindingTokens) (plan : ParamPlan) (g : BindingGroup) :
    (tokens.push plan).of g = if plan.group = g then tokens.of g ++ [plan.binding] else tokens.of g := by
  unfold BindingTokens.push ParamPlan.binding ParamPlan.init ParamPlan.group
  cases plan.source <;> cases g <;> rfl

/-- The groups after the loop, by induction on the plans. -/
theorem foldl_push_of (plans : List ParamPlan) (tokens : BindingTokens) (g : BindingGroup) :
    (plans.foldl BindingTokens.push tokens).of g =
      tokens.of g ++ (groupOf ParamPlan.group plans g).map ParamPlan.binding := by
  induction plans generalizing tokens with
  | nil => exact (List.append_nil _).symm
  | cons plan plans ih =>
      rw [List.foldl_cons, ih, push_of, groupOf_cons]
      by_cases hg : plan.group = g
      · rw [if_pos hg, if_pos hg, List.map_cons, List.append_assoc, List.singleton_append]
      · rw [if_neg hg, if_neg hg]

/-- **The statements, group by group.** -/
theorem buildBindings_eq (plans : List ParamPlan) :
    buildBindings plans =
      (BindingGroup.emitted.map fun g => (groupOf ParamPlan.group plans g).map ParamPlan.binding).flatten := by
  have hof : (plans.foldl BindingTokens.push .empty).groups =
      BindingGroup.emitted.map (plans.foldl BindingTokens.push .empty).of := rfl
  unfold buildBindings
  rw [hof]
  congr 1
  apply List.map_congr_left
  intro g _
  rw [foldl_push_of]
  cases g <;> rfl

/-! ## Borrows

What the emitted statements borrow, as the expansion writes them. `ctx` and the scope are the two `&mut`
arguments of the generated function; a statement reborrows one of them, and the reference lives on in the body
or is dropped with the statement. -/

/-- What a binding can borrow. -/
inductive BorrowedPlace where
  | ctx
  | scope
  deriving DecidableEq

/-- The borrow of a statement. References into the scope, and the two arguments themselves, live as long as the
    body does; values are taken or cloned at once. -/
def LetStmt.access (stmt : LetStmt) : Access BorrowedPlace :=
  match stmt.init with
  | .ctx => ⟨.ctx, .exclusive, true⟩
  | .scope => ⟨.scope, .exclusive, true⟩
  | .orMissing (.take _) _ => ⟨.scope, .exclusive, false⟩
  | .orMissing (.get _) _ => ⟨.scope, .shared, true⟩
  | .orMissing (.getMut _) _ => ⟨.scope, .exclusive, true⟩
  | .orMissing .rawBodyCloned _ => ⟨.scope, .shared, false⟩

/-- The borrow that all statements of a group take. -/
def BindingGroup.access : BindingGroup → Access BorrowedPlace
  | ctx => ⟨.ctx, .exclusive, true⟩
  | scope => ⟨.scope, .exclusive, true⟩
  | take => ⟨.scope, .exclusive, false⟩
  | get => ⟨.scope, .shared, true⟩
  | getMut => ⟨.scope, .exclusive, true⟩
  | raw => ⟨.scope, .shared, false⟩

/-- The borrow of a statement is the one of its group. -/
theorem binding_access (plan : ParamPlan) : plan.binding.access = plan.group.access := by
  unfold LetStmt.access ParamPlan.binding ParamPlan.init ParamPlan.group
  cases plan.source <;> rfl

/-- So many statements of a group. -/
def BindingGroup.block (g : BindingGroup) (n : Nat) : Block BorrowedPlace := ⟨g.access, n⟩

/-- Groups of these sizes go together: only those that hold on to a borrow count. -/
def Compatible (n : BindingGroup → Nat) : Prop :=
  n .ctx ≤ 1 ∧ n .scope ≤ 1 ∧ n .getMut ≤ 1 ∧ ¬ (0 < n .scope ∧ (0 < n .get ∨ 0 < n .getMut)) ∧
    ¬ (0 < n .getMut ∧ 0 < n .get)

/-- Between the groups, conflicts come down to their sizes: a group of held exclusive borrows has one statement
    at most, and of two groups that exclude each other, the first of which is held, one is empty. -/
theorem valid_groups_iff (n : BindingGroup → Nat) :
    Valid ((BindingGroup.emitted.map fun g => g.block (n g)).map Block.accesses).flatten ↔ Compatible n := by
  have hown : (∀ b ∈ BindingGroup.emitted.map fun g => g.block (n g),
      b.count ≤ 1 ∨ ¬ Conflicts b.access b.access) ↔ n .ctx ≤ 1 ∧ n .getMut ≤ 1 ∧ n .scope ≤ 1 := by
    simp [BindingGroup.emitted, BindingGroup.block, BindingGroup.access, Conflicts]
  have hpairs : ((BindingGroup.emitted.map fun g => g.block (n g)).Pairwise fun b c =>
      0 < b.count → 0 < c.count → ¬ Conflicts b.access c.access) ↔
        ((0 < n .get → n .getMut = 0) ∧ (0 < n .get → n .scope = 0)) ∧ (0 < n .getMut → n .scope = 0) := by
    simp [BindingGroup.emitted, BindingGroup.block, BindingGroup.access, Conflicts]
  rw [valid_blocks, hown, hpairs]
  unfold Compatible
  omega

/-- The statements of a group are a block. -/
theorem map_access_groupOf (plans : List ParamPlan) (g : BindingGroup) :
    ((groupOf ParamPlan.group plans g).map ParamPlan.binding).map LetStmt.access =
      (g.block (groupOf ParamPlan.group plans g).length).accesses := by
  apply List.eq_replicate_iff.mpr
  constructor
  · rw [List.length_map, List.length_map]
    rfl
  · simp only [List.forall_mem_map]
    intro plan hplan
    rw [binding_access, key_of_mem hplan]
    rfl

/-- All statements are the blocks of the groups, in the order in which these are emitted. -/
theorem map_access_buildBindings (plans : List ParamPlan) :
    (buildBindings plans).map LetStmt.access =
      ((BindingGroup.emitted.map fun g =>
        g.block (groupOf ParamPlan.group plans g).length).map Block.accesses).flatten := by
  rw [buildBindings_eq, List.map_flatten, List.map_map, List.map_map]
  congr 1
  apply List.map_congr_left
  intro g _
  exact map_access_groupOf plans g

/-! ## The rules of `validatePlans`

The loop counts four groups, and the rules are comparisons of the counts. -/

/-- What the loop has counted, by induction on the plans: the sizes of four of the groups. -/
theorem foldl_count (plans : List ParamPlan) (s : BorrowSummary) :
    plans.foldl BorrowSummary.count s =
      ⟨s.seenCtx + (groupOf ParamPlan.group plans .ctx).length,
        s.seenScope + (groupOf ParamPlan.group plans .scope).length,
        s.immutBorrowedFromScope + (groupOf ParamPlan.group plans .get).length,
        s.mutBorrowedFromScope + (groupOf ParamPlan.group plans .getMut).length⟩ := by
  induction plans generalizing s with
  | nil => rfl
  | cons plan plans ih =>
      obtain ⟨pat, ty, source⟩ := plan
      rw [List.foldl_cons, ih]
      unfold BorrowSummary.count
      simp only [groupOf_cons, ParamPlan.group]
      cases source <;> simp [ParamSource.group, Nat.add_assoc, Nat.add_comm 1]

/-- All five rules hold exactly where the groups go together. The other two groups, `take` and `raw`, hold on to
    nothing and are not counted. -/
theorem validatePlans_ok_iff (plans : List ParamPlan) (macroName : Str) :
    validatePlans plans macroName = .ok () ↔ Compatible fun g => (groupOf ParamPlan.group plans g).length := by
  unfold validatePlans Compatible
  rw [foldl_count]
  simp only [BorrowSummary.default, Nat.zero_add]
  split_ifs with hctx hscope hmut hmixed hboth
  · exact iff_of_false (by rintro ⟨⟩) (by omega)
  · exact iff_of_false (by rintro ⟨⟩) (by omega)
  · exact iff_of_false (by rintro ⟨⟩) (by omega)
  · exact iff_of_false (by rintro ⟨⟩) (by omega)
  · exact iff_of_false (by rintro ⟨⟩) (by omega)
  · exact iff_of_true rfl (by omega)

/-- **The rules are exactly the conflicts.** Both sides say that groups of these sizes go together. -/
theorem validatePlans_ok_iff_valid (plans : List ParamPlan) (macroName : Str) :
    validatePlans plans macroName = .ok () ↔ Valid ((buildBindings plans).map LetStmt.access) := by
  rw [map_access_buildBindings, valid_groups_iff, validatePlans_ok_iff]

/-! ## From parameters to plans

The loop over the parameters classifies each of them, refuses what the mode does not take, and sets one
parameter of a map aside. `place` is what is left of it when nothing is refused. -/

/-- The plan of one parameter. -/
def Planned (special : SpecialTypePaths) (param : FnArg) (plan : ParamPlan) : Prop :=
  param = plan.param ∧ classifyParam plan.ty special = .ok plan.source

/-- The classification is decided by the type alone. -/
theorem Planned.unique {special : SpecialTypePaths} {param : FnArg} {plan plan' : ParamPlan}
    (h : Planned special param plan) (h' : Planned special param plan') : plan = plan' := by
  obtain ⟨pat, ty, source⟩ := plan
  obtain ⟨pat', ty', source'⟩ := plan'
  obtain ⟨rfl, hsource⟩ := h
  obtain ⟨hparam, hsource'⟩ := h'
  cases hparam
  cases hsource.symm.trans hsource'
  rfl

namespace ExpansionMode

/-- The mode takes parameters of this source at all. -/
def Takes (mode : ExpansionMode) (plan : ParamPlan) : Prop := plan.source = .rawBody → mode = .map

/-- The mode would keep the parameter if it came first. -/
def keeps (mode : ExpansionMode) (plan : ParamPlan) : Bool := plan.source.owned && mode.keepsFirstOwnedParam

/-- A plan is kept or bound. -/
def place (mode : ExpansionMode) : List ParamPlan × Option FnArg → ParamPlan → List ParamPlan × Option FnArg
  | (plans, kept), plan =>
      if mode.keeps plan && kept.isNone then (plans, some plan.param) else (plans ++ [plan], kept)

/-- The parameter that stays: the first owned one of a map. -/
def keptParam (mode : ExpansionMode) (special : SpecialTypePaths) (inputs : List FnArg) : Option FnArg :=
  inputs.find? fun param => match param with
    | .receiver _ => false
    | .typed _ ty => match classifyParam ty special with
      | .error _ => false
      | .ok source => source.owned && mode.keepsFirstOwnedParam

end ExpansionMode

/-- One round of the loop. By cases on the parameter, its source and the mode, as in the source; the errors are
    all on one side. -/
theorem planParam_ok_iff {special : SpecialTypePaths} {mode : ExpansionMode}
    {acc : List ParamPlan × Option FnArg} {param : FnArg} {r : List ParamPlan × Option FnArg} :
    planParam special mode acc param = .ok r ↔
      ∃ plan, Planned special param plan ∧ mode.Takes plan ∧ r = mode.place acc plan := by
  obtain ⟨plans, kept⟩ := acc
  cases param with
  | receiver tokens =>
      constructor
      · rintro ⟨⟩
      · rintro ⟨plan, ⟨⟨⟩, -⟩, -⟩
  | typed pat ty =>
      cases hsource : classifyParam ty special with
      | error err =>
          simp only [planParam, hsource]
          constructor
          · rintro ⟨⟩
          · rintro ⟨plan, ⟨hparam, hplan⟩, -⟩
            cases hparam
            cases hsource.symm.trans hplan
      | ok source =>
          have hplanned : Planned special (.typed pat ty) ⟨pat, ty, source⟩ := ⟨rfl, hsource⟩
          have hplace : (if source.owned && mode.keepsFirstOwnedParam && kept.isNone then
              Except.ok (plans, some (.typed pat ty)) else .ok (plans ++ [⟨pat, ty, source⟩], kept) :
                Except Syn.Error _) = .ok (mode.place (plans, kept) ⟨pat, ty, source⟩) := by
            unfold ExpansionMode.place
            exact (apply_ite Except.ok _ _ _).symm
          simp only [planParam, hsource, hplace]
          by_cases hraw : source = .rawBody ∧ mode ≠ .map
          · rw [if_pos hraw]
            constructor
            · rintro ⟨⟩
            · rintro ⟨plan, hplan, htakes, -⟩
              rw [hplan.unique hplanned] at htakes
              exact absurd (htakes hraw.1) hraw.2
          · rw [if_neg hraw]
            constructor
            · rintro ⟨⟩
              exact ⟨_, hplanned, fun h => not_not.mp fun hmode => hraw ⟨h, hmode⟩, rfl⟩
            · rintro ⟨plan, hplan, -, rfl⟩
              rw [hplan.unique hplanned]

/-- The whole loop succeeds when every round does: every parameter has a plan, and the mode takes all of them.
    By induction on the parameters. -/
theorem foldlM_planParam_ok_iff {special : SpecialTypePaths} {mode : ExpansionMode} {inputs : List FnArg}
    {acc r : List ParamPlan × Option FnArg} :
    inputs.foldlM (planParam special mode) acc = .ok r ↔
      ∃ all, List.Forall₂ (Planned special) inputs all ∧ (∀ plan ∈ all, mode.Takes plan) ∧
        r = all.foldl mode.place acc := by
  induction inputs generalizing acc with
  | nil =>
      constructor
      · rintro ⟨⟩
        exact ⟨[], .nil, by simp, rfl⟩
      · rintro ⟨all, hall, -, rfl⟩
        cases hall
        rfl
  | cons param inputs ih =>
      rw [List.foldlM_cons]
      constructor
      · intro h
        cases hparam : planParam special mode acc param with
        | error err =>
            rw [hparam] at h
            cases h
        | ok next =>
            rw [hparam] at h
            obtain ⟨plan, hplan, htakes, rfl⟩ := planParam_ok_iff.mp hparam
            obtain ⟨all, hall, hall', rfl⟩ := ih.mp h
            exact ⟨plan :: all, .cons hplan hall, List.forall_mem_cons.mpr ⟨htakes, hall'⟩, rfl⟩
      · rintro ⟨all, hall, htakes, rfl⟩
        cases hall with
        | @cons _ plan _ all hplan hall =>
            obtain ⟨htakes, hrest⟩ := List.forall_mem_cons.mp htakes
            rw [planParam_ok_iff.mpr ⟨plan, hplan, htakes, rfl⟩]
            exact ih.mpr ⟨all, hall, hrest, rfl⟩

/-- Once a parameter is kept, the others are bound. -/
theorem foldl_place_kept (mode : ExpansionMode) (all plans : List ParamPlan) (param : FnArg) :
    all.foldl mode.place (plans, some param) = (plans ++ all, some param) := by
  induction all generalizing plans with
  | nil => simp
  | cons plan all ih =>
      have hplace : mode.place (plans, some param) plan = (plans ++ [plan], some param) := by
        simp [ExpansionMode.place]
      rw [List.foldl_cons, hplace, ih, List.append_assoc, List.singleton_append]

/-- Which plans are bound: all but the first one that the mode keeps, in their order. -/
theorem foldl_place (mode : ExpansionMode) (all plans : List ParamPlan) :
    all.foldl mode.place (plans, none) =
      (plans ++ all.eraseP mode.keeps, (all.find? mode.keeps).map ParamPlan.param) := by
  induction all generalizing plans with
  | nil => simp
  | cons plan all ih =>
      cases hkeeps : mode.keeps plan with
      | true =>
          have hplace : mode.place (plans, none) plan = (plans, some plan.param) := by
            simp [ExpansionMode.place, hkeeps]
          rw [List.foldl_cons, hplace, foldl_place_kept, List.find?_cons_of_pos hkeeps,
            List.eraseP_cons_of_pos hkeeps]
          rfl
      | false =>
          have hne : ¬ mode.keeps plan = true := by simp [hkeeps]
          have hplace : mode.place (plans, none) plan = (plans ++ [plan], none) := by
            simp [ExpansionMode.place, hkeeps]
          rw [List.foldl_cons, hplace, ih, List.find?_cons_of_neg hne, List.eraseP_cons_of_neg hne,
            List.append_assoc, List.singleton_append]

/-- **What the loop builds**: every parameter is classified, the kept one is taken out. -/
theorem buildParamPlans_ok_iff {special : SpecialTypePaths} {mode : ExpansionMode} {inputs : List FnArg}
    {plans : List ParamPlan} {kept : Option FnArg} :
    buildParamPlans special mode inputs = .ok (plans, kept) ↔
      ∃ all, List.Forall₂ (Planned special) inputs all ∧ (∀ plan ∈ all, mode.Takes plan) ∧
        plans = all.eraseP mode.keeps ∧ kept = (all.find? mode.keeps).map ParamPlan.param := by
  unfold buildParamPlans
  rw [foldlM_planParam_ok_iff]
  simp only [foldl_place, List.nil_append, Prod.mk.injEq]

/-- The parameter that stays can be found without the loop. -/
theorem keptParam_eq {special : SpecialTypePaths} {mode : ExpansionMode} {inputs : List FnArg}
    {all : List ParamPlan} (h : List.Forall₂ (Planned special) inputs all) :
    mode.keptParam special inputs = (all.find? mode.keeps).map ParamPlan.param := by
  induction h with
  | nil => rfl
  | @cons param plan inputs all hplan _ ih =>
      obtain ⟨rfl, hsource⟩ := hplan
      unfold ExpansionMode.keptParam at ih ⊢
      rw [List.find?_cons, List.find?_cons]
      simp only [ParamPlan.param, hsource]
      have hkeeps : mode.keeps plan = (plan.source.owned && mode.keepsFirstOwnedParam) := rfl
      rw [ih, hkeeps]
      cases plan.source.owned && mode.keepsFirstOwnedParam with
      | true => rfl
      | false => rfl

/-! ## Every parameter is bound once

The groups together hold every plan once (`Lib.Grouping`), and the one parameter without a statement is the one
that is kept. -/

/-- The statements are those of the plans in another order: every plan is in one group, and all groups are
    emitted. -/
theorem buildBindings_perm (plans : List ParamPlan) :
    (buildBindings plans).Perm (plans.map ParamPlan.binding) := by
  have hgroups : ((BindingGroup.emitted.map (groupOf ParamPlan.group plans)).flatten).Perm plans :=
    flatten_groupOf_perm ParamPlan.group plans (by decide) fun plan _ => BindingGroup.mem_emitted _
  have hmap : buildBindings plans =
      ((BindingGroup.emitted.map (groupOf ParamPlan.group plans)).flatten).map ParamPlan.binding := by
    rw [buildBindings_eq, List.map_flatten, List.map_map]
    rfl
  rw [hmap]
  exact hgroups.map _

/-- A plan holds the parameter that it was made from. -/
theorem map_param_eq {special : SpecialTypePaths} {inputs : List FnArg} {all : List ParamPlan}
    (h : List.Forall₂ (Planned special) inputs all) : all.map ParamPlan.param = inputs := by
  induction h with
  | nil => rfl
  | cons hplan _ ih => rw [List.map_cons, ih, ← hplan.1]

/-- The kept parameter and the bound ones are all there are. -/
theorem params_perm {special : SpecialTypePaths} {mode : ExpansionMode} {inputs : List FnArg}
    {plans : List ParamPlan} {kept : Option FnArg}
    (h : buildParamPlans special mode inputs = .ok (plans, kept)) :
    (kept.toList ++ (buildBindings plans).map LetStmt.param).Perm inputs := by
  obtain ⟨all, hall, -, rfl, rfl⟩ := buildParamPlans_ok_iff.mp h
  have hbindings : ((buildBindings (all.eraseP mode.keeps)).map LetStmt.param).Perm
      ((all.eraseP mode.keeps).map ParamPlan.param) := by
    have hperm := (buildBindings_perm (all.eraseP mode.keeps)).map LetStmt.param
    rwa [List.map_map] at hperm
  have hsplit := (find?_append_eraseP_perm mode.keeps all).map ParamPlan.param
  rw [List.map_append, map_param_eq hall] at hsplit
  have hkept : ((all.find? mode.keeps).map ParamPlan.param).toList =
      (all.find? mode.keeps).toList.map ParamPlan.param := by
    cases all.find? mode.keeps <;> rfl
  rw [hkept]
  exact (hbindings.append_left _).trans hsplit

/-! ## The order of the parameters

A permutation of the parameters carries over to the plans because a plan is made of its parameter alone, and to
the sizes of the groups because these do not depend on an order. -/

/-- Two parameters of different types. -/
def DifferentTypes (types : Types) : FnArg → FnArg → Prop
  | .typed _ ty, .typed _ ty' => types.resolve ty ≠ types.resolve ty'
  | .receiver _, _ | .typed _ _, .receiver _ => True

/-- Every plan of a signature is the plan of its parameter. -/
theorem planned_of_mem {special : SpecialTypePaths} {inputs : List FnArg} {all : List ParamPlan}
    (h : List.Forall₂ (Planned special) inputs all) {plan : ParamPlan} (hplan : plan ∈ all) :
    Planned special plan.param plan := by
  induction h with
  | nil => cases hplan
  | cons hfirst _ ih =>
      cases hplan with
      | head => exact ⟨rfl, hfirst.2⟩
      | tail _ hrest => exact ih hrest

/-- A plan that is kept can be told from the parameter. -/
theorem find?_keeps_eq {special : SpecialTypePaths} {mode : ExpansionMode} {inputs inputs' : List FnArg}
    {all all' : List ParamPlan} (hall : List.Forall₂ (Planned special) inputs all)
    (hall' : List.Forall₂ (Planned special) inputs' all')
    (hkept : mode.keptParam special inputs = mode.keptParam special inputs') :
    all.find? mode.keeps = all'.find? mode.keeps := by
  rw [keptParam_eq hall, keptParam_eq hall'] at hkept
  cases hfind : all.find? mode.keeps with
  | none =>
      rw [hfind, Option.map_none] at hkept
      exact (Option.map_eq_none_iff.mp hkept.symm).symm
  | some plan =>
      rw [hfind, Option.map_some] at hkept
      obtain ⟨plan', hfind', hparam⟩ := Option.map_eq_some_iff.mp hkept.symm
      have hplan := planned_of_mem hall (List.mem_of_find?_eq_some hfind)
      have hplan' := planned_of_mem hall' (List.mem_of_find?_eq_some hfind')
      rw [hparam] at hplan'
      rw [hfind', hplan.unique hplan']

instance (types : Types) : DecidableRel (DifferentTypes types)
  | .typed _ _, .typed _ _ => inferInstanceAs (Decidable (_ ≠ _))
  | .receiver _, _ | .typed _ _, .receiver _ => inferInstanceAs (Decidable True)

/-- Reordered parameters give reordered plans, as long as the same one is kept. -/
theorem buildParamPlans_perm {special : SpecialTypePaths} {mode : ExpansionMode} {inputs inputs' : List FnArg}
    (hperm : inputs.Perm inputs') (hkept : mode.keptParam special inputs = mode.keptParam special inputs')
    {plans : List ParamPlan} {kept : Option FnArg}
    (h : buildParamPlans special mode inputs = .ok (plans, kept)) :
    ∃ plans', buildParamPlans special mode inputs' = .ok (plans', kept) ∧ plans.Perm plans' := by
  obtain ⟨all, hall, htakes, rfl, rfl⟩ := buildParamPlans_ok_iff.mp h
  obtain ⟨all', hall', hperm'⟩ := List.perm_comp_forall₂ hperm.symm hall
  have hfind : all.find? mode.keeps = all'.find? mode.keeps := find?_keeps_eq hall hall' hkept
  refine ⟨all'.eraseP mode.keeps, buildParamPlans_ok_iff.mpr
    ⟨all', hall', fun plan hplan => htakes plan (hperm'.mem_iff.mp hplan), rfl, by rw [hfind]⟩, ?_⟩
  exact eraseP_perm hperm'.symm hfind

/-- Whether the groups go together does not depend on the order of the plans. -/
theorem compatible_perm {plans plans' : List ParamPlan} (h : plans.Perm plans') :
    (Compatible fun g => (groupOf ParamPlan.group plans g).length) ↔
      Compatible fun g => (groupOf ParamPlan.group plans' g).length := by
  have hlength : ∀ g, (groupOf ParamPlan.group plans g).length = (groupOf ParamPlan.group plans' g).length :=
    fun g => (groupOf_perm h g).length_eq
  simp only [hlength]

/-- The plans are for parameters of different types if those were. -/
theorem pairwise_plans {special : SpecialTypePaths} {mode : ExpansionMode} {types : Types}
    {inputs : List FnArg} {plans : List ParamPlan} {kept : Option FnArg}
    (htypes : inputs.Pairwise (DifferentTypes types))
    (h : buildParamPlans special mode inputs = .ok (plans, kept)) :
    plans.Pairwise fun plan plan' => types.resolve plan.ty ≠ types.resolve plan'.ty := by
  obtain ⟨all, hall, -, rfl, -⟩ := buildParamPlans_ok_iff.mp h
  rw [← map_param_eq hall, List.pairwise_map] at htypes
  exact htypes.sublist (List.eraseP_sublist)

/-! ## Running the bindings

What a statement does to the scope, by its group. `take` drops the value of its type from the local extensions,
also where it is found among the shared ones only; the other five leave everything as it is. -/

variable {V : Type}

/-- The bindings, one after the other. -/
def runBindings (types : Types) (env : Env V) (bindings : List LetStmt) :
    Except ApigateError (List (LetStmt × Bound V) × Env V) :=
  Machine.attempt (LetStmt.run types) env bindings

/-- A call to the scope that finds something binds it; one that finds nothing ends the function with an error.
    -/
theorem run_orMissing_ok_iff {types : Types} {env env' : Env V} {pat : Str} {ty missing : Ty}
    {call : ScopeCall} {bound : Bound V} :
    LetStmt.run types env ⟨pat, ty, .orMissing call missing⟩ = .ok (bound, env') ↔
      ∃ scope, call.run types env.scope = (some bound, scope) ∧ env' = { env with scope := scope } := by
  unfold LetStmt.run
  simp only
  cases hcall : call.run types env.scope with
  | mk value scope =>
      cases value with
      | none =>
          constructor
          · rintro ⟨⟩
          · rintro ⟨_, ⟨⟩, -⟩
      | some value =>
          constructor
          · rintro ⟨⟩
            exact ⟨scope, rfl, rfl⟩
          · rintro ⟨_, ⟨⟩, rfl⟩
            rfl

/-- Only a `take` changes anything. -/
theorem run_reads {types : Types} {plan : ParamPlan} (hgroup : plan.group ≠ .take) (env : Env V)
    (bound : Bound V) (env' : Env V) (h : plan.binding.run types env = .ok (bound, env')) : env' = env := by
  obtain ⟨pat, ty, source⟩ := plan
  cases source with
  | partsCtx =>
      cases h
      rfl
  | requestScope =>
      cases h
      rfl
  | scopeTake => exact absurd rfl hgroup
  | scopeRef inner =>
      obtain ⟨scope, hcall, rfl⟩ := run_orMissing_ok_iff.mp h
      exact congrArg (fun scope => { env with scope := scope }) (congrArg Prod.snd hcall).symm
  | scopeMut inner =>
      obtain ⟨scope, hcall, rfl⟩ := run_orMissing_ok_iff.mp h
      exact congrArg (fun scope => { env with scope := scope }) (congrArg Prod.snd hcall).symm
  | rawBody =>
      obtain ⟨scope, hcall, rfl⟩ := run_orMissing_ok_iff.mp h
      exact congrArg (fun scope => { env with scope := scope }) (congrArg Prod.snd hcall).symm

/-- The value that `take` finds. -/
def found (env : Env V) (ty : TypeId) : Option V :=
  (env.scope.local_.get? ty).or (env.scope.shared.get? ty)

/-- Nothing of the type is left in the local extensions. -/
def dropped (env : Env V) (ty : TypeId) : Env V :=
  { env with scope := { env.scope with local_ := env.scope.local_.remove ty } }

/-- Dropping the value of one type makes no difference to another. -/
theorem found_dropped (env : Env V) {ty ty' : TypeId} (h : ty' ≠ ty) :
    found (dropped env ty) ty' = found env ty' := by
  unfold found dropped
  simp only [MultiMap.get?_remove_of_ne _ h]

/-- Two types can be dropped in either order. -/
theorem dropped_comm (env : Env V) (ty ty' : TypeId) :
    dropped (dropped env ty) ty' = dropped (dropped env ty') ty := by
  unfold dropped
  simp only [MultiMap.remove_comm _ ty ty']

/-- What `take` binds and what it leaves, both by the resolved type of the parameter. -/
theorem run_take_ok_iff {types : Types} {plan : ParamPlan} (hgroup : plan.group = .take) {env env' : Env V}
    {bound : Bound V} :
    plan.binding.run types env = .ok (bound, env') ↔
      (found env (types.resolve plan.ty)).map .owned = some bound ∧
        env' = dropped env (types.resolve plan.ty) := by
  obtain ⟨pat, ty, source⟩ := plan
  cases source with
  | scopeTake =>
      have htake : ScopeCall.run types env.scope (.take ty) =
          ((found env (types.resolve ty)).map .owned, (dropped env (types.resolve ty)).scope) := by
        unfold ScopeCall.run
        simp only [RequestScope.take_eq]
        rfl
      constructor
      · intro h
        obtain ⟨scope, hcall, rfl⟩ := run_orMissing_ok_iff.mp h
        rw [htake] at hcall
        exact ⟨congrArg Prod.fst hcall,
          congrArg (fun scope => { env with scope := scope }) (congrArg Prod.snd hcall).symm⟩
      · rintro ⟨hbound, rfl⟩
        exact run_orMissing_ok_iff.mpr
          ⟨(dropped env (types.resolve ty)).scope, htake.trans (congrArg (·, _) hbound), rfl⟩
  | partsCtx => cases hgroup
  | requestScope => cases hgroup
  | scopeRef inner => cases hgroup
  | scopeMut inner => cases hgroup
  | rawBody => cases hgroup

/-- Two values of different types can be taken in either order. -/
theorem commute_take {types : Types} {plan plan' : ParamPlan} (hgroup : plan.group = .take)
    (hgroup' : plan'.group = .take) (htypes : types.resolve plan.ty ≠ types.resolve plan'.ty) :
    Machine.CommutesBefore (LetStmt.run types (V := V)) plan.binding plan'.binding := by
  intro env env₁ env₂ bound bound' h h'
  obtain ⟨hfound, rfl⟩ := (run_take_ok_iff hgroup).mp h
  obtain ⟨hfound', rfl⟩ := (run_take_ok_iff hgroup').mp h'
  rw [found_dropped env htypes.symm] at hfound'
  rw [← found_dropped env htypes] at hfound
  refine ⟨_, (run_take_ok_iff hgroup').mpr ⟨hfound', rfl⟩, (run_take_ok_iff hgroup).mpr ⟨hfound, ?_⟩⟩
  exact dropped_comm env _ _

/-- Inside a group the order does not matter. Outside of `take` all statements only read; the types of two
    `take`s are different by assumption. -/
theorem pairwise_commute {types : Types} {plans : List ParamPlan}
    (htypes : plans.Pairwise fun plan plan' => types.resolve plan.ty ≠ types.resolve plan'.ty)
    (g : BindingGroup) :
    ((groupOf ParamPlan.group plans g).map ParamPlan.binding).Pairwise
      (Machine.Commute (LetStmt.run types (V := V))) := by
  rw [List.pairwise_map]
  refine (htypes.sublist List.filter_sublist).imp_of_mem ?_
  intro plan plan' hplan hplan' hne
  have hgroup := key_of_mem hplan
  have hgroup' := key_of_mem hplan'
  by_cases htake : g = .take
  · subst htake
    exact ⟨commute_take hgroup hgroup' hne, commute_take hgroup' hgroup hne.symm⟩
  · rw [← hgroup'] at htake
    exact Machine.commute_of_reads (run_reads (hgroup.trans hgroup'.symm ▸ htake)) (run_reads htake)

/-- Reordered plans bind the same values: group by group the statements are a permutation of commuting ones, and
    the groups are emitted in the same order. -/
theorem runBindings_perm {types : Types} {plans plans' : List ParamPlan} (hperm : plans.Perm plans')
    (htypes : plans.Pairwise fun plan plan' => types.resolve plan.ty ≠ types.resolve plan'.ty) (env : Env V) :
    Machine.AgreeUpToOrder (runBindings types env (buildBindings plans))
      (runBindings types env (buildBindings plans')) := by
  rw [buildBindings_eq, buildBindings_eq]
  refine Machine.agree_of_groups_perm ?_ env
  rw [List.forall₂_map_left_iff, List.forall₂_map_right_iff, List.forall₂_same]
  intro g _
  exact ⟨(groupOf_perm hperm g).map _, pairwise_commute htypes g⟩

/-! ## The whole expansion

An expansion exists if the function is `async`, its parameters can be planned, a map has a parameter to keep,
and the rules hold. -/

/-- When a signature is accepted, check by check in the order of the source. -/
theorem expandFnParams_ok_iff {special : SpecialTypePaths} {mode : ExpansionMode} {asyncness : Bool}
    {inputs : List FnArg} {e : Expansion} :
    expandFnParams special mode asyncness inputs = .ok e ↔
      asyncness = true ∧ ∃ plans kept, buildParamPlans special mode inputs = .ok (plans, kept) ∧
        (mode.keepsFirstOwnedParam = true → kept ≠ none) ∧ validatePlans plans mode.macroName = .ok () ∧
        e = .new plans kept := by
  unfold expandFnParams
  cases asyncness with
  | false =>
      constructor
      · rintro ⟨⟩
      · rintro ⟨⟨⟩, -⟩
  | true =>
      cases hbuild : buildParamPlans special mode inputs with
      | error err =>
          constructor
          · rintro ⟨⟩
          · rintro ⟨-, _, _, ⟨⟩, -⟩
      | ok r =>
          obtain ⟨plans, kept⟩ := r
          show (if (mode.keepsFirstOwnedParam && kept.isNone) = true then
              (.error _ : Except Syn.Error Expansion)
            else validatePlans plans mode.macroName >>= fun _ => .ok (.new plans kept)) = .ok e ↔ _
          by_cases hmissing : (mode.keepsFirstOwnedParam && kept.isNone) = true
          · rw [if_pos hmissing]
            obtain ⟨hkeeps, hnone⟩ := Bool.and_eq_true_iff.mp hmissing
            constructor
            · rintro ⟨⟩
            · rintro ⟨-, _, _, ⟨⟩, hkept, -⟩
              exact absurd (Option.isNone_iff_eq_none.mp hnone) (hkept hkeeps)
          · rw [if_neg hmissing]
            have hkept : mode.keepsFirstOwnedParam = true → kept ≠ none := by
              rintro hkeeps rfl
              exact hmissing (by rw [hkeeps]; rfl)
            cases hvalid : validatePlans plans mode.macroName with
            | error err =>
                constructor
                · rintro ⟨⟩
                · rintro ⟨-, _, _, ⟨⟩, -, hok, -⟩
                  cases hvalid.symm.trans hok
            | ok _ =>
                constructor
                · rintro ⟨⟩
                  exact ⟨rfl, plans, kept, rfl, hkept, hvalid, rfl⟩
                · rintro ⟨-, _, _, ⟨⟩, -, -, rfl⟩
                  rfl

/-- **What a binding reads has its name.** A generated parameter is `_` only where no binding needs it. So the
    code that the macro emits never reads a name that it has not given. -/
theorem bindings_read_named {special : SpecialTypePaths} {mode : ExpansionMode} {asyncness : Bool}
    {inputs : List FnArg} {e : Expansion} (h : expandFnParams special mode asyncness inputs = .ok e)
    {stmt : LetStmt} (hstmt : stmt ∈ e.bindings) :
    (stmt.init = .ctx → e.ctxPat = ctxIdent) ∧ (stmt.init ≠ .ctx → e.scopePat = scopeIdent) := by
  obtain ⟨-, plans, kept, -, -, -, rfl⟩ := expandFnParams_ok_iff.mp h
  obtain ⟨plan, hplan, rfl⟩ := List.mem_map.mp ((buildBindings_perm plans).mem_iff.mp hstmt)
  have hreads : (plan.binding.init = .ctx → plan.source.bindsCtx = true) ∧
      (plan.binding.init ≠ .ctx → plan.source.bindsScope = true) := by
    unfold ParamPlan.binding ParamPlan.init
    cases plan.source <;> simp [ParamSource.bindsCtx, ParamSource.bindsScope]
  constructor
  · intro hctx
    exact if_pos (List.any_eq_true.mpr ⟨plan, hplan, hreads.1 hctx⟩)
  · intro hscope
    exact if_pos (List.any_eq_true.mpr ⟨plan, hplan, hreads.2 hscope⟩)

/-- A reordered signature is accepted like the one it comes from. -/
theorem expandFnParams_perm {special : SpecialTypePaths} {mode : ExpansionMode} {asyncness : Bool}
    {inputs inputs' : List FnArg} (hperm : inputs.Perm inputs')
    (hkept : mode.keptParam special inputs = mode.keptParam special inputs') {e : Expansion}
    (h : expandFnParams special mode asyncness inputs = .ok e) :
    ∃ e', expandFnParams special mode asyncness inputs' = .ok e' := by
  obtain ⟨hasync, plans, kept, hbuild, hsome, hvalid, -⟩ := expandFnParams_ok_iff.mp h
  obtain ⟨plans', hbuild', hplans⟩ := buildParamPlans_perm hperm hkept hbuild
  have hvalid' : validatePlans plans' mode.macroName = .ok () :=
    (validatePlans_ok_iff plans' _).mpr ((compatible_perm hplans).mp ((validatePlans_ok_iff plans _).mp hvalid))
  exact ⟨_, expandFnParams_ok_iff.mpr ⟨hasync, plans', kept, hbuild', hsome, hvalid', rfl⟩⟩

/-- **Signatures bind validly.** The list of plans is accepted exactly when no statement that comes of it
    borrows what an earlier one still holds, and each parameter but the kept one is bound by one statement.
    Where the parameters are of different types, their order changes neither acceptance nor a value that is
    bound. The second half applies each of the lemmas on order in both directions, from the signature to the
    reordered one and back. -/
theorem signatures_bind_validly (special : SpecialTypePaths) (mode : ExpansionMode) (inputs : List FnArg) :
    (∀ plans kept, buildParamPlans special mode inputs = .ok (plans, kept) →
      (validatePlans plans mode.macroName = .ok () ↔ Valid ((buildBindings plans).map LetStmt.access)) ∧
        kept = mode.keptParam special inputs ∧
        (kept.toList ++ (buildBindings plans).map LetStmt.param).Perm inputs) ∧
    ∀ (types : Types) (asyncness : Bool) (inputs' : List FnArg), inputs.Perm inputs' →
      inputs.Pairwise (DifferentTypes types) →
      mode.keptParam special inputs = mode.keptParam special inputs' →
      ((∃ e, expandFnParams special mode asyncness inputs = .ok e) ↔
        ∃ e', expandFnParams special mode asyncness inputs' = .ok e') ∧
      ∀ e e', expandFnParams special mode asyncness inputs = .ok e →
        expandFnParams special mode asyncness inputs' = .ok e' → ∀ env : Env V,
          Machine.AgreeUpToOrder (runBindings types env e.bindings) (runBindings types env e'.bindings) := by
  constructor
  · intro plans kept hbuild
    refine ⟨validatePlans_ok_iff_valid plans _, ?_, params_perm hbuild⟩
    obtain ⟨all, hall, -, -, rfl⟩ := buildParamPlans_ok_iff.mp hbuild
    exact (keptParam_eq hall).symm
  · intro types asyncness inputs' hperm htypes hkept
    constructor
    · constructor
      · rintro ⟨e, he⟩
        exact expandFnParams_perm hperm hkept he
      · rintro ⟨e', he'⟩
        exact expandFnParams_perm hperm.symm hkept.symm he'
    · intro e e' he he' env
      obtain ⟨-, plans, kept, hbuild, -, -, rfl⟩ := expandFnParams_ok_iff.mp he
      obtain ⟨-, plans', kept', hbuild', -, -, rfl⟩ := expandFnParams_ok_iff.mp he'
      obtain ⟨plans'', hbuild'', hplans⟩ := buildParamPlans_perm hperm hkept hbuild
      cases hbuild'.symm.trans hbuild''
      exact runBindings_perm hplans (pairwise_plans htypes hbuild) env

/-- A type that is named without a path. -/
def bareTy (name : Str) : Ty := .path none ⟨false, [⟨name, .none⟩], List.cons_ne_nil _ _⟩

/-- A map that takes its input, the context, a value and a reference. -/
def reportInputs : List FnArg :=
  [.typed (str "input") (bareTy (str "Input")), .typed (str "ctx") (.reference none true (bareTy (str "PartsCtx"))),
    .typed (str "meta") (bareTy (str "Meta")), .typed (str "state") (.reference none false (bareTy (str "State")))]

/-- The same parameters in another order. -/
def reportInputs' : List FnArg :=
  [.typed (str "state") (.reference none false (bareTy (str "State"))), .typed (str "input") (bareTy (str "Input")),
    .typed (str "meta") (bareTy (str "Meta")), .typed (str "ctx") (.reference none true (bareTy (str "PartsCtx")))]

theorem signatures_bind_validly_report :
    let special := SpecialTypePaths.new ⟨true, [⟨str "apigate", .none⟩], List.cons_ne_nil _ _⟩
    (∃ plans kept, buildParamPlans special .map reportInputs = .ok (plans, kept) ∧
      (validatePlans plans (str "map") = .ok () ↔ Valid ((buildBindings plans).map LetStmt.access)) ∧
        kept = ExpansionMode.map.keptParam special reportInputs ∧
        (kept.toList ++ (buildBindings plans).map LetStmt.param).Perm reportInputs) ∧
    ∃ e e', expandFnParams special .map true reportInputs = .ok e ∧
      expandFnParams special .map true reportInputs' = .ok e' ∧ ∀ env : Env Str,
        Machine.AgreeUpToOrder (runBindings .plain env e.bindings) (runBindings .plain env e'.bindings) := by
  intro special
  have hreport := signatures_bind_validly (V := Str) special .map reportInputs
  refine ⟨⟨_, _, rfl, hreport.1 _ _ rfl⟩, _, _, rfl, rfl, fun env => ?_⟩
  exact (hreport.2 .plain true reportInputs' (by decide) (by decide) (by decide)).2 _ _ rfl rfl env

end Apigate
