import Apigate.Correctness.CandidateSafety

/-!
# `Correctness.DeadBackend` — least-time with a backend that fails every request

Failures teach a least-time policy nothing, and a backend without an average reads as the fastest. So a backend
that always fails keeps the number 0. While another backend still has it as well, the rotating offset gives that
one its turn within two rounds; once every other backend has answered, each scan ends at the dead one
(`Lawful`). This is a law of the requests sent one after the other, each reported before the next is picked.

The law says of a choice, given the choices before it, what it must be in two cases, and nothing where several
backends have zero and the turn is not one of them. It is all that the two bounds need (`AllLawful.other_sent`,
`AllLawful.absorbed`), which are facts about lists of numbers and a rotating offset.

That the choices of a run obey the law is an invariant with several parts (`Loop`). The array is what the calls
so far make of zeros (`Follows`), the offset counts the scans, each scan is one choice, and `Feedback` says what
the numbers are worth: zero for the dead backend and for those that have not been chosen; positive for the
others, except while a request is on its way to them. A pick is made when no request is on its way (`OneByOne`),
and then `Feedback` tells exactly which numbers are zero. From there `Loop.pick` is about one scan: the first
zero from the offset on is where it ends, since no number is below zero.

Where the 64-bit offset wraps within a scan, some slot may be looked at twice and another one not at all. The
law makes no promise there unless the number of backends divides `2 ^ 64`, and the bound for the dead backend
has that condition.
-/

namespace Apigate
open Lib Runs Rotation Scan

variable {V ρ σ : Type}

/-! ## The law of the choices

Lists of chosen backends, without a gateway. Everything here is about the positions at which a backend has its
turn. -/

/-- How a choice follows from the ones before it: a backend that has not been sent a request takes its turn, and
    so does backend `d`; when there is no other such backend left, `d` takes all turns. -/
structure Lawful (n d : Nat) (earlier : List Nat) (i : Nat) : Prop where
  turn : earlier.length % 2 ^ 64 % n = d ∨ earlier.length % 2 ^ 64 % n ∉ earlier →
    i = earlier.length % 2 ^ 64 % n
  rest : (∀ j < n, j ≠ d → j ∈ earlier) → earlier.length % 2 ^ 64 + n ≤ 2 ^ 64 ∨ n ∣ 2 ^ 64 → i = d

/-- Every choice follows from the ones before it. -/
def AllLawful (n d : Nat) (sent : List Nat) : Prop :=
  ∀ earlier i later, sent = earlier ++ i :: later → Lawful n d earlier i

/-- A choice that follows from those before it can be appended. -/
theorem AllLawful.concat {n d i : Nat} {sent : List Nat} (h : AllLawful n d sent) (hi : Lawful n d sent i) :
    AllLawful n d (sent ++ [i]) := by
  intro earlier j later hsplit
  rcases List.eq_nil_or_concat later with rfl | ⟨later, last, rfl⟩
  · -- the new choice
    obtain ⟨rfl, hlast⟩ := List.append_inj' hsplit rfl
    obtain rfl := List.singleton_inj.mp hlast
    exact hi
  · rw [List.concat_eq_append, ← List.cons_append, ← List.append_assoc] at hsplit
    exact h earlier j later (List.append_inj' hsplit rfl).1

section
variable {n d : Nat} {earlier window later : List Nat}

/-- The entry of a turn in a window, with what was sent before it. -/
theorem AllLawful.get (h : AllLawful n d (earlier ++ window ++ later)) {k : Nat} (hk : k < window.length) :
    Lawful n d (earlier ++ window.take k) window[k] := by
  apply h _ _ (window.drop (k + 1) ++ later)
  rw [← List.cons_append, List.getElem_cons_drop, List.append_assoc earlier (window.take k),
    ← List.append_assoc (window.take k), List.take_append_drop, List.append_assoc]

/-- **A backend that has not been sent a request takes its turn within two rounds**, unless another one but `d`
    has been sent one meanwhile. If only `d` were sent requests in the window, the backend would still be unsent
    when its turn comes, and then the turn is its own. -/
theorem AllLawful.other_sent (h : AllLawful n d (earlier ++ window ++ later)) (hfits : n ≤ 2 ^ 64) {u : Nat}
    (hu : u < n) (hne : u ≠ d) (hunsent : u ∉ earlier) (hlength : window.length = 2 * n) :
    ∃ i ∈ window, i ≠ d := by
  obtain ⟨k, hk, hturn⟩ := exists_turn hu hfits earlier.length
  rw [← hlength] at hk
  by_contra hall
  have hdead : ∀ i ∈ window, i = d := by
    intro i hi
    by_contra hother
    exact hall ⟨i, hi, hother⟩
  have hbefore : (earlier ++ window.take k).length = earlier.length + k := by
    rw [List.length_append, List.length_take, Nat.min_eq_left (by omega)]
  have hlaw := (h.get hk).turn
  rw [hbefore, hturn] at hlaw
  have hstill : u ∉ earlier ++ window.take k := by
    intro hmem
    rcases List.mem_append.mp hmem with hmem | hmem
    · exact hunsent hmem
    · exact hne (hdead u (List.mem_of_mem_take hmem))
  have hchosen := hlaw (Or.inr hstill)
  apply hne
  rw [← hchosen]
  exact hdead _ (List.getElem_mem hk)

/-- **Once every other backend has been sent a request, all go to `d`.** That stays so at every position of the
    window, since those before it only add to what has been sent. -/
theorem AllLawful.absorbed (h : AllLawful n d (earlier ++ window ++ later))
    (hsent : ∀ j < n, j ≠ d → j ∈ earlier)
    (hunbroken : earlier.length + window.length + n ≤ 2 ^ 64 ∨ n ∣ 2 ^ 64) : ∀ i ∈ window, i = d := by
  intro i hi
  obtain ⟨k, hk, rfl⟩ := List.getElem_of_mem hi
  apply (h.get hk).rest
  · intro j hj hne
    exact List.mem_append_left _ (hsent j hj hne)
  · refine hunbroken.imp_left ?_
    intro hle
    have hbefore : (earlier ++ window.take k).length = earlier.length + k := by
      rw [List.length_append, List.length_take, Nat.min_eq_left (by omega)]
    have hsmall := Nat.mod_le (earlier.length + k) (2 ^ 64)
    rw [hbefore]
    omega

end

/-! ## Requests one after the other

The runs that the law is about, as a condition on each step in the state in which it is taken. A handler that is
dropped while it has a backend is excluded, since its request would be on its way for ever. -/

/-- The backends that policy `p` has chosen, in order. -/
def Gateway.sent (g : Gateway V ρ σ) (p : PolicyRef) : List Nat := (g.choices p).map Prod.snd

/-- Backend `d` fails every request, the others answer every request in some microseconds. -/
def Answers (d i : Nat) (elapsed : Duration) : Except ProxyErrorKind Response → Prop
  | .error _ => i = d
  | .ok _ => i ≠ d ∧ 0 < elapsed.asMicros ∧ elapsed.asMicros < 2 ^ 64 - 1

instance (d i : Nat) (elapsed : Duration) : ∀ result, Decidable (Answers d i elapsed result)
  | .error _ => inferInstanceAs (Decidable (i = d))
  | .ok _ => inferInstanceAs (Decidable (i ≠ d ∧ 0 < elapsed.asMicros ∧ elapsed.asMicros < 2 ^ 64 - 1))

/-- The routing decision that a pick is about to use. -/
def Phase.routing? : Phase V → Option RoutingDecision
  | .picking decision => some decision
  | .pipeline | .routing _ | .selected _ | .upstream _ | .settled _ | .over => none

/-- Each request of policy `p` is picked for among all backends, dispatched and reported before the next one is,
    and its backend answers as said. -/
def OneByOne (p : PolicyRef) (d : Nat) (g : Gateway V ρ σ) : Act V → Prop
  | .move id .pick => ∀ r ∈ g.requests[id]?, r.routeMeta.policy = p → ∀ routing ∈ r.phase.routing?,
      routing.candidates = .all ∧ ∀ r' ∈ g.requests, r'.routeMeta.policy = p → r'.phase.chosen? = none
  | .move id .drop => ∀ r ∈ g.requests[id]?, r.routeMeta.policy = p → r.phase.backend? = none
  | .move id (.settle result elapsed) => ∀ r ∈ g.requests[id]?, r.routeMeta.policy = p →
      ∀ i ∈ r.phase.backend?, Answers d i elapsed result
  | _ => True

instance (p : PolicyRef) (d : Nat) (g : Gateway V ρ σ) (a : Act V) : Decidable (OneByOne p d g a) := by
  unfold OneByOne
  split <;> infer_instance

/-- What a result says under these conditions: a failure of `d`, or a latency of another backend. -/
def Told (d : Nat) (event : ResultEvent) : Prop :=
  (event.error.isSome = true ∧ event.backendIndex = d) ∨
    (event.error = none ∧ event.backendIndex ≠ d ∧ 0 < event.headLatency.asMicros ∧
      event.headLatency.asMicros < 2 ^ 64 - 1)

/-- What the balancer is told of an exchange that ends as `Answers` says. -/
theorem Answers.told {d i : Nat} {elapsed : Duration} {result : Except ProxyErrorKind Response}
    (h : Answers d i elapsed result) (routeMeta : RouteMeta (PipelineFn V)) :
    Told d (Dispatch.resultEvent routeMeta i result elapsed) := by
  cases result with
  | error e => exact Or.inl ⟨rfl, h⟩
  | ok response => exact Or.inr ⟨rfl, h⟩

/-- **What a result makes of a number**: it leaves it as it is, or it is a latency of another backend than `d`,
    and its number is not zero any more. -/
theorem Told.after {d : Nat} {event : ResultEvent} (h : Told d event) (i : Nat) (v : UInt64) :
    (LoadAware.leastTime.after i v (.reported event) = v ∧ (event.backendIndex = i → i = d)) ∨
    (event.backendIndex = i ∧ i ≠ d ∧ LoadAware.leastTime.after i v (.reported event) ≠ 0 ∧
      (v < 18446744073709551615 → LoadAware.leastTime.after i v (.reported event) < 18446744073709551615)) := by
  rcases h with ⟨herror, hdead⟩ | ⟨herror, hother, hpos, hlt⟩
  · left
    have hnone : LoadAware.leastTime.recorded? (.reported event) = none := if_pos herror
    refine ⟨LoadAware.after_of_ne (by simp [hnone]) v, ?_⟩
    rintro rfl
    exact hdead
  · have hrecorded : LoadAware.leastTime.recorded? (.reported event) = some event.backendIndex := by
      simp [LoadAware.recorded?, herror]
    by_cases hi : event.backendIndex = i
    · right
      subst hi
      rw [LoadAware.after_of_eq hrecorded]
      show _ ∧ _ ∧ LeastTime.ewma v (UInt64.ofNat event.headLatency.asMicros) ≠ 0 ∧ _
      have hsample : (UInt64.ofNat event.headLatency.asMicros).toNat = event.headLatency.asMicros := by
        rw [UInt64.toNat_ofNat', Nat.mod_eq_of_lt (by omega)]
      refine ⟨rfl, hother, ?_, ?_⟩
      · apply ewma_ne_zero
        rw [Ne, ← UInt64.toNat_inj, hsample]
        exact Nat.ne_of_gt hpos
      · intro hv
        apply ewma_lt hv
        rw [UInt64.lt_iff_toNat_lt, hsample]
        exact hlt
    · left
      refine ⟨LoadAware.after_of_ne ?_ v, fun h => absurd h hi⟩
      rw [hrecorded]
      exact fun h => hi (Option.some.inj h)

/-! ## One move

What a move means to the policy in such a run, one constructor for each possibility. The calls of the move and
the new phase of the request are determined by it, and the lemmas below on the gateway need nothing else. -/

/-- What a move can do in such a run as far as the policy is concerned: choose a backend by the law, report a
    result, or nothing that is recorded. -/
inductive Effect (n d : Nat) (sent : List Nat) (phase : Phase V) : Phase V → List PolicyCall → Prop where
  | silent (phase' : Phase V) (calls : List PolicyCall) (hchosen : phase'.chosen? = phase.chosen?)
      (hresult : ∀ event, phase' = .settled event → Told d event)
      (hchoice : calls.filterMap PolicyCall.choice? = []) (hscan : calls.filterMap PolicyCall.scan? = [])
      (hrecorded : ∀ call ∈ calls, LoadAware.leastTime.recorded? call = none) :
      Effect n d sent phase phase' calls
  | chose (ctx : BalanceCtx) (i : Nat) (hnone : phase.chosen? = none) (hne : ctx.candidateLen ≠ 0)
      (hlawful : Lawful n d sent i) : Effect n d sent phase (.selected i) [.picked ctx (some i)]
  | told (event : ResultEvent) (hphase : phase = .settled event) :
      Effect n d sent phase .over [.reported event]

/-- A move that leaves the policy alone. -/
theorem Effect.nothing {n d : Nat} {sent : List Nat} {phase phase' : Phase V}
    (hchosen : phase'.chosen? = phase.chosen?) (hresult : ∀ event, phase' = .settled event → Told d event) :
    Effect n d sent phase phase' [] :=
  .silent phase' [] hchosen hresult rfl rfl fun _ hcall => by cases hcall

/-- A scan is made exactly where a backend is chosen. -/
theorem Effect.turns {n d : Nat} {sent : List Nat} {phase phase' : Phase V} {calls : List PolicyCall}
    (h : Effect n d sent phase phase' calls) :
    (calls.filterMap PolicyCall.scan?).length = (calls.filterMap PolicyCall.choice?).length := by
  cases h with
  | silent _ _ _ _ hchoice hscan _ =>
      rw [hchoice, hscan]
      rfl
  | chose ctx i _ hne _ =>
      rw [scan_picked _ hne]
      rfl
  | told event _ => rfl

/-- The choices still follow the law. -/
theorem Effect.lawful {n d : Nat} {sent : List Nat} {phase phase' : Phase V} {calls : List PolicyCall}
    (h : Effect n d sent phase phase' calls) (hsent : AllLawful n d sent) :
    AllLawful n d (sent ++ (calls.filterMap PolicyCall.choice?).map Prod.snd) := by
  cases h with
  | silent _ _ _ _ hchoice _ _ =>
      rw [hchoice, List.map_nil, List.append_nil]
      exact hsent
  | chose ctx i _ _ hlawful => exact hsent.concat hlawful
  | told event _ =>
      show AllLawful n d (sent ++ [])
      rw [List.append_nil]
      exact hsent

section
variable [RouteStrategy ρ] [Balancer σ] [Xxh3]

/-- Every move of such a run is one of these. By cases on what the move can do; the hypotheses are the three
    conditions of `OneByOne` on it, and that a pick obeys the law. -/
theorem moves_effect {n d : Nat} {sent : List Nat} {routeMeta : RouteMeta (PipelineFn V)}
    {policy policy' : Policy ρ σ} {phase phase' : Phase V} {m : Move V} {calls : List PolicyCall}
    (h : Moves routeMeta policy phase m phase' policy' calls)
    (hpick : ∀ routing, m = .pick → phase = .picking routing → (routeMeta.balanceCtx routing).candidateLen ≠ 0 ∧
      ∃ i < routeMeta.pool.len, (policy.pick (routeMeta.balanceCtx routing)).1 = some i ∧ Lawful n d sent i)
    (hdrop : m = .drop → phase.backend? = none)
    (hsettle : ∀ result elapsed i, m = .settle result elapsed → phase = .upstream i →
      Answers d i elapsed result) : Effect n d sent phase phase' calls := by
  cases h with
  | picked routing i hchosen _ =>
      obtain ⟨hne, j, -, hsome, hlawful⟩ := hpick routing rfl rfl
      rw [hchosen] at hsome
      obtain rfl := Option.some.inj hsome
      exact .chose _ i rfl hne hlawful
  | refused routing hrefused =>
      obtain ⟨-, i, hi, hsome, -⟩ := hpick routing rfl rfl
      have hout := hrefused i hsome
      omega
  | started i =>
      refine .silent _ _ rfl ?_ rfl rfl ?_
      · intro event hphase
        cases hphase
      · intro call hcall
        obtain rfl := List.mem_singleton.mp hcall
        rfl
  | settled i result elapsed =>
      apply Effect.nothing
      · cases result <;> rfl
      · intro event hphase
        obtain rfl := Phase.settled.inj hphase
        exact (hsettle result elapsed i rfl rfl).told routeMeta
  | droppedLate i => cases hdrop rfl
  | reported event => exact .told event rfl
  | _ =>
      refine Effect.nothing ?_ ?_
      · rfl
      · intro event hphase
        cases hphase

end

/-! ## What the policy has been told

`Feedback` is about the calls that have been made and the requests that are under way, and not about the array;
that the array holds the numbers is a part of `Follows`. -/

/-- Some request of policy `p` has chosen backend `i` and not yet reported on it. -/
def Gateway.OnTheWay (g : Gateway V ρ σ) (p : PolicyRef) (i : Nat) : Prop :=
  ∃ r ∈ g.requests, r.routeMeta.policy = p ∧ r.phase.chosen? = some i

/-- Backend `d` and the backends that have not been chosen have the number 0; every other one has a positive
    number, unless its request is still on the way. -/
structure Feedback (p : PolicyRef) (d : Nat) (g : Gateway V ρ σ) : Prop where
  results : ∀ r ∈ g.requests, r.routeMeta.policy = p → ∀ event, r.phase = .settled event → Told d event
  chosen : ∀ i, g.OnTheWay p i → i ∈ g.sent p
  unheard : ∀ i, i = d ∨ i ∉ g.sent p → g.number .leastTime p i = 0
  heard : ∀ i ∈ g.sent p, i ≠ d → g.number .leastTime p i ≠ 0 ∨ g.OnTheWay p i
  below : ∀ i, g.number .leastTime p i < 18446744073709551615

/-- Nothing has been chosen or told, and every number is zero. -/
theorem feedback_start (p : PolicyRef) (d : Nat) (policies : Policies ρ σ) :
    Feedback p d (Gateway.start policies : Gateway V ρ σ) := by
  refine ⟨?_, ?_, fun _ _ => rfl, ?_, fun _ => (by decide : (0 : UInt64) < 18446744073709551615)⟩
  · intro r hr
    cases hr
  · rintro i ⟨r, hr, -⟩
    cases hr
  · intro i hi
    cases hi

section
variable {p : PolicyRef} {n d : Nat} {sent : List Nat} {g g' : Gateway V ρ σ} {r : Live V} {phase : Phase V}
  {calls : List PolicyCall}

/-- A step that the policy takes no notice of. -/
theorem Feedback.frame (h : Feedback p d g)
    (hresults : ∀ r ∈ g'.requests, r.routeMeta.policy = p → ∀ event, r.phase = .settled event → Told d event)
    (hway : ∀ i, g'.OnTheWay p i ↔ g.OnTheWay p i) (hsent : g'.sent p = g.sent p)
    (hsame : ∀ i, g'.number .leastTime p i = g.number .leastTime p i) : Feedback p d g' := by
  constructor
  · exact hresults
  · intro i hi
    rw [hsent]
    exact h.chosen i ((hway i).mp hi)
  · intro i hi
    rw [hsent] at hi
    rw [hsame]
    exact h.unheard i hi
  · intro i hi hne
    rw [hsent] at hi
    rw [hsame, hway]
    exact h.heard i hi hne
  · intro i
    rw [hsame]
    exact h.below i

/-- A new request has chosen nothing. -/
theorem Feedback.arrive (h : Feedback p d g) (routeMeta : RouteMeta (PipelineFn V)) :
    Feedback p d { g with requests := g.requests ++ [⟨routeMeta, .pipeline⟩] } := by
  have hold : ∀ r ∈ g.requests ++ [Live.mk routeMeta .pipeline], r ∈ g.requests ∨ r.phase = .pipeline := by
    intro r hr
    refine (List.mem_append.mp hr).imp_right ?_
    intro hnew
    rw [List.mem_singleton.mp hnew]
  refine h.frame ?_ ?_ rfl fun _ => rfl
  · intro r hr hp event hphase
    rcases hold r hr with hr | hnew
    · exact h.results r hr hp event hphase
    · rw [hnew] at hphase
      cases hphase
  · intro i
    constructor
    · rintro ⟨r, hr, hp, hon⟩
      rcases hold r hr with hr | hnew
      · exact ⟨r, hr, hp, hon⟩
      · rw [hnew] at hon
        cases hon
    · rintro ⟨r, hr, hp, hon⟩
      exact ⟨r, List.mem_append_left _ hr, hp, hon⟩

/-- The requests after request `r` has moved on to another phase. -/
structure Moved (g g' : Gateway V ρ σ) (r : Live V) (phase : Phase V) : Prop where
  old : ∀ r' ∈ g'.requests, r' ∈ g.requests ∨ r' = { r with phase := phase }
  kept : ∀ r' ∈ g.requests, r' ∈ g'.requests ∨ r' = r
  new : { r with phase := phase } ∈ g'.requests
  mem : r ∈ g.requests

theorem moved_of_set {id : Nat} (hr : g.requests[id]? = some r)
    (hrequests : g'.requests = g.requests.set id { r with phase := phase }) : Moved g g' r phase := by
  refine ⟨?_, ?_, ?_, List.mem_of_getElem? hr⟩
  · rw [hrequests]
    intro r' hr'
    exact List.mem_or_eq_of_mem_set hr'
  · intro r' hr'
    obtain ⟨k, hk⟩ := List.mem_iff_getElem?.mp hr'
    by_cases hid : id = k
    · subst hid
      rw [hr] at hk
      exact Or.inr (Option.some.inj hk).symm
    · left
      rw [hrequests]
      have hother : (g.requests.set id { r with phase := phase })[k]? = some r' := by
        rw [List.getElem?_set_ne hid, hk]
      exact List.mem_of_getElem? hother
  · rw [hrequests]
    exact List.mem_of_getElem? (List.getElem?_set_self (List.getElem?_eq_some_iff.mp hr).1)

/-- What is on the way after a move was before it, or is the request that moved. -/
theorem Moved.before (h : Moved g g' r phase) {i : Nat} (hi : g'.OnTheWay p i) :
    g.OnTheWay p i ∨ (r.routeMeta.policy = p ∧ phase.chosen? = some i) := by
  obtain ⟨r', hr', hp, hon⟩ := hi
  rcases h.old r' hr' with hr' | rfl
  · exact Or.inl ⟨r', hr', hp, hon⟩
  · exact Or.inr ⟨hp, hon⟩

/-- What is on the way before a move stays so, or is the request that moves. -/
theorem Moved.after (h : Moved g g' r phase) {i : Nat} (hi : g.OnTheWay p i) :
    g'.OnTheWay p i ∨ (r.routeMeta.policy = p ∧ r.phase.chosen? = some i) := by
  obtain ⟨r', hr', hp, hon⟩ := hi
  rcases h.kept r' hr' with hr' | rfl
  · exact Or.inl ⟨r', hr', hp, hon⟩
  · exact Or.inr ⟨hp, hon⟩

/-- The results that are still to be reported after a move. -/
theorem Moved.results (h : Moved g g' r phase) (hfeedback : Feedback p d g)
    (hresult : r.routeMeta.policy = p → ∀ event, phase = .settled event → Told d event) :
    ∀ r' ∈ g'.requests, r'.routeMeta.policy = p → ∀ event, r'.phase = .settled event → Told d event := by
  intro r' hr' hp event hphase
  rcases h.old r' hr' with hr' | rfl
  · exact hfeedback.results r' hr' hp event hphase
  · exact hresult hp event hphase

/-- A move of a request of another policy. -/
theorem Feedback.other (h : Feedback p d g) (hmoved : Moved g g' r phase) (hp : r.routeMeta.policy ≠ p)
    (hsent : g'.sent p = g.sent p)
    (hsame : ∀ i, g'.number .leastTime p i = g.number .leastTime p i) : Feedback p d g' := by
  apply h.frame (hmoved.results h fun hown => absurd hown hp) _ hsent hsame
  intro i
  constructor
  · intro hi
    exact (hmoved.before hi).resolve_right fun hown => hp hown.1
  · intro hi
    exact (hmoved.after hi).resolve_right fun hown => hp hown.1

/-- A move that tells the policy nothing. -/
theorem Feedback.silent (h : Feedback p d g) (hmoved : Moved g g' r phase) (hp : r.routeMeta.policy = p)
    (hchosen : phase.chosen? = r.phase.chosen?) (hresult : ∀ event, phase = .settled event → Told d event)
    (hsent : g'.sent p = g.sent p)
    (hsame : ∀ i, g'.number .leastTime p i = g.number .leastTime p i) : Feedback p d g' := by
  apply h.frame (hmoved.results h fun _ => hresult) _ hsent hsame
  intro i
  constructor
  · intro hi
    rcases hmoved.before hi with hold | ⟨-, hon⟩
    · exact hold
    · exact ⟨r, hmoved.mem, hp, hchosen ▸ hon⟩
  · intro hi
    rcases hmoved.after hi with hnew | ⟨-, hon⟩
    · exact hnew
    · exact ⟨_, hmoved.new, hp, hchosen.trans hon⟩

/-- A choice: the backend is now on the list of those sent to, and its request is on its way. Its number may
    still be zero. -/
theorem Feedback.chose (h : Feedback p d g) {i : Nat} (hmoved : Moved g g' r (.selected i))
    (hp : r.routeMeta.policy = p) (hnone : r.phase.chosen? = none) (hsent : g'.sent p = g.sent p ++ [i])
    (hsame : ∀ j, g'.number .leastTime p j = g.number .leastTime p j) : Feedback p d g' := by
  constructor
  · exact hmoved.results h fun _ event hphase => by cases hphase
  · intro j hj
    rw [hsent]
    rcases hmoved.before hj with hold | ⟨-, hon⟩
    · exact List.mem_append_left _ (h.chosen j hold)
    · obtain rfl := Option.some.inj hon
      exact List.mem_append_right _ (List.mem_singleton.mpr rfl)
  · intro j hj
    rw [hsame]
    apply h.unheard
    refine hj.imp_right ?_
    intro hnot hin
    apply hnot
    rw [hsent]
    exact List.mem_append_left _ hin
  · intro j hj hne
    rw [hsent] at hj
    rw [hsame]
    rcases List.mem_append.mp hj with hj | hj
    · refine (h.heard j hj hne).imp_right ?_
      intro hway
      -- the request that chooses had not chosen before
      refine (hmoved.after hway).resolve_right ?_
      rintro ⟨-, hon⟩
      rw [hnone] at hon
      cases hon
    · obtain rfl := List.mem_singleton.mp hj
      exact Or.inr ⟨_, hmoved.new, hp, rfl⟩
  · intro j
    rw [hsame]
    exact h.below j

/-- A result: a failure of `d` changes nothing, and an answer makes the number of another backend positive. Its
    request is not on its way any more, and need not be. -/
theorem Feedback.told (h : Feedback p d g) {event : ResultEvent} (hmoved : Moved g g' r .over)
    (hp : r.routeMeta.policy = p) (hphase : r.phase = .settled event) (hsent : g'.sent p = g.sent p)
    (hnumber : ∀ i, g'.number .leastTime p i =
      LoadAware.leastTime.after i (g.number .leastTime p i) (.reported event)) : Feedback p d g' := by
  have htold : Told d event := h.results r hmoved.mem hp event hphase
  have hon : r.phase.chosen? = some event.backendIndex := by
    rw [hphase]
    rfl
  have hin : event.backendIndex ∈ g.sent p := h.chosen _ ⟨r, hmoved.mem, hp, hon⟩
  constructor
  · exact hmoved.results h fun _ event' hphase' => by cases hphase'
  · intro i hi
    rw [hsent]
    rcases hmoved.before hi with hold | ⟨-, hover⟩
    · exact h.chosen i hold
    · cases hover
  · intro i hi
    rw [hsent] at hi
    rw [hnumber]
    rcases htold.after i (g.number .leastTime p i) with ⟨hsame, -⟩ | ⟨hindex, hne, -, -⟩
    · rw [hsame]
      exact h.unheard i hi
    · -- an answer comes from a backend that was sent a request
      rcases hi with hdead | hnot
      · exact absurd hdead hne
      · exact absurd (hindex ▸ hin) hnot
  · intro i hi hne
    rw [hsent] at hi
    rw [hnumber]
    rcases htold.after i (g.number .leastTime p i) with ⟨hsame, honly⟩ | ⟨-, -, hpos, -⟩
    · rw [hsame]
      refine (h.heard i hi hne).imp_right ?_
      intro hway
      refine (hmoved.after hway).resolve_right ?_
      rintro ⟨-, hon'⟩
      rw [hon] at hon'
      exact hne (honly (Option.some.inj hon'))
    · exact Or.inl hpos
  · intro i
    rw [hnumber]
    rcases htold.after i (g.number .leastTime p i) with ⟨hsame, -⟩ | ⟨-, -, -, hlt⟩
    · rw [hsame]
      exact h.below i
    · exact hlt (h.below i)

/-- **One move of a request of the policy.** -/
theorem Feedback.effect (h : Feedback p d g) (hmoved : Moved g g' r phase) (hp : r.routeMeta.policy = p)
    (heffect : Effect n d sent r.phase phase calls)
    (hsent : g'.sent p = g.sent p ++ (calls.filterMap PolicyCall.choice?).map Prod.snd)
    (hnumber : ∀ i, g'.number .leastTime p i =
      calls.foldl (LoadAware.leastTime.after i) (g.number .leastTime p i)) : Feedback p d g' := by
  cases heffect with
  | silent _ _ hchosen hresult hchoice _ hrecorded =>
      rw [hchoice, List.map_nil, List.append_nil] at hsent
      refine h.silent hmoved hp hchosen hresult hsent ?_
      intro i
      rw [hnumber, LoadAware.foldl_after hrecorded]
  | chose ctx i hnone _ _ =>
      refine h.chose hmoved hp hnone hsent ?_
      intro j
      rw [hnumber]
      exact LoadAware.foldl_after (by simp [LoadAware.recorded?]) j _
  | told event hphase => exact h.told hmoved hp hphase (hsent.trans (List.append_nil _)) hnumber

end

/-! ## One step

The parts of the invariant are kept one by one. The law and the feedback need each other: a pick obeys the law
because of the feedback so far, and the feedback is kept because the choice is recorded. -/

/-- What holds in every state of such a run. -/
structure Loop (routeMetas : List (RouteMeta (PipelineFn V))) (p : PolicyRef) (n d : Nat) (g : Gateway V ρ σ) :
    Prop where
  table : FromTable routeMetas g
  follows : ∃ cells, Follows .leastTime p g cells
  sized : Sized n p g
  scans : CountsScans .leastTime p g
  turns : g.scans p = (g.sent p).length
  feedback : Feedback p d g
  lawful : AllLawful n d (g.sent p)

/-- Before the first request, with a new least-time policy. -/
theorem loop_start {routeMetas : List (RouteMeta (PipelineFn V))} {p : PolicyRef} {n d : Nat}
    {policies : Policies ρ σ} (h : (policies p).balancer = .leastTime .new) :
    Loop routeMetas p n d (Gateway.start policies) := by
  refine ⟨fromTable_start policies, ⟨none, follows_start h⟩, ?_, ⟨⟨none, h⟩, Nat.le_refl _⟩, rfl,
    feedback_start p d policies, ?_⟩
  · intro array hsome
    rw [show (Gateway.start policies : Gateway V ρ σ).policies p = policies p from rfl, h] at hsome
    cases hsome
  · intro earlier i later hsplit
    have hlength := congrArg List.length hsplit
    rw [List.length_append, List.length_cons] at hlength
    cases hlength

section
variable {routeMetas : List (RouteMeta (PipelineFn V))} {p : PolicyRef} {n d : Nat} {g g' : Gateway V ρ σ}

/-- The balancer, with what a pick on a pool of `n` backends reads: the array if there is one, and zeros if this
    is the first pick. -/
theorem Loop.balancer (h : Loop routeMetas p n d g) :
    ∃ cells, (g.policies p).balancer = LoadAware.leastTime.balancer cells (UInt64.ofNat (g.sent p).length) ∧
      (∀ v ∈ getOrInit cells n, v < 18446744073709551615) ∧
      ∀ i < n, cellAt (getOrInit cells n) i = g.number .leastTime p i := by
  obtain ⟨cells, hfollows⟩ := h.follows
  obtain ⟨offset, hbalancer⟩ := hfollows.balancer
  obtain ⟨cells', hoffset⟩ := h.scans.offset
  rw [hbalancer] at hoffset
  cases hoffset
  refine ⟨cells, by rw [hbalancer, h.turns], ?_⟩
  cases hcells : cells with
  | none =>
      constructor
      · intro v hv
        obtain ⟨-, rfl⟩ := List.mem_replicate.mp hv
        decide
      · intro i _
        rw [cellAt_getOrInit_none]
        exact (LoadAware.foldl_after (hfollows.unseen hcells) i 0).symm
  | some array =>
      have hnumber : ∀ i v, array[i]? = some v → v = g.number .leastTime p i := by
        intro i v hv
        have hget := hfollows.numbers array hcells i (List.getElem?_eq_some_iff.mp hv).1
        rw [hv] at hget
        exact Option.some.inj hget
      have hlength : array.length = n := by
        apply h.sized
        rw [hbalancer, LoadAware.cells?_balancer, hcells]
      constructor
      · intro v hv
        obtain ⟨i, hi⟩ := List.mem_iff_getElem?.mp hv
        rw [hnumber i v hi]
        exact h.feedback.below i
      · intro i hi
        rw [← hlength] at hi
        show array[i]?.getD 0 = _
        rw [List.getElem?_eq_getElem hi, Option.getD_some]
        exact hnumber i _ (List.getElem?_eq_getElem hi)

variable [Balancer σ] [Xxh3]

/-- **A pick while no request is on its way** chooses a backend by the law. The scan ends at the first least
    number. Where the backend whose turn it is has zero, that is the one; where only `d` has zero, it is `d`,
    provided that the scan looks at every slot. -/
theorem Loop.pick (h : Loop routeMetas p n d g) (hd : d < n) (ctx : BalanceCtx) (hall : ctx.candidates = .all)
    (hpool : ctx.pool.len = n) (hidle : ∀ r ∈ g.requests, r.routeMeta.policy = p → r.phase.chosen? = none) :
    ∃ i < n, ((g.policies p).pick ctx).1 = some i ∧ Lawful n d (g.sent p) i := by
  obtain ⟨cells, hbalancer, hbelow, hreads⟩ := h.balancer
  obtain ⟨hlen, hlist⟩ := candidates_all hall
  subst hpool
  have hne : ctx.candidateLen ≠ 0 := by omega
  have hoffset : (UInt64.ofNat (g.sent p).length).toNat = (g.sent p).length % 2 ^ 64 := UInt64.toNat_ofNat'
  have hanswers := pickLeast_answers ctx hbelow (UInt64.ofNat (g.sent p).length)
  rw [(pick_loadAware hbalancer ctx).1, if_neg hne]
  cases hpick : pickLeast ctx (getOrInit cells ctx.pool.len) (UInt64.ofNat (g.sent p).length) with
  | none => exact absurd (hanswers.none_iff.mp hpick) hne
  | some i =>
      have hcandidate := BalanceCtx.isCandidate_iff.mp (hanswers.candidate i hpick)
      rw [hlist, List.mem_range] at hcandidate
      refine ⟨i, hcandidate, rfl, ?_, ?_⟩
      · -- the backend whose turn it is reads zero
        intro hturn
        have hlt : (g.sent p).length % 2 ^ 64 % ctx.pool.len < ctx.pool.len := Nat.mod_lt _ (by omega)
        have hzero := hreads _ hlt
        rw [h.feedback.unheard _ hturn, ← hoffset] at hzero
        rw [pickLeast_turn hall (by omega) hbelow hzero, hoffset] at hpick
        exact (Option.some.inj hpick).symm
      · -- only `d` reads zero
        intro hsent hunbroken
        have hzero := hreads d hd
        rw [h.feedback.unheard d (Or.inl rfl)] at hzero
        have hothers : ∀ j < ctx.pool.len, j ≠ d → cellAt (getOrInit cells ctx.pool.len) j ≠ 0 := by
          intro j hj hother
          rw [hreads j hj]
          rcases h.feedback.heard j (hsent j hj hother) hother with hpos | ⟨r, hr, hp, hon⟩
          · exact hpos
          · rw [hidle r hr hp] at hon
            cases hon
        have honly := pickLeast_only hall hbelow (by rw [Unbroken, hoffset]; exact hunbroken) hd hzero hothers
        rw [honly] at hpick
        exact (Option.some.inj hpick).symm

variable [RouteStrategy ρ]

/-- **One move of a request of policy `p`.** -/
theorem Loop.effect (h : Loop routeMetas p n d g) (hmetas : ∀ m ∈ routeMetas, m.policy = p → m.pool.len = n)
    (hd : d < n) {id : Nat} {m : Move V} {r : Live V} {phase : Phase V} {policy : Policy ρ σ}
    {calls : List PolicyCall} (hr : g.requests[id]? = some r) (hp : r.routeMeta.policy = p)
    (hmoves : Moves r.routeMeta (g.policies p) r.phase m phase policy calls) (hone : OneByOne p d g (.move id m)) :
    Effect n d (g.sent p) r.phase phase calls := by
  have hpool := hmetas _ (h.table.requests r (List.mem_of_getElem? hr)) hp
  refine moves_effect hmoves ?_ ?_ ?_
  · rintro routing rfl hphase
    obtain ⟨hall, hidle⟩ := hone r hr hp routing (congrArg Phase.routing? hphase)
    obtain ⟨i, hi, hpick, hlawful⟩ := h.pick hd (r.routeMeta.balanceCtx routing) hall hpool hidle
    refine ⟨?_, i, by rw [hpool]; exact hi, hpick, hlawful⟩
    rw [(candidates_all hall).1]
    show r.routeMeta.pool.len ≠ 0
    omega
  · rintro rfl
    exact hone r hr hp
  · rintro result elapsed i rfl hphase
    exact hone r hr hp i (congrArg Phase.backend? hphase)

/-- **One step.** -/
theorem Loop.step (hmetas : ∀ m ∈ routeMetas, m.policy = p → m.pool.len = n) (hd : d < n) {a : Act V}
    (h : Loop routeMetas p n d g) (hone : OneByOne p d g a) (hstep : Apigate.step routeMetas g a = some g') :
    Loop routeMetas p n d g' := by
  obtain ⟨cells, hfollows⟩ := h.follows
  obtain ⟨offset, hbalancer⟩ := hfollows.balancer
  have hsized := h.sized.step hmetas h.table hbalancer hstep
  have htable := h.table.step hstep
  have hscans := h.scans.step hstep
  have hfollows' := hfollows.step hstep
  cases a with
  | arrive routeIdx =>
      obtain ⟨routeMeta, -, rfl⟩ := step_arrive hstep
      exact ⟨htable, hfollows', hsized, hscans, h.turns, h.feedback.arrive routeMeta, h.lawful⟩
  | move id m =>
      obtain ⟨r, phase, policy, calls, hr, hmoves, hg'⟩ := step_move hstep
      have hmoved : Moved g g' r phase := moved_of_set hr (congrArg Gateway.requests hg')
      have hlog := congrArg Gateway.log hg'
      have hscan : g'.callsTo p PolicyCall.scan? = _ := callsTo_move hlog p _
      have hchoice : g'.choices p = _ := choices_move hlog p
      have hcalls := callsTo_move hlog p some
      by_cases hp : r.routeMeta.policy = p
      · rw [if_pos hp] at hscan hchoice hcalls
        rw [List.filterMap_some] at hcalls
        rw [hp] at hmoves
        have heffect := h.effect hmetas hd hr hp hmoves hone
        have hsent : g'.sent p = g.sent p ++ (calls.filterMap PolicyCall.choice?).map Prod.snd := by
          unfold Gateway.sent
          rw [hchoice, List.map_append]
        have hnumber : ∀ i, g'.number .leastTime p i =
            calls.foldl (LoadAware.leastTime.after i) (g.number .leastTime p i) := by
          intro i
          unfold Gateway.number
          rw [hcalls, List.foldl_append]
        refine ⟨htable, hfollows', hsized, hscans, ?_, h.feedback.effect hmoved hp heffect hsent hnumber, ?_⟩
        · have hturns := h.turns
          unfold Gateway.scans at hturns ⊢
          rw [hscan, hsent, List.length_append, List.length_append, hturns, heffect.turns, List.length_map]
        · rw [hsent]
          exact heffect.lawful h.lawful
      · rw [if_neg hp, List.append_nil] at hscan hchoice hcalls
        have hsent : g'.sent p = g.sent p := congrArg (List.map Prod.snd) hchoice
        have hsame : ∀ i, g'.number .leastTime p i = g.number .leastTime p i := by
          intro i
          unfold Gateway.number
          rw [hcalls]
        refine ⟨htable, hfollows', hsized, hscans, ?_, h.feedback.other hmoved hp hsent hsame, ?_⟩
        · rw [hsent, ← h.turns]
          exact congrArg List.length hscan
        · rw [hsent]
          exact h.lawful

/-! ## The main result -/

/-- **What a dead backend takes from a least-time policy.** In every sequential run: while some other backend
    has not been sent a request, any `2 * n` requests in a row go to another backend at least once; when each of
    them has been sent one, all requests go to the dead backend, except where the offset wraps within a scan.
    Both follow from the law of the choices, which holds along the run by `Loop.step`. -/
theorem dead_backend_requests (hmetas : ∀ m ∈ routeMetas, m.policy = p → m.pool.len = n) (hfits : n ≤ 2 ^ 64)
    (hd : d < n) {policies : Policies ρ σ} (hnew : (policies p).balancer = .leastTime .new) {acts : List (Act V)}
    (hone : EachStep (step routeMetas) (OneByOne p d) (.start policies) acts)
    (hrun : run (Apigate.step routeMetas) (.start policies) acts = some g) {earlier window later : List Nat}
    (hsent : g.sent p = earlier ++ window ++ later) :
    (window.length = 2 * n → (∃ u < n, u ≠ d ∧ u ∉ earlier) → ∃ i ∈ window, i ≠ d) ∧
    ((∀ u < n, u ≠ d → u ∈ earlier) → earlier.length + window.length + n ≤ 2 ^ 64 ∨ n ∣ 2 ^ 64 →
      ∀ i ∈ window, i = d) := by
  have hloop : Loop routeMetas p n d g := by
    refine invariant_of_eachStep ?_ (loop_start hnew) hone hrun
    intro g a g' h hone hstep
    exact h.step hmetas hd hone hstep
  have hlawful := hloop.lawful
  rw [hsent] at hlawful
  constructor
  · rintro hlength ⟨u, hu, hne, hunsent⟩
    exact hlawful.other_sent hfits hu hne hunsent hlength
  · intro hall hunbroken
    exact hlawful.absorbed hall hunbroken

end

/-! ## Examples -/

/-- A service with two backends on a least-time policy. -/
def twoTimed : AppBuilder Str NoRouteKey RoundRobin :=
  (AppBuilder.new.setDefaultPolicy .leastTime).mountService (pingRoutes (str "sales"))
    [str "http://a", str "http://b"]

/-- Five requests, one after the other: the first backend answers in a millisecond, the second one never. -/
def deadSecond : List (Act Str) :=
  ends 0 0 (.ok okResponse) 1000000 ++
    ([1, 2, 3, 4] : List Nat).flatMap fun id => ends 0 id (.error .timeout) 30000000000

/-- The theorem at those requests: among the first four one goes to the first backend, the last four go to the
    dead one. -/
theorem dead_backend_requests_second :
    ∃ app g, twoTimed.build .plain = (some (.ok app) : Option _) ∧
      run (plainStep app) (.start app.initialPolicies) deadSecond = some g ∧ g.sent 1 = [0, 1, 1, 1, 1] ∧
      (∃ i ∈ [0, 1, 1, 1], i ≠ 1) ∧ ∀ i ∈ [1, 1, 1, 1], i = 1 := by
  obtain ⟨app, g, hbuild, hpools, hnew, hone, hrun, hsent⟩ :
      ∃ app g, twoTimed.build .plain = (some (.ok app) : Option _) ∧
        (∀ m ∈ app.inner.routeMetas, m.policy = 1 → m.pool.len = 2) ∧
        (app.initialPolicies 1).balancer = .leastTime .new ∧
        EachStep (plainStep app) (OneByOne 1 1) (.start app.initialPolicies) deadSecond ∧
        run (plainStep app) (.start app.initialPolicies) deadSecond = some g ∧ g.sent 1 = [0, 1, 1, 1, 1] :=
    ⟨_, _, rfl, by decide, rfl, by decide +kernel, rfl, rfl⟩
  refine ⟨app, g, hbuild, hrun, hsent, ?_, ?_⟩
  · exact (@dead_backend_requests Str NoRouteKey RoundRobin _ 1 2 1 g _ .length _ hpools (by decide) (by decide) _
      hnew deadSecond hone hrun [] [0, 1, 1, 1] [1] hsent).1 rfl ⟨0, by decide, by decide, by decide⟩
  · exact (@dead_backend_requests Str NoRouteKey RoundRobin _ 1 2 1 g _ .length _ hpools (by decide) (by decide) _
      hnew deadSecond hone hrun [0] [1, 1, 1, 1] [] hsent).2 (by decide) (Or.inl (by decide))

/-- **Four requests in a row go to the dead one of two backends.** -/
theorem dead_backend_absorbs :
    ∃ app g, twoTimed.build .plain = (some (.ok app) : Option _) ∧
      (∀ m ∈ app.inner.routeMetas, m.policy = 1 ∧ m.pool.len = 2) ∧
      (app.initialPolicies 1).balancer = .leastTime .new ∧
      EachStep (plainStep app) (OneByOne 1 1) (.start app.initialPolicies) deadSecond ∧
      run (plainStep app) (.start app.initialPolicies) deadSecond = some g ∧
      ¬ ∀ earlier window later, g.sent 1 = earlier ++ window ++ later → window.length = 2 * 2 →
        ∃ i ∈ window, i ≠ 1 := by
  refine ⟨_, _, rfl, by decide, rfl, by decide +kernel, rfl, ?_⟩
  intro hclaim
  obtain ⟨i, hi, hne⟩ := hclaim [0] [1, 1, 1, 1] [] rfl rfl
  exact hne (by simpa using hi)

end Apigate
