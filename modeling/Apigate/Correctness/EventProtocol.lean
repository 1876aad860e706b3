import Apigate.Correctness.Observer
import Apigate.Correctness.Refinement

/-!
# `Correctness.EventProtocol` — what a request shows, in every interleaving

The calls of the observer and of the policies that a request makes follow one protocol, however the requests of
the gateway interleave and wherever their handlers are dropped. A handler that nothing interrupts is a run of
the watched gateway.

The protocol is an inductive predicate over the phases of a request, `HistoryAt`: one constructor for each way
to reach a phase, which says what was shown before and what this stretch of the handler adds. What a request has
shown is then read off its phase, without looking back at the run. In the phase `settled`, for example, the
balancer has been told of the start of the exchange and not yet of its end, and the observer, if there is one,
has just been told how it ended.

The argument is an invariant over all runs:

* `HistoryAt.move`: a move of the request itself takes its history from one phase to the next, by cases on what
  a move can do (`Moves`);
* `FollowsProtocol.step`: a step of the gateway moves one request and appends to the history under that
  request's index only, so the histories of the others are what they were; an arrival takes an index that has
  shown nothing, which is why `known` belongs to the invariant;
* `requests_follow_protocol`: from the empty gateway, along any run.

The second half connects the watched gateway to the handler as it is written: `reactAll` is what the moves of
one request show when nothing comes between them, and `proxyHandler_is_watched_run` finds for every call of
`proxyHandler` the moves whose history is what that handler shows of its policy and its observer.
-/

namespace Apigate
open Lib Runs Prog Dispatch

variable {V ρ σ : Type}

/-! ## The protocol

A request ends in one of five ways. Three are returns of the handler: the exchange is reported, a failed
pipeline is shown to the observer and to no policy, and a pick without a backend to both. The other two are the
drops at the two awaits, after which nothing more is shown. -/

section
variable (inner : Inner V) (routeMeta : RouteMeta (PipelineFn V))

/-- What a request has shown when its handler is in a phase. -/
inductive HistoryAt : Phase V → List HistoryItem → Prop where
  /-- It has entered the handler. -/
  | entered (parts : Parts V) : HistoryAt .pipeline (inner.seen routeMeta [startKind routeMeta parts])
  | routing {h : List HistoryItem} (parts : Parts V) : HistoryAt .pipeline h → HistoryAt (.routing parts) h
  | picking {h : List HistoryItem} (parts : Parts V) (routing : RoutingDecision) :
      HistoryAt (.routing parts) h → HistoryAt (.picking routing) h
  /-- The balancer chose a backend of the pool, and the observer got it. -/
  | selected {h : List HistoryItem} (routing : RoutingDecision) (i : Nat) (hi : i < routeMeta.pool.len) :
      HistoryAt (.picking routing) h →
      HistoryAt (.selected i) (h ++ .called (.picked (routeMeta.balanceCtx routing) (some i)) ::
        inner.seen routeMeta [.backendSelected i])
  | started {h : List HistoryItem} (i : Nat) : HistoryAt (.selected i) h →
      HistoryAt (.upstream i) (h ++ [.called (.started ⟨routeMeta.service, i⟩)])
  /-- The observer got the end of the exchange, which is what the balancer will be told. -/
  | settled {h : List HistoryItem} (i : Nat) (result : Except ProxyErrorKind Response) (elapsed : Duration) :
      HistoryAt (.upstream i) h →
      HistoryAt (.settled (resultEvent routeMeta i result elapsed))
        (h ++ inner.seen routeMeta [settledKind i result elapsed])
  | reported {h : List HistoryItem} (event : ResultEvent) :
      HistoryAt (.settled event) h → HistoryAt .over (h ++ [.called (.reported event)])
  /-- The pipeline failed: no policy was called. -/
  | failed {h : List HistoryItem} (err : ApigateError) :
      HistoryAt .pipeline h → HistoryAt .over (h ++ inner.seen routeMeta [failureKind err])
  /-- The balancer chose no backend of the pool. -/
  | refused {h : List HistoryItem} (routing : RoutingDecision) (picked : Option Nat) (coreError : ApigateCoreError)
      (hpicked : routeMeta.backendAt picked = .error coreError) :
      HistoryAt (.picking routing) h →
      HistoryAt .over (h ++ .called (.picked (routeMeta.balanceCtx routing) picked) ::
        inner.seen routeMeta [.dispatchFailed (.core coreError)])
  /-- The handler was dropped while it awaited its pipeline. -/
  | droppedEarly {h : List HistoryItem} : HistoryAt .pipeline h → HistoryAt .over h
  /-- The handler was dropped while it awaited the upstream: the exchange has no end. -/
  | droppedLate {h : List HistoryItem} (i : Nat) : HistoryAt (.upstream i) h → HistoryAt .over h

variable {inner routeMeta}

@[simp] theorem seen_nil : inner.seen routeMeta [] = [] := by
  unfold Inner.seen
  split <;> rfl

/-- What a pick answers is the backend that is selected, or none is: an index of the pool names a backend. -/
theorem backendAt_of_lt {i : Nat} (hi : i < routeMeta.pool.len) :
    ∃ backend, routeMeta.backendAt (some i) = .ok (i, backend) := by
  obtain ⟨backend, hget⟩ := Option.isSome_iff_exists.mp (BackendPool.get_isSome.mpr hi)
  exact ⟨backend, by simp only [RouteMeta.backendAt, hget]⟩

/-- No index, or one outside the pool, is an error of the dispatch. -/
theorem backendAt_of_not_lt {picked : Option Nat} (h : ∀ i, picked = some i → routeMeta.pool.len ≤ i) :
    ∃ coreError, routeMeta.backendAt picked = .error coreError := by
  cases picked with
  | none => exact ⟨_, rfl⟩
  | some i =>
      have hnone : routeMeta.pool.get i = none := by
        rw [← Option.not_isSome_iff_eq_none, BackendPool.get_isSome]
        exact Nat.not_lt.mpr (h i rfl)
      exact ⟨.invalidBackendIndex, by simp only [RouteMeta.backendAt, hnone]⟩

/-- Every request has shown what its phase says, and no history belongs to a request that has not arrived. The
    second part is what makes the first one hold of a new request. -/
structure FollowsProtocol (inner : Inner V) (w : Watched V ρ σ) : Prop where
  requests : ∀ id live, w.gateway.requests[id]? = some live →
    HistoryAt inner live.routeMeta live.phase (w.historyOf id)
  known : ∀ entry ∈ w.history, entry.request < w.gateway.requests.length

/-- An empty gateway follows it: there is no request, and nothing has been shown. -/
theorem followsProtocol_start (policies : Policies ρ σ) : FollowsProtocol inner (.start policies) := by
  constructor
  · intro id live h
    cases h
  · intro entry h
    cases h

/-- What a request has shown, after some items of one request: they belong to that request's history and to no
    other. -/
theorem historyOf_append (g : Gateway V ρ σ) (h : List HistoryEntry) (id id' : Nat) (items : List HistoryItem) :
    (Watched.mk g (h ++ items.map (⟨id, ·⟩))).historyOf id' =
      (Watched.mk g h).historyOf id' ++ if id = id' then items else [] := by
  unfold Watched.historyOf
  rw [List.filter_append, List.map_append, List.filter_map]
  by_cases hid : id = id'
  · subst hid
    simp [Function.comp_def]
  · simp [Function.comp_def, hid]

/-- A request that is not there has shown nothing. -/
theorem FollowsProtocol.historyOf_new {w : Watched V ρ σ} (h : FollowsProtocol inner w) :
    w.historyOf w.gateway.requests.length = [] := by
  unfold Watched.historyOf
  rw [List.map_eq_nil_iff, List.filter_eq_nil_iff]
  intro entry hentry hreq
  have hlt := h.known entry hentry
  have heq : entry.request = w.gateway.requests.length := by simpa using hreq
  omega

section
variable [RouteStrategy ρ] [Balancer σ] [Xxh3]

/-- **A move keeps the protocol.** One case for each thing that a move can do, and each is one constructor of
    `HistoryAt`; in the case of the pick, whether the index names a backend of the pool decides which. -/
theorem HistoryAt.move {policy policy' : Policy ρ σ} {phase phase' : Phase V} {r : Reaction V}
    {calls : List PolicyCall} {h : List HistoryItem} (hh : HistoryAt inner routeMeta phase h)
    (hmoves : Moves routeMeta policy phase r.move phase' policy' calls) :
    HistoryAt inner routeMeta phase' (h ++ shownBy inner routeMeta phase r calls) := by
  unfold shownBy
  cases r with
  | returns result =>
      cases result with
      | ok parts =>
          cases hmoves
          simpa [emittedKinds] using HistoryAt.routing parts hh
      | error err =>
          cases hmoves
          exact .failed err hh
  | route =>
      cases hmoves with
      | routed parts => simpa [emittedKinds] using HistoryAt.picking parts _ hh
  | pick =>
      cases hmoves with
      | picked routing i hpick hi =>
          obtain ⟨backend, hbackend⟩ := backendAt_of_lt hi
          simpa [emittedKinds, RouteMeta.pickedKind, hbackend] using HistoryAt.selected routing i hi hh
      | refused routing hpick =>
          obtain ⟨coreError, hbackend⟩ := backendAt_of_not_lt hpick
          simpa [emittedKinds, RouteMeta.pickedKind, hbackend] using HistoryAt.refused routing _ coreError hbackend hh
  | start =>
      cases hmoves with
      | started i => simpa [emittedKinds] using HistoryAt.started i hh
  | settle result elapsed =>
      cases hmoves with
      | settled i => exact .settled i result elapsed hh
  | report =>
      cases hmoves with
      | reported event => simpa [emittedKinds] using HistoryAt.reported event hh
  | drop =>
      cases hmoves with
      | droppedEarly => simpa [emittedKinds] using HistoryAt.droppedEarly hh
      | droppedLate i => simpa [emittedKinds] using HistoryAt.droppedLate i hh

/-! ## Every request of every run

The invariant is kept by an arrival and by a move of any request. That it speaks of all requests at once is no
loss: a step changes the phase and the history of one of them. -/

/-- **A step keeps it.** For an arrival: the new request has shown what `entered` says, since nothing stood
    under its index before, and the others are where they were. For a move: the request that moved is at the
    phase that `HistoryAt.move` gives, and another request has shown nothing new. -/
theorem FollowsProtocol.step {w w' : Watched V ρ σ} {a : WatchedAct V} (h : FollowsProtocol inner w)
    (hstep : watchedStep inner w a = some w') : FollowsProtocol inner w' := by
  cases a with
  | arrive routeIdx parts =>
      obtain ⟨routeMeta, hmeta, rfl⟩ := watchedStep_arrive hstep
      constructor
      · intro id live hlive
        rw [historyOf_append]
        rcases Nat.lt_or_ge id w.gateway.requests.length with hlt | hge
        · have hold : w.gateway.requests[id]? = some live := by
            rwa [List.getElem?_append_left hlt] at hlive
          rw [if_neg (by omega), List.append_nil]
          exact h.requests id live hold
        · -- the request that has just arrived
          have hlt := (List.getElem?_eq_some_iff.mp hlive).1
          rw [List.length_append, List.length_singleton] at hlt
          obtain rfl : id = w.gateway.requests.length := by omega
          rw [List.getElem?_concat_length] at hlive
          obtain rfl := Option.some.inj hlive
          have hnew := h.historyOf_new
          unfold Watched.historyOf at hnew ⊢
          rw [hnew, if_pos rfl, List.nil_append]
          exact .entered parts
      · intro entry hentry
        rw [List.length_append, List.length_singleton]
        rcases List.mem_append.mp hentry with hentry | hentry
        · have := h.known entry hentry
          omega
        · obtain ⟨item, -, rfl⟩ := List.mem_map.mp hentry
          exact Nat.lt_succ_self _
  | move id r =>
      obtain ⟨live, phase, policy, calls, hlive, hmoves, rfl⟩ := watchedStep_move hstep
      obtain ⟨hlt, -⟩ := List.getElem?_eq_some_iff.mp hlive
      constructor
      · intro id' live' hlive'
        rw [historyOf_append]
        by_cases hid : id = id'
        · subst hid
          rw [List.getElem?_set_self hlt] at hlive'
          obtain rfl := Option.some.inj hlive'
          rw [if_pos rfl]
          exact HistoryAt.move (h.requests id live hlive) hmoves
        · rw [List.getElem?_set_ne hid] at hlive'
          rw [if_neg hid, List.append_nil]
          exact h.requests id' live' hlive'
      · intro entry hentry
        rw [List.length_set]
        rcases List.mem_append.mp hentry with hentry | hentry
        · exact h.known entry hentry
        · obtain ⟨item, -, rfl⟩ := List.mem_map.mp hentry
          exact hlt

/-- **Requests follow the protocol in every interleaving.** In every run of a gateway, with any observer
    setting, any policies, and handlers dropped at any `await`, what each request has shown is what the protocol
    says for the phase of its handler. -/
theorem requests_follow_protocol (inner : Inner V) (policies : Policies ρ σ) {acts : List (WatchedAct V)}
    {w : Watched V ρ σ} (hrun : run (watchedStep inner) (.start policies) acts = some w) {id : Nat} {live : Live V}
    (hlive : w.gateway.requests[id]? = some live) :
    HistoryAt inner live.routeMeta live.phase (w.historyOf id) :=
  (invariant_of_run (fun _ _ _ h hstep => FollowsProtocol.step h hstep) (followsProtocol_start policies)
    hrun).requests id live hlive

end
end

/-- Two requests at once: each move of the one stands between two of the other. The first one's handler is
    dropped while it awaits the upstream, the second one is answered. -/
def interleavedRun : List (WatchedAct Str) :=
  [.arrive 0 quotedRequest.parts, .arrive 0 quotedRequest.parts, .move 1 (.returns (.ok quotedRequest.parts)),
    .move 0 (.returns (.ok quotedRequest.parts)), .move 1 .route, .move 0 .route, .move 0 .pick, .move 1 .pick,
    .move 0 .start, .move 1 .start, .move 0 .drop, .move 1 (.settle (.ok ⟨200, .empty, .ofBytes []⟩) 7),
    .move 1 .report]

/-- The theorem at both requests of that run. -/
theorem requests_follow_protocol_interleaved :
    ∃ w : Watched Str NoRouteKey RoundRobin,
      run (@watchedStep Str NoRouteKey RoundRobin _ _ .length soloInner) (.start fun _ => .new) interleavedRun =
        some w ∧
      HistoryAt soloInner soloMeta .over (w.historyOf 0) ∧ HistoryAt soloInner soloMeta .over (w.historyOf 1) := by
  refine ⟨_, rfl, ?_, ?_⟩
  · exact @requests_follow_protocol Str NoRouteKey RoundRobin _ _ .length soloInner (fun _ => .new) interleavedRun _
      rfl 0 ⟨soloMeta, .over⟩ rfl
  · exact @requests_follow_protocol Str NoRouteKey RoundRobin _ _ .length soloInner (fun _ => .new) interleavedRun _
      rfl 1 ⟨soloMeta, .over⟩ rfl

/-! ## The protocol of one run

A handler as it is written shows more than its items: the stages of its pipeline, the call to the route strategy
and the request that it sends. `isItem` filters these out, and what is left is compared with the history that
the moves of the request build. -/

/-- What belongs to the history of a request, among the events of a handler. -/
def DispatchEvent.isItem : DispatchEvent V → Bool
  | .observed _ | .picked _ | .started .. | .reported .. => true
  | .pipeline _ | .routed _ | .sent _ => false

/-- What a handler shows of an item, if its policy is `p`. -/
def HistoryItem.shown (p : PolicyRef) : HistoryItem → DispatchEvent V
  | .observed event => .observed event
  | .called call => call.shown p

/-- The items of a call to the observer are the call, or nothing where there is no observer. -/
theorem filter_observed_item (inner : Inner V) (routeMeta : RouteMeta (PipelineFn V)) (kind : RuntimeEventKind) :
    (observed inner routeMeta kind).filter DispatchEvent.isItem =
      (inner.seen routeMeta [kind]).map (HistoryItem.shown routeMeta.policy) := by
  unfold observed Inner.seen
  split <;> rfl

section
variable [RouteStrategy ρ] [Balancer σ] [Xxh3]

/-- The moves of one request, one after the other, with the calls they make and what they show. -/
def reactAll (inner : Inner V) (routeMeta : RouteMeta (PipelineFn V)) :
    Phase V → Policy ρ σ → List (Reaction V) → Option (Phase V × Policy ρ σ × List PolicyCall × List HistoryItem)
  | phase, policy, [] => some (phase, policy, [], [])
  | phase, policy, r :: rs => do
      let (next, policy, calls) ← move routeMeta policy phase r.move
      let (last, policy, restCalls, restItems) ← reactAll inner routeMeta next policy rs
      some (last, policy, calls ++ restCalls, shownBy inner routeMeta phase r calls ++ restItems)

/-- The reactions of a list are the first one and then the rest. -/
theorem reactAll_cons {inner : Inner V} {routeMeta : RouteMeta (PipelineFn V)} {phase phase₁ phase' : Phase V}
    {policy policy₁ policy' : Policy ρ σ} {r : Reaction V} {rs : List (Reaction V)}
    {calls restCalls : List PolicyCall}
    {restItems : List HistoryItem} (hmove : move routeMeta policy phase r.move = some (phase₁, policy₁, calls))
    (hrest : reactAll inner routeMeta phase₁ policy₁ rs = some (phase', policy', restCalls, restItems)) :
    reactAll inner routeMeta phase policy (r :: rs) =
      some (phase', policy', calls ++ restCalls, shownBy inner routeMeta phase r calls ++ restItems) := by
  simp only [reactAll, hmove, hrest, Option.bind_eq_bind, Option.bind_some]

/-- The moves of one request are a run of the watched gateway. By induction on the moves, for any state: the
    policies, the entry of the request, the log and the history change as in one step, and two updates of the
    same policy, or of the same entry, are one. -/
theorem run_of_reactAll {inner : Inner V} {w : Watched V ρ σ} {id : Nat} {live : Live V}
    (hlive : w.gateway.requests[id]? = some live) {rs : List (Reaction V)} {phase : Phase V} {policy : Policy ρ σ}
    {calls : List PolicyCall} {items : List HistoryItem}
    (h : reactAll inner live.routeMeta live.phase (w.gateway.policies live.routeMeta.policy) rs =
      some (phase, policy, calls, items)) :
    run (watchedStep inner) w (rs.map (.move id)) =
      some ⟨⟨Function.update w.gateway.policies live.routeMeta.policy policy,
          w.gateway.requests.set id { live with phase := phase },
          w.gateway.log ++ calls.map (LogEntry.mk id live.routeMeta.policy)⟩,
        w.history ++ items.map (⟨id, ·⟩)⟩ := by
  induction rs generalizing w live calls items with
  | nil =>
      obtain ⟨rfl, rfl, rfl, rfl⟩ : live.phase = phase ∧
          w.gateway.policies live.routeMeta.policy = policy ∧ [] = calls ∧ [] = items := by
        simpa [reactAll] using h
      obtain ⟨hlt, hget⟩ := List.getElem?_eq_some_iff.mp hlive
      have hset : w.gateway.requests.set id { live with phase := live.phase } = w.gateway.requests := by
        rw [← hget]
        exact List.set_getElem_self hlt
      rw [hset, Function.update_eq_self, List.map_nil, List.map_nil, List.append_nil, List.map_nil,
        List.append_nil]
      rfl
  | cons r rs ih =>
      simp only [reactAll, Option.bind_eq_bind, Option.bind_eq_some_iff] at h
      obtain ⟨⟨phase₁, policy₁, calls₁⟩, hmove, ⟨phase₂, policy₂, restCalls, restItems⟩, hrest, heq⟩ := h
      obtain ⟨rfl, rfl, rfl, rfl⟩ : phase₂ = phase ∧ policy₂ = policy ∧ calls₁ ++ restCalls = calls ∧
          shownBy inner live.routeMeta live.phase r calls₁ ++ restItems = items := by
        simpa using heq
      obtain ⟨hlt, -⟩ := List.getElem?_eq_some_iff.mp hlive
      have hnext : (w.gateway.requests.set id { live with phase := phase₁ })[id]? =
          some { live with phase := phase₁ } := List.getElem?_set_self hlt
      have hself : Function.update w.gateway.policies live.routeMeta.policy policy₁ live.routeMeta.policy =
          policy₁ := Function.update_self _ _ _
      refine run_cons.mpr ⟨_, watchedStep_of_move hlive hmove, ?_⟩
      have hrun := @ih ⟨⟨Function.update w.gateway.policies live.routeMeta.policy policy₁, _,
          w.gateway.log ++ calls₁.map (LogEntry.mk id live.routeMeta.policy)⟩,
        w.history ++ (shownBy inner live.routeMeta live.phase r calls₁).map (⟨id, ·⟩)⟩ _ hnext restCalls restItems
        (by
          dsimp only
          rw [hself]
          exact hrest)
      -- the two updates of the state are one
      rw [hrun]
      simp only [Function.update_idem, List.set_set, List.append_assoc, List.map_append]

/-- A program of the handler is the moves of a request: it does the same to the policy, and shows the same. -/
def IsMoves {α : Type} (inner : Inner V) (routeMeta : RouteMeta (PipelineFn V)) (phase : Phase V)
    (policies : Policies ρ σ) (outcome : Outcome (Policies ρ σ) Panic (DispatchEvent V) α) : Prop :=
  ∃ rs policy calls items,
    reactAll inner routeMeta phase (policies routeMeta.policy) rs = some (.over, policy, calls, items) ∧
    outcome.state = Function.update policies routeMeta.policy policy ∧
    outcome.trace.filter DispatchEvent.isItem = items.map (HistoryItem.shown routeMeta.policy)

section
variable (crates : Crates V) (client : Client V) (inner : Inner V) (routeMeta : RouteMeta (PipelineFn V))

/-- The exchange with a backend: by cases on what it gives. A panic is a start and a drop, and otherwise the
    moves are start, settle and report, with the observer's record between the two calls to the balancer. -/
theorem proxyToBackend_isMoves (i : Nat) (backend : Backend) (parts : Parts V) (body : Body)
    (policies : Policies ρ σ) :
    IsMoves inner routeMeta (.selected i) policies
      (proxyToBackend crates client inner routeMeta i backend parts body policies) := by
  cases hexchange : exchange crates client backend routeMeta parts body with
  | none =>
      -- the panic unwinds the handler between `on_start` and `on_result`
      rw [proxyToBackend_of_panic crates client inner i hexchange]
      refine ⟨[.start, .drop], _, _, _, rfl, rfl, ?_⟩
      simp [shownBy, emittedKinds, List.filter_cons, DispatchEvent.isItem, HistoryItem.shown, PolicyCall.shown]
  | some exchanged =>
      obtain ⟨sent, result, latency⟩ := exchanged
      rw [proxyToBackend_of_exchange crates client inner i hexchange]
      have hsent : (sent.map DispatchEvent.sent).filter DispatchEvent.isItem = [] := by
        rw [List.filter_map, List.map_eq_nil_iff]
        exact List.filter_eq_nil_iff.mpr fun _ _ => Bool.false_ne_true
      refine ⟨[.start, .settle (inTime inner.requestTimeout result latency).1
        (inTime inner.requestTimeout result latency).2, .report], _, _, _, rfl, rfl, ?_⟩
      simp only [List.filter_append, hsent, filter_observed_item, shownBy, emittedKinds, List.map_append]
      simp [List.filter_cons, DispatchEvent.isItem, HistoryItem.shown, PolicyCall.shown]

/-- From the end of the pipeline: route and pick, which show the pick and the selected backend, and then the
    exchange; or, where the pick names no backend, the pick and the observer's record of the failed dispatch. -/
theorem forward_isMoves (parts : Parts V) (body : Body) (policies : Policies ρ σ) :
    IsMoves inner routeMeta (.routing parts) policies
      (forward crates client inner routeMeta parts body policies) := by
  generalize hselected : selection routeMeta parts (policies routeMeta.policy) = selected
  obtain ⟨⟨routing, picked⟩, policy₂⟩ := selected
  obtain ⟨policy₁, hroute, hpick⟩ : ∃ policy₁,
      (policies routeMeta.policy).route (routeMeta.routeCtx parts) routeMeta.pool = (routing, policy₁) ∧
      policy₁.pick (routeMeta.balanceCtx routing) = (picked, policy₂) := by
    simp only [selection, Prod.mk.injEq] at hselected
    obtain ⟨⟨rfl, rfl⟩, rfl⟩ := hselected
    exact ⟨_, rfl, rfl⟩
  have hrouted : move routeMeta (policies routeMeta.policy) (.routing parts) .route =
      some (.picking routing, policy₁, []) := by
    simp only [move, hroute]
  cases hbackend : routeMeta.backendAt picked with
  | error coreError =>
      have hmove : move routeMeta policy₁ (.picking routing) .pick =
          some (.over, policy₂, [.picked (routeMeta.balanceCtx routing) picked]) := by
        simp only [move, hpick, hbackend]
      rw [forward_of_error crates client inner body (by rw [hselected]; exact hbackend), hselected]
      refine ⟨[.route, .pick], policy₂, _, _, reactAll_cons hrouted (reactAll_cons hmove rfl), rfl, ?_⟩
      rw [List.filter_append, filter_observed_item]
      simp [shownBy, emittedKinds, RouteMeta.pickedKind, hbackend, List.filter_cons, DispatchEvent.isItem,
        HistoryItem.shown, PolicyCall.shown]
  | ok selected =>
      obtain ⟨i, backend⟩ := selected
      have hmove : move routeMeta policy₁ (.picking routing) .pick =
          some (.selected i, policy₂, [.picked (routeMeta.balanceCtx routing) picked]) := by
        simp only [move, hpick, hbackend]
      rw [forward_of_ok crates client inner body (by rw [hselected]; exact hbackend), hselected]
      obtain ⟨rs, policy, calls, items, hrest, hstate, htrace⟩ := proxyToBackend_isMoves crates client inner
        routeMeta i backend parts body (Function.update policies routeMeta.policy policy₂)
      rw [Function.update_self] at hrest
      rw [Function.update_idem] at hstate
      refine ⟨.route :: .pick :: rs, policy, _, _, reactAll_cons hrouted (reactAll_cons hmove hrest), hstate, ?_⟩
      simp only [List.filter_append, filter_observed_item, htrace]
      simp [shownBy, emittedKinds, RouteMeta.pickedKind, hbackend, List.filter_cons, DispatchEvent.isItem,
        HistoryItem.shown, PolicyCall.shown]

end

/-- **A handler that nothing interrupts is a run of the watched gateway.** The request arrives and makes its
    moves; afterwards the policies are as the handler leaves them, and the history of the request is what the
    handler showed of its policy and its observer, in the same order. A handler that panics is one that is
    dropped. By cases on the result of the pipeline, with `forward_isMoves` for a success. -/
theorem proxyHandler_is_watched_run (crates : Crates V) (client : Client V) {inner : Inner V} {routeIdx : Nat}
    {routeMeta : RouteMeta (PipelineFn V)} (hmeta : inner.routeMetas[routeIdx]? = some routeMeta)
    (req : Request V) (w : Watched V ρ σ) :
    let outcome := proxyHandler crates client inner routeIdx req w.gateway.policies
    ∃ (rs : List (Reaction V)) (log : List LogEntry) (items : List HistoryItem),
      run (watchedStep inner) w (.arrive routeIdx req.parts :: rs.map (.move w.gateway.requests.length)) =
        some ⟨⟨outcome.state, w.gateway.requests ++ [⟨routeMeta, .over⟩], log⟩,
          w.history ++ items.map (⟨w.gateway.requests.length, ·⟩)⟩ ∧
      outcome.trace.filter DispatchEvent.isItem = items.map (HistoryItem.shown routeMeta.policy) := by
  intro outcome
  obtain ⟨rs, policy, calls, items, hmoves, hstate, htrace⟩ : ∃ rs policy calls items,
      reactAll inner routeMeta .pipeline (w.gateway.policies routeMeta.policy) rs =
        some (.over, policy, calls, items) ∧
      outcome.state = Function.update w.gateway.policies routeMeta.policy policy ∧
      outcome.trace.filter DispatchEvent.isItem =
        (inner.seen routeMeta [startKind routeMeta req.parts] ++ items).map (HistoryItem.shown routeMeta.policy) := by
    have hpipeline : (shownByPipeline inner routeMeta req).filter DispatchEvent.isItem =
        (inner.seen routeMeta [startKind routeMeta req.parts]).map (HistoryItem.shown routeMeta.policy) := by
      unfold shownByPipeline
      rw [List.filter_append, filter_observed_item, List.filter_map, List.append_right_eq_self, List.map_eq_nil_iff]
      exact List.filter_eq_nil_iff.mpr fun _ _ => Bool.false_ne_true
    cases hresult : (pipelineOutcome inner routeMeta req.parts req.body).result with
    | error err =>
        simp only [outcome, proxyHandler_of_error crates client hmeta hresult]
        refine ⟨[.returns (.error err)], _, _, _, rfl, (Function.update_eq_self _ _).symm, ?_⟩
        simp only [List.filter_append, hpipeline, filter_observed_item, List.map_append]
        simp [shownBy, emittedKinds]
    | ok body =>
        obtain ⟨rs, policy, calls, items, hrest, hstate, htrace⟩ := forward_isMoves crates client inner
          routeMeta (pipelineOutcome inner routeMeta req.parts req.body).state.ctx.parts body
          w.gateway.policies
        simp only [outcome, proxyHandler_of_ok crates client hmeta hresult]
        refine ⟨.returns (.ok _) :: rs, policy, _, _, reactAll_cons rfl hrest, hstate, ?_⟩
        simp only [List.filter_append, hpipeline, htrace, List.map_append]
        simp [shownBy, emittedKinds]
  refine ⟨rs, w.gateway.log ++ calls.map (LogEntry.mk w.gateway.requests.length routeMeta.policy),
    inner.seen routeMeta [startKind routeMeta req.parts] ++ items, ?_, htrace⟩
  have hnew : (w.gateway.requests ++ [Live.mk routeMeta .pipeline])[w.gateway.requests.length]? =
      some ⟨routeMeta, .pipeline⟩ := List.getElem?_concat_length
  have harrive : watchedStep inner w (.arrive routeIdx req.parts) =
      some ⟨{ w.gateway with requests := w.gateway.requests ++ [⟨routeMeta, .pipeline⟩] }, w.history ++
        (inner.seen routeMeta [startKind routeMeta req.parts]).map (⟨w.gateway.requests.length, ·⟩)⟩ := by
    simp only [watchedStep, WatchedAct.act, step_of_arrive w.gateway hmeta, hmeta, Option.bind_eq_bind,
      Option.bind_some]
  refine run_cons.mpr ⟨_, harrive, ?_⟩
  rw [run_of_reactAll (w := ⟨⟨w.gateway.policies, _, w.gateway.log⟩, _⟩) hnew hmoves]
  simp only [hstate, List.map_append, List.append_assoc]
  rw [List.set_append_right _ _ (Nat.le_refl _), Nat.sub_self]
  rfl

end

/-- The theorem at a request that the upstream answers. -/
theorem proxyHandler_is_watched_run_solo :
    let start : Watched Str NoRouteKey RoundRobin := .start fun _ => .new
    let outcome := @proxyHandler Str NoRouteKey RoundRobin _ _ .length .plain soloClient soloInner 0 quotedRequest
      start.gateway.policies
    ∃ (rs : List (Reaction Str)) (w : Watched Str NoRouteKey RoundRobin) (items : List HistoryItem) (p : PolicyRef),
      run (@watchedStep Str NoRouteKey RoundRobin _ _ .length soloInner) start
        (.arrive 0 quotedRequest.parts :: rs.map (.move 0)) = some w ∧
      outcome.trace.filter DispatchEvent.isItem = items.map (HistoryItem.shown p) := by
  obtain ⟨rs, log, items, hrun, htrace⟩ := @proxyHandler_is_watched_run Str NoRouteKey RoundRobin _ _ .length .plain
    soloClient soloInner 0 _ rfl quotedRequest (.start fun _ => .new)
  exact ⟨rs, _, items, _, hrun, htrace⟩

end Apigate
