import Apigate.App.Gateway

/-!
# `App.Watched` — the interleaved gateway, with what its observer gets

`App.Gateway` keeps the calls to the policies. Here the calls of the observer stand between them, in the order
in which the handlers make them. An action carries what the events say about it: the head of the request, and
the error of a pipeline.

What is shown is computed from the move and from the calls that it made, and never fed back: `watchedStep` is
`step` with a history beside it, so every run of the watched gateway is a run of the gateway
(`step_of_watchedStep`), and what is proved about the policies there holds here.
-/

namespace Apigate
open Lib

variable {V ρ σ : Type}

/-! ## Events

The three events of `dispatch.rs` whose contents depend on a result, each as a function of that result. -/

namespace Dispatch

/-- The event of a request that enters the handler. -/
def startKind (routeMeta : RouteMeta (PipelineFn V)) (parts : Parts V) : RuntimeEventKind :=
  .requestStart parts.method parts.uri routeMeta.pipeline.isSome

/-- The event of a pipeline that failed. -/
def failureKind (err : ApigateError) : RuntimeEventKind :=
  match err.frameworkError with
  | some error => .pipelineFailedFramework error
  | none => .pipelineFailedCustom err.statusCodeForLog

/-- The event of an exchange that ended. -/
def settledKind (backendIndex : Nat) (result : Except ProxyErrorKind Response) (elapsed : Duration) :
    RuntimeEventKind :=
  match result with
  | .ok response => .upstreamSucceeded backendIndex response.status elapsed
  | .error error => .upstreamFailed backendIndex error elapsed

end Dispatch

/-! ## Actions and what they show -/

/-- The next move of one handler, with what the environment decides about it. -/
inductive Reaction (V : Type) where
  | returns (result : Except ApigateError (Parts V))
  | route
  | pick
  | start
  | settle (result : Except ProxyErrorKind Response) (elapsed : Duration)
  | report
  | drop

def Reaction.move : Reaction V → Move V
  | returns (.ok parts) => .returns (some parts)
  | returns (.error _) => .returns none
  | route => .route
  | pick => .pick
  | start => .start
  | settle result elapsed => .settle result elapsed
  | report => .report
  | drop => .drop

inductive WatchedAct (V : Type) where
  | arrive (routeIdx : Nat) (parts : Parts V)
  | move (request : Nat) (r : Reaction V)

def WatchedAct.act : WatchedAct V → Act V
  | arrive routeIdx _ => .arrive routeIdx
  | move request r => .move request r.move

/-- What a handler shows of itself. -/
inductive HistoryItem where
  | observed (event : RuntimeEvent)
  | called (call : PolicyCall)

structure HistoryEntry where
  request : Nat
  item : HistoryItem

/-- The gateway, and the calls of its handlers to policies and observer so far. -/
structure Watched (V ρ σ : Type) where
  gateway : Gateway V ρ σ
  history : List HistoryEntry

namespace Watched

/-- A gateway before its first request. -/
def start (policies : Policies ρ σ) : Watched V ρ σ := ⟨.start policies, []⟩

/-- What one request has shown so far. -/
def historyOf (w : Watched V ρ σ) (id : Nat) : List HistoryItem :=
  (w.history.filter fun entry => entry.request == id).map HistoryEntry.item

end Watched

/-- The event of a pick. -/
def RouteMeta.pickedKind {Pipeline : Type} (routeMeta : RouteMeta Pipeline) (picked : Option Nat) :
    RuntimeEventKind :=
  match routeMeta.backendAt picked with
  | .ok (i, _) => .backendSelected i
  | .error coreError => .dispatchFailed (.core coreError)

/-- The events of a move that made the given calls. -/
def emittedKinds (routeMeta : RouteMeta (PipelineFn V)) :
    Phase V → Reaction V → List PolicyCall → List RuntimeEventKind
  | .pipeline, .returns (.error err), _ => [Dispatch.failureKind err]
  | .picking _, .pick, [.picked _ picked] => [routeMeta.pickedKind picked]
  | .upstream i, .settle result elapsed, _ => [Dispatch.settledKind i result elapsed]
  | _, _, _ => []

/-- The calls of the observer, if there is one. -/
def Inner.seen (inner : Inner V) (routeMeta : RouteMeta (PipelineFn V)) (kinds : List RuntimeEventKind) :
    List HistoryItem :=
  if inner.runtimeObserver then kinds.map fun kind => .observed ⟨routeMeta.service, routeMeta.routePath, kind⟩
  else []

/-- What a move shows: a handler calls its policy first. -/
def shownBy (inner : Inner V) (routeMeta : RouteMeta (PipelineFn V)) (phase : Phase V) (r : Reaction V)
    (calls : List PolicyCall) : List HistoryItem :=
  calls.map .called ++ inner.seen routeMeta (emittedKinds routeMeta phase r calls)

section
variable [RouteStrategy ρ] [Balancer σ] [Xxh3]

/-- One action of the gateway. -/
def watchedStep (inner : Inner V) (w : Watched V ρ σ) (a : WatchedAct V) : Option (Watched V ρ σ) := do
  let gateway ← step inner.routeMetas w.gateway a.act
  match a with
  | .arrive routeIdx parts =>
      let routeMeta ← inner.routeMetas[routeIdx]?
      some ⟨gateway, w.history ++
        (inner.seen routeMeta [Dispatch.startKind routeMeta parts]).map (⟨w.gateway.requests.length, ·⟩)⟩
  | .move id r =>
      let live ← w.gateway.requests[id]?
      let (_, _, calls) ← move live.routeMeta (w.gateway.policies live.routeMeta.policy) live.phase r.move
      some ⟨gateway, w.history ++ (shownBy inner live.routeMeta live.phase r calls).map (⟨id, ·⟩)⟩

/-! ## What an action can do

The inversion lemmas of `App.Gateway`, with the history: an action is an arrival at a route that exists or a
move of a request that has arrived, and either adds items of one request only. -/

/-- An arrival adds a request in its first phase, and shows the event of a request that enters the handler. -/
theorem watchedStep_arrive {inner : Inner V} {w w' : Watched V ρ σ} {routeIdx : Nat} {parts : Parts V}
    (h : watchedStep inner w (.arrive routeIdx parts) = some w') :
    ∃ routeMeta, inner.routeMetas[routeIdx]? = some routeMeta ∧
      w' = ⟨{ w.gateway with requests := w.gateway.requests ++ [⟨routeMeta, .pipeline⟩] }, w.history ++
        (inner.seen routeMeta [Dispatch.startKind routeMeta parts]).map (⟨w.gateway.requests.length, ·⟩)⟩ := by
  simp only [watchedStep, WatchedAct.act, Option.bind_eq_bind, Option.bind_eq_some_iff, Option.some.injEq] at h
  obtain ⟨gateway, hstep, routeMeta, hmeta, rfl⟩ := h
  rw [step_of_arrive w.gateway hmeta] at hstep
  obtain rfl := Option.some.inj hstep
  exact ⟨routeMeta, hmeta, rfl⟩

/-- A move changes one policy and one entry, and shows its calls and what the observer gets of them. -/
theorem watchedStep_move {inner : Inner V} {w w' : Watched V ρ σ} {id : Nat} {r : Reaction V}
    (h : watchedStep inner w (.move id r) = some w') :
    ∃ live phase policy calls, w.gateway.requests[id]? = some live ∧
      Moves live.routeMeta (w.gateway.policies live.routeMeta.policy) live.phase r.move phase policy calls ∧
      w' = ⟨⟨Function.update w.gateway.policies live.routeMeta.policy policy,
          w.gateway.requests.set id { live with phase := phase },
          w.gateway.log ++ calls.map (LogEntry.mk id live.routeMeta.policy)⟩,
        w.history ++ (shownBy inner live.routeMeta live.phase r calls).map (⟨id, ·⟩)⟩ := by
  simp only [watchedStep, WatchedAct.act, Option.bind_eq_bind, Option.bind_eq_some_iff, Option.some.injEq] at h
  obtain ⟨gateway, hstep, live, hlive, ⟨phase, policy, calls⟩, hmove, rfl⟩ := h
  rw [step_of_move hlive hmove] at hstep
  obtain rfl := Option.some.inj hstep
  exact ⟨live, phase, policy, calls, hlive, moves_of_move hmove, rfl⟩

/-- A move that is possible is an action. -/
theorem watchedStep_of_move {inner : Inner V} {w : Watched V ρ σ} {id : Nat} {live : Live V} {r : Reaction V}
    {phase : Phase V} {policy : Policy ρ σ} {calls : List PolicyCall} (hlive : w.gateway.requests[id]? = some live)
    (hmove : move live.routeMeta (w.gateway.policies live.routeMeta.policy) live.phase r.move =
      some (phase, policy, calls)) :
    watchedStep inner w (.move id r) =
      some ⟨⟨Function.update w.gateway.policies live.routeMeta.policy policy,
          w.gateway.requests.set id { live with phase := phase },
          w.gateway.log ++ calls.map (LogEntry.mk id live.routeMeta.policy)⟩,
        w.history ++ (shownBy inner live.routeMeta live.phase r calls).map (⟨id, ·⟩)⟩ := by
  simp only [watchedStep, WatchedAct.act, step_of_move hlive hmove, hlive, hmove, Option.bind_eq_bind,
    Option.bind_some]

/-- **Watching does not interfere**: forgetting what is shown leaves a step of the gateway. -/
theorem step_of_watchedStep {inner : Inner V} {w w' : Watched V ρ σ} {a : WatchedAct V}
    (h : watchedStep inner w a = some w') : step inner.routeMetas w.gateway a.act = some w'.gateway := by
  cases a with
  | arrive routeIdx parts =>
      obtain ⟨routeMeta, hmeta, rfl⟩ := watchedStep_arrive h
      exact step_of_arrive w.gateway hmeta
  | move id r =>
      simp only [watchedStep, Option.bind_eq_bind, Option.bind_eq_some_iff, Option.some.injEq] at h
      obtain ⟨gateway, hstep, live, hlive, _, hmove, rfl⟩ := h
      exact hstep

end
end Apigate
