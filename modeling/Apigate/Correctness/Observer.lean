import Apigate.Correctness.ErrorDetails

/-!
# `Correctness.Observer` — the observer's events account for the response

Whatever a request meets in a handler, its last event says which response the client got and where that came
from, and agrees with what was sent upstream and with what the balancer was told.

A trace holds all of this in one list, in the order in which it happened, and each party sees a part of it: the
observer the events, the upstream the requests, the balancer its calls. `Account` says which parts belong
together. It has one constructor for each way in which a request can end, and each of them gives the events, the
requests, the calls and the response at once, so that nothing in one view can be at odds with another. That the
views of a trace are those of one account is then all there is to prove.

The proof follows the handler, which `proxyHandler_of_error` and `proxyHandler_of_ok` have cut in two: what goes
before is the start event and the events of the pipeline, of which the views show nothing but the start
(`observed?_shownByPipeline` and the two after it); what comes after is by cases on the backend and on the
exchange with it. An exchange that ends is a lemma of its own (`account_of_exchange`), where the time limit is
looked at.

The log is a function of the observed events. Of those of an account only the last is not for debugging, so that
a subscriber from `INFO` on sees that event or nothing (`Account.logged`), and it is a matter of the
constructors which of them it is (`Account.matches`).
-/

namespace Apigate
open Lib Prog

variable {V ρ σ : Type}

/-! ## Views of a trace

Each view is a partial function on events, and a party sees what `filterMap` leaves. The view of the upstream,
`DispatchEvent.sent?`, stands with the handler. -/

/-- What the observer gets. -/
def DispatchEvent.observed? : DispatchEvent V → Option RuntimeEvent
  | observed event => some event
  | _ => none

/-- An event of a route. -/
def RouteMeta.event {Pipeline : Type} (routeMeta : RouteMeta Pipeline) (kind : RuntimeEventKind) : RuntimeEvent :=
  ⟨routeMeta.service, routeMeta.routePath, kind⟩

/-- The log is that of the observed events. -/
theorem flatMap_logged (sub : Subscriber) (tr : List (DispatchEvent V)) :
    tr.flatMap (DispatchEvent.logged sub) =
      (tr.filterMap DispatchEvent.observed?).flatMap (defaultTracingObserver sub) := by
  induction tr with
  | nil => rfl
  | cons e tr ih =>
      rw [List.flatMap_cons, ih]
      cases e <;> rfl

/-- What a balancer is told of an exchange. -/
inductive BalancerEvent where
  | started (event : StartEvent)
  | reported (event : ResultEvent)
  deriving DecidableEq

/-- What a balancer is told. -/
def DispatchEvent.told? : DispatchEvent V → Option BalancerEvent
  | started _ event => some (.started event)
  | reported _ event => some (.reported event)
  | _ => none

namespace Dispatch

section
variable (inner : Inner V) (routeMeta : RouteMeta (PipelineFn V)) (kind : RuntimeEventKind)

/-- The observer sees what it is shown, -/
theorem observed?_observed (h : inner.runtimeObserver = true) :
    (observed inner routeMeta kind).filterMap DispatchEvent.observed? = [routeMeta.event kind] := by
  unfold observed
  rw [if_pos h]
  rfl

/-- and nobody else does: it is not sent, -/
theorem sent?_observed : (observed inner routeMeta kind).filterMap DispatchEvent.sent? = [] := by
  unfold observed
  split <;> rfl

/-- nor told. -/
theorem told?_observed : (observed inner routeMeta kind).filterMap DispatchEvent.told? = [] := by
  unfold observed
  split <;> rfl

end

/-! ## The account of a request

What comes before the last event is the selected backend or nothing, and the rest is determined by the last
event, the request and what the upstream made of it. -/

section
variable (client : Client V) (inner : Inner V) (routeMeta : RouteMeta (PipelineFn V))

/-- How a backend was told of an exchange that took place on it. -/
def toldOf (i : Nat) (result : Except ProxyErrorKind Response) (elapsed : Duration) : List BalancerEvent :=
  [.started ⟨routeMeta.service, i⟩, .reported (resultEvent routeMeta i result elapsed)]

/-- The events after the start of a request, the last of them by itself, next to the requests that were sent for
    it, to what the balancer was told, and to the response. -/
inductive Account :
    List RuntimeEventKind → RuntimeEventKind → List (Request V) → List BalancerEvent → Response → Prop where
  /-- The pipeline failed with a framework error, which was rendered. -/
  | rejected (error : ApigateFrameworkError) :
      Account [] (.pipelineFailedFramework error) [] [] (rendered inner error)
  /-- A hook or map answered the request itself. -/
  | answered (response : Response) : Account [] (.pipelineFailedCustom response.status) [] [] response
  /-- There was no backend for the request. -/
  | refused (error : ApigateCoreError) :
      Account [] (.dispatchFailed (.core error)) [] [] (rendered inner (.core error))
  /-- The backend answered in time: the client got its answer. -/
  | succeeded (i : Nat) (request : Request V) (answer : Response) (latency : Duration)
      (hanswer : client request = (.ok answer, latency)) (htime : latency ≤ inner.requestTimeout) :
      Account [.backendSelected i] (.upstreamSucceeded i answer.status latency) [request]
        (toldOf routeMeta i (.ok (downstreamResponse answer)) latency) (downstreamResponse answer)
  /-- The exchange failed in time. -/
  | failed (i : Nat) (request : Request V) (latency : Duration)
      (hanswer : client request = (.error (), latency)) (htime : latency ≤ inner.requestTimeout) :
      Account [.backendSelected i] (.upstreamFailed i .upstreamRequest latency) [request]
        (toldOf routeMeta i (.error .upstreamRequest) latency) (rendered inner (.core .upstreamRequestFailed))
  /-- The exchange took too long, whatever came of it. -/
  | timedOut (i : Nat) (request : Request V) (answer : Except Unit Response) (latency : Duration)
      (hanswer : client request = (answer, latency)) (htime : inner.requestTimeout < latency) :
      Account [.backendSelected i] (.upstreamFailed i .timeout inner.requestTimeout) [request]
        (toldOf routeMeta i (.error .timeout) inner.requestTimeout)
        (rendered inner (.core .upstreamRequestTimedOut))
  /-- There was no URI to send the request to. -/
  | unsendable (i : Nat) :
      Account [.backendSelected i] (.upstreamFailed i .invalidUpstreamUri 0) []
        (toldOf routeMeta i (.error .invalidUpstreamUri) 0) (rendered inner (.core .invalidUpstreamUri))

end

section
variable {crates : Crates V} {client : Client V} {inner : Inner V} {routeMeta : RouteMeta (PipelineFn V)}

/-- What is found of an account in a trace. -/
structure ShowsAccount (client : Client V) (inner : Inner V) (routeMeta : RouteMeta (PipelineFn V))
    (tr : List (DispatchEvent V)) (response : Response) : Prop where
  account : ∃ selected last, tr.filterMap DispatchEvent.observed? = (selected ++ [last]).map routeMeta.event ∧
    Account client inner routeMeta selected last (tr.filterMap DispatchEvent.sent?)
      (tr.filterMap DispatchEvent.told?) response

/-- An exchange that ended. Either there was no URI, and it took no time, or the client was asked, and then the
    time it took decides before its answer does. -/
theorem account_of_exchange {backend : Backend} {parts : Parts V} {body : Body} {sent : List (Request V)}
    {result : Except ProxyErrorKind Response} {latency : Duration}
    (h : exchange crates client backend routeMeta parts body = some (sent, result, latency)) (i : Nat) :
    let settled := inTime inner.requestTimeout result latency
    Account client inner routeMeta [.backendSelected i] (settledKind i settled.1 settled.2) sent
      (toldOf routeMeta i settled.1 settled.2) (settledResponse inner settled.1) := by
  unfold exchange at h
  cases hrequest : upstreamRequest crates backend routeMeta parts body with
  | none =>
      rw [hrequest] at h
      cases h
  | some request =>
      rw [hrequest] at h
      cases request with
      | error e =>
          cases h
          -- the URI is the only thing that can be wrong
          obtain rfl := upstreamRequest_error crates backend routeMeta parts body e hrequest
          simp only [inTime, Nat.not_lt_zero, if_false, Nat.zero_min]
          exact .unsendable i
      | ok request =>
          cases h
          rcases hclient : client request with ⟨answer, latency⟩
          by_cases htime : inner.requestTimeout < latency
          · simp only [inTime, if_pos htime, Nat.min_eq_right (Nat.le_of_lt htime)]
            exact .timedOut i request answer latency hclient htime
          · have hle : latency ≤ inner.requestTimeout := Nat.le_of_not_lt htime
            simp only [inTime, if_neg htime, Nat.min_eq_left hle]
            cases answer with
            | ok answer => exact .succeeded i request answer latency hclient hle
            | error e => exact .failed i request latency hclient hle

end

section
variable [RouteStrategy ρ] [Balancer σ] [Xxh3]
variable {crates : Crates V} {client : Client V} {inner : Inner V} {routeMeta : RouteMeta (PipelineFn V)}

/-- From the end of the pipeline: no backend, or an exchange with the one that was selected. -/
theorem forward_showsAccount (hobs : inner.runtimeObserver = true) {parts : Parts V} {body : Body}
    {policies : Policies ρ σ} {response : Response}
    (hrun : (forward crates client inner routeMeta parts body policies).result = .ok response) :
    ShowsAccount client inner routeMeta (forward crates client inner routeMeta parts body policies).trace
      response := by
  cases hbackend : routeMeta.backendAt (selection routeMeta parts (policies routeMeta.policy)).1.2 with
  | error coreError =>
      rw [forward_of_error crates client inner body hbackend] at hrun ⊢
      obtain rfl := Except.ok.inj hrun
      refine ⟨[], .dispatchFailed (.core coreError), ?_, ?_⟩
      · rw [List.filterMap_append, observed?_observed inner routeMeta _ hobs]
        rfl
      · rw [List.filterMap_append, List.filterMap_append, sent?_observed, told?_observed]
        exact .refused coreError
  | ok selected =>
      obtain ⟨i, backend⟩ := selected
      rw [forward_of_ok crates client inner body hbackend] at hrun ⊢
      cases hexchange : exchange crates client backend routeMeta parts body with
      | none =>
          -- a panic has no response
          rw [proxyToBackend_of_panic crates client inner i hexchange] at hrun
          cases hrun
      | some exchanged =>
          obtain ⟨sent, result, latency⟩ := exchanged
          rw [proxyToBackend_of_exchange crates client inner i hexchange] at hrun ⊢
          obtain rfl := Except.ok.inj hrun
          have hsent : (sent.map DispatchEvent.sent).filterMap DispatchEvent.sent? = sent := by
            rw [List.filterMap_map]
            exact List.filterMap_some
          have hquiet : (sent.map DispatchEvent.sent).filterMap DispatchEvent.observed? = [] ∧
              (sent.map DispatchEvent.sent).filterMap DispatchEvent.told? = [] := by
            rw [List.filterMap_map, List.filterMap_map]
            exact ⟨List.filterMap_eq_nil_iff.mpr fun _ _ => rfl, List.filterMap_eq_nil_iff.mpr fun _ _ => rfl⟩
          refine ⟨[.backendSelected i],
            settledKind i (inTime inner.requestTimeout result latency).1
              (inTime inner.requestTimeout result latency).2, ?_, ?_⟩
          · simp only [List.filterMap_append, observed?_observed inner routeMeta _ hobs, hquiet]
            rfl
          · have haccount := @account_of_exchange V crates client inner routeMeta backend parts body sent result
              latency hexchange i
            simp only [List.filterMap_append, sent?_observed, told?_observed, hquiet, hsent]
            have happend : sent ++ [] = sent := List.append_nil sent
            rw [← happend] at haccount
            exact haccount

end
end Dispatch

open Dispatch

/-- What the pipeline does is seen by nobody outside. -/
theorem filterMap_pipeline {α : Type} {view : DispatchEvent V → Option α}
    (hview : ∀ event, view (.pipeline event) = none)
    (tr : List (PipelineEvent V)) : (tr.map DispatchEvent.pipeline).filterMap view = [] := by
  rw [List.filterMap_map]
  exact List.filterMap_eq_nil_iff.mpr fun event _ => hview event

section
variable (inner : Inner V) (routeMeta : RouteMeta (PipelineFn V)) (req : Request V)

/-- Up to the end of the pipeline, the observer gets one event. -/
theorem observed?_shownByPipeline (hobs : inner.runtimeObserver = true) :
    (shownByPipeline inner routeMeta req).filterMap DispatchEvent.observed? =
      [routeMeta.event (startKind routeMeta req.parts)] := by
  unfold shownByPipeline
  rw [List.filterMap_append, observed?_observed inner routeMeta _ hobs, filterMap_pipeline fun _ => rfl,
    List.append_nil]

/-- Nothing is sent, -/
theorem sent?_shownByPipeline : (shownByPipeline inner routeMeta req).filterMap DispatchEvent.sent? = [] := by
  unfold shownByPipeline
  rw [List.filterMap_append, sent?_observed, filterMap_pipeline fun _ => rfl, List.append_nil]

/-- and no balancer is told anything. -/
theorem told?_shownByPipeline : (shownByPipeline inner routeMeta req).filterMap DispatchEvent.told? = [] := by
  unfold shownByPipeline
  rw [List.filterMap_append, told?_observed, filterMap_pipeline fun _ => rfl, List.append_nil]

end

/-! ## The requests that are sent

The view of the upstream by itself. Here a panic is no exception: what a handler sends is determined by the
result of its pipeline and the selected backend, whether it returns or not. -/

/-- What goes to a backend: the rewritten request, if there is a URI to send it to. -/
def sentUpstream (crates : Crates V) (backend : Backend) (routeMeta : RouteMeta (PipelineFn V)) (head : Parts V)
    (body : Body) : List (Request V) :=
  match upstreamRequest crates backend routeMeta head body with
  | some (.ok request) => [request]
  | some (.error _) | none => []

/-- What the handler sends, by the result of the pipeline and the backend that is selected. -/
def sentBy (crates : Crates V) (routeMeta : RouteMeta (PipelineFn V)) (head : Parts V) :
    Except ApigateError Body → Except ApigateCoreError (Nat × Backend) → List (Request V)
  | .ok body, .ok (_, backend) => sentUpstream crates backend routeMeta head body
  | _, _ => []

/-- An exchange that ends has sent what goes to the backend. -/
theorem sentUpstream_of_exchange {crates : Crates V} {client : Client V} {backend : Backend}
    {routeMeta : RouteMeta (PipelineFn V)} {head : Parts V} {body : Body} {sent : List (Request V)}
    {result : Except ProxyErrorKind Response} {latency : Duration}
    (h : exchange crates client backend routeMeta head body = some (sent, result, latency)) :
    sentUpstream crates backend routeMeta head body = sent := by
  unfold exchange at h
  unfold sentUpstream
  cases hrequest : upstreamRequest crates backend routeMeta head body with
  | none =>
      rw [hrequest] at h
      cases h
  | some request =>
      rw [hrequest] at h
      cases request with
      | error e =>
          cases h
          rfl
      | ok request =>
          cases h
          rfl

section
variable [RouteStrategy ρ] [Balancer σ] [Xxh3]

/-- The backend that a policy selects for a request head. -/
def selectedBackend (routeMeta : RouteMeta (PipelineFn V)) (policies : Policies ρ σ) (head : Parts V) :
    Except ApigateCoreError (Nat × Backend) :=
  routeMeta.backendAt (selection routeMeta head (policies routeMeta.policy)).1.2

/-- What the handler sends once the pipeline has returned a body. -/
theorem sent?_forward (crates : Crates V) (client : Client V) (inner : Inner V) (routeMeta : RouteMeta (PipelineFn V))
    (head : Parts V) (body : Body) (policies : Policies ρ σ) :
    (forward crates client inner routeMeta head body policies).trace.filterMap DispatchEvent.sent? =
      sentBy crates routeMeta head (.ok body) (selectedBackend routeMeta policies head) := by
  cases hbackend : selectedBackend routeMeta policies head with
  | error coreError =>
      rw [forward_of_error crates client inner body hbackend]
      simp only [List.filterMap_append, sent?_observed]
      rfl
  | ok selected =>
      obtain ⟨i, backend⟩ := selected
      rw [forward_of_ok crates client inner body hbackend]
      cases hexchange : exchange crates client backend routeMeta head body with
      | none =>
          rw [proxyToBackend_of_panic crates client inner i hexchange]
          have hnone : sentUpstream crates backend routeMeta head body = [] := by
            unfold sentUpstream
            rw [exchange_eq_none.mp hexchange]
          simp only [List.filterMap_append, sent?_observed, sentBy, hnone]
          rfl
      | some settled =>
          obtain ⟨sent, result, latency⟩ := settled
          rw [proxyToBackend_of_exchange crates client inner i hexchange]
          have hsent : (sent.map DispatchEvent.sent).filterMap DispatchEvent.sent? = sent := by
            rw [List.filterMap_map]
            exact List.filterMap_some
          simp only [List.filterMap_append, sent?_observed, hsent, sentBy, sentUpstream_of_exchange hexchange]
          show [] ++ ([] ++ (sent ++ [])) = sent
          rw [List.nil_append, List.nil_append, List.append_nil]

/-- **What the handler of a request sends.** -/
theorem sent?_proxyHandler (crates : Crates V) (client : Client V) {inner : Inner V} {routeIdx : Nat}
    {routeMeta : RouteMeta (PipelineFn V)} (hmeta : inner.routeMetas[routeIdx]? = some routeMeta) (req : Request V)
    (policies : Policies ρ σ) :
    let outcome := pipelineOutcome inner routeMeta req.parts req.body
    (proxyHandler crates client inner routeIdx req policies).trace.filterMap DispatchEvent.sent? =
      sentBy crates routeMeta outcome.state.ctx.parts outcome.result
        (selectedBackend routeMeta policies outcome.state.ctx.parts) := by
  intro outcome
  cases hresult : outcome.result with
  | error err =>
      rw [proxyHandler_of_error crates client hmeta hresult]
      simp only [List.filterMap_append, sent?_shownByPipeline, sent?_observed, sentBy, List.append_nil]
  | ok body =>
      rw [proxyHandler_of_ok crates client hmeta hresult]
      simp only [List.filterMap_append, sent?_shownByPipeline, List.nil_append]
      exact sent?_forward crates client inner routeMeta outcome.state.ctx.parts body policies

/-- A run of the handler has an account: a failed pipeline by its error, and any other from where it ended. -/
theorem observer_account (crates : Crates V) (client : Client V) {inner : Inner V}
    (hobs : inner.runtimeObserver = true) {routeIdx : Nat} {routeMeta : RouteMeta (PipelineFn V)}
    (hmeta : inner.routeMetas[routeIdx]? = some routeMeta) (req : Request V) (policies : Policies ρ σ)
    {response : Response} (hrun : (proxyHandler crates client inner routeIdx req policies).result = .ok response) :
    let tr := (proxyHandler crates client inner routeIdx req policies).trace
    ∃ selected last,
      tr.filterMap DispatchEvent.observed? =
        (startKind routeMeta req.parts :: (selected ++ [last])).map routeMeta.event ∧
      Account client inner routeMeta selected last (tr.filterMap DispatchEvent.sent?)
        (tr.filterMap DispatchEvent.told?) response := by
  have hstart := observed?_shownByPipeline inner routeMeta req hobs
  have hsent := sent?_shownByPipeline inner routeMeta req
  have htold := told?_shownByPipeline inner routeMeta req
  cases hresult : (pipelineOutcome inner routeMeta req.parts req.body).result with
  | error err =>
      rw [proxyHandler_of_error crates client hmeta hresult] at hrun ⊢
      obtain rfl := Except.ok.inj hrun
      refine ⟨[], failureKind err, ?_, ?_⟩
      · simp only [List.filterMap_append, hstart, observed?_observed inner routeMeta _ hobs]
        rfl
      · simp only [List.filterMap_append, hsent, htold, sent?_observed, told?_observed]
        cases err with
        | framework error => exact .rejected error
        | custom response => exact .answered response
  | ok body =>
      rw [proxyHandler_of_ok crates client hmeta hresult] at hrun ⊢
      obtain ⟨selected, last, hobserved, haccount⟩ := (forward_showsAccount hobs hrun).account
      refine ⟨selected, last, ?_, ?_⟩
      · simp only [List.filterMap_append, hstart, hobserved]
        rfl
      · simp only [List.filterMap_append, hsent, htold, List.nil_append]
        exact haccount

/-- **The observer's events account for the response.** For every request on every route, whatever its pipeline,
    its policy and the upstream do: unless the handler panics, the observer gets the start of the request, the
    backend if one was selected, and one last event, and this event, the requests sent upstream, the calls to
    the balancer and the response are those of one account. -/
theorem observer_accounts_for_response (crates : Crates V) (client : Client V) {inner : Inner V}
    (hobs : inner.runtimeObserver = true) {routeIdx : Nat} {routeMeta : RouteMeta (PipelineFn V)}
    (hmeta : inner.routeMetas[routeIdx]? = some routeMeta) (req : Request V) (policies : Policies ρ σ)
    {response : Response} (hrun : (proxyHandler crates client inner routeIdx req policies).result = .ok response) :
    let tr := (proxyHandler crates client inner routeIdx req policies).trace
    ∃ selected last,
      tr.filterMap DispatchEvent.observed? =
        (startKind routeMeta req.parts :: (selected ++ [last])).map routeMeta.event ∧
      Account client inner routeMeta selected last (tr.filterMap DispatchEvent.sent?)
        (tr.filterMap DispatchEvent.told?) response :=
  observer_account crates client hobs hmeta req policies hrun

end

/-! ## A request that is answered -/

/-- A route without a pipeline, on a pool with one backend. -/
def soloMeta : RouteMeta (PipelineFn Str) :=
  ⟨str "sales", str "/items", str "/sales", .stripPrefix,
    ⟨[⟨⟨str "http", str "up", str "http://up", str "up"⟩⟩]⟩, 0, none⟩

/-- A gateway with this route. -/
def soloInner : Inner Str := ⟨.empty, 1024, 1000, [soloMeta], defaultErrorRenderer, true⟩

/-- An upstream that answers every request. -/
def soloClient : Client Str := fun _ => (.ok ⟨200, .empty, .ofBytes []⟩, 7)

/-- The theorem at a request that the upstream answers. -/
theorem observer_accounts_for_response_solo :
    let tr := (@proxyHandler Str NoRouteKey RoundRobin _ _ .length .plain soloClient soloInner 0 quotedRequest
      fun _ => .new).trace
    ∃ selected last,
      tr.filterMap DispatchEvent.observed? =
        (startKind soloMeta quotedRequest.parts :: (selected ++ [last])).map soloMeta.event ∧
      Account soloClient soloInner soloMeta selected last (tr.filterMap DispatchEvent.sent?)
        (tr.filterMap DispatchEvent.told?) (downstreamResponse ⟨200, .empty, .ofBytes []⟩) :=
  @observer_accounts_for_response Str NoRouteKey RoundRobin _ _ .length .plain soloClient soloInner rfl 0 soloMeta rfl
    quotedRequest (fun _ => .new) (downstreamResponse ⟨200, .empty, .ofBytes []⟩) rfl

/-! ## The log

With the default observer and a subscriber from `INFO` on. A record is known by its level and by its first two
fields, service and route; the others differ from event to event. -/

/-- The log is one record of the route, at the given level. -/
def OneRecord (routeMeta : RouteMeta (PipelineFn V)) (level : Level) (log : List Record) : Prop :=
  ∃ record, log = [record] ∧ record.level = level ∧
    [(str "service", .text routeMeta.service), (str "route", .text routeMeta.routePath)] <+: record.fields

/-- A failure is a warning or an information. -/
theorem failureLevel_ne_debug (status : StatusCode) : failureLevel status ≠ .debug := by
  unfold failureLevel
  split <;> decide

section
variable (routeMeta : RouteMeta (PipelineFn V))

/-- What is not for debugging reaches a subscriber from `INFO` on. -/
theorem oneRecord_emit (kind : RuntimeEventKind) {level : Level} (hlevel : level ≠ .debug) (target message : Str)
    (fields : List (Str × FieldValue)) :
    OneRecord routeMeta level
      (Subscriber.info.emit ⟨level, target, (routeMeta.event kind).fields ++ fields, message⟩) := by
  refine ⟨_, if_pos ?_, rfl, List.prefix_append _ _⟩
  cases level with
  | debug => exact absurd rfl hlevel
  | info => rfl
  | warn => rfl

/-- A framework error leaves its record, and its details none. -/
theorem oneRecord_framework (kind : RuntimeEventKind) (error : ApigateFrameworkError) (target message : Str)
    {details : List Record} (hdetails : details = []) :
    OneRecord routeMeta (failureLevel error.statusCode)
      (logFrameworkFailure .info target message (routeMeta.event kind) error ++ details) := by
  rw [hdetails, List.append_nil]
  exact oneRecord_emit routeMeta kind (failureLevel_ne_debug _) target message _

end

/-- Only the last event of an account reaches a subscriber from `INFO` on. -/
theorem Dispatch.Account.logged {client : Client V} {inner : Inner V} {routeMeta : RouteMeta (PipelineFn V)}
    {selected : List RuntimeEventKind} {last : RuntimeEventKind} {sent : List (Request V)}
    {told : List BalancerEvent} {response : Response}
    (h : Account client inner routeMeta selected last sent told response) (parts : Parts V) :
    ((startKind routeMeta parts :: (selected ++ [last])).map routeMeta.event).flatMap
        (defaultTracingObserver .info) = defaultTracingObserver .info (routeMeta.event last) := by
  have hselected : ∀ e ∈ startKind routeMeta parts :: selected,
      defaultTracingObserver .info (routeMeta.event e) = [] := by
    intro e he
    rcases List.mem_cons.mp he with rfl | he
    · rfl
    · cases h <;> cases he <;> first | rfl | contradiction
  rw [← List.cons_append, List.map_append, List.flatMap_append, List.flatMap_map,
    List.flatMap_eq_nil_iff.mpr hselected]
  simp only [List.map_cons, List.map_nil, List.flatMap_cons, List.flatMap_nil, List.append_nil, List.nil_append]

/-- The one request that was sent got this answer from the upstream, within the time limit. -/
def AnswersInTime (client : Client V) (inner : Inner V) (sent : List (Request V)) (answer : Response) : Prop :=
  ∃ request latency, sent = [request] ∧ client request = (.ok answer, latency) ∧ latency ≤ inner.requestTimeout

/-- There is one answer at most. -/
theorem AnswersInTime.unique {client : Client V} {inner : Inner V} {sent : List (Request V)}
    {answer answer' : Response} (h : AnswersInTime client inner sent answer)
    (h' : AnswersInTime client inner sent answer') : answer = answer' := by
  obtain ⟨request, latency, rfl, hclient, -⟩ := h
  obtain ⟨request', latency', hsent, hclient', -⟩ := h'
  obtain rfl := (List.cons.inj hsent).1
  rw [hclient] at hclient'
  cases hclient'
  rfl

/-- Where nothing was sent, nothing was answered. -/
theorem not_answersInTime_nil {client : Client V} {inner : Inner V} (answer : Response) :
    ¬ AnswersInTime client inner [] answer := by
  rintro ⟨request, latency, hsent, -⟩
  cases hsent

/-- What the log of a request says of the response to it. -/
structure LogMatches (client : Client V) (inner : Inner V) (routeMeta : RouteMeta (PipelineFn V)) (seen : Seen V)
    (response : Response) : Prop where
  /-- There is no record exactly where the upstream has answered in time, -/
  silent : seen.log = [] ↔ ∃ answer, AnswersInTime client inner seen.sent answer
  /-- where the client gets this answer; -/
  answered : ∀ answer, AnswersInTime client inner seen.sent answer → response = downstreamResponse answer
  /-- anywhere else there is one record, at the level of the response. -/
  recorded : (¬ ∃ answer, AnswersInTime client inner seen.sent answer) →
    OneRecord routeMeta (failureLevel response.status) seen.log

/-- The record of the last event of an account: none for an answer in time, and one for everything else. -/
theorem Dispatch.Account.matches {client : Client V} {inner : Inner V} {routeMeta : RouteMeta (PipelineFn V)}
    {selected : List RuntimeEventKind} {last : RuntimeEventKind} {sent : List (Request V)}
    {told : List BalancerEvent} {response : Response}
    (h : Account client inner routeMeta selected last sent told response)
    (hstatus : ∀ error, (rendered inner error).status = error.statusCode) :
    (∃ answer, AnswersInTime client inner sent answer ∧ response = downstreamResponse answer ∧
        defaultTracingObserver .info (routeMeta.event last) = []) ∨
      ((∀ answer, ¬ AnswersInTime client inner sent answer) ∧
        OneRecord routeMeta (failureLevel response.status)
          (defaultTracingObserver .info (routeMeta.event last))) := by
  cases h with
  | succeeded i request answer latency hanswer htime =>
      exact Or.inl ⟨answer, ⟨request, latency, rfl, hanswer, htime⟩, rfl, rfl⟩
  | rejected error =>
      rw [hstatus]
      exact Or.inr ⟨not_answersInTime_nil, oneRecord_framework routeMeta _ error _ _ rfl⟩
  | answered response =>
      exact Or.inr ⟨not_answersInTime_nil, oneRecord_emit routeMeta (.pipelineFailedCustom response.status)
        (failureLevel_ne_debug _) _ _ _⟩
  | refused error =>
      rw [hstatus]
      exact Or.inr ⟨not_answersInTime_nil, oneRecord_framework routeMeta _ (.core error) _ _ rfl⟩
  | failed i request latency hanswer htime =>
      rw [hstatus]
      refine Or.inr ⟨?_, oneRecord_emit routeMeta (.upstreamFailed i _ _) (by decide) _ _ _⟩
      -- the upstream has answered with an error
      rintro answer ⟨request', latency', hsent, hclient, -⟩
      obtain rfl := (List.cons.inj hsent).1
      rw [hanswer] at hclient
      cases hclient
  | timedOut i request answer latency hanswer htime =>
      rw [hstatus]
      refine Or.inr ⟨?_, oneRecord_emit routeMeta (.upstreamFailed i _ _) (by decide) _ _ _⟩
      -- the upstream may have answered, but too late
      rintro answer' ⟨request', latency', hsent, hclient, hle⟩
      obtain rfl := (List.cons.inj hsent).1
      rw [hanswer] at hclient
      cases hclient
      exact Nat.not_lt.mpr hle htime
  | unsendable i =>
      rw [hstatus]
      exact Or.inr ⟨not_answersInTime_nil, oneRecord_emit routeMeta (.upstreamFailed i _ _) (by decide) _ _ _⟩

section
variable [RouteStrategy ρ] [Balancer σ] [Xxh3]

/-- **The log matches the responses.** With the built-in observer, a subscriber from `INFO` on, and the default
    renderer: a request leaves no record exactly if the upstream has answered it in time, and then the client
    got that answer. Any other request leaves exactly one, under the service and path of its route, and it is a
    warning if the response has a server error status and an information if not. Of the events of an account
    only the last reaches the log, and it tells which of the two cases the request is in. -/
theorem log_matches_response (crates : Crates V) (client : Client V) {inner : Inner V}
    (hobs : inner.runtimeObserver = true) (hrenderer : inner.errorRenderer = defaultErrorRenderer) {routeIdx : Nat}
    {routeMeta : RouteMeta (PipelineFn V)} (hmeta : inner.routeMetas[routeIdx]? = some routeMeta) (req : Request V)
    (policies : Policies ρ σ) {response : Response}
    (hrun : (proxyHandler crates client inner routeIdx req policies).result = .ok response) :
    LogMatches client inner routeMeta (Seen.of .info (proxyHandler crates client inner routeIdx req policies))
      response := by
  obtain ⟨selected, last, hobserved, haccount⟩ :=
    observer_account crates client hobs hmeta req policies hrun
  have hstatus : ∀ error, (rendered inner error).status = error.statusCode := by
    intro error
    unfold rendered ApigateError.intoResponseWith
    rw [hrenderer]
    rfl
  have hlog : (Seen.of .info (proxyHandler crates client inner routeIdx req policies)).log =
      defaultTracingObserver .info (routeMeta.event last) := by
    simp only [Seen.of, flatMap_logged, hobserved, haccount.logged req.parts]
  rcases haccount.matches hstatus with ⟨answer, hintime, hresponse, hnone⟩ | ⟨hnever, hone⟩
  · have hanswer : ∃ answer, AnswersInTime client inner
        (Seen.of .info (proxyHandler crates client inner routeIdx req policies)).sent answer := ⟨answer, hintime⟩
    refine ⟨iff_of_true (hlog.trans hnone) hanswer, ?_, fun hno => absurd hanswer hno⟩
    intro answer' hintime'
    rw [hresponse, hintime.unique hintime']
  · have hno : ¬ ∃ answer, AnswersInTime client inner
        (Seen.of .info (proxyHandler crates client inner routeIdx req policies)).sent answer :=
      fun ⟨answer, hintime⟩ => hnever answer hintime
    rw [← hlog] at hone
    refine ⟨iff_of_false ?_ hno, fun answer hintime => absurd hintime (hnever answer), fun _ => hone⟩
    obtain ⟨record, hrecord, -⟩ := hone
    rw [hrecord]
    exact List.cons_ne_nil _ _

end

/-- The theorem at a request whose body no parser accepts: the client gets a 400, and the log one information. -/
theorem log_matches_response_rejected :
    let crates := Crates.rejecting (str "eof")
    let seen := Seen.of .info (@proxyHandler Str NoRouteKey RoundRobin _ _ .length crates soloClient
      (quotingInner crates) 0 quotedRequest fun _ => .new)
    let response := defaultErrorRenderer (.pipeline (.invalidJsonBody (str "eof")))
    LogMatches soloClient (quotingInner crates) (quotedMeta crates) seen response ∧
      OneRecord (quotedMeta crates) .info seen.log := by
  intro crates seen response
  have h : LogMatches soloClient (quotingInner crates) (quotedMeta crates) seen response :=
    @log_matches_response Str NoRouteKey RoundRobin _ _ .length crates soloClient (quotingInner crates) rfl rfl 0
      (quotedMeta crates) rfl quotedRequest (fun _ => .new) response rfl
  refine ⟨h, h.recorded ?_⟩
  -- nothing was sent
  rintro ⟨answer, hintime⟩
  exact not_answersInTime_nil answer hintime

end Apigate
