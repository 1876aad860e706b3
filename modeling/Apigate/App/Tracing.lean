import Apigate.App.Dispatch

/-!
# `App.Tracing` — the built-in observer: runtime events become log records

`enable_default_tracing` installs `default_tracing_observer`. It hands each event to the application's `tracing`
subscriber, at a level that depends on the event, and the details of an error only where the subscriber asks for
`DEBUG`.

An event can become two records, one for everybody and one with the details, and the source asks the subscriber
twice for some of them: once to save the work, and once more inside of the macro that emits. Both questions are
here, as a subscriber is any predicate on targets and levels. What a subscriber does with a record is not
modelled; the log is the list of the records that reach it.
-/

namespace Apigate
open Lib

/-- The levels that the observer uses. -/
inductive Level where
  | debug
  | info
  | warn
  deriving DecidableEq

inductive FieldValue where
  | text (s : Str)
  | number (n : Nat)
  | flag (b : Bool)
  /-- `?error` -/
  | error (e : ProxyErrorKind)
  /-- `?upstream_latency` -/
  | latency (d : Duration)
  deriving DecidableEq

/-- A record that reaches the subscriber. -/
structure Record where
  level : Level
  target : Str
  fields : List (Str × FieldValue)
  message : Str
  deriving DecidableEq

/-- The application's subscriber: which records it wants, by target and level. -/
structure Subscriber where
  enabled : Str → Level → Bool

namespace Subscriber

/-- `tracing::debug!`, `info!` and `warn!` ask the subscriber themselves. -/
def emit (sub : Subscriber) (r : Record) : List Record := if sub.enabled r.target r.level then [r] else []

/-- A subscriber for all targets, from a level on: the default of most applications is `info`. -/
def info : Subscriber := ⟨fun _ level => level != .debug⟩

end Subscriber

/-- The targets, by which a subscriber tells the parts of the gateway apart. -/
def requestTarget : Str := str "apigate::request"
def pipelineTarget : Str := str "apigate::pipeline"
def dispatchTarget : Str := str "apigate::dispatch"
def balancerTarget : Str := str "apigate::balancer"
def proxyTarget : Str := str "apigate::proxy"

namespace RuntimeEvent

/-- The fields of every record. -/
def fields (event : RuntimeEvent) : List (Str × FieldValue) :=
  [(str "service", .text event.service), (str "route", .text event.routePath)]

end RuntimeEvent

/-- The level of a failure with this status. -/
def failureLevel (status : StatusCode) : Level := if status.isServerError then .warn else .info

/-- The record of a failed request: what the client is told, and nothing else about the error. -/
def logFrameworkFailure (sub : Subscriber) (target message : Str) (event : RuntimeEvent)
    (error : ApigateFrameworkError) : List Record :=
  let status := error.statusCode
  sub.emit ⟨failureLevel status, target, event.fields ++ [(str "code", .text error.code),
    (str "status", .number status), (str "message", .text error.userMessage)], message⟩

def logPipelineFrameworkFailure (sub : Subscriber) : RuntimeEvent → ApigateFrameworkError → List Record :=
  logFrameworkFailure sub pipelineTarget (str "pipeline failed")

def logDispatchFrameworkFailure (sub : Subscriber) : RuntimeEvent → ApigateFrameworkError → List Record :=
  logFrameworkFailure sub dispatchTarget (str "request dispatch failed")

/-- The record with the details of an error, if it has any and somebody asks for them. -/
def logDebugDetails (sub : Subscriber) (target message : Str) (event : RuntimeEvent)
    (error : ApigateFrameworkError) : List Record :=
  if !sub.enabled target .debug then []
  else
    match error.debugDetails with
    | none => []
    | some details =>
        sub.emit ⟨.debug, target, event.fields ++ [(str "code", .text error.code),
          (str "debug_details", .text details)], message⟩

def logPipelineDebugDetails (sub : Subscriber) : RuntimeEvent → ApigateFrameworkError → List Record :=
  logDebugDetails sub pipelineTarget (str "pipeline debug details")

def logDispatchDebugDetails (sub : Subscriber) : RuntimeEvent → ApigateFrameworkError → List Record :=
  logDebugDetails sub dispatchTarget (str "dispatch debug details")

/-- A response of a hook or map is logged by its status only. -/
def logCustomPipelineFailure (sub : Subscriber) (event : RuntimeEvent) (status : StatusCode) : List Record :=
  sub.emit ⟨failureLevel status, pipelineTarget, event.fields ++ [(str "status", .number status)],
    str "pipeline returned custom error response"⟩

/-- The records of one event. -/
def defaultTracingObserver (sub : Subscriber) (event : RuntimeEvent) : List Record :=
  match event.kind with
  | .requestStart method uri hasPipeline =>
      if !sub.enabled requestTarget .debug then []
      else sub.emit ⟨.debug, requestTarget, event.fields ++ [(str "method", .text method),
        (str "path", .text uri.path), (str "has_query", .flag uri.query.isSome),
        (str "has_pipeline", .flag hasPipeline)], str "request started"⟩
  | .pipelineFailedFramework error =>
      logPipelineFrameworkFailure sub event error ++ logPipelineDebugDetails sub event error
  | .pipelineFailedCustom status => logCustomPipelineFailure sub event status
  | .dispatchFailed error =>
      logDispatchFrameworkFailure sub event error ++ logDispatchDebugDetails sub event error
  | .backendSelected backendIndex =>
      if !sub.enabled balancerTarget .debug then []
      else sub.emit ⟨.debug, balancerTarget, event.fields ++ [(str "backend_index", .number backendIndex)],
        str "backend selected"⟩
  | .upstreamSucceeded backendIndex status upstreamLatency =>
      if !sub.enabled proxyTarget .debug then []
      else sub.emit ⟨.debug, proxyTarget, event.fields ++ [(str "backend_index", .number backendIndex),
        (str "status", .number status), (str "upstream_latency", .latency upstreamLatency)],
        str "upstream request succeeded"⟩
  | .upstreamFailed backendIndex error upstreamLatency =>
      sub.emit ⟨.warn, proxyTarget, event.fields ++ [(str "backend_index", .number backendIndex),
        (str "error", .error error), (str "upstream_latency", .latency upstreamLatency)],
        str "upstream request failed"⟩

end Apigate
