import Apigate.Http
import Apigate.Backend

/-!
# `Apigate.Error` — framework errors, custom error responses, build errors

The errors of the crate, with the texts and numbers the source gives them. What a handler may end with is an
`ApigateError`: one of the framework, or a response that a hook or a map has made up. Framework errors come in
three groups, after the part of the gateway that reports them, and each group answers four questions in tables
of its own:

* `userMessage`, which the client sees;
* `statusCode`, which the response carries;
* `code`, which a renderer may use to tell errors apart;
* `debugDetails`, which only a log at the debug level shows.

The first three depend on the kind of the error only. The details are the texts that errors carry with them, and
nothing else looks at them; that no text leaks is in `Correctness.ErrorDetails`.

Errors of `build` are a type of their own. No request ever sees one.
-/

namespace Apigate
open Lib

abbrev StatusCode := Nat

namespace StatusCode

/-- As in the `http` crate: the hundreds digit decides. -/
def isClientError (status : StatusCode) : Bool := decide (400 ≤ status ∧ status < 500)

/-- The level of a log record depends on this one. -/
def isServerError (status : StatusCode) : Bool := decide (500 ≤ status ∧ status < 600)

end StatusCode

/-- Errors produced by request mutation, dispatch, or proxying. None carries a text of its own. -/
inductive ApigateCoreError where
  | invalidHeaderName
  | invalidHeaderValue
  | invalidPathParameters
  | noBackendsSelectedByBalancer
  | invalidBackendIndex
  | noBackends
  | invalidUpstreamUri
  | upstreamRequestFailed
  | upstreamRequestTimedOut
  | routeNotFound
  | methodNotAllowed
  deriving DecidableEq

namespace ApigateCoreError

def userMessage : ApigateCoreError → Str
  | invalidHeaderName => str "invalid header name"
  | invalidHeaderValue => str "invalid header value"
  | invalidPathParameters => str "invalid path parameters"
  | noBackendsSelectedByBalancer => str "no backends selected by balancer"
  | invalidBackendIndex => str "balancer returned invalid backend index"
  | noBackends => str "no backends"
  | invalidUpstreamUri => str "bad upstream uri"
  | upstreamRequestFailed => str "upstream request failed"
  | upstreamRequestTimedOut => str "upstream request timed out"
  | routeNotFound => str "route not found"
  | methodNotAllowed => str "method not allowed"

def statusCode : ApigateCoreError → StatusCode
  | invalidHeaderName | invalidHeaderValue | invalidPathParameters => 400
  | noBackendsSelectedByBalancer | invalidBackendIndex | noBackends | invalidUpstreamUri
  | upstreamRequestFailed => 502
  | upstreamRequestTimedOut => 504
  | routeNotFound => 404
  | methodNotAllowed => 405

/-- Diagnostic details, for logs: a core error has none. -/
def debugDetails (_ : ApigateCoreError) : Option Str := none

/-- A stable machine-readable error code. -/
def code : ApigateCoreError → Str
  | invalidHeaderName => str "invalid_header_name"
  | invalidHeaderValue => str "invalid_header_value"
  | invalidPathParameters => str "invalid_path_parameters"
  | noBackendsSelectedByBalancer => str "no_backends_selected"
  | invalidBackendIndex => str "invalid_backend_index"
  | noBackends => str "no_backends"
  | invalidUpstreamUri => str "invalid_upstream_uri"
  | upstreamRequestFailed => str "upstream_request_failed"
  | upstreamRequestTimedOut => str "upstream_timeout"
  | routeNotFound => str "route_not_found"
  | methodNotAllowed => str "method_not_allowed"

end ApigateCoreError

/-- Errors produced by generated request pipelines. A `detail` is the text of the error that a parser or
    serializer has returned; the name in `missingFromScope` is that of a type. -/
inductive ApigatePipelineError where
  | missingFromScope (ty : Str)
  | requestBodyAlreadyConsumed
  | requestBodyTooLarge (detail : Str)
  | invalidJsonBody (detail : Str)
  | failedSerializeMappedJson (detail : Str)
  | invalidQuery (detail : Str)
  | failedSerializeMappedQuery (detail : Str)
  | failedRebuildUri (detail : Str)
  | expectedFormUrlEncoded
  | expectedMultipartFormData
  | invalidFormQuery (detail : Str)
  | failedSerializeMappedForm (detail : Str)
  | invalidFormBody (detail : Str)
  deriving DecidableEq

namespace ApigatePipelineError

def userMessage : ApigatePipelineError → Str
  | missingFromScope _ => str "missing value in request scope"
  | requestBodyAlreadyConsumed => str "request body already consumed"
  | requestBodyTooLarge _ => str "request body is too large"
  | invalidJsonBody _ => str "invalid json body"
  | failedSerializeMappedJson _ => str "failed to serialize mapped json"
  | invalidQuery _ => str "invalid query"
  | failedSerializeMappedQuery _ => str "failed to serialize mapped query"
  | failedRebuildUri _ => str "failed to rebuild uri"
  | expectedFormUrlEncoded => str "expected application/x-www-form-urlencoded"
  | expectedMultipartFormData => str "expected multipart/form-data"
  | invalidFormQuery _ => str "invalid form query"
  | failedSerializeMappedForm _ => str "failed to serialize mapped form"
  | invalidFormBody _ => str "invalid form body"

def statusCode : ApigatePipelineError → StatusCode
  | missingFromScope _ => 500
  | requestBodyAlreadyConsumed | failedSerializeMappedJson _ | failedSerializeMappedQuery _
  | failedRebuildUri _ | failedSerializeMappedForm _ => 500
  | requestBodyTooLarge _ => 413
  | expectedFormUrlEncoded | expectedMultipartFormData => 415
  | invalidJsonBody _ | invalidQuery _ | invalidFormQuery _ | invalidFormBody _ => 400

/-- Diagnostic details, for logs. -/
def debugDetails : ApigatePipelineError → Option Str
  | missingFromScope ty => some ty
  | requestBodyTooLarge detail | invalidJsonBody detail | failedSerializeMappedJson detail
  | invalidQuery detail | failedSerializeMappedQuery detail | failedRebuildUri detail
  | invalidFormQuery detail | failedSerializeMappedForm detail | invalidFormBody detail => some detail
  | requestBodyAlreadyConsumed | expectedFormUrlEncoded | expectedMultipartFormData => none

/-- A stable machine-readable error code. -/
def code : ApigatePipelineError → Str
  | missingFromScope _ => str "missing_from_scope"
  | requestBodyAlreadyConsumed => str "request_body_already_consumed"
  | requestBodyTooLarge _ => str "request_body_too_large"
  | invalidJsonBody _ => str "invalid_json_body"
  | failedSerializeMappedJson _ => str "serialize_mapped_json_failed"
  | invalidQuery _ => str "invalid_query"
  | failedSerializeMappedQuery _ => str "serialize_mapped_query_failed"
  | failedRebuildUri _ => str "rebuild_uri_failed"
  | expectedFormUrlEncoded => str "expected_form_urlencoded"
  | expectedMultipartFormData => str "expected_multipart_form_data"
  | invalidFormQuery _ => str "invalid_form_query"
  | failedSerializeMappedForm _ => str "serialize_mapped_form_failed"
  | invalidFormBody _ => str "invalid_form_body"

end ApigatePipelineError

/-- Framework-owned error passed to the configured error renderer. The last constructor is for hooks and maps,
    which may pick any status and message. -/
inductive ApigateFrameworkError where
  | core (error : ApigateCoreError)
  | pipeline (error : ApigatePipelineError)
  | http (status : StatusCode) (message : Str)
  deriving DecidableEq

namespace ApigateFrameworkError

def userMessage : ApigateFrameworkError → Str
  | core err => err.userMessage
  | pipeline err => err.userMessage
  | http _ message => message

def statusCode : ApigateFrameworkError → StatusCode
  | core err => err.statusCode
  | pipeline err => err.statusCode
  | http status _ => status

/-- Diagnostic details, for logs. -/
def debugDetails : ApigateFrameworkError → Option Str
  | core err => err.debugDetails
  | pipeline err => err.debugDetails
  | http _ _ => none

/-- The code of an error that a hook or map made up: that of its status, or of the class of its status. -/
def httpCode (status : StatusCode) : Str :=
  if status = 400 then str "bad_request"
  else if status = 401 then str "unauthorized"
  else if status = 403 then str "forbidden"
  else if status = 413 then str "payload_too_large"
  else if status = 415 then str "unsupported_media_type"
  else if status = 502 then str "bad_gateway"
  else if status = 504 then str "gateway_timeout"
  else if status = 500 then str "internal"
  else if status.isClientError then str "client_error"
  else if status.isServerError then str "server_error"
  else str "http_error"

/-- A stable machine-readable error code. -/
def code : ApigateFrameworkError → Str
  | core err => err.code
  | pipeline err => err.code
  | http status _ => httpCode status

end ApigateFrameworkError

/-- Renders framework errors into HTTP responses. -/
abbrev ErrorRenderer := ApigateFrameworkError → Response

/-- Plain-text responses: status and message of the error, and nothing of its details. -/
def defaultErrorRenderer : ErrorRenderer := fun error =>
  { status := error.statusCode
    headers := MultiMap.empty.insert .contentType (str "text/plain; charset=utf-8")
    body := Body.ofBytes error.userMessage }

/-- Error returned from hooks and maps; a custom response bypasses the renderer. -/
inductive ApigateError where
  | framework (error : ApigateFrameworkError)
  | custom (response : Response)
  deriving DecidableEq

namespace ApigateError

/-- The conversions of the source: `?` applies them where an error of a group meets a handler. -/
def ofCore (e : ApigateCoreError) : ApigateError := framework (.core e)

def ofPipeline (e : ApigatePipelineError) : ApigateError := framework (.pipeline e)

/-- The observer is told of a framework error by its value, and of a custom response by its status. -/
def frameworkError : ApigateError → Option ApigateFrameworkError
  | framework error => some error
  | custom _ => none

def statusCodeForLog : ApigateError → StatusCode
  | framework error => error.statusCode
  | custom response => response.status

/-- The response of a request that ends with this error. -/
def intoResponseWith (e : ApigateError) (renderer : ErrorRenderer) : Response :=
  match e with
  | framework error => renderer error
  | custom response => response

end ApigateError

/-- Error returned while building an application: a URL that is no base of an upstream, a service that nobody
    has registered backends for, a policy name that nobody has registered. -/
inductive ApigateBuildError where
  | invalidBackendUri (service url : Str) (source : BaseUriParseError)
  | backendNotRegistered (service : Str)
  | policyNotRegistered (name : Str)
  deriving DecidableEq

end Apigate
