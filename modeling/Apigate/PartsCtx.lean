import Apigate.Error

/-!
# `Apigate.PartsCtx` — the request head as hooks and maps see it

Operations return their result together with the context after them; on an error the context is what the code
leaves behind.

That is not always what was there before. A URI is taken out of the head before a new one is made of its parts,
and if this fails the head keeps the default URI. The checks before it are there to make that impossible, and
whether they are enough is a question for `Correctness.EncodedQuery`; here the code is as it is, with the
failure in it.
-/

namespace Apigate
open Lib Text

variable {V : Type}

structure PartsCtx (V : Type) where
  service : Str
  routePath : Str
  parts : Parts V

namespace PartsCtx

def setHeaders (ctx : PartsCtx V) (headers : HeaderMap) : PartsCtx V :=
  { ctx with parts := { ctx.parts with headers := headers } }

def setUri (ctx : PartsCtx V) (uri : Uri) : PartsCtx V :=
  { ctx with parts := { ctx.parts with uri := uri } }

def setExtensions (ctx : PartsCtx V) (extensions : Extensions V) : PartsCtx V :=
  { ctx with parts := { ctx.parts with extensions := extensions } }

/-- The headers that were set are there. -/
@[simp] theorem setHeaders_headers (ctx : PartsCtx V) (headers : HeaderMap) :
    (ctx.setHeaders headers).parts.headers = headers := rfl

/-- Inserts or replaces a request header. `name` and `value` are the results of the two `TryInto`s. -/
def setHeader (ctx : PartsCtx V) (name : Option HeaderName) (value : Option HeaderValue) :
    Except ApigateError Unit × PartsCtx V :=
  match name with
  | none => (.error (.ofCore .invalidHeaderName), ctx)
  | some name =>
      match value with
      | none => (.error (.ofCore .invalidHeaderValue), ctx)
      | some value => (.ok (), ctx.setHeaders (ctx.parts.headers.insert name value))

/-- Inserts a request header only when it is absent. -/
def setHeaderIfAbsent (ctx : PartsCtx V) (name : Option HeaderName) (value : Option HeaderValue) :
    Except ApigateError Unit × PartsCtx V :=
  match name with
  | none => (.error (.ofCore .invalidHeaderName), ctx)
  | some name =>
      if ctx.parts.headers.containsKey name then (.ok (), ctx)
      else
        match value with
        | none => (.error (.ofCore .invalidHeaderValue), ctx)
        | some value => (.ok (), ctx.setHeaders (ctx.parts.headers.insert name value))

/-- Removes a request header by name; a text that is no header name removes nothing. -/
def removeHeader (ctx : PartsCtx V) (name : Str) : PartsCtx V :=
  match HeaderName.fromBytes name with
  | some name => ctx.setHeaders (ctx.parts.headers.remove name)
  | none => ctx

/-- Extracts typed path parameters. -/
def extractPath (crates : Crates V) (ctx : PartsCtx V) (ty : TypeId) : Except ApigateError V :=
  match crates.extractPath ty ctx.parts with
  | some value => .ok value
  | none => .error (.ofCore .invalidPathParameters)

/-- Extracts typed query parameters. -/
def extractQuery (crates : Crates V) (ctx : PartsCtx V) (ty : TypeId) : Except ApigateError V :=
  (crates.queryFromStr ty (ctx.parts.uri.query.getD [])).mapError
    (fun details => .ofPipeline (.invalidQuery details))

/-- Replaces the path and query of the URI. The URI is taken out first, so that a failure of `Uri::from_parts`
    leaves the default URI behind. -/
def replacePathAndQuery (crates : Crates V) (ctx : PartsCtx V) (pathAndQuery : PathAndQuery) :
    Except ApigateError Unit × PartsCtx V :=
  match ctx.parts.uri.scheme.isSome, ctx.parts.uri.authority.isSome with
  | true, false =>
      (.error (.ofPipeline (.failedRebuildUri (str "cannot rebuild uri with scheme but no authority"))),
        ctx)
  | false, true =>
      (.error (.ofPipeline (.failedRebuildUri
        (str "cannot rebuild authority-form uri with path and query"))), ctx)
  | true, true | false, false =>
      match Uri.fromParts ctx.parts.uri.scheme ctx.parts.uri.authority (some pathAndQuery) with
      | some uri => (.ok (), ctx.setUri uri)
      | none => (.error (.ofPipeline (.failedRebuildUri crates.uriPartsError)), ctx.setUri .default)

/-- Replaces the URI query string with an encoded one. -/
def setEncodedQuery (crates : Crates V) (ctx : PartsCtx V) (encoded : Str) :
    Except ApigateError Unit × PartsCtx V :=
  let query := ctx.parts.uri.query
  let path := ctx.parts.uri.path
  if (encoded.isEmpty && query.isNone) || (!encoded.isEmpty && query == some encoded) then (.ok (), ctx)
  else if encoded.isEmpty && path == str "/" then ctx.replacePathAndQuery crates ⟨str "/", none⟩
  else
    match crates.pathAndQuery (if encoded.isEmpty then path else path ++ str "?" ++ encoded) with
    | .error err => (.error (.ofPipeline (.failedRebuildUri err)), ctx)
    | .ok pathAndQuery => ctx.replacePathAndQuery crates pathAndQuery

/-! ## What the URI operations leave alone

Replacing a path and query touches the URI, whatever comes of it. -/

/-- The headers stay, -/
@[simp] theorem replacePathAndQuery_headers (crates : Crates V) (ctx : PartsCtx V) (pq : PathAndQuery) :
    (ctx.replacePathAndQuery crates pq).2.parts.headers = ctx.parts.headers := by
  unfold replacePathAndQuery
  split
  · rfl
  · rfl
  all_goals split <;> rfl

/-- for a new query, too. -/
@[simp] theorem setEncodedQuery_headers (crates : Crates V) (ctx : PartsCtx V) (encoded : Str) :
    (ctx.setEncodedQuery crates encoded).2.parts.headers = ctx.parts.headers := by
  simp only [setEncodedQuery]
  by_cases hsame : ((encoded.isEmpty && ctx.parts.uri.query.isNone) ||
      (!encoded.isEmpty && ctx.parts.uri.query == some encoded)) = true
  · rw [if_pos hsame]
  · rw [if_neg hsame]
    split
    · exact replacePathAndQuery_headers crates ctx _
    · split
      · rfl
      · exact replacePathAndQuery_headers crates ctx _

end PartsCtx
end Apigate
