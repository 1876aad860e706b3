import Apigate.Route
import Apigate.Balancing

/-!
# `Apigate.Proxy` — rewriting the URI and filtering hop-by-hop headers

What `proxy_request` does to a request before it hands it to the upstream client. Indexing and slicing are
checked: the outer `Option` of a `Checked` result is a panic.
-/

namespace Apigate
open Lib Text

variable {V Pipeline : Type}

/-! ## Prefix stripping -/

/-- Strips the service prefix from the incoming path. -/
def stripPrefix (incomingPath servicePrefix : Str) : Str :=
  match stripPrefix? servicePrefix incomingPath with
  | none => incomingPath
  | some [] => str "/"
  -- cut in the middle of a segment
  | some (b :: rest) => if b = slash then b :: rest else str "/"

/-! ## Template rendering -/

/-- The loop of `capture_raw`. `offset` is where `remaining` starts in the stripped path; the empty text that
    stands for "nothing left" is not a slice of it, and its offset is never used. -/
def captureLoop : List SrcSeg → Nat → Str → List (Nat × Nat) → Checked (Option (List (Nat × Nat)))
  | [], _, remaining, captures => some (if remaining.isEmpty then some captures else none)
  | srcSeg :: src, offset, remaining, captures =>
      -- the path ends before the pattern does
      if remaining.isEmpty then some none
      else do
        let (seg, restOffset, rest) ← match find slash remaining with
          | some pos => do
              let seg ← slice? remaining 0 pos
              let rest ← slice? remaining (pos + 1) remaining.length
              pure (seg, offset + (pos + 1), rest)
          | none => pure (remaining, 0, [])
        match srcSeg with
        | .lit expected => if seg ≠ expected then some none else captureLoop src restOffset rest captures
        | .param => captureLoop src restOffset rest (captures ++ [(offset, offset + seg.length)])

/-- Matches segments against the source pattern and returns the byte ranges of the parameters. -/
def captureRaw (src : List SrcSeg) (strippedPath : Str) : Checked (Option (List (Nat × Nat))) :=
  match stripPrefix? (str "/") strippedPath with
  | none => some none
  | some content => captureLoop src 1 content []

/-- The loop over the destination chunks. -/
def renderChunks (strippedPath : Str) (captures : List (Nat × Nat)) : List DstChunk → Str → Checked Str
  | [], out => some out
  | .lit s :: dst, out => renderChunks strippedPath captures dst (out ++ s)
  | .capture srcIndex :: dst, out => do
      let range ← captures[srcIndex.toNat]?
      let value ← slice? strippedPath range.1 range.2
      renderChunks strippedPath captures dst (out ++ value)

/-- `?` and the query, when there is one. -/
def querySuffix : Option Str → Str
  | some q => questionMark :: q
  | none => []

/-- Substitutes captured parameters into the destination template and appends the query. -/
def renderTemplate (tpl : RewriteTemplate) (strippedPath : Str) (query : Option Str) :
    Checked (Option Str) := do
  match ← captureRaw tpl.src strippedPath with
  | none => some none
  | some captures =>
      let out ← renderChunks strippedPath captures tpl.dst []
      some (some (out ++ querySuffix query))

/-! ## URI rewrite -/

def makePathAndQuery (crates : Crates V) (path query : Str) : Except ProxyErrorKind PathAndQuery :=
  (crates.pathAndQuery (path ++ str "?" ++ query)).mapError (fun _ => .invalidUpstreamUri)

/-- A new path and query based on the rewrite strategy; `none` would keep the incoming one. -/
def rewritePathAndQuery (crates : Crates V) (routeMeta : RouteMeta Pipeline) (uri : Uri) :
    Checked (Except ProxyErrorKind (Option PathAndQuery)) :=
  let query := uri.query
  match routeMeta.rewrite with
  | .static fixed =>
      match query with
      | none => some (.ok (some fixed.noQuery))
      | some q => some ((makePathAndQuery crates fixed.raw q).map some)
  | .stripPrefix =>
      let stripped := stripPrefix uri.path routeMeta.servicePrefix
      match query with
      | none => some (((crates.pathAndQuery stripped).mapError (fun _ => .invalidUpstreamUri)).map some)
      | some q => some ((makePathAndQuery crates stripped q).map some)
  | .template tpl => do
      let stripped := stripPrefix uri.path routeMeta.servicePrefix
      match ← renderTemplate tpl stripped query with
      | none => some (.error .invalidUpstreamUri)
      | some rendered =>
          some (((crates.pathAndQuery rendered).mapError (fun _ => .invalidUpstreamUri)).map some)

/-- Replaces scheme and authority with the upstream's and the path and query by the rewritten one. -/
def rewriteUri (crates : Crates V) (base : BaseUri) (routeMeta : RouteMeta Pipeline) (uri : Uri) :
    Checked (Except ProxyErrorKind Uri) := do
  match ← rewritePathAndQuery crates routeMeta uri with
  | .error e => some (.error e)
  | .ok newPq =>
      match Uri.fromParts (some base.scheme) (some base.authority) (newPq <|> uri.pathAndQuery) with
      | some uri => some (.ok uri)
      | none => some (.error .invalidUpstreamUri)

/-! ## Hop-by-hop headers -/

/-- The names listed in one `Connection` field. -/
def connectionTokens (value : HeaderValue) : List HeaderName :=
  match HeaderValue.toStr value with
  | none => []
  | some s => (((s.splitOn comma).map trim).filter (fun t => !t.isEmpty)).filterMap HeaderName.fromBytes

/-- The standard hop-by-hop names, in the order in which they are removed. -/
def hopHeaders : List HeaderName :=
  [.proxyAuthenticate, .proxyAuthorization, .te, .trailer, .transferEncoding, .upgrade, .keepAlive,
    .proxyConnection]

/-- Removes hop-by-hop headers: those listed in `Connection`, then the standard set. -/
def stripHopHeaders (headers : HeaderMap) : HeaderMap :=
  -- the names are collected before `Connection` itself goes
  let tokens := (headers.getAll .connection).flatMap connectionTokens
  let headers := headers.remove .connection
  let headers := tokens.foldl MultiMap.remove headers
  hopHeaders.foldl MultiMap.remove headers

/-! ## The request that goes upstream -/

/-- The part of `proxy_request` before the client call: rewrite the URI, strip hop-by-hop headers, set `Host`.
    -/
def upstreamRequest (crates : Crates V) (backend : Backend) (routeMeta : RouteMeta Pipeline)
    (parts : Parts V) (body : Body) : Checked (Except ProxyErrorKind (Request V)) := do
  match ← rewriteUri crates backend.base routeMeta parts.uri with
  | .error e => some (.error e)
  | .ok uri =>
      let headers := (stripHopHeaders parts.headers).insert .host backend.base.hostHeader
      some (.ok ⟨{ parts with uri := uri, headers := headers }, body⟩)

/-- The part of `proxy_request` after it: strip the hop-by-hop headers of the response. -/
def downstreamResponse (response : Response) : Response :=
  { response with headers := stripHopHeaders response.headers }

end Apigate
