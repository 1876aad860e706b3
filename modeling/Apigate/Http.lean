import Apigate.Lib.Text
import Apigate.Lib.MultiMap

/-!
# `Apigate.Http` — requests, headers, URIs, bodies

The types of the `http` and `axum` crates as far as the gateway uses them. Their small documented
functions are written out; the parsers, whose code is not in this repository, are the fields of `Crates`,
and every result holds for any choice of them.
-/

namespace Apigate
open Lib

/-! ## Bytes with a meaning -/

/-- `/` -/
abbrev slash : UInt8 := 0x2F
/-- `?` -/
abbrev questionMark : UInt8 := 0x3F
/-- `,` -/
abbrev comma : UInt8 := 0x2C
/-- An opening brace. -/
abbrev openBrace : UInt8 := 0x7B
/-- A closing brace. -/
abbrev closeBrace : UInt8 := 0x7D

/-- A computation that may panic: `none` is the panic. -/
abbrev Checked (α : Type) := Option α

/-! ## Headers -/

/-- A header name: ASCII, lower case. -/
structure HeaderName where
  text : Str
  deriving DecidableEq

abbrev HeaderValue := Str

abbrev HeaderMap := MultiMap HeaderName HeaderValue

namespace HeaderName

def connection : HeaderName := ⟨str "connection"⟩
def contentLength : HeaderName := ⟨str "content-length"⟩
def contentType : HeaderName := ⟨str "content-type"⟩
def host : HeaderName := ⟨str "host"⟩
def keepAlive : HeaderName := ⟨str "keep-alive"⟩
def proxyAuthenticate : HeaderName := ⟨str "proxy-authenticate"⟩
def proxyAuthorization : HeaderName := ⟨str "proxy-authorization"⟩
def proxyConnection : HeaderName := ⟨str "proxy-connection"⟩
def te : HeaderName := ⟨str "te"⟩
def trailer : HeaderName := ⟨str "trailer"⟩
def transferEncoding : HeaderName := ⟨str "transfer-encoding"⟩
def upgrade : HeaderName := ⟨str "upgrade"⟩

/-- A byte that may stand in a header name (`tchar`). -/
def isTokenByte (b : UInt8) : Bool :=
  (0x30 ≤ b && b ≤ 0x39) || (0x41 ≤ b && b ≤ 0x5A) || (0x61 ≤ b && b ≤ 0x7A) ||
    (str "!#$%&'*+-.^_`|~").contains b

/-- ASCII lower case of a byte. -/
def lowerByte (b : UInt8) : UInt8 := if 0x41 ≤ b && b ≤ 0x5A then b + 0x20 else b

/-- `HeaderName::from_bytes`: a non-empty token of at most `2^16 - 1` bytes, lower-cased. -/
def fromBytes (b : Str) : Option HeaderName :=
  if !b.isEmpty && b.length < 65536 && b.all isTokenByte then some ⟨b.map lowerByte⟩ else none

end HeaderName

/-- `HeaderValue::to_str`: only visible ASCII and tabs. -/
def HeaderValue.toStr (v : HeaderValue) : Option Str :=
  if v.all (fun b => (0x20 ≤ b && b < 0x7F) || b == 0x09) then some v else none

/-- The text of a value is the value itself. -/
theorem HeaderValue.eq_of_toStr {v : HeaderValue} {s : Str} (h : HeaderValue.toStr v = some s) : s = v := by
  unfold HeaderValue.toStr at h
  split at h
  · exact (Option.some.inj h).symm
  · cases h

/-! ## URIs -/

structure PathAndQuery where
  path : Str
  query : Option Str
  deriving DecidableEq

/-- `http::Uri`: origin, absolute, authority and asterisk form differ in what is present. -/
structure Uri where
  scheme : Option Str
  authority : Option Str
  pathAndQuery : Option PathAndQuery
  deriving DecidableEq

namespace Uri

/-- `Uri::default()`: the path `/`. -/
def default : Uri := ⟨none, none, some ⟨str "/", none⟩⟩

/-- `Uri::path`: an empty path reads as `/`, a missing one as empty unless there is a scheme. -/
def path (u : Uri) : Str :=
  match u.pathAndQuery with
  | some pq => if pq.path.isEmpty then str "/" else pq.path
  | none => if u.scheme.isSome then str "/" else []

def query (u : Uri) : Option Str := u.pathAndQuery.bind PathAndQuery.query

/-- `Uri::from_parts`: only a missing scheme, authority or path is an error. -/
def fromParts (scheme authority : Option Str) (pathAndQuery : Option PathAndQuery) : Option Uri :=
  match scheme, authority, pathAndQuery with
  | some _, none, _ => none
  | some _, some _, none => none
  | none, some _, some _ => none
  | _, _, _ => some ⟨scheme, authority, pathAndQuery⟩

end Uri

/-! ## Bodies, requests, responses -/

/-- A body is a stream: its chunks, and whether it ends in a transport error. -/
structure Body where
  chunks : List Str
  failed : Bool
  deriving DecidableEq

namespace Body

def bytes (b : Body) : Str := b.chunks.flatten

/-- `Body::from` of bytes or of a `String`. -/
def ofBytes (b : Str) : Body := ⟨[b], false⟩

@[simp] theorem bytes_ofBytes (b : Str) : (ofBytes b).bytes = b := by simp [bytes, ofBytes]

end Body

abbrev TypeId := Nat

/-- `http::Extensions`: at most one value of each type. -/
abbrev Extensions (V : Type) := MultiMap TypeId V

/-- The head of a request. -/
structure Parts (V : Type) where
  method : Str
  uri : Uri
  version : Str
  headers : HeaderMap
  extensions : Extensions V

structure Request (V : Type) where
  parts : Parts V
  body : Body

structure Response where
  status : Nat
  headers : HeaderMap
  body : Body
  deriving DecidableEq

/-! ## Code outside the repository -/

/-- The functions of other crates that the gateway calls and that are not written out above. -/
structure Crates (V : Type) where
  /-- `str::parse::<Uri>`; the error as text. -/
  parseUri : Str → Except Str Uri
  /-- `PathAndQuery::try_from`, `PathAndQuery::from_maybe_shared`; the error as text. -/
  pathAndQuery : Str → Except Str PathAndQuery
  /-- `PathAndQuery::from_static`; it panics on a text that it does not take. -/
  pathAndQueryFromStatic : Str → Checked PathAndQuery
  /-- It takes fewer texts than `try_from` (none with a `#`, none that is not ASCII), and reads them alike. -/
  fromStatic_ok : ∀ s pq, pathAndQueryFromStatic s = some pq → pathAndQuery s = .ok pq
  /-- The text of an `InvalidUriParts`. -/
  uriPartsError : Str
  /-- `axum::body::to_bytes`; the error as text. -/
  toBytes : Body → Nat → Except Str Str
  /-- `axum::extract::Path`. -/
  extractPath : TypeId → Parts V → Option V
  /-- `serde_html_form::from_str`; the error with its path, as text. -/
  queryFromStr : TypeId → Str → Except Str V
  /-- `serde_json::from_slice`; the error with its path, as text. -/
  jsonFromSlice : TypeId → Str → Except Str V
  /-- `serde_urlencoded::from_bytes`; the error with its path, as text. -/
  formFromBytes : TypeId → Str → Except Str V
  /-- `serde_urlencoded::from_str`; the error with its path, as text. -/
  formFromStr : TypeId → Str → Except Str V
  /-- Whether `Router::route` accepts a path and method next to those it has; it panics otherwise. -/
  routeAccepted : List (Str × Str) → Str × Str → Bool

/-- The `from_static` that goes with a `try_from`. -/
def fromStaticOf (parse : Str → Except Str PathAndQuery) (s : Str) : Checked PathAndQuery :=
  if s.all fun b => decide (b < 0x80) && b != 0x23 then (parse s).toOption else none

theorem fromStaticOf_ok (parse : Str → Except Str PathAndQuery) (s : Str) (pq : PathAndQuery)
    (h : fromStaticOf parse s = some pq) : parse s = .ok pq := by
  unfold fromStaticOf at h
  split at h
  · cases hparse : parse s with
    | ok pq' =>
        rw [hparse] at h
        cases h
        rfl
    | error e =>
        rw [hparse] at h
        cases h
  · cases h

/-- A text from the root, cut at the first `?`. -/
def plainPathAndQuery (s : Str) : Except Str PathAndQuery :=
  if Text.startsWith s (str "/") then
    .ok ⟨s.takeWhile (· != questionMark), (Text.find questionMark s).map fun i => s.drop (i + 1)⟩
  else .error (str "invalid uri")

/-- Stand-ins that behave like the crates on plain inputs: `http://host` URLs, paths and queries without special
    characters, and values that are the raw text itself. -/
def Crates.plain : Crates Str where
  parseUri s :=
    match Text.stripPrefix? (str "http://") s with
    | some rest =>
        let path := rest.dropWhile (· != slash)
        .ok ⟨some (str "http"), some (rest.takeWhile (· != slash)),
          some ⟨if path.isEmpty then str "/" else path, none⟩⟩
    | none => .error (str "invalid uri")
  pathAndQuery := plainPathAndQuery
  pathAndQueryFromStatic := fromStaticOf plainPathAndQuery
  fromStatic_ok := fromStaticOf_ok plainPathAndQuery
  uriPartsError := str "invalid uri parts"
  toBytes body limit :=
    if body.failed then .error (str "transport error")
    else if body.bytes.length ≤ limit then .ok body.bytes
    else .error (str "length limit exceeded")
  extractPath _ parts := some parts.uri.path
  queryFromStr _ raw := .ok raw
  jsonFromSlice _ bytes := .ok bytes
  formFromBytes _ bytes := .ok bytes
  formFromStr _ raw := .ok raw
  routeAccepted known new := !known.contains new

end Apigate
