import Apigate.Lib.TokenReader
import Apigate.Macros.Expand

/-!
# `Macros.Attributes` — reading the arguments of route and service attributes

The parsers of `#[apigate::get("/path", ...)]` and of `#[apigate::service(...)]`, over the tokens between the
parentheses. How a path or a type is read is `syn`'s business and a parameter here.

The two attributes are read differently, though they look alike. A route enters each argument into its builder
as soon as it is read, so that a duplicate is reported before anything behind it is looked at. A service reads
all its arguments first, and a mistake in the last is reported before a duplicate among the first. The loops are
those of `Lib.TokenReader`, and the order is in how they are called.

Errors carry what they point at, since a reader of the compiler's message sees the span and then the text.
-/

namespace Apigate
open Lib

namespace Syn

inductive Delimiter where
  | parenthesis
  | brace
  | bracket
  deriving DecidableEq

inductive Token where
  | ident (text : Str)
  | keyword (text : Str)
  | punct (c : Char)
  | litStr (value : Str)
  /-- A literal that is not a string. -/
  | literal (tokens : Str)
  | group (delimiter : Delimiter) (tokens : List Token)

/-- A path without leading colons. -/
def Path.relative (first : PathSegment) (more : List PathSegment) : Path :=
  ⟨false, first :: more, List.cons_ne_nil first more⟩

end Syn

open Syn

/-- What the error of a macro points at. -/
inductive MacroSpan where
  | callSite
  | ident (text : Str)
  | litStr (value : Str)
  | attribute
  | module
  deriving DecidableEq

/-- An error of a macro, which becomes a compile error. -/
inductive MacroError where
  /-- A parser of `syn` expected something else. -/
  | expected (what : Str)
  | new (span : MacroSpan) (message : Str)
  deriving DecidableEq

/-- Reads from a `ParseStream`. -/
abbrev Parse (α : Type) := TokenReader Token MacroError α

namespace Syn

def Token.isComma : Token → Bool
  | punct ',' => true
  | _ => false

/-- `input.peek(Token![=])`, which tells an argument with a value from a flag. -/
def peekEq : List Token → Bool
  | .punct '=' :: _ => true
  | _ => false

def parseIdent : Parse Str := .token (fun t => match t with
  | .ident text => some text
  | _ => none) (.expected (str "identifier"))

def parseLitStr : Parse Str := .token (fun t => match t with
  | .litStr value => some value
  | _ => none) (.expected (str "string literal"))

def parseEq : Parse Unit := .token (fun t => match t with
  | .punct '=' => some ()
  | _ => none) (.expected (str "`=`"))

/-- `bracketed!(content in input)` -/
def bracketed : Parse (List Token) := .token (fun t => match t with
  | .group .bracket content => some content
  | _ => none) (.expected (str "square brackets"))

/-- `input.call(Punctuated::<_, Token![,]>::parse_terminated)`, which reads the whole stream. -/
def parseTerminated {α : Type} (p : Parse α) (ts : List Token) : Except MacroError (List α) :=
  TokenReader.terminated Token.isComma p (.expected (str "`,`")) ts.length [] ts

/-- `syn::parse`, `attr.parse_args()`: a parser has to read everything. -/
def parseAll {α : Type} (p : Parse α) (ts : List Token) : Except MacroError α :=
  p.all (.expected (str "end of input")) ts

/-- How paths and types are read, and what they look like: a phrase is read whole where a comma or the end
    follows it. -/
structure Grammar where
  parsePath : Parse Path
  parseType : Parse Ty
  PathPhrase : Path → List Token → Prop
  TypePhrase : Ty → List Token → Prop
  path_reads : TokenReader.Reads parsePath PathPhrase (TokenReader.Ends Token.isComma)
  type_reads : TokenReader.Reads parseType TypePhrase (TokenReader.Ends Token.isComma)
  path_nonempty : ∀ {path}, ¬ PathPhrase path []

end Syn

/-! ## Helpers of the parsers

What the arguments of both attributes have in common. -/

/-- Sets `slot` to `value`, unless it is occupied. -/
def setOnce {α : Type} (slot : Option α) (value : α) (span : MacroSpan) (name : Str) : Except MacroError (Option α) :=
  if slot.isSome then .error (.new span (str "duplicate `" ++ name ++ str "`")) else .ok (some value)

/-- `= <value>` -/
def parseAssigned {α : Type} (p : Parse α) : Parse α := parseEq.bind fun _ => p

/-- `[path1, path2, ...]` -/
def parseBracketedPaths (g : Grammar) : Parse (List Path) := fun ts => do
  let (content, rest) ← bracketed ts
  let paths ← parseTerminated g.parsePath content
  return (paths, rest)

namespace Attr

/-! ## Arguments of a route

A literal first, the path, and then what a builder takes, each argument once. -/

/-- Which request body extractor a route uses, if any. -/
inductive DataKind where
  | none
  | json (ty : Ty)
  | form (ty : Ty)
  | multipart
  deriving DecidableEq

/-- A data kind is chosen once. -/
def DataKind.set (self next : DataKind) (span : MacroSpan) : Except MacroError DataKind :=
  match self with
  | .none => .ok next
  | _ => .error (.new span (str "only one of `json`, `form`, or `multipart` may be specified"))

/-- Parsed arguments of a route attribute. -/
structure RouteArgs where
  path : Str
  target : Option Str
  policy : Option Str
  before : List Path
  map : Option Path
  queryType : Option Ty
  data : DataKind
  pathType : Option Ty
  deriving DecidableEq

/-- The arguments read so far; those of the body share one slot. -/
structure RouteArgsBuilder where
  target : Option Str
  policy : Option Str
  before : Option (List Path)
  map : Option Path
  queryType : Option Ty
  data : DataKind
  pathType : Option Ty

inductive RouteFlag where
  | multipart
  deriving DecidableEq

/-- One argument, as it was read. -/
inductive RouteArg where
  | target (v : Str)
  | policy (v : Str)
  | before (v : List Path)
  | map (v : Path)
  | query (v : Ty)
  | json (v : Ty)
  | form (v : Ty)
  | pathType (v : Ty)
  | flag (v : RouteFlag)
  deriving DecidableEq

namespace RouteArgsBuilder

def default : RouteArgsBuilder := ⟨none, none, none, none, none, .none, none⟩

/-- Enters an argument, unless its slot is occupied. The literals are pointed at, the others are not. -/
def apply (self : RouteArgsBuilder) : RouteArg → Except MacroError RouteArgsBuilder
  | .target v => do return { self with target := ← setOnce self.target v (.litStr v) (str "to") }
  | .policy v => do return { self with policy := ← setOnce self.policy v (.litStr v) (str "policy") }
  | .before v => do return { self with before := ← setOnce self.before v .callSite (str "before") }
  | .map v => do return { self with map := ← setOnce self.map v .callSite (str "map") }
  | .query v => do return { self with queryType := ← setOnce self.queryType v .callSite (str "query") }
  | .json v => do return { self with data := ← self.data.set (.json v) .callSite }
  | .form v => do return { self with data := ← self.data.set (.form v) .callSite }
  | .pathType v => do return { self with pathType := ← setOnce self.pathType v .callSite (str "path") }
  | .flag .multipart => do return { self with data := ← self.data.set .multipart .callSite }

/-- Without hooks there is an empty list of them. -/
def build (self : RouteArgsBuilder) (path : Str) : RouteArgs where
  path := path
  target := self.target
  policy := self.policy
  before := self.before.getD []
  map := self.map
  queryType := self.queryType
  data := self.data
  pathType := self.pathType

end RouteArgsBuilder

namespace RouteArg

/-- The values that stand behind `key =`. -/
def assigned (g : Grammar) (key : Str) : Option (Parse RouteArg) :=
  if key = str "to" then some (.map .target (parseAssigned parseLitStr))
  else if key = str "policy" then some (.map .policy (parseAssigned parseLitStr))
  else if key = str "before" then some (.map .before (parseEq.bind fun _ => parseBracketedPaths g))
  else if key = str "map" then some (.map .map (parseAssigned g.parsePath))
  else if key = str "query" then some (.map .query (parseAssigned g.parseType))
  else if key = str "json" then some (.map .json (parseAssigned g.parseType))
  else if key = str "form" then some (.map .form (parseAssigned g.parseType))
  else if key = str "path" then some (.map .pathType (parseAssigned g.parseType))
  else none

/-- The error at a key that is none, with the keys there are. -/
def unknownArgument : Str :=
  str "unknown route argument, expected one of: " ++
    str "`to`, `policy`, `before`, `map`, `query`, `json`, `form`, `path`"

/-- The error at a word without a value. -/
def unknownFlag : Str := str "expected `key = value` or a supported bare flag (`multipart`)"

def parse (g : Grammar) : Parse RouteArg := fun ts => do
  let (key, rest) ← parseIdent ts
  if peekEq rest then
    match assigned g key with
    | some value => value rest
    | none => .error (.new (.ident key) unknownArgument)
  else if key = str "multipart" then .ok (.flag .multipart, rest)
  else .error (.new (.ident key) unknownFlag)

end RouteArg

/-- The path, and the arguments behind it, led by commas. -/
def RouteArgs.parse (g : Grammar) : Parse RouteArgs := fun ts => do
  let (path, rest) ← parseLitStr ts
  let (builder, rest) ←
    TokenReader.led Token.isComma (RouteArg.parse g) RouteArgsBuilder.apply rest.length .default rest
  return (builder.build path, rest)

/-! ## Arguments of a service

Three keys, each with a literal. -/

structure ServiceArgs where
  name : Option Str
  servicePrefix : Option Str
  policy : Option Str
  deriving DecidableEq

inductive ServiceArg where
  | name (v : Str)
  | servicePrefix (v : Str)
  | policy (v : Str)
  deriving DecidableEq

def ServiceArg.parse : Parse ServiceArg := fun ts => do
  let (key, rest) ← parseIdent ts
  let (value, rest) ← parseAssigned parseLitStr rest
  if key = str "name" then return (.name value, rest)
  else if key = str "prefix" then return (.servicePrefix value, rest)
  else if key = str "policy" then return (.policy value, rest)
  else .error (.new (.ident key) (str "unknown argument `" ++ key ++ str "`"))

/-- One argument goes to its slot. -/
def ServiceArgs.enter (args : ServiceArgs) : ServiceArg → Except MacroError ServiceArgs
  | .name v => do return { args with name := ← setOnce args.name v (.litStr v) (str "name") }
  | .servicePrefix v => do
      return { args with servicePrefix := ← setOnce args.servicePrefix v (.litStr v) (str "prefix") }
  | .policy v => do return { args with policy := ← setOnce args.policy v (.litStr v) (str "policy") }

/-- All arguments are read before the first of them is entered. -/
def ServiceArgs.parse (ts : List Token) : Except MacroError ServiceArgs := do
  let args ← parseTerminated ServiceArg.parse ts
  args.foldlM ServiceArgs.enter ⟨none, none, none⟩

end Attr
end Apigate
