import Apigate.Route
import Apigate.Lib.Segments

/-!
# `Macros.Template` — compiling rewrite templates at macro time

`to = "..."` on a route is turned into a `RewriteSpec`. A target with a `{` is compiled: parameters are looked
up by name in the route path and become positional capture indices.

Both parsers slice the text that they read, at offsets they have computed, and a slice may panic; so they return
a checked result, and that they never panic is a theorem (`Correctness.Template`). The route path is read by its
non-empty segments. The target is read byte by byte, with the start of the current literal kept beside the
offset, as the source does: a literal is cut off when a reference begins, and at the end.

An index beyond `u8` is an error as in the source, though a route path has at most 256 names.
-/

namespace Apigate
open Lib Text Segments

inductive RewriteTemplateError where
  | emptyRouteParameter
  | duplicateRouteParameter (name : Str)
  | unclosedToParameter
  | emptyToParameter
  | unknownToParameter (name : Str)
  | unmatchedToCloseBrace
  | tooManyRouteParameters (max : Nat)
  | captureIndexOverflow
  deriving DecidableEq

inductive SrcSegIr where
  | lit (text : Str)
  | param
  deriving DecidableEq

inductive DstChunkIr where
  | lit (text : Str)
  | capture (index : UInt8)
  deriving DecidableEq

structure RewriteIr where
  src : List SrcSegIr
  dst : List DstChunkIr
  staticLen : Nat
  deriving DecidableEq

/-- `u8::MAX as usize + 1`. -/
def maxCaptureParams : Nat := 256

/-- A route segment written in braces. -/
def isBraced (seg : Str) : Bool := startsWith seg (str "\x7b") && endsWith seg closeBrace

/-- The loop of `parse_route_source` over the non-empty segments. -/
def parseSourceLoop : List Str → List SrcSegIr → List Str →
    Checked (Except RewriteTemplateError (List SrcSegIr × List Str))
  | [], src, params => some (.ok (src, params))
  | seg :: segs, src, params =>
      if isBraced seg then do
        let name ← slice? seg 1 (seg.length - 1)
        if name.isEmpty then some (.error .emptyRouteParameter)
        else if params.contains name then some (.error (.duplicateRouteParameter name))
        else if maxCaptureParams ≤ params.length then
          some (.error (.tooManyRouteParameters maxCaptureParams))
        else parseSourceLoop segs (src ++ [.param]) (params ++ [name])
      else parseSourceLoop segs (src ++ [.lit seg]) params

/-- Parses the route path into IR segments and a list of parameter names. -/
def parseRouteSource (routePath : Str) :
    Checked (Except RewriteTemplateError (List SrcSegIr × List Str)) :=
  parseSourceLoop (nonEmptySegs slash routePath) [] []

/-- `u8::try_from(usize)`. -/
def u8? (n : Nat) : Option UInt8 := if n < 256 then some (UInt8.ofNat n) else none

/-- The literal chunk `to[litStart..i]`, if it is not empty, and its length. -/
def pushLit (target : Str) (litStart i : Nat) (dst : List DstChunkIr) (staticLen : Nat) :
    Checked (List DstChunkIr × Nat) :=
  if litStart < i then do
    let lit ← slice? target litStart i
    some (dst ++ [.lit lit], staticLen + lit.length)
  else some (dst, staticLen)

/-- The byte loop of `parse_rewrite_target`: `i` is the byte looked at, `litStart` where the current literal
    began. -/
def parseTargetLoop (target : Str) (params : List Str) (i litStart : Nat) (dst : List DstChunkIr)
    (staticLen : Nat) : Checked (Except RewriteTemplateError (List DstChunkIr × Nat)) :=
  if h : i < target.length then
    if target[i] = openBrace then do
      let (dst, staticLen) ← pushLit target litStart i dst staticLen
      -- the name goes to the first closing brace
      let tail ← slice? target (i + 1) target.length
      match find closeBrace tail with
      | none => some (.error .unclosedToParameter)
      | some close =>
          let name ← slice? target (i + 1) (i + 1 + close)
          if name.isEmpty then some (.error .emptyToParameter)
          else
            match params.findIdx? (· == name) with
            | none => some (.error (.unknownToParameter name))
            | some srcIndex =>
                -- a `u8` index of a list of at most 256 names
                match u8? srcIndex with
                | none => some (.error .captureIndexOverflow)
                | some srcIndex =>
                    parseTargetLoop target params (i + 1 + close + 1) (i + 1 + close + 1)
                      (dst ++ [.capture srcIndex]) staticLen
    else if target[i] = closeBrace then some (.error .unmatchedToCloseBrace)
    else parseTargetLoop target params (i + 1) litStart dst staticLen
  else do
    let (dst, staticLen) ← pushLit target litStart target.length dst staticLen
    some (.ok (dst, staticLen))
termination_by target.length - i

/-- Parses the destination template, resolving `{param}` references against known parameters. -/
def parseRewriteTarget (target : Str) (params : List Str) :
    Checked (Except RewriteTemplateError (List DstChunkIr × Nat)) :=
  parseTargetLoop target params 0 0 [] 0

def SrcSegIr.emit : SrcSegIr → SrcSeg
  | .lit text => .lit text
  | .param => .param

def DstChunkIr.emit : DstChunkIr → DstChunk
  | .lit text => .lit text
  | .capture index => .capture index

/-- The template the emitted tokens build. -/
def emit (ir : RewriteIr) : RewriteTemplate := ⟨ir.src.map SrcSegIr.emit, ir.dst.map DstChunkIr.emit, ir.staticLen⟩

/-- Compiles a rewrite template at macro-expand time. -/
def compileRewriteTemplate (routePath target : Str) :
    Checked (Except RewriteTemplateError RewriteTemplate) := do
  match ← parseRouteSource routePath with
  | .error e => some (.error e)
  | .ok (src, params) =>
      match ← parseRewriteTarget target params with
      | .error e => some (.error e)
      | .ok (dst, staticLen) => some (.ok (emit ⟨src, dst, staticLen⟩))

/-- The `RewriteSpec` of a route attribute. -/
def buildRewriteSpec (path : Str) : Option Str → Checked (Except RewriteTemplateError RewriteSpec)
  | none => some (.ok .stripPrefix)
  | some target =>
      if target.contains openBrace then do
        match ← compileRewriteTemplate path target with
        | .error e => some (.error e)
        | .ok tpl => some (.ok (.template tpl))
      else some (.ok (.static target))

end Apigate
