import Mathlib.Algebra.Group.Int.Defs
import Mathlib.Algebra.Group.Nat.Defs
import Apigate.Routing

/-!
# `Apigate.Balancing` — the balancer trait and the built-in balancers

A balancer's state is what its implementation keeps in atomics; each method below is one atomic action on
it. `usize` is 64 bits wide and arithmetic wraps, as in a release build.
-/

namespace Apigate
open Lib

/-- Context passed to a load balancer. -/
structure BalanceCtx where
  service : Str
  affinity : Option AffinityKey
  pool : BackendPool
  candidates : CandidateSet

namespace BalanceCtx

/-- The number of candidate backends. -/
def candidateLen (ctx : BalanceCtx) : Nat :=
  match ctx.candidates with
  | .all => ctx.pool.len
  | .indices indices => indices.length

/-- The backend pool index of the `nth` candidate. -/
def candidateIndex (ctx : BalanceCtx) (nth : Nat) : Option Nat :=
  match ctx.candidates with
  | .all => if nth < ctx.pool.len then some nth else none
  | .indices indices => indices[nth]?

/-- Whether `backendIdx` is in the candidate set. -/
def isCandidate (ctx : BalanceCtx) (backendIdx : Nat) : Bool :=
  match ctx.candidates with
  | .all => decide (backendIdx < ctx.pool.len)
  | .indices indices => indices.contains backendIdx

/-- The candidates in order. -/
def candidateList (ctx : BalanceCtx) : List Nat :=
  match ctx.candidates with
  | .all => List.range ctx.pool.len
  | .indices indices => indices

@[simp] theorem length_candidateList (ctx : BalanceCtx) : ctx.candidateList.length = ctx.candidateLen := by
  unfold candidateList candidateLen
  cases ctx.candidates <;> simp

/-- The accessors of a context read its candidate list. -/
theorem candidateIndex_eq (ctx : BalanceCtx) (nth : Nat) :
    ctx.candidateIndex nth = ctx.candidateList[nth]? := by
  unfold candidateIndex candidateList
  cases ctx.candidates with
  | all =>
      simp only
      split <;> simp_all
  | indices l => rfl

theorem isCandidate_iff {ctx : BalanceCtx} {i : Nat} :
    ctx.isCandidate i = true ↔ i ∈ ctx.candidateList := by
  unfold isCandidate candidateList
  cases ctx.candidates <;> simp

end BalanceCtx

/-- Proxy error kind reported to balancers and observers. -/
inductive ProxyErrorKind where
  | invalidUpstreamUri
  | upstreamRequest
  | noBackends
  | timeout
  deriving DecidableEq

/-- Durations in nanoseconds. -/
abbrev Duration := Nat

def Duration.asMicros (d : Duration) : Nat := d / 1000

structure StartEvent where
  service : Str
  backendIndex : Nat
  deriving DecidableEq

structure ResultEvent where
  service : Str
  backendIndex : Nat
  status : Option Nat
  error : Option ProxyErrorKind
  headLatency : Duration
  deriving DecidableEq

/-- The trait `Balancer`, with its default (empty) `on_start` and `on_result`. -/
class Balancer (σ : Type) where
  pick : σ → BalanceCtx → Option Nat × σ
  onStart : σ → StartEvent → σ := fun s _ => s
  onResult : σ → ResultEvent → σ := fun s _ => s

/-! ## Round robin -/

structure RoundRobin where
  next : UInt64
  deriving DecidableEq

namespace RoundRobin

def new : RoundRobin := ⟨0⟩

def pick (s : RoundRobin) (ctx : BalanceCtx) : Option Nat × RoundRobin :=
  let len := ctx.candidateLen
  if len = 0 then (none, s)
  else
    -- `fetch_add` wraps around
    let pos := s.next.toNat % len
    (ctx.candidateIndex pos, { s with next := s.next + 1 })

end RoundRobin

instance : Balancer RoundRobin where
  pick := RoundRobin.pick

/-! ## Consistent hash -/

/-- How `jump_consistent_hash` ends: with a bucket, with an `i64` overflow, or not within its fuel. -/
inductive Jump where
  | bucket (b : Int)
  | overflow
  | diverged
  deriving DecidableEq

/-- A value that fits an `i64`. -/
def i64? (x : Int) : Option Int := if -2 ^ 63 ≤ x ∧ x < 2 ^ 63 then some x else none

/-- The step of the linear congruential generator. -/
def nextKey (key : UInt64) : UInt64 := key * 2862933555777941757 + 1

/-- `((b + 1) * (1_i64 << 31)) / (((key >> 33) + 1) as i64)`, checking every `i64` operation. -/
def nextJump (key : UInt64) (b : Int) : Option Int := do
  let b1 ← i64? (b + 1)
  let numerator ← i64? (b1 * 2 ^ 31)
  i64? (numerator.tdiv (((key >>> 33) + 1).toNat : Int))

/-- The `while` loop; `fuel` bounds its iterations. -/
def jumpLoop (buckets : Int) : Nat → UInt64 → Int → Int → Jump
  | 0, _, b, j => if j < buckets then .diverged else .bucket b
  | fuel + 1, key, b, j =>
      -- `b` keeps the last position below `buckets`
      if j < buckets then
        match nextJump (nextKey key) j with
        | none => .overflow
        | some j' => jumpLoop buckets fuel (nextKey key) j j'
      else .bucket b

/-- `jump_consistent_hash` for a non-zero number of buckets. -/
def jumpConsistentHash (fuel : Nat) (key : UInt64) (buckets : Nat) : Jump :=
  jumpLoop (Int.bmod buckets (2 ^ 64)) fuel key (-1) 0

structure ConsistentHash where
  offset : UInt64
  deriving DecidableEq

namespace ConsistentHash

def new : ConsistentHash := ⟨0⟩

/-- `pick_candidate`: as many loop iterations as there are candidates are always enough. -/
def pickCandidate (hash : UInt64) (ctx : BalanceCtx) : Option Nat :=
  if ctx.candidateLen = 0 then none
  else
    match jumpConsistentHash ctx.candidateLen hash ctx.candidateLen with
    | .bucket b => ctx.candidateIndex b.toNat
    | .overflow | .diverged => none

/-- `usize::is_power_of_two`. -/
def isPowerOfTwo (n : Nat) : Bool := n != 0 && (n &&& (n - 1)) == 0

def pick (xxh3 : Str → UInt64) (s : ConsistentHash) (ctx : BalanceCtx) : Option Nat × ConsistentHash :=
  let candidateLen := ctx.candidateLen
  if candidateLen = 0 then (none, s)
  else
    match ctx.affinity with
    | some key => (pickCandidate (xxh3 key) ctx, s)
    | none =>
        let n := s.offset.toNat
        let nth := if isPowerOfTwo candidateLen then n &&& (candidateLen - 1) else n % candidateLen
        (ctx.candidateIndex nth, { s with offset := s.offset + 1 })

end ConsistentHash

/-! ## Least request and least time

Both keep one number per backend in an array that the first `pick` creates with the length of its pool, and
scan the candidates from a rotating offset for the first smallest number. -/

/-- The array behind the `OnceLock`: created once, with the length of the pool at hand. -/
def getOrInit (cells : Option (List UInt64)) (poolLen : Nat) : List UInt64 :=
  cells.getD (List.replicate poolLen 0)

/-- One iteration of the scan: `best` is `(best_index, best_count)`. -/
def leastStep (ctx : BalanceCtx) (cells : List UInt64) (offset : UInt64)
    (best : Option Nat × UInt64) (i : Nat) : Option Nat × UInt64 :=
  let nth := (offset + UInt64.ofNat i).toNat % ctx.candidateLen
  match ctx.candidateIndex nth with
  | some idx =>
      -- a backend outside the array counts as idle
      let count := cells[idx]?.getD 0
      if count < best.2 then (some idx, count) else best
  | none => best

/-- The scan; the best number so far starts at the type's maximum. -/
def pickLeast (ctx : BalanceCtx) (cells : List UInt64) (offset : UInt64) : Option Nat :=
  ((List.range ctx.candidateLen).foldl (leastStep ctx cells offset) (none, 18446744073709551615)).1

/-- Prefers the backend with the fewest in-flight requests. -/
structure LeastRequest where
  inFlight : Option (List UInt64)
  offset : UInt64
  deriving DecidableEq

namespace LeastRequest

def new : LeastRequest := ⟨none, 0⟩

def pick (s : LeastRequest) (ctx : BalanceCtx) : Option Nat × LeastRequest :=
  if ctx.candidateLen = 0 then (none, s)
  else
    let counters := getOrInit s.inFlight ctx.pool.len
    (pickLeast ctx counters s.offset, ⟨some counters, s.offset + 1⟩)

/-- Without an array, or with an index outside it, nothing is counted. -/
def onStart (s : LeastRequest) (event : StartEvent) : LeastRequest :=
  { s with inFlight := s.inFlight.map (fun counters => counters.modify event.backendIndex (· + 1)) }

def onResult (s : LeastRequest) (event : ResultEvent) : LeastRequest :=
  { s with inFlight := s.inFlight.map (fun counters => counters.modify event.backendIndex (· - 1)) }

end LeastRequest

instance : Balancer LeastRequest where
  pick := LeastRequest.pick
  onStart := LeastRequest.onStart
  onResult := LeastRequest.onResult

/-- Prefers the backend with the lowest observed response latency. -/
structure LeastTime where
  ewmaUs : Option (List UInt64)
  offset : UInt64
  deriving DecidableEq

namespace LeastTime

def new : LeastTime := ⟨none, 0⟩

def ewmaWeight : UInt64 := 10

/-- The update rule of one slot. -/
def ewma (old sample : UInt64) : UInt64 :=
  if old = 0 then sample else old - old / ewmaWeight + sample / ewmaWeight

def pick (s : LeastTime) (ctx : BalanceCtx) : Option Nat × LeastTime :=
  if ctx.candidateLen = 0 then (none, s)
  else
    let latencies := getOrInit s.ewmaUs ctx.pool.len
    (pickLeast ctx latencies s.offset, ⟨some latencies, s.offset + 1⟩)

/-- Failures are not recorded; the loop's successful exchange applies the rule to the value it replaces. -/
def onResult (s : LeastTime) (event : ResultEvent) : LeastTime :=
  if event.error.isSome then s
  else
    let sample := UInt64.ofNat event.headLatency.asMicros
    { s with ewmaUs := s.ewmaUs.map (fun cells => cells.modify event.backendIndex (ewma · sample)) }

end LeastTime

instance : Balancer LeastTime where
  pick := LeastTime.pick
  onResult := LeastTime.onResult

end Apigate
