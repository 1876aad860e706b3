import Apigate.Policy
import Apigate.Lib.Machine

/-!
# `Correctness.HashFallback` — without an affinity key, consistent hashing is round robin

The fallback of `ConsistentHash` masks the counter for a power of two and divides it otherwise; both are the
remainder that `RoundRobin` takes (`nth_eq_mod`). A context with a key leaves the counter alone, so the two
balancers agree on the contexts without one, in every run.
-/

namespace Apigate
open Lib Machine

/-- The context has no affinity key. -/
def BalanceCtx.keyless (ctx : BalanceCtx) : Bool := ctx.affinity.isNone

namespace ConsistentHash

/-- The mask of a power of two is its remainder. -/
theorem nth_eq_mod (n len : Nat) : (if isPowerOfTwo len then n &&& (len - 1) else n % len) = n % len := by
  by_cases h : isPowerOfTwo len = true
  · have hpow : len.isPowerOfTwo := by
      apply Nat.ne_zero_and_sub_one_eq_zero_iff_isPowerOfTwo.mp
      simpa [isPowerOfTwo] using h
    obtain ⟨k, rfl⟩ := hpow
    rw [if_pos h, Nat.and_two_pow_sub_one_eq_mod]
  · rw [if_neg h]

/-- A pick without a key is the pick of round robin at the same counter. -/
theorem pick_without_key (xxh3 : Str → UInt64) (n : UInt64) {ctx : BalanceCtx} (h : ctx.keyless = true) :
    (pick xxh3 ⟨n⟩ ctx).1 = (RoundRobin.pick ⟨n⟩ ctx).1 ∧
      (pick xxh3 ⟨n⟩ ctx).2.offset = (RoundRobin.pick ⟨n⟩ ctx).2.next := by
  have hkey : ctx.affinity = none := Option.isNone_iff_eq_none.mp h
  unfold pick RoundRobin.pick
  by_cases hlen : ctx.candidateLen = 0
  · simp only [hlen, if_true, and_self]
  · simp only [if_neg hlen, hkey, nth_eq_mod, and_self]

/-- A pick with a key neither reads nor changes the counter. -/
theorem pick_with_key (xxh3 : Str → UInt64) (s : ConsistentHash) {ctx : BalanceCtx} {key : AffinityKey}
    (h : ctx.affinity = some key) : pick xxh3 s ctx = (pickCandidate (xxh3 key) ctx, s) := by
  unfold pick pickCandidate
  by_cases hlen : ctx.candidateLen = 0
  · simp only [hlen, if_true]
  · simp only [if_neg hlen, h]

end ConsistentHash

/-- **The fallback is round robin.** For every sequence of contexts, with a key or without, and every counter
    value that both start with: the picks on the contexts without a key are those of `RoundRobin` on these
    contexts alone, and the counters end up equal. A pick with a key does not advance the counter and does not
    depend on it. -/
theorem hash_fallback_is_round_robin (xxh3 : Str → UInt64) (n : UInt64) (ctxs : List BalanceCtx) :
    answersAt (ConsistentHash.pick xxh3) BalanceCtx.keyless ⟨n⟩ ctxs =
        answers RoundRobin.pick ⟨n⟩ (ctxs.filter BalanceCtx.keyless) ∧
      (after (ConsistentHash.pick xxh3) ⟨n⟩ ctxs).offset =
        (after RoundRobin.pick ⟨n⟩ (ctxs.filter BalanceCtx.keyless)).next ∧
      ∀ (ctx : BalanceCtx) (key : AffinityKey), ctx.affinity = some key → ∀ s s' : ConsistentHash,
        (ConsistentHash.pick xxh3 s ctx).2 = s ∧
          (ConsistentHash.pick xxh3 s ctx).1 = (ConsistentHash.pick xxh3 s' ctx).1 := by
  have hsim := @answersAt_of_simulation _ _ _ _ (ConsistentHash.pick xxh3) RoundRobin.pick BalanceCtx.keyless
    (fun s t => s.offset = t.next) ?_ ?_ ⟨n⟩ ⟨n⟩ rfl ctxs
  · refine ⟨hsim.1, hsim.2, ?_⟩
    intro ctx key hkey s s'
    rw [ConsistentHash.pick_with_key xxh3 s hkey, ConsistentHash.pick_with_key xxh3 s' hkey]
    exact ⟨rfl, rfl⟩
  · rintro ⟨m⟩ ⟨_⟩ ctx rfl hkeyless
    exact ConsistentHash.pick_without_key xxh3 m hkeyless
  · rintro s t ctx hsame hkeyless
    obtain ⟨key, hkey⟩ := Option.isSome_iff_exists.mp (Option.isNone_eq_false_iff.mp hkeyless)
    rw [ConsistentHash.pick_with_key xxh3 s hkey]
    exact hsame

/-! ## An example -/

/-- A pool of three backends, a key, and two of the backends. -/
def mixedContexts : List BalanceCtx :=
  let pool : BackendPool := ⟨List.replicate 3 ⟨⟨str "http", str "up", str "http://up", str "up"⟩⟩⟩
  [⟨str "sales", none, pool, .all⟩, ⟨str "sales", some (str "7"), pool, .all⟩,
    ⟨str "sales", none, pool, .indices [2, 1]⟩]

/-- The theorem at these contexts, with the counter about to wrap around. -/
theorem hash_fallback_is_round_robin_wrapping :
    [some 0, some 2] = answers RoundRobin.pick ⟨18446744073709551615⟩
        (mixedContexts.filter BalanceCtx.keyless) ∧
      (1 : UInt64) = (after RoundRobin.pick ⟨18446744073709551615⟩ (mixedContexts.filter BalanceCtx.keyless)).next ∧
      ∀ s s' : ConsistentHash, ∀ ctx ∈ mixedContexts[1]?,
        (ConsistentHash.pick Xxh3.length.xxh3 s ctx).2 = s ∧
          (ConsistentHash.pick Xxh3.length.xxh3 s ctx).1 = (ConsistentHash.pick Xxh3.length.xxh3 s' ctx).1 := by
  obtain ⟨hanswers, hcounter, hkeyed⟩ :=
    hash_fallback_is_round_robin Xxh3.length.xxh3 18446744073709551615 mixedContexts
  refine ⟨hanswers, hcounter, ?_⟩
  intro s s' ctx hctx
  have hkey : ctx.affinity = some (str "7") := by
    cases hctx
    rfl
  exact hkeyed ctx (str "7") hkey s s'

end Apigate
