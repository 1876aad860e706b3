import Apigate.Balancing

/-!
# `Correctness.JumpHash` — jump consistent hashing with integer division

One loop iteration replaces `j` by a strictly larger value without leaving `i64` (`nextJump_spec`), so a run for
`n` buckets needs at most `n` iterations (`jumpLoop_spec`). The sequence of jumps depends on the key alone, and
the result for `n` buckets is its last element below `n`: the run for more buckets goes through the same
elements first (`jumpLoop_extend`).

A jump multiplies `b + 1` by `2^31` and divides by a number that is drawn from the key, between `1` and `2^31`.
The first bound keeps the quotient within `i64`, the second makes it at least `b + 1`; and as positions stay
below `2^32`, the product does not overflow either. This is the only arithmetic there is. Everything else is
about when the loop stops, and the number of buckets enters nowhere but there. With fuel for each position that
is left, the induction is on the fuel, and `jumpLoop_spec` has both of its exits.

For the balancer the candidates are a list and the bucket is a position in it, so that appending candidates is
the same as adding buckets.
-/

namespace Apigate
open Lib

/-! ## The loop

First one jump, then a run, then two runs with the same key. -/

/-- Within the bounds there is no overflow. -/
theorem i64?_of_bounds {x : Int} (h0 : 0 ≤ x) (h1 : x < 2 ^ 63) : i64? x = some x := by
  unfold i64?
  rw [if_pos ⟨by omega, h1⟩]

/-- The divisor of a jump: between `1` and `2^31`. -/
theorem divisor_bounds (key : UInt64) :
    1 ≤ ((key >>> 33) + 1).toNat ∧ ((key >>> 33) + 1).toNat ≤ 2 ^ 31 := by
  have hkey : key.toNat < 2 ^ 64 := key.toNat_lt
  have hshift : (key >>> 33).toNat = key.toNat / 2 ^ 33 := by
    rw [UInt64.toNat_shiftRight, Nat.shiftRight_eq_div_pow]
    rfl
  rw [UInt64.toNat_add, hshift]
  have hone : (1 : UInt64).toNat = 1 := rfl
  rw [hone, Nat.mod_eq_of_lt (by omega)]
  omega

/-- **One jump.** From `b` below `2^32 - 1` the next position is past `b`, and nothing overflows. -/
theorem nextJump_spec (key : UInt64) {b : Int} (h0 : 0 ≤ b) (h1 : b + 1 < 2 ^ 32) :
    ∃ j, nextJump key b = some j ∧ b < j := by
  obtain ⟨hd1, hd2⟩ := divisor_bounds key
  generalize hd : ((key >>> 33) + 1).toNat = d at hd1 hd2
  have hnum : 0 ≤ (b + 1) * 2 ^ 31 := by omega
  -- dividing by at most `2^31` undoes no more than the factor
  have hjump : b + 1 ≤ (b + 1) * 2 ^ 31 / (d : Int) := by
    rw [Int.le_ediv_iff_mul_le (by omega)]
    exact Int.mul_le_mul_of_nonneg_left (by omega) (by omega)
  have hsmall : (b + 1) * 2 ^ 31 / (d : Int) ≤ (b + 1) * 2 ^ 31 := Int.ediv_le_self _ hnum
  refine ⟨(b + 1) * 2 ^ 31 / (d : Int), ?_, by omega⟩
  unfold nextJump
  rw [i64?_of_bounds (by omega) (by omega), hd]
  simp only [Option.bind_eq_bind, Option.bind_some]
  rw [i64?_of_bounds hnum (by omega), Option.bind_some, Int.tdiv_eq_ediv_of_nonneg hnum]
  exact i64?_of_bounds (by omega) (by omega)

/-- **A run of the loop.** With as much fuel as there are positions left, it ends without overflow, at `b` when
    the jump is already past the buckets and at a position from `j` on otherwise. -/
theorem jumpLoop_spec {buckets : Int} (hb : buckets < 2 ^ 32) {fuel : Nat} {key : UInt64} {b j : Int}
    (hj : 0 ≤ j) (hfuel : buckets - j ≤ fuel) :
    ∃ r, jumpLoop buckets fuel key b j = .bucket r ∧
      (buckets ≤ j → r = b) ∧ (j < buckets → j ≤ r ∧ r < buckets) := by
  induction fuel generalizing key b j with
  | zero =>
      have hge : buckets ≤ j := by omega
      exact ⟨b, by rw [jumpLoop, if_neg (by omega)], fun _ => rfl, fun h => by omega⟩
  | succ fuel ih =>
      by_cases hlt : j < buckets
      · obtain ⟨j', hnext, hj'⟩ := nextJump_spec (nextKey key) hj (by omega)
        obtain ⟨r, hr, hdone, hmore⟩ := @ih (nextKey key) j j' (by omega) (by omega)
        -- the jump lands below the buckets and the loop goes on, or past them and it ends
        refine ⟨r, ?_, fun h => by omega, fun _ => ?_⟩
        · rw [jumpLoop, if_pos hlt, hnext]
          exact hr
        · by_cases hend : j' < buckets
          · have := hmore hend
            omega
          · have := hdone (by omega)
            omega
      · exact ⟨b, by rw [jumpLoop, if_neg hlt], fun _ => rfl, fun h => absurd h hlt⟩

/-- A run that starts at a jump past `n` stays where it was or ends past `n`. -/
theorem jumpLoop_past {n m : Int} (hm : m < 2 ^ 32) {fuel : Nat} {key : UInt64} {b j r : Int}
    (hj : 0 ≤ j) (hn : n ≤ j) (hfuel : m - j ≤ fuel) (hr : jumpLoop m fuel key b j = .bucket r) :
    r = b ∨ n ≤ r := by
  obtain ⟨s, hs, hdone, hmore⟩ := @jumpLoop_spec m hm fuel key b j hj hfuel
  rw [hr] at hs
  cases hs
  by_cases hend : j < m
  · have := hmore hend
    omega
  · exact Or.inl (hdone (by omega))

/-- **More buckets, same jumps.** The run for `m` buckets ends where the run for `n` does, or past `n`. -/
theorem jumpLoop_extend {n m : Int} (hnm : n ≤ m) (hm : m < 2 ^ 32) {fuel fuel' : Nat} {key : UInt64}
    {b j r r' : Int} (hj : 0 ≤ j) (hfuel : m - j ≤ fuel')
    (hr : jumpLoop n fuel key b j = .bucket r) (hr' : jumpLoop m fuel' key b j = .bucket r') :
    r' = r ∨ n ≤ r' := by
  induction fuel generalizing key b j fuel' with
  | zero =>
      rw [jumpLoop] at hr
      by_cases hlt : j < n
      · rw [if_pos hlt] at hr
        cases hr
      · rw [if_neg hlt] at hr
        obtain rfl : b = r := Jump.bucket.inj hr
        exact jumpLoop_past hm hj (by omega) hfuel hr'
  | succ fuel ih =>
      rw [jumpLoop] at hr
      by_cases hlt : j < n
      · obtain ⟨j', hnext, hj'⟩ := nextJump_spec (nextKey key) hj (by omega)
        rw [if_pos hlt, hnext] at hr
        -- both runs make the same jump
        obtain ⟨fuel', rfl⟩ : ∃ f, fuel' = f + 1 := ⟨fuel' - 1, by omega⟩
        rw [jumpLoop, if_pos (by omega), hnext] at hr'
        exact ih (by omega) (by omega) hr hr'
      · rw [if_neg hlt] at hr
        obtain rfl : b = r := Jump.bucket.inj hr
        exact jumpLoop_past hm hj (by omega) hfuel hr'

/-! ## The function and the balancer

The loop starts at `-1` and `0`, which is where the bound on the fuel comes from. -/

/-- A bucket count below `2^32` is itself as an `i64`. -/
theorem buckets_as_i64 {n : Nat} (hn : n < 2 ^ 32) : Int.bmod n (2 ^ 64) = n :=
  Int.bmod_eq_of_le (by omega) (by omega)

/-- Enough fuel gives a bucket in range. -/
theorem jumpConsistentHash_spec {n : Nat} (h1 : 1 ≤ n) (hn : n < 2 ^ 32) {fuel : Nat} (hfuel : n ≤ fuel)
    (key : UInt64) : ∃ b : Nat, b < n ∧ jumpConsistentHash fuel key n = .bucket b := by
  obtain ⟨r, hr, -, hmore⟩ := @jumpLoop_spec n (by omega) fuel key (-1) 0 (by omega) (by omega)
  obtain ⟨h0, hlt⟩ := hmore (by omega)
  refine ⟨r.toNat, by omega, ?_⟩
  unfold jumpConsistentHash
  rw [buckets_as_i64 hn, hr, Int.toNat_of_nonneg h0]

/-- Any two amounts of fuel that are enough give the same bucket. -/
theorem jumpConsistentHash_fuel {n : Nat} (h1 : 1 ≤ n) (hn : n < 2 ^ 32) {fuel fuel' : Nat}
    (hfuel : n ≤ fuel) (hfuel' : n ≤ fuel') (key : UInt64) :
    jumpConsistentHash fuel key n = jumpConsistentHash fuel' key n := by
  obtain ⟨b, hb, hr⟩ := jumpConsistentHash_spec h1 hn hfuel key
  obtain ⟨c, hc, hr'⟩ := jumpConsistentHash_spec h1 hn hfuel' key
  unfold jumpConsistentHash at hr hr' ⊢
  rw [buckets_as_i64 hn] at hr hr' ⊢
  have hsame := jumpLoop_extend (Int.le_refl _) (by omega) (Int.le_refl 0) (by omega) hr hr'
  rw [hr, hr']
  congr 1
  omega

/-- **Growing from `n` to `m` buckets** keeps a key where it is or moves it to a new bucket. -/
theorem jumpConsistentHash_extend {n m : Nat} (hnm : n ≤ m) (hm : m < 2 ^ 32)
    (key : UInt64) {b c : Nat} (hb : jumpConsistentHash n key n = .bucket b)
    (hc : jumpConsistentHash m key m = .bucket c) : c = b ∨ n ≤ c := by
  unfold jumpConsistentHash at hb hc
  rw [buckets_as_i64 (by omega)] at hb hc
  have := jumpLoop_extend (Int.ofNat_le.mpr hnm) (by omega) (Int.le_refl 0) (by omega) hb hc
  omega

namespace ConsistentHash

/-- With a key, `pick` answers from the candidate list at the key's bucket and leaves the counter alone. -/
theorem pick_keyed (xxh3 : Str → UInt64) (s : ConsistentHash) {ctx : BalanceCtx} {k : AffinityKey}
    (hk : ctx.affinity = some k) (h1 : 1 ≤ ctx.candidateLen) (h2 : ctx.candidateLen < 2 ^ 32) :
    ∃ b, ∃ hb : b < ctx.candidateList.length,
      jumpConsistentHash ctx.candidateLen (xxh3 k) ctx.candidateLen = .bucket b ∧
      pick xxh3 s ctx = (some (ctx.candidateList[b]), s) := by
  obtain ⟨b, hb, hjump⟩ := jumpConsistentHash_spec h1 h2 (le_refl _) (xxh3 k)
  refine ⟨b, by rw [BalanceCtx.length_candidateList]; exact hb, hjump, ?_⟩
  have hne : ¬ ctx.candidateLen = 0 := by omega
  simp only [pick, pickCandidate, hk, if_neg hne, hjump, BalanceCtx.candidateIndex_eq, Int.toNat_natCast]
  rw [List.getElem?_eq_getElem]

/-- **Minimal movement of `pick`.** Appending candidates keeps a keyed request on its candidate or moves it to
    an appended one. -/
theorem pick_extend (xxh3 : Str → UInt64) (s s' : ConsistentHash) {ctx ctx' : BalanceCtx}
    {k : AffinityKey} {extra : List Nat} (hk : ctx.affinity = some k) (hk' : ctx'.affinity = some k)
    (hext : ctx'.candidateList = ctx.candidateList ++ extra) (h1 : 1 ≤ ctx.candidateLen)
    (h2 : ctx'.candidateLen < 2 ^ 32) :
    ∃ i ∈ ctx.candidateList, (pick xxh3 s ctx).1 = some i ∧
      ((pick xxh3 s' ctx').1 = some i ∨ ∃ j ∈ extra, (pick xxh3 s' ctx').1 = some j) := by
  have hlen : ctx'.candidateLen = ctx.candidateLen + extra.length := by
    rw [← BalanceCtx.length_candidateList, hext, List.length_append, BalanceCtx.length_candidateList]
  obtain ⟨b, hb, hjump, hpick⟩ := pick_keyed xxh3 s hk h1 (by omega)
  obtain ⟨c, hc, hjump', hpick'⟩ := pick_keyed xxh3 s' hk' (by omega) h2
  refine ⟨_, List.getElem_mem hb, by rw [hpick], ?_⟩
  rw [hpick']
  simp only [hext]
  rcases jumpConsistentHash_extend (by omega) h2 (xxh3 k) hjump hjump' with rfl | hge
  · left
    rw [List.getElem_append_left hb]
  · right
    rw [← BalanceCtx.length_candidateList] at hge
    refine ⟨_, List.getElem_mem (n := c - ctx.candidateList.length) ?_, ?_⟩
    · rw [hext, List.length_append] at hc
      omega
    · rw [List.getElem_append_right hge]

end ConsistentHash

/-- Appending to a pool appends its new indices to the candidates `All`. -/
theorem candidateList_append {ctx ctx' : BalanceCtx} {fresh : List Backend} (hall : ctx.candidates = .all)
    (hall' : ctx'.candidates = .all) (hpool : ctx'.pool.backends = ctx.pool.backends ++ fresh) :
    ctx'.candidateList = ctx.candidateList ++ (List.range fresh.length).map (ctx.pool.len + ·) := by
  unfold BalanceCtx.candidateList
  rw [hall, hall']
  simp only [BackendPool.len, hpool, List.length_append]
  rw [List.range_add]

/-- **Consistent hashing moves as few keys as possible.** For every key and `1 ≤ n ≤ m < 2^32` the loop
    terminates without overflow, in `0..n-1`; the result for `m` is the same or in `n..m-1`. So when backends
    are appended to a pool, or removed from its end, a keyed request stays where it is unless it moves to an
    appended backend, or was on a removed one. -/
theorem jump_hash_moves_few_keys :
    (∀ (key : UInt64) (n m : Nat), 1 ≤ n → n ≤ m → m < 2 ^ 32 →
      ∃ b c : Nat, b < n ∧ (c = b ∨ n ≤ c ∧ c < m) ∧
        (∀ fuel, n ≤ fuel → jumpConsistentHash fuel key n = .bucket b) ∧
        (∀ fuel, m ≤ fuel → jumpConsistentHash fuel key m = .bucket c)) ∧
    (∀ (xxh3 : Str → UInt64) (s s' : ConsistentHash) (ctx ctx' : BalanceCtx) (k : AffinityKey)
      (fresh : List Backend), ctx.affinity = some k → ctx'.affinity = some k →
      ctx.candidates = .all → ctx'.candidates = .all →
      ctx'.pool.backends = ctx.pool.backends ++ fresh → 1 ≤ ctx.pool.len → ctx'.pool.len < 2 ^ 32 →
      ∃ i, i < ctx.pool.len ∧ (ConsistentHash.pick xxh3 s ctx).1 = some i ∧
        ((ConsistentHash.pick xxh3 s' ctx').1 = some i ∨
          ∃ j, ctx.pool.len ≤ j ∧ j < ctx'.pool.len ∧
            (ConsistentHash.pick xxh3 s' ctx').1 = some j)) := by
  constructor
  · intro key n m h1 hnm hm
    obtain ⟨b, hb, hrb⟩ := jumpConsistentHash_spec h1 (by omega) (le_refl n) key
    obtain ⟨c, hc, hrc⟩ := jumpConsistentHash_spec (by omega) hm (le_refl m) key
    have hmove := jumpConsistentHash_extend hnm hm key hrb hrc
    refine ⟨b, c, hb, by omega, fun fuel hfuel => ?_, fun fuel hfuel => ?_⟩
    · rw [← hrb]
      exact jumpConsistentHash_fuel h1 (by omega) hfuel (le_refl n) key
    · rw [← hrc]
      exact jumpConsistentHash_fuel (by omega) hm hfuel (le_refl m) key
  · intro xxh3 s s' ctx ctx' k fresh hk hk' hall hall' hpool h1 h2
    have hlen : ctx.candidateLen = ctx.pool.len := by rw [BalanceCtx.candidateLen, hall]
    have hlen' : ctx'.candidateLen = ctx'.pool.len := by rw [BalanceCtx.candidateLen, hall']
    have hgrow : ctx'.pool.len = ctx.pool.len + fresh.length := by
      simp [BackendPool.len, hpool]
    obtain ⟨i, hi, hpick, hmove⟩ := ConsistentHash.pick_extend xxh3 s s' hk hk'
      (candidateList_append hall hall' hpool) (by omega) (by omega)
    refine ⟨i, ?_, hpick, hmove.imp_right ?_⟩
    · simpa [BalanceCtx.candidateList, hall] using hi
    · rintro ⟨j, hj, hpick'⟩
      obtain ⟨d, hd, rfl⟩ := List.mem_map.mp hj
      have := List.mem_range.mp hd
      exact ⟨_, by omega, by omega, hpick'⟩

/-- A keyed request to a pool of backends with the given hosts. -/
def keyedCtx (hosts : List Str) : BalanceCtx :=
  ⟨str "sales", some (str "user-1"), ⟨hosts.map fun host => ⟨⟨str "http", host, str "http://" ++ host, host⟩⟩⟩, .all⟩

/-- The theorem at one key, growing three buckets to five, and at a pool that grows from two to three. -/
theorem jump_hash_moves_few_keys_five :
    (∃ b c : Nat, b < 3 ∧ (c = b ∨ 3 ≤ c ∧ c < 5) ∧
      jumpConsistentHash 3 42 3 = .bucket b ∧ jumpConsistentHash 5 42 5 = .bucket c) ∧
    ∃ i, i < 2 ∧ (ConsistentHash.pick (fun _ => 42) .new (keyedCtx [str "a", str "b"])).1 = some i ∧
      ((ConsistentHash.pick (fun _ => 42) .new (keyedCtx [str "a", str "b", str "c"])).1 = some i ∨
        ∃ j, 2 ≤ j ∧ j < 3 ∧
          (ConsistentHash.pick (fun _ => 42) .new (keyedCtx [str "a", str "b", str "c"])).1 = some j) := by
  obtain ⟨b, c, hb, hc, hrb, hrc⟩ := jump_hash_moves_few_keys.1 42 3 5 (by decide) (by decide) (by decide)
  refine ⟨⟨b, c, hb, hc, hrb 3 (by decide), hrc 5 (by decide)⟩, ?_⟩
  exact jump_hash_moves_few_keys.2 (fun _ => 42) .new .new (keyedCtx [str "a", str "b"])
    (keyedCtx [str "a", str "b", str "c"]) (str "user-1") _ rfl rfl rfl rfl rfl (by decide) (by decide)

end Apigate
