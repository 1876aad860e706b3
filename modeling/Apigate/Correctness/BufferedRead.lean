import Apigate.Correctness.ClientHop
import Apigate.Correctness.PipelineSpec

/-!
# `Correctness.BufferedRead` — what a buffered read says of the body

`read_body_bytes` reports every failure of `to_bytes` as a body that is too large. A stream that breaks within
the limit is reported so as well; apart from that, a read says what happened (`buffered_read_classifies_iff`),
and after a failed one there is nothing left to read.

The library is asked for one thing, and that is what its documentation says: all bytes up to the limit, and an
error for a longer body or a broken stream (`BuffersBodies`). With it the read is decided by two facts about the
body, its length and its end. Three of the four combinations are classified rightly. The fourth, short and
broken, gives the error of a long body, so the condition is that it is not this one, and both directions are
immediate.

More work is in what comes before and after. Before the read, hooks may have done anything that leaves the body
in place; that they have neither cached bytes nor changed the limit is shown backwards from the scope that they
leave (`applyOps_held`). After a failed read the scope has neither body nor bytes, no operation can bring either
back (`UserOp.apply_drained`), and so every later read fails too.
-/

namespace Apigate
open Lib

variable {V : Type}

/-- What `to_bytes` promises: all bytes up to the limit, an error above it, and the stream's own error. -/
structure Crates.BuffersBodies (crates : Crates V) : Prop where
  complete : ∀ body limit, body.failed = false → body.bytes.length ≤ limit →
    crates.toBytes body limit = .ok body.bytes
  tooLong : ∀ body limit, limit < body.bytes.length → ∃ err, crates.toBytes body limit = .error err
  broken : ∀ body limit, body.failed = true → body.bytes.length ≤ limit →
    ∃ err, crates.toBytes body limit = .error err

/-- So it returns all bytes or an error, and the bytes exactly for a whole body within the limit. -/
theorem Crates.BuffersBodies.toBytes_ok_iff {crates : Crates V} (h : crates.BuffersBodies) {body : Body}
    {limit : Nat} {bytes : Str} :
    crates.toBytes body limit = .ok bytes ↔
      body.failed = false ∧ body.bytes.length ≤ limit ∧ bytes = body.bytes := by
  constructor
  · intro hok
    rcases Nat.lt_or_ge limit body.bytes.length with hlong | hshort
    · obtain ⟨err, herr⟩ := h.tooLong body limit hlong
      rw [herr] at hok
      cases hok
    · cases hfailed : body.failed with
      | true =>
          obtain ⟨err, herr⟩ := h.broken body limit hfailed hshort
          rw [herr] at hok
          cases hok
      | false =>
          rw [h.complete body limit hfailed hshort] at hok
          exact ⟨rfl, hshort, (Except.ok.inj hok).symm⟩
  · rintro ⟨hfailed, hshort, rfl⟩
    exact h.complete body limit hfailed hshort

/-! ## One read

The function by cases on the body it finds. -/

/-- The read of a body that is still there. -/
theorem RequestScope.readBodyBytes_held (crates : Crates V) {scope : RequestScope V} {incoming : Body}
    (h : scope.body = some incoming) :
    scope.readBodyBytes crates =
      match crates.toBytes incoming scope.bodyLimit with
      | .error err => (.error (.ofPipeline (.requestBodyTooLarge err)), { scope with body := none })
      | .ok bytes => (.ok bytes, { scope with body := none, rawBody := some bytes }) := by
  unfold readBodyBytes
  cases hread : crates.toBytes incoming scope.bodyLimit with
  | error err => simp only [h, hread]
  | ok bytes => simp only [h, hread]

/-- The read of a body that is gone. -/
theorem RequestScope.readBodyBytes_gone {crates : Crates V} {scope : RequestScope V} (h : scope.body = none) :
    scope.readBodyBytes crates = (.error (.ofPipeline .requestBodyAlreadyConsumed), scope) := by
  unfold readBodyBytes
  rw [h]

/-! ## The body over a run of operations

Two invariants of the scope. The first is read backwards: from a body that is still there to what has been
before. -/

/-- An operation that leaves the body in place has not read it. -/
theorem UserOp.apply_held {crates : Crates V} {env : Env V} {op : UserOp V} {body : Body}
    (h : (op.apply crates env).scope.body = some body) :
    env.scope.body = some body ∧ (op.apply crates env).scope.rawBody = env.scope.rawBody ∧
      (op.apply crates env).scope.bodyLimit = env.scope.bodyLimit := by
  cases op with
  | takeBody => cases h
  | readBodyBytes =>
      simp only [UserOp.apply] at h ⊢
      cases hbody : env.scope.body with
      | none =>
          rw [RequestScope.readBodyBytes_gone hbody] at h
          cases hbody.symm.trans h
      | some incoming =>
          rw [RequestScope.readBodyBytes_held crates hbody] at h
          split at h <;> cases h
  | take ty =>
      simp only [UserOp.apply, RequestScope.take_eq, and_true] at h ⊢
      exact h
  | getMut ty f =>
      obtain ⟨extensions, hscope⟩ := env.scope.getMut_eq ty f
      simp only [UserOp.apply, hscope, and_true] at h ⊢
      exact h
  | _ => exact ⟨h, rfl, rfl⟩

/-- Nor has a list of operations that leaves it in place. -/
theorem applyOps_held {crates : Crates V} {env : Env V} {ops : List (UserOp V)} {body : Body}
    (h : (applyOps crates env ops).scope.body = some body) :
    (applyOps crates env ops).scope.rawBody = env.scope.rawBody ∧
      (applyOps crates env ops).scope.bodyLimit = env.scope.bodyLimit := by
  induction ops using List.reverseRecOn with
  | nil => exact ⟨rfl, rfl⟩
  | append_singleton ops op ih =>
      unfold applyOps at h ih ⊢
      rw [List.foldl_append] at h ⊢
      obtain ⟨hbefore, hraw, hlimit⟩ := UserOp.apply_held h
      exact ⟨hraw.trans (ih hbefore).1, hlimit.trans (ih hbefore).2⟩

/-- Neither a body to read nor bytes that have been read. -/
def RequestScope.Drained (scope : RequestScope V) : Prop := scope.body = none ∧ scope.rawBody = none

/-- No operation brings anything back. -/
theorem UserOp.apply_drained {crates : Crates V} {env : Env V} (op : UserOp V) (h : env.scope.Drained) :
    (op.apply crates env).scope.Drained := by
  cases op with
  | takeBody => exact ⟨rfl, h.2⟩
  | readBodyBytes =>
      simp only [UserOp.apply, RequestScope.readBodyBytes_gone h.1]
      exact h
  | take ty =>
      simp only [UserOp.apply, RequestScope.take_eq]
      exact h
  | getMut ty f =>
      obtain ⟨extensions, hscope⟩ := env.scope.getMut_eq ty f
      simp only [UserOp.apply, hscope]
      exact h
  | _ => exact h

/-- Nor does a list of them. -/
theorem applyOps_drained {crates : Crates V} {env : Env V} (ops : List (UserOp V)) (h : env.scope.Drained) :
    (applyOps crates env ops).scope.Drained := by
  induction ops generalizing env with
  | nil => exact h
  | cons op ops ih => exact ih (op.apply_drained h)

/-! ## The main result -/

/-- What the read of a body says is right: it succeeds exactly on a whole body within the limit, with its bytes,
    which it caches; it reports a body that is too large only if more than the limit has been received; and
    after a failure no operation finds any bytes. -/
structure ClassifiesRead (crates : Crates V) (env : Env V) (incoming : Body) : Prop where
  ok_iff : (∃ bytes, (env.scope.readBodyBytes crates).1 = .ok bytes) ↔
    incoming.failed = false ∧ incoming.bytes.length ≤ env.scope.bodyLimit
  cached : ∀ bytes, (env.scope.readBodyBytes crates).1 = .ok bytes →
    bytes = incoming.bytes ∧ (env.scope.readBodyBytes crates).2.rawBody = some incoming.bytes
  tooLarge : ∀ details, (env.scope.readBodyBytes crates).1 = .error (.ofPipeline (.requestBodyTooLarge details)) →
    env.scope.bodyLimit < incoming.bytes.length
  drained : ∀ error, (env.scope.readBodyBytes crates).1 = .error error → ∀ later : List (UserOp V),
    let scope := (applyOps crates { env with scope := (env.scope.readBodyBytes crates).2 } later).scope
    scope.rawBodyCloned = none ∧ scope.takeBody.1 = none ∧ ∀ bytes, (scope.readBodyBytes crates).1 ≠ .ok bytes

section
variable {crates : Crates V} {env : Env V} {incoming : Body} (hbuffers : crates.BuffersBodies)
  (hheld : env.scope.body = some incoming)
include hbuffers hheld

/-- A read that succeeds is right. -/
theorem classifiesRead_of_ok {bytes : Str} (hbytes : crates.toBytes incoming env.scope.bodyLimit = .ok bytes) :
    ClassifiesRead crates env incoming := by
  obtain ⟨hfailed, hshort, rfl⟩ := hbuffers.toBytes_ok_iff.mp hbytes
  have hread := RequestScope.readBodyBytes_held crates hheld
  rw [hbytes] at hread
  constructor
  · rw [hread]
    exact iff_of_true ⟨_, rfl⟩ ⟨hfailed, hshort⟩
  · intro bytes hok
    rw [hread] at hok ⊢
    exact ⟨(Except.ok.inj hok).symm, rfl⟩
  · intro details herr
    rw [hread] at herr
    cases herr
  · intro error herr
    rw [hread] at herr
    cases herr

/-- A read that fails is right, unless the stream has broken within the limit. -/
theorem classifiesRead_of_error (hraw : env.scope.rawBody = none)
    (hgood : ¬ (incoming.failed = true ∧ incoming.bytes.length ≤ env.scope.bodyLimit)) {err : Str}
    (hbytes : crates.toBytes incoming env.scope.bodyLimit = .error err) : ClassifiesRead crates env incoming := by
  have hnot : ¬ (incoming.failed = false ∧ incoming.bytes.length ≤ env.scope.bodyLimit) := by
    rintro ⟨hfailed, hshort⟩
    rw [hbuffers.complete incoming _ hfailed hshort] at hbytes
    cases hbytes
  have hread := RequestScope.readBodyBytes_held crates hheld
  rw [hbytes] at hread
  constructor
  · rw [hread]
    refine iff_of_false ?_ hnot
    rintro ⟨bytes, hok⟩
    cases hok
  · intro bytes hok
    rw [hread] at hok
    cases hok
  · intro details _
    by_contra hshort
    cases hfailed : incoming.failed with
    | true => exact hgood ⟨hfailed, Nat.le_of_not_lt hshort⟩
    | false => exact hnot ⟨hfailed, Nat.le_of_not_lt hshort⟩
  · intro error _ later scope
    have hdrained : scope.Drained := by
      apply applyOps_drained
      rw [hread]
      exact ⟨rfl, hraw⟩
    refine ⟨hdrained.2, hdrained.1, ?_⟩
    intro bytes hok
    rw [RequestScope.readBodyBytes_gone hdrained.1] at hok
    cases hok

end

/-- **A read says what happened, except of a stream that breaks within the limit.** For every request body,
    every limit and all operations that leave the body in place: the read classifies its outcome rightly if and
    only if the body does not end in a transport error after at most `limit` bytes. -/
theorem buffered_read_classifies_iff {crates : Crates V} (hbuffers : crates.BuffersBodies) (ctx : PartsCtx V)
    (shared : Extensions V) (incoming : Body) (limit : Nat) {before : List (UserOp V)} {env : Env V}
    (hrun : applyOps crates ⟨ctx, .new shared incoming limit⟩ before = env)
    (hheld : env.scope.body = some incoming) :
    ClassifiesRead crates env incoming ↔ ¬ (incoming.failed = true ∧ incoming.bytes.length ≤ limit) := by
  have hkept : env.scope.rawBody = none ∧ env.scope.bodyLimit = limit := by
    rw [← hrun] at hheld ⊢
    exact applyOps_held hheld
  obtain ⟨hraw, rfl⟩ := hkept
  constructor
  · rintro hclassifies ⟨hfailed, hshort⟩
    obtain ⟨err, herr⟩ := hbuffers.broken incoming _ hfailed hshort
    have hread := RequestScope.readBodyBytes_held crates hheld
    rw [herr] at hread
    have hlong := hclassifies.tooLarge err (congrArg Prod.fst hread)
    exact absurd hshort (Nat.not_le.mpr hlong)
  · intro hgood
    cases hbytes : crates.toBytes incoming env.scope.bodyLimit with
    | ok bytes => exact classifiesRead_of_ok hbuffers hheld hbytes
    | error err => exact classifiesRead_of_error hbuffers hheld hraw hgood hbytes

/-! ## Examples -/

/-- Bodies that are read in one piece are buffered as asked. -/
theorem plain_buffersBodies : Crates.plain.BuffersBodies := by
  constructor
  · intro body limit hfailed hshort
    simp only [Crates.plain, hfailed, if_pos hshort, Bool.false_eq_true, if_false]
  · intro body limit hlong
    simp only [Crates.plain, if_neg (Nat.not_le.mpr hlong)]
    split <;> exact ⟨_, rfl⟩
  · intro body limit hfailed _
    simp only [Crates.plain, hfailed, if_true]
    exact ⟨_, rfl⟩

/-- A request body in two chunks, of which the stream may break after the second. -/
def twoChunks (failed : Bool) : Body := ⟨[str "ab", str "cd"], failed⟩

def itemsContext : PartsCtx Str := ⟨str "sales", str "/items", originParts⟩

/-- The theorem at a body of exactly `limit` bytes, after a hook has inserted a value. -/
theorem buffered_read_classifies_iff_four :
    ClassifiesRead .plain ⟨itemsContext, (RequestScope.new .empty (twoChunks false) 4).insert 0 (str "user")⟩
        (twoChunks false) ↔
      ¬ ((twoChunks false).failed = true ∧ (twoChunks false).bytes.length ≤ 4) :=
  buffered_read_classifies_iff plain_buffersBodies itemsContext .empty (twoChunks false) 4
    (show applyOps .plain _ [.insert 0 (str "user")] = _ from rfl) rfl

/-- **A stream that breaks within the limit** is reported as a body that is too large. -/
theorem broken_stream_too_large :
    ((RequestScope.new .empty (twoChunks true) 8).readBodyBytes .plain).1 =
        .error (.ofPipeline (.requestBodyTooLarge (str "transport error"))) ∧
      (twoChunks true).bytes.length = 4 ∧
      ¬ ClassifiesRead .plain ⟨itemsContext, .new .empty (twoChunks true) 8⟩ (twoChunks true) := by
  refine ⟨rfl, rfl, fun h => ?_⟩
  exact absurd (h.tooLarge (str "transport error") rfl) (by decide)

end Apigate
