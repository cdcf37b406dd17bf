import Yvex.Source.PayloadRanges
import Yvex.Source.PayloadStream

namespace Yvex.Source

open Interleaving List Yvex.Except
open Provider (Sha256Hex)

/-! # What a verification has read

A verification that succeeds has hashed every shard from its first byte to its last, whatever it
delivered on the way, and its sink has got the bytes of the selected tensors. -/

/-! ## Files that stay as they are -/

abbrev Files := Nat → Bytes

section

variable (file : Bytes)

def span (offset length : Nat) : Bytes := (file.drop offset).take length

theorem span_add (offset first second : Nat) :
    span file offset (first + second) = span file offset first ++ span file (offset + first)
      second := by
  rw [span, span, span, take_add, drop_drop]

theorem span_length_self (offset length : Nat) :
    span file offset length = span file offset (span file offset length).length := by
  rw [span, span, length_take, ← take_take, take_length]

def ReadsFrom (offset : Nat) {length : Nat}
    (got : Option { bytes : Bytes // bytes.length ≤ length }) : Prop :=
  ∀ bytes ∈ got, bytes.val = span file offset bytes.val.length

end

/-- The answers of a system on which the files do not change. A read gives a piece of the file of
any length. -/
def Truthful (files : Files) : ∀ query : Query, query.Answer → Prop
  | .inspect shardIndex, view =>
    (∀ stat ∈ view.descriptor, stat.identity.size = (files shardIndex).length) ∧
      ∀ stat closes, view.reopened = .opened (some stat) closes →
        stat.identity.size = (files shardIndex).length
  | .pread shardIndex offset _, got => ReadsFrom (files shardIndex) offset got
  | _, _ => True

abbrev Finishes (files : Files) (program : Program Session payloadInterface (Except Failure α))
    (session : Session) (asked : List Query) (result : Except Failure α) (final : Session) : Prop :=
  Program.Ends (I := payloadInterface) (Truthful files) program session asked result final

def Runs (files : Files) (call : Call α) (session : Session) (asked : List Query) (value : α)
    (final : Session) : Prop :=
  Finishes files call.run session asked (.ok value) final

def handed (asked : List Query) : List (Chunk × Bytes) :=
  asked.filterMap fun
    | .sinkChunk chunk bytes => some (chunk, bytes)
    | _ => none

@[simp] theorem handed_append (first second : List Query) :
    handed (first ++ second) = handed first ++ handed second := filterMap_append ..

def delivered (asked : List Query) (tensorIndex : Nat) : Bytes :=
  ((handed asked).filter fun (chunk, _) => chunk.sourceTensorIndex = tensorIndex).flatMap Prod.snd

/-! ## Parts of a successful call -/

variable {files : Files} {session final : Session} {asked : List Query} {value : β} {call : Call α}

theorem Runs.of_bind (runs : Runs files (call >>= continuation) session asked value final) :
    ∃ part middle first second, asked = first ++ second ∧
      Runs files call session first part middle ∧
      Runs files (continuation part) middle second value final := by
  obtain ⟨result, middle, first, second, split, left, right⟩ := Program.Ends.of_bind runs
  cases result with
  | ok part => exact ⟨part, middle, first, second, split, left, right⟩
  | error failure => cases right

theorem Runs.of_pure (runs : Runs files (pure result) session asked value final) :
    value = result ∧ final = session ∧ asked = [] := by
  obtain ⟨same, kept, silent⟩ := Program.Ends.of_done runs
  exact ⟨(Except.ok.inj same).symm, kept, silent⟩

variable {result : Except Failure α}

theorem Runs.of_lift
    (runs : Runs files (Call.lift result >>= continuation) session asked value final) :
    ∃ part, result = .ok part ∧ Runs files (continuation part) session asked value final := by
  obtain ⟨part, middle, first, second, rfl, left, right⟩ := runs.of_bind
  obtain ⟨same, rfl, rfl⟩ := Program.Ends.of_done left
  exact ⟨part, same, right⟩

theorem Runs.of_ask {continuation : query.Answer → Call β}
    (runs : Runs files (Call.ask query >>= continuation) session asked value final) :
    ∃ answer rest, Truthful files query answer ∧ asked = query :: rest ∧
      Runs files (continuation answer) session rest value final := by
  obtain ⟨part, middle, first, second, rfl, left, right⟩ := runs.of_bind
  cases left with
  | ask met rest =>
    obtain ⟨same, rfl, rfl⟩ := Program.Ends.of_done rest
    cases same
    exact ⟨part, second, met, rfl, right⟩

variable {label : Section}

theorem Runs.locked_eq {value : α}
    (runs : Runs files (Call.locked label body) session asked value final) :
    (body session).1 = .ok value ∧ final = (body session).2 ∧ asked = [] := by
  cases runs with
  | locked rest => exact Program.Ends.of_done rest

theorem Runs.of_locked
    (runs : Runs files (Call.locked label body >>= continuation) session asked value final) :
    ∃ part, (body session).1 = .ok part ∧
      Runs files (continuation part) (body session).2 asked value final := by
  obtain ⟨part, middle, first, second, rfl, left, right⟩ := runs.of_bind
  obtain ⟨same, rfl, rfl⟩ := left.locked_eq
  exact ⟨part, same, right⟩

variable {value : Unit}

theorem Runs.of_update {body : Session → Session}
    (runs : Runs files (Call.update body) session asked value final) :
    final = body session ∧ asked = [] := runs.locked_eq.2

theorem Runs.of_outcome (runs : Runs files call.outcome session asked result final) :
    Finishes files call.run session asked result final := by
  obtain ⟨part, middle, first, second, split, left, right⟩ := Program.Ends.of_bind runs
  cases right
  rwa [split, append_nil]

variable {failure : Failure}

theorem not_runs_fail {value : α} : ¬ Runs files (Call.fail failure) session asked value final := by
  intro runs
  cases (Program.Ends.of_done runs).1

/-! ## Reading -/

variable {shardIndex offset length : Nat} {bytes : Bytes} {result later : StreamResult}

theorem exactReadLoop_runs
    (runs : Runs files (exactReadLoop shardIndex offset length fuel completed result) session asked
      (bytes, later) final) (enough : length ≤ completed.length + fuel)
    (within : completed.length ≤ length)
    (so : completed = span (files shardIndex) offset completed.length) :
    bytes = span (files shardIndex) offset length ∧ bytes.length = length ∧ final = session ∧
      handed asked = [] := by
  induction fuel generalizing completed result session asked with
  | zero =>
    have full : completed.length = length := by omega
    obtain ⟨same, rfl, rfl⟩ := runs.of_pure
    cases same
    exact ⟨full ▸ so, full, rfl, rfl⟩
  | succ fuel induction => ?_
  rw [exactReadLoop] at runs
  split at runs
  · have full : completed.length = length := by omega
    obtain ⟨same, rfl, rfl⟩ := runs.of_pure
    cases same
    exact ⟨full ▸ so, full, rfl, rfl⟩
  obtain ⟨_, _, runs⟩ := runs.of_locked
  obtain ⟨_, _, runs⟩ := runs.of_lift
  obtain ⟨got, rest, truthful, reads, runs⟩ := runs.of_ask
  obtain ⟨piece, present, runs⟩ := runs.of_lift
  obtain ⟨_, nonempty, runs⟩ := runs.of_lift
  obtain ⟨_, _, runs⟩ := runs.of_lift
  have truth := truthful piece (orFail_eq_ok.mp present)
  have some : 0 < piece.val.length := by
    apply length_pos_iff.mpr
    simpa using demand_eq_ok.mp nonempty
  rw [reads]
  apply induction runs
  · rw [length_append]
    omega
  · rw [length_append]
    omega
  · rw [length_append, span_add, ← so, ← truth]

theorem exactRead_runs
    (runs : Runs files (exactRead shardIndex offset length result) session asked (bytes, later)
      final) :
    bytes = span (files shardIndex) offset length ∧ bytes.length = length ∧ final = session ∧
      handed asked = [] := by
  obtain ⟨_, _, runs⟩ := runs.of_lift
  exact exactReadLoop_runs runs (by simp) (Nat.zero_le _) rfl

theorem deliver_runs (runs : Runs files (deliver chunk bytes result) session asked later final) :
    final = session ∧ handed asked = [(chunk, bytes)] := by
  obtain ⟨accepted, rest, _, asks, runs⟩ := runs.of_ask
  obtain ⟨_, _, runs⟩ := runs.of_lift
  obtain ⟨delivered, _, runs⟩ := runs.of_lift
  obtain ⟨_, _, runs⟩ := runs.of_locked
  obtain ⟨_, kept, silent⟩ := runs.of_pure
  exact ⟨kept, by rw [asks, silent]; rfl⟩

variable {hash : Bytes} {hashed : Bytes}

theorem verifyHashSpan_runs
    (runs : Runs files (verifyHashSpan shardIndex bufferBytes fuel offset finish hash result) session
      asked (hashed, later) final) (progress : 0 < bufferBytes) (enough : finish - offset ≤ fuel) :
    hashed = hash ++ span (files shardIndex) offset (finish - offset) ∧
      (span (files shardIndex) offset (finish - offset)).length = finish - offset ∧
      final = session ∧ handed asked = [] := by
  induction fuel generalizing offset hash result session asked with
  | zero =>
    have empty : finish - offset = 0 := by omega
    obtain ⟨same, kept, silent⟩ := runs.of_pure
    cases same
    rw [empty, silent]
    exact ⟨by simp [span], rfl, kept, rfl⟩
  | succ fuel induction =>
    rw [verifyHashSpan] at runs
    split at runs
    · have empty : finish - offset = 0 := by omega
      obtain ⟨same, kept, silent⟩ := runs.of_pure
      cases same
      rw [empty, silent]
      exact ⟨by simp [span], rfl, kept, rfl⟩
    obtain ⟨⟨bytes, middle⟩, between, first, second, split, reads, more⟩ := runs.of_bind
    obtain ⟨read, full, kept, quiet⟩ := exactRead_runs reads
    obtain ⟨hashes, length, final, silent⟩ := induction more (by omega)
    have parts : finish - offset = min (finish - offset) bufferBytes +
        (finish - (offset + min (finish - offset) bufferBytes)) := by omega
    rw [parts, span_add, ← read, split, handed_append, quiet, silent]
    refine ⟨by rw [hashes, append_assoc], ?_, by rw [final, kept], rfl⟩
    rw [length_append, full, length]

/-! ## Shards -/

def handing (files : Files) (chunk : Chunk) : Chunk × Bytes :=
  (chunk, span (files chunk.shardIndex) chunk.absoluteOffset chunk.byteLength)

structure HashedTo (file : Bytes) (cursor : Nat) (hash : Bytes) : Prop where
  bytes : hash = span file 0 cursor
  length : hash.length = cursor

variable {file : Bytes}

theorem HashedTo.append (hashed : HashedTo file cursor hash)
    (full : (span file cursor length).length = length) :
    HashedTo file (cursor + length) (hash ++ span file cursor length) where
  bytes := by rw [span_add, zero_add, ← hashed.bytes]
  length := by rw [length_append, hashed.length, full]

theorem HashedTo.le (hashed : HashedTo file cursor hash) : cursor ≤ file.length := by
  have length := hashed.length
  rw [hashed.bytes, span, drop_zero, length_take] at length
  omega

theorem HashedTo.whole {file hash : Bytes} (hashed : HashedTo file file.length hash) :
    hash = file := by
  rw [hashed.bytes, span, drop_zero, take_length]

variable {chunks : List Chunk}

theorem verifyChunks_runs
    (runs : Runs files (verifyChunks shardIndex bufferBytes chunks cursor hash result) session asked
      (rest, reached, hashed, later) final) (progress : 0 < bufferBytes)
    (so : HashedTo (files shardIndex) cursor hash) :
    HashedTo (files shardIndex) reached hashed ∧ final = session ∧
      ∃ passed, chunks = passed ++ rest ∧ handed asked = passed.map (handing files) := by
  induction chunks generalizing cursor hash result session asked with
  | nil =>
    obtain ⟨same, kept, silent⟩ := runs.of_pure
    cases same
    exact ⟨so, kept, [], rfl, by rw [silent]; rfl⟩
  | cons chunk chunks induction => ?_
  rw [verifyChunks] at runs
  split at runs
  · obtain ⟨same, kept, silent⟩ := runs.of_pure
    cases same
    exact ⟨so, kept, [], rfl, by rw [silent]; rfl⟩
  rename_i here
  have here : chunk.shardIndex = shardIndex := not_not.mp here
  obtain ⟨_, ahead, runs⟩ := runs.of_lift
  have ahead : cursor ≤ chunk.absoluteOffset := by simpa using demand_eq_ok.mp ahead
  obtain ⟨⟨gap, _⟩, _, first, others, split, skips, runs⟩ := runs.of_bind
  obtain ⟨⟨bytes, _⟩, _, second, restRead, splitRead, reads, runs⟩ := runs.of_bind
  obtain ⟨_, _, third, restLast, splitLast, delivers, runs⟩ := runs.of_bind
  obtain ⟨skipped, skippedFull, kept, quiet⟩ := verifyHashSpan_runs skips progress le_rfl
  obtain ⟨read, full, keptRead, quietRead⟩ := exactRead_runs reads
  obtain ⟨keptLast, hands⟩ := deliver_runs delivers
  have gapHashed := so.append skippedFull
  rw [← skipped, Nat.add_sub_cancel' ahead] at gapHashed
  rw [read] at full
  have bothHashed := gapHashed.append full
  rw [← read] at bothHashed
  obtain ⟨hashedAll, keptAll, passed, chunked, handedAll⟩ := induction runs bothHashed
  refine ⟨hashedAll, by rw [keptAll, keptLast, keptRead, kept], chunk :: passed,
    by rw [chunked, cons_append], ?_⟩
  rw [split, splitRead, splitLast, handed_append, handed_append, handed_append, quiet, quietRead,
    hands,
    handedAll, map_cons, handing, here, ← read]
  rfl

theorem acquire_eq_ok (acquired : (session.acquire shardIndex view).1 = .ok value) :
    (session.acquire shardIndex view).2.shards = session.shards ∧ ∃ shard descriptor path,
      session.shards[shardIndex]? = some shard ∧ sameFile shard descriptor path = true ∧
      (view.descriptor = some descriptor ∨
        ∃ closes, view.reopened = .opened (some descriptor) closes) := by
  unfold Session.acquire at acquired ⊢
  split at acquired
  · cases acquired
  rename_i shard present
  split at acquired
  · unfold Session.reuse at acquired ⊢
    split at acquired
    · rename_i descriptor path cached _
      split at acquired
      · rename_i same
        rw [if_pos same]
        exact ⟨rfl, shard, descriptor, path, present, same, .inl cached⟩
      · cases acquired
    · cases acquired
  split at acquired
  · cases acquired
  split at acquired
  · cases acquired
  rename_i closes
  rw [if_neg closes]
  unfold Session.reopen at acquired ⊢
  split at acquired
  · cases acquired
  rename_i status closed opened
  split at acquired
  · rename_i descriptor path _
    split at acquired
    · rename_i same
      rw [if_pos same]
      exact ⟨rfl, shard, descriptor, path, present, same, .inr ⟨closed, opened⟩⟩
    · cases acquired
  · cases acquired

theorem handleAcquire_runs
    (runs : Runs files (handleAcquire label shardIndex) session asked value final) :
    final.shards = session.shards ∧ handed asked = [] ∧ ∃ shard,
      session.shards[shardIndex]? = some shard ∧ shard.fileBytes = (files shardIndex).length := by
  obtain ⟨view, rest, ⟨cachedSize, reopenedSize⟩, asks, runs⟩ := runs.of_ask
  obtain ⟨acquired, kept, silent⟩ := runs.locked_eq
  obtain ⟨shards, shard, descriptor, path, present, same, seen⟩ := acquire_eq_ok acquired
  rw [asks, silent, kept]
  refine ⟨shards, rfl, shard, present, ?_⟩
  have size : descriptor.identity.size = (files shardIndex).length := by
    grind
  rw [sameFile, Bool.and_eq_true, Bool.and_eq_true, Bool.and_eq_true] at same
  rw [Shard.fileBytes, of_decide_eq_true same.1.1.2, size]

theorem releaseHandle_shards (shardIndex : Nat) (session : Session) :
    (session.releaseHandle shardIndex).shards = session.shards := by
  rw [Session.releaseHandle]
  split <;> rfl

theorem withRelease_runs {body : Call α} {value : α}
    (runs : Runs files (withRelease shardIndex body) session asked value final) :
    ∃ middle, Runs files body session asked value middle ∧ final.shards = middle.shards := by
  obtain ⟨result, middle, first, second, split, left, runs⟩ := runs.of_bind
  obtain ⟨_, released, third, fourth, split', releases, runs⟩ := runs.of_bind
  obtain ⟨kept, silent⟩ := releases.of_update
  obtain ⟨same, kept', silent'⟩ := Program.Ends.of_done runs
  have body := left.of_outcome
  rw [same] at body
  rw [split, split', silent, silent', append_nil, append_nil]
  exact ⟨middle, body, by rw [kept', kept, releaseHandle_shards]⟩

theorem validateAfter_runs (runs : Runs files (validateAfter shardIndex) session asked value final) :
    final = session ∧ handed asked = [] := by
  obtain ⟨⟨descriptor, path⟩, rest, _, asks, runs⟩ := runs.of_ask
  obtain ⟨descriptor, _, runs⟩ := runs.of_lift
  obtain ⟨valid, kept, silent⟩ := runs.locked_eq
  refine ⟨?_, by rw [asks, silent]; rfl⟩
  split at valid
  · rename_i same
    rw [kept, if_pos same]
  · cases valid

theorem verifyBegin_runs (runs : Runs files (verifyBegin plan) session asked value final) :
    final = session ∧ handed asked = [] := by
  cases plan with
  | none =>
    obtain ⟨_, kept, silent⟩ := runs.of_pure
    exact ⟨kept, by rw [silent]; rfl⟩
  | some plan => ?_
  obtain ⟨accepted, rest, _, asks, runs⟩ := runs.of_ask
  obtain ⟨_, kept, silent⟩ := Program.Ends.of_done runs
  exact ⟨kept, by rw [asks, silent]; rfl⟩

variable {bytes : Nat}

theorem not_runs_abandon {began : Bool} {slot : Option Nat} {value : α} :
    ¬ Runs files (abandon began slot bytes failure) session asked value final := by
  intro runs
  obtain ⟨_, _, _, _, _, _, runs⟩ := runs.of_bind
  obtain ⟨_, _, _, _, _, _, runs⟩ := runs.of_bind
  obtain ⟨_, _, _, _, _, _, runs⟩ := runs.of_bind
  exact not_runs_fail runs

variable {slot : Nat}

theorem commit_runs
    (runs : Runs files (commit slot bytes result message) session asked later final) :
    final.shards = session.shards ∧ handed asked = [] := by
  obtain ⟨accepted, rest, _, asks, runs⟩ := runs.of_ask
  split at runs
  · obtain ⟨_, _, runs⟩ := runs.of_locked
    obtain ⟨_, _, runs⟩ := runs.of_locked
    obtain ⟨_, kept, silent⟩ := runs.of_pure
    exact ⟨by rw [kept]; rfl, by rw [asks, silent]; rfl⟩
  · exact absurd runs not_runs_abandon

theorem enter_shards (entered : (session.enter bytes required transition).1 = .ok value) :
    (session.enter bytes required transition).2.shards = session.shards := by
  unfold Session.enter at entered ⊢
  split at entered
  · cases entered
  rename_i admissible
  rw [if_neg admissible]
  split at entered
  · cases entered
  · rename_i fits
    rw [if_neg fits]

theorem acquireBuffer_eq_ok (acquired : (session.acquireBuffer bytes).1 = .ok slot) :
    0 < bytes ∧ (session.acquireBuffer bytes).2.shards = session.shards := by
  unfold Session.acquireBuffer at acquired ⊢
  split at acquired
  · cases acquired
  rename_i bounded
  rw [if_neg bounded]
  refine ⟨by omega, ?_⟩
  dsimp only at acquired ⊢
  split at acquired
  · cases acquired
  · rfl

section Digest

variable [Sha256Hex]

/-- A shard whose digest is that of its whole file. -/
structure Covered (file : Bytes) (shard : Shard) : Prop where
  whole : shard.fileBytes = file.length
  observed : shard.observedDigest = Sha256Hex.digest file
  expected : shard.expectedDigest.isEmpty = false → shard.observedDigest = shard.expectedDigest

variable {shardIndex : Nat} {value : Unit}

theorem sealShard_eq_ok (present : session.shards[shardIndex]? = some shard)
    (whole : shard.fileBytes = file.length)
    (accepted : (session.sealShard shardIndex file).1 = .ok value) :
    ∃ kept, (session.sealShard shardIndex file).2.shards = session.shards.set shardIndex kept ∧
      Covered file kept := by
  unfold Session.sealShard at accepted ⊢
  rw [present] at accepted ⊢
  dsimp only at accepted ⊢
  split at accepted
  · cases accepted
  rename_i matching
  rw [if_neg matching]
  refine ⟨_, rfl, whole, rfl, ?_⟩
  intro expects
  rw [expects] at matching
  simpa using Eq.symm (by simpa using matching)

variable {result : StreamResult} {later : StreamResult}

theorem verifyShard_runs
    (runs : Runs files (verifyShard bufferBytes shardIndex fileBytes chunks result) session asked
      (rest, later) final) (progress : 0 < bufferBytes)
    (size : ∀ shard, session.shards[shardIndex]? = some shard → shard.fileBytes = fileBytes) :
    (∃ kept, final.shards = session.shards.set shardIndex kept ∧ Covered (files shardIndex) kept) ∧
      shardIndex < session.shards.length ∧
      ∃ passed, chunks = passed ++ rest ∧ handed asked = passed.map (handing files) := by
  obtain ⟨_, opened, first, others, split, acquires, runs⟩ := runs.of_bind
  obtain ⟨keptShards, quiet, shard, present, whole⟩ := handleAcquire_runs acquires
  obtain ⟨⟨left, hash, _⟩, released, second, restRead, splitRead, reads, runs⟩ := runs.of_bind
  obtain ⟨middle, reads, sameShards⟩ := withRelease_runs reads
  obtain ⟨⟨left', cursor, hashed, _⟩, _, third, restChunks, splitChunks, chunked, reads⟩ :=
    reads.of_bind
  obtain ⟨⟨file, _⟩, _, fourth, restSpan, splitSpan, spans, reads⟩ := reads.of_bind
  obtain ⟨_, _, fifth, sixth, splitEnd, validates, reads⟩ := reads.of_bind
  obtain ⟨same, kept, silent⟩ := reads.of_pure
  cases same
  obtain ⟨hashedTo, keptChunks, passed, chunks, hands⟩ := verifyChunks_runs chunked progress
    ⟨rfl, rfl⟩
  obtain ⟨read, full, keptSpan, quietSpan⟩ := verifyHashSpan_runs spans progress le_rfl
  obtain ⟨keptValid, quietValid⟩ := validateAfter_runs validates
  have bytes : hash = files shardIndex := by
    have all := hashedTo.append full
    rw [← read, ← size shard present, whole, Nat.add_sub_cancel' hashedTo.le] at all
    exact all.whole
  have shards : released.shards = session.shards := by
    rw [sameShards, kept, keptValid, keptSpan, keptChunks, keptShards]
  obtain ⟨_, sealed, runs⟩ := runs.of_locked
  obtain ⟨same, sealedFinal, silent'⟩ := runs.of_pure
  cases same
  rw [bytes] at sealed sealedFinal
  obtain ⟨covering, replaced, covered⟩ := sealShard_eq_ok (shards ▸ present) whole sealed
  rw [sealedFinal, replaced, shards]
  refine ⟨⟨covering, rfl, covered⟩, index_lt present, passed, chunks, ?_⟩
  rw [split, splitRead, splitChunks, splitSpan, splitEnd, silent, silent']
  simp [quiet, quietSpan, quietValid, hands]

variable {shards : List Shard}

theorem verifyShards_runs
    (runs : Runs files (verifyShards bufferBytes shards shardIndex chunks result) session asked
      (left, later) final) (progress : 0 < bufferBytes)
    (sizes : (session.shards.drop shardIndex).map Shard.fileBytes = shards.map Shard.fileBytes) :
    final.shards.take shardIndex = session.shards.take shardIndex ∧
      (∀ index shard, shardIndex ≤ index → final.shards[index]? = some shard →
        Covered (files index) shard) ∧ final.shards.length = session.shards.length ∧
      ∃ passed, chunks = passed ++ left ∧ handed asked = passed.map (handing files) := by
  induction shards generalizing shardIndex chunks result session asked with
  | nil =>
    obtain ⟨same, kept, silent⟩ := runs.of_pure
    cases same
    subst kept
    refine ⟨rfl, ?_, rfl, [], rfl, by rw [silent]; rfl⟩
    intro index shard late present
    have ended : final.shards.length ≤ shardIndex := by simpa using sizes
    exact absurd (index_lt present) (by omega)
  | cons shard shards induction =>
    obtain ⟨⟨rest, between⟩, middle, first, second, split, verifies, runs⟩ := runs.of_bind
    have here : session.shards[shardIndex]?.map Shard.fileBytes = some shard.fileBytes := by
      have head := congrArg List.head? sizes
      rwa [head?_map, head?_drop] at head
    have behind : (session.shards.drop (shardIndex + 1)).map Shard.fileBytes =
        shards.map Shard.fileBytes := by
      have tail := congrArg List.tail sizes
      rwa [← map_tail, tail_drop] at tail
    obtain ⟨⟨kept, replaced, covered⟩, inside, passed, chunked, hands⟩ :=
      verifyShard_runs verifies progress (by
        intro found present
        rw [present] at here
        exact Option.some.inj here)
    obtain ⟨sameBefore, coveredAfter, length, passed', chunked', hands'⟩ :=
      induction runs (by rw [replaced, drop_set_of_lt (Nat.lt_succ_self _), behind])
    refine ⟨?_, ?_, by rw [length, replaced, length_set], passed ++ passed', ?_, ?_⟩
    · have before := congrArg (List.take shardIndex) sameBefore
      rw [take_take, take_take, replaced, min_eq_left (Nat.le_succ _),
        take_set_of_le le_rfl] at before
      exact before
    · intro index found late present
      rcases Nat.eq_or_lt_of_le late with here | after
      · subst here
        have same : final.shards[shardIndex]? = middle.shards[shardIndex]? := by
          rw [← getElem?_take_of_lt (Nat.lt_succ_self shardIndex), sameBefore,
            getElem?_take_of_lt (Nat.lt_succ_self shardIndex)]
        rw [present, replaced, getElem?_set_self inside] at same
        exact Option.some.inj same ▸ covered
      · exact coveredAfter index found after present
    · rw [chunked, chunked', append_assoc]
    · rw [split, handed_append, hands, hands', map_append]

theorem identityCompute_shards (computed : (identityCompute session).1 = .ok value) :
    (identityCompute session).2.shards = session.shards := by
  unfold identityCompute at computed ⊢
  split at computed
  · cases computed
  rename_i named
  rw [if_neg named]
  split at computed
  · cases computed
  dsimp only at computed
  split at computed
  · cases computed
  · rename_i published
    rw [if_neg published]

def AllCovered (files : Files) (session : Session) : Prop :=
  ∀ index shard, session.shards[index]? = some shard → Covered (files index) shard

variable {plan : Option Plan}

theorem verifyBody_runs
    (runs : Runs files (verifyBody plan bufferBytes shards) session asked result final)
    (progress : 0 < bufferBytes)
    (sizes : session.shards.map Shard.fileBytes = shards.map Shard.fileBytes) :
    AllCovered files final ∧ final.shards.length = session.shards.length ∧
      handed asked = ((plan.map Plan.chunks).getD []).map (handing files) := by
  obtain ⟨_, begun, first, others, split, begins, runs⟩ := runs.of_bind
  obtain ⟨kept, quiet⟩ := verifyBegin_runs begins
  obtain ⟨⟨left, _⟩, verified, second, others', split', verifies, runs⟩ := runs.of_bind
  obtain ⟨_, covered, length, passed, chunked, hands⟩ :=
    verifyShards_runs verifies progress (by rw [kept, drop_zero, sizes])
  obtain ⟨_, ended, runs⟩ := runs.of_lift
  obtain ⟨_, computed, runs⟩ := runs.of_locked
  obtain ⟨published, rest, _, asks, runs⟩ := runs.of_ask
  obtain ⟨_, _, runs⟩ := runs.of_lift
  obtain ⟨_, _, runs⟩ := runs.of_locked
  obtain ⟨_, finished, silent⟩ := runs.of_pure
  have shards : final.shards = verified.shards := by
    rw [finished]
    exact identityCompute_shards computed
  have emptied : left = [] := by
    have complete := demand_eq_ok.mp ended
    rw [Bool.and_eq_true] at complete
    exact isEmpty_iff.mp complete.1
  rw [emptied, append_nil] at chunked
  refine ⟨?_, by rw [shards, length, kept], ?_⟩
  · intro index shard present
    exact covered index shard (Nat.zero_le _) (shards ▸ present)
  · rw [split, split', asks, silent, handed_append, handed_append, quiet, hands, chunked]
    exact append_nil _

theorem sessionVerify_runs (runs : Runs files (sessionVerify plan) session asked result final) :
    AllCovered files final ∧ final.shards.length = session.shards.length ∧
      handed asked = ((plan.map Plan.chunks).getD []).map (handing files) := by
  obtain ⟨read, reads, runs⟩ := runs.of_locked
  cases reads
  obtain ⟨_, entered, runs⟩ := runs.of_locked
  obtain ⟨outcome, buffered, first, others, split, acquires, runs⟩ := runs.of_bind
  have enters := enter_shards entered
  cases outcome with
  | error failure =>
    obtain ⟨_, _, runs⟩ := runs.of_locked
    exact absurd runs not_runs_abandon
  | ok slot => ?_
  obtain ⟨acquired, keeps, silent⟩ := Runs.locked_eq acquires.of_outcome
  obtain ⟨progress, keptShards⟩ := acquireBuffer_eq_ok acquired
  obtain ⟨outcome, verified, second, others', split', verifies, runs⟩ := runs.of_bind
  cases outcome with
  | error failure =>
    obtain ⟨_, _, runs⟩ := runs.of_locked
    exact absurd runs not_runs_abandon
  | ok delivered => ?_
  have shards : buffered.shards = session.shards := by rw [keeps, keptShards, enters]
  obtain ⟨covered, length, hands⟩ := verifyBody_runs verifies.of_outcome progress (by rw [shards])
  have ended : final.shards = verified.shards ∧ handed others' = [] := by
    dsimp only at runs
    split at runs
    · exact commit_runs runs
    obtain ⟨_, _, runs⟩ := runs.of_locked
    obtain ⟨_, _, runs⟩ := runs.of_locked
    obtain ⟨_, kept, quiet⟩ := runs.of_pure
    exact ⟨by rw [kept]; rfl, by rw [quiet]; rfl⟩
  refine ⟨?_, by rw [ended.1, length, shards], ?_⟩
  · rw [AllCovered, ended.1]
    exact covered
  · rw [split, split', silent, handed_append, handed_append, hands, ended.2, append_nil]
    rfl

end Digest

/-! ## Plans -/

/-- A range stands truly before the other in the physical order. -/
def NumberedRange.Below (left right : NumberedRange) : Prop :=
  left.Precedes right ∧ ¬ right.Precedes left

instance : IsTrans NumberedRange NumberedRange.Below where
  trans left middle right first second := by
    unfold NumberedRange.Below NumberedRange.Precedes at *
    omega

variable {ranges : List NumberedRange} {result : Unit}

theorem checkRepeats_eq_ok (sorted : ranges.Pairwise NumberedRange.Precedes)
    (accepted : checkRepeats ranges = .ok result) : ranges.IsChain NumberedRange.Below := by
  induction ranges with
  | nil => exact .nil
  | cons prior ranges induction => ?_
  cases ranges with
  | nil => exact .singleton prior
  | cons next rest => ?_
  obtain ⟨_, distinct, accepted⟩ := bind_eq_ok.mp accepted
  have distinct : prior.sourceTensorIndex ≠ next.sourceTensorIndex := by
    simpa using demand_eq_ok.mp distinct
  rw [pairwise_cons] at sorted
  have order : prior.Precedes next := sorted.1 next (mem_cons_self ..)
  refine .cons_cons ⟨order, ?_⟩ (induction sorted.2 accepted)
  unfold NumberedRange.Precedes at *
  omega

def Numbers (session : Session) (ranges : List NumberedRange) : Prop :=
  ∀ range ∈ ranges, session.ranges[range.sourceTensorIndex]? = some range.toRange

theorem distinct_of_checked (numbers : Numbers session ranges)
    (accepted : checkRepeats (ranges.insertionSort NumberedRange.Precedes) = .ok result) :
    (ranges.insertionSort NumberedRange.Precedes).Pairwise fun left right =>
      left.sourceTensorIndex ≠ right.sourceTensorIndex := by
  have chain := checkRepeats_eq_ok (pairwise_insertionSort _ ranges) accepted
  apply (isChain_iff_pairwise.mp chain).imp_of_mem
  intro left right memberLeft memberRight below same
  have leftThere := numbers left ((mem_insertionSort _).mp memberLeft)
  have rightThere := numbers right ((mem_insertionSort _).mp memberRight)
  rw [same, rightThere] at leftThere
  have equal : left = right := by
    cases left
    cases same
    cases leftThere
    rfl
  exact below.2 (equal ▸ below.1)

variable {range : NumberedRange}

theorem rangeChunks_handing (files : Files) (progress : 0 < chunkBytes)
    (enough : range.byteLength - logicalOffset ≤ fuel) :
    (rangeChunks range rangeOrdinal chunkBytes pageBytes fuel logicalOffset ordinal).flatMap
        (fun chunk => (handing files chunk).2) =
      span (files range.shardIndex) (range.absoluteBegin + logicalOffset)
        (range.byteLength - logicalOffset) := by
  induction fuel generalizing logicalOffset ordinal with
  | zero =>
    have ended : range.byteLength - logicalOffset = 0 := by omega
    rw [ended]
    simp [rangeChunks, span]
  | succ fuel induction => ?_
  rw [rangeChunks]
  split
  · have ended : range.byteLength - logicalOffset = 0 := by omega
    rw [ended]
    simp [span]
  have parts : range.byteLength - logicalOffset =
      min (range.byteLength - logicalOffset) chunkBytes + (range.byteLength -
        (logicalOffset + min (range.byteLength - logicalOffset) chunkBytes)) := by omega
  rw [flatMap_cons, induction (by omega), handing]
  conv_rhs => rw [parts, span_add, add_assoc]

theorem rangeChunks_index :
    ∀ chunk ∈ rangeChunks range rangeOrdinal chunkBytes pageBytes fuel logicalOffset ordinal,
      chunk.sourceTensorIndex = range.sourceTensorIndex := by
  induction fuel generalizing logicalOffset ordinal with
  | zero => exact forall_mem_nil _
  | succ fuel induction => ?_
  rw [rangeChunks]
  split
  · exact forall_mem_nil _
  · exact forall_mem_cons.mpr ⟨rfl, induction⟩

variable {tensorIndex : Nat}

theorem planChunks_handing (files : Files) (progress : 0 < chunkBytes) :
    ((planChunks chunkBytes pageBytes ranges rangeOrdinal ordinal).filter fun chunk =>
        chunk.sourceTensorIndex = tensorIndex).flatMap (fun chunk => (handing files chunk).2) =
      (ranges.filter fun range => range.sourceTensorIndex = tensorIndex).flatMap fun range =>
        span (files range.shardIndex) range.absoluteBegin range.byteLength := by
  induction ranges generalizing rangeOrdinal ordinal with
  | nil => rfl
  | cons range ranges induction => ?_
  rw [planChunks, filter_append, flatMap_append, induction]
  by_cases here : range.sourceTensorIndex = tensorIndex
  · rw [filter_cons_of_pos (by simpa using here), flatMap_cons,
      filter_eq_self.mpr (fun chunk member => by simpa [rangeChunks_index chunk member] using here),
      rangeChunks_handing files progress (Nat.sub_le _ _), Nat.sub_zero, add_zero]
  rw [filter_cons_of_neg (by simpa using here),
    filter_eq_nil_iff.mpr (fun chunk member => by
      simpa [rangeChunks_index chunk member] using here)]
  rfl

theorem filter_distinct
    (distinct : ranges.Pairwise fun left right => left.sourceTensorIndex ≠ right.sourceTensorIndex)
    (member : range ∈ ranges) :
    (ranges.filter fun other => other.sourceTensorIndex = range.sourceTensorIndex) = [range] := by
  induction ranges with
  | nil => cases member
  | cons first ranges induction => ?_
  rw [pairwise_cons] at distinct
  rcases mem_cons.mp member with rfl | member
  · rw [filter_cons_of_pos (by simp), filter_eq_nil_iff.mpr (fun other later => by
      simpa using (distinct.1 other later).symm)]
  · rw [filter_cons_of_neg (by simpa using distinct.1 range member), induction distinct.2 member]

theorem selectRanges_eq_ok
    (selected : (session.selectRanges tensorIndices).1 = .ok ranges) : Numbers session ranges ∧
      ∀ index ∈ tensorIndices, ∃ range ∈ ranges, range.sourceTensorIndex = index := by
  unfold Session.selectRanges at selected
  split at selected
  · cases selected
  split at selected
  · cases selected
  rename_i absent
  cases selected
  rw [find?_eq_none] at absent
  constructor
  · intro range member
    obtain ⟨index, _, found⟩ := mem_filterMap.mp member
    obtain ⟨described, present, rfl⟩ := Option.map_eq_some_iff.mp found
    exact present
  intro index member
  have inside : index < session.ranges.length := by simpa using absent index member
  have present := getElem?_eq_getElem inside
  exact ⟨⟨session.ranges[index], index⟩,
    mem_filterMap.mpr ⟨index, member, by rw [present]; rfl⟩, rfl⟩

def BuiltFrom (session : Session) (selection : Option (List Nat)) (plan : Plan) : Prop :=
  ∃ files chunkBytes pageBytes asked later,
    Runs files (planBuild selection chunkBytes pageBytes) session asked plan later

theorem BuiltFrom.handing {selection : Option (List Nat)} {plan : Plan}
    (built : BuiltFrom session selection plan) (files : Files)
    (selected : tensorIndex ∈ selection.getD (List.range session.ranges.length)) :
    ∃ range, session.ranges[tensorIndex]? = some range ∧
      (plan.chunks.filter fun chunk => chunk.sourceTensorIndex = tensorIndex).flatMap
          (fun chunk => (handing files chunk).2) =
        span (files range.shardIndex) range.absoluteBegin range.byteLength := by
  obtain ⟨_, chunkBytes, pageBytes, asked, later, runs⟩ := built
  obtain ⟨read, reads, runs⟩ := runs.of_locked
  cases reads
  obtain ⟨_, _, runs⟩ := runs.of_lift
  obtain ⟨_, bounded, runs⟩ := runs.of_lift
  obtain ⟨ranges, copied, runs⟩ := runs.of_locked
  obtain ⟨numbers, complete⟩ := selectRanges_eq_ok copied
  have bounded := demand_eq_ok.mp bounded
  simp only [Bool.and_eq_true, decide_eq_true_eq] at bounded
  split at runs
  · obtain ⟨_, _, runs⟩ := runs.of_locked
    exact absurd runs not_runs_fail
  rename_i planned accepted
  obtain ⟨rfl, _, _⟩ := runs.of_pure
  obtain ⟨_, _, accepted⟩ := bind_eq_ok.mp accepted
  obtain ⟨_, repeats, accepted⟩ := bind_eq_ok.mp accepted
  replace accepted := behind accepted
  cases accepted
  obtain ⟨range, member, rfl⟩ := complete tensorIndex selected
  refine ⟨range.toRange, numbers range member, ?_⟩
  have positive : 0 < (if chunkBytes = 0 then session.budget.chunkBytes else chunkBytes) :=
    lt_of_lt_of_le (by decide) bounded.1.1.1
  rw [planChunks_handing files positive, filter_distinct (distinct_of_checked numbers repeats)
    ((mem_insertionSort _).mpr member), flatMap_singleton]

theorem delivered_handing (hands : handed asked = chunks.map (handing files)) :
    delivered asked tensorIndex =
      (chunks.filter fun chunk => chunk.sourceTensorIndex = tensorIndex).flatMap
        fun chunk => (handing files chunk).2 := by
  rw [delivered, hands, filter_map, flatMap_map]
  rfl

/-! ## Verification -/

/-- A verification that succeeds has hashed every shard as a whole, and its sink has got the bytes
of every selected tensor in their order. -/
theorem sessionVerify_covers [Sha256Hex] {earlier : Session} {selection : Option (List Nat)}
    {plan : Option Plan} {result : StreamResult}
    (built : ∀ chosen ∈ plan, BuiltFrom earlier selection chosen)
    (verified : Runs files (sessionVerify plan) session asked result final) :
    (final.shards.length = session.shards.length ∧ ∀ index shard,
        final.shards[index]? = some shard → shard.fileBytes = (files index).length ∧
          shard.observedDigest = Sha256Hex.digest (files index) ∧
          (shard.expectedDigest.isEmpty = false → shard.observedDigest = shard.expectedDigest)) ∧
      (plan = none → handed asked = []) ∧
      ∀ chosen ∈ plan, ∀ tensorIndex ∈ selection.getD (List.range earlier.ranges.length),
        ∃ range, earlier.ranges[tensorIndex]? = some range ∧ delivered asked tensorIndex =
          span (files range.shardIndex) range.absoluteBegin
            (range.absoluteEnd - range.absoluteBegin) := by
  obtain ⟨covered, length, hands⟩ := sessionVerify_runs verified
  refine ⟨⟨length, ?_⟩, ?_, ?_⟩
  · intro index shard present
    have covered := covered index shard present
    exact ⟨covered.whole, covered.observed, covered.expected⟩
  · intro planless
    rw [hands, planless]
    rfl
  intro chosen planned tensorIndex selected
  obtain ⟨range, present, bytes⟩ := (built chosen planned).handing files selected
  refine ⟨range, present, ?_⟩
  rw [planned] at hands
  rw [delivered_handing hands, Range.absoluteEnd, Range.absoluteBegin, Nat.add_sub_add_left]
  exact bytes

def pairFile : Bytes := [0, 1, 2, 3, 4, 5, 6, 7, 8, 9, 10]

def pairSystem : ∀ query : Query, query.Answer
  | .inspect _ => ⟨some pairStat, some pairStat, .opened (some pairStat) true, true⟩
  | .validate _ => (some pairStat, some pairStat)
  | .pread _ offset length => some ⟨span pairFile offset length, length_take_le _ _⟩
  | .sinkBegin _ | .sinkChunk _ _ | .sinkCommit _ => true
  | .sinkAbort _ => ()
  | .publishManifest => .ok ()

theorem pairSystem_truthful : ∀ query, Truthful (fun _ => pairFile) query (pairSystem query)
  | .inspect _ => by
    constructor
    · rintro stat ⟨⟩
      rfl
    · rintro stat closes ⟨⟩
      rfl
  | .pread _ offset length => by
    rintro bytes ⟨⟩
    exact span_length_self ..
  | .validate _ | .sinkBegin _ | .sinkChunk _ _ | .sinkCommit _ | .sinkAbort _
  | .publishManifest => trivial

/-- A plan of both tensors is built and verified. -/
theorem sessionVerify_covers_pair : ∃ plan middle asked result final,
    BuiltFrom pairSession none plan ∧
      @Runs StreamResult (fun _ => pairFile) (@sessionVerify Provider.zeroDigest (some plan)) middle
        asked result final ∧
      ∀ tensorIndex ∈ [0, 1], ∃ range, pairSession.ranges[tensorIndex]? = some range ∧
        delivered asked tensorIndex = span pairFile range.absoluteBegin
          (range.absoluteEnd - range.absoluteBegin) := by
  let call : Call StreamResult := planBuild none 0 0 >>= fun plan =>
    @sessionVerify Provider.zeroDigest (some plan)
  obtain ⟨result, ended⟩ : ∃ result,
      (Program.run pairSystem call.run pairSession).2.1 = .ok result :=
    exists_of_isOk (by decide +kernel)
  have runs := Program.ends_run pairSystem_truthful call.run pairSession
  rw [ended] at runs
  obtain ⟨plan, middle, first, asked, _, builds, verifies⟩ := Runs.of_bind runs
  have built : BuiltFrom pairSession none plan := ⟨_, _, _, _, _, builds⟩
  refine ⟨plan, middle, asked, result, _, built, verifies, ?_⟩
  exact (@sessionVerify_covers _ _ _ _ Provider.zeroDigest _ _ _ _
    (by rintro chosen ⟨⟩; exact built) verifies).2.2 plan rfl

end Yvex.Source
