import Yvex.Foundation.Interleaving
import Yvex.Source.PayloadOpen

namespace Yvex.Source

open Interleaving
open Provider (Sha256Hex)

/-! # Streams over a payload session

Plans cut tensors into chunks, streams deliver the chunks to a sink, and the verification reads
every shard once, delivers on the way and seals the digests. The calls share the session behind its
mutex. -/

/-! ## Plans and chunks -/

structure Chunk where
  ordinal : Nat
  rangeOrdinal : Nat
  sourceTensorIndex : Nat
  sourceTensorName : CString
  shardIndex : Nat
  logicalOffset : Nat
  absoluteOffset : Nat
  byteLength : Nat
  firstPage : Nat
  lastPage : Nat

structure PlanSummary where
  rangeCount : Nat
  chunkCount : Nat
  logicalBytes : Nat
  pageCount : Nat
  chunkBytes : Nat
  pageBytes : Nat

structure Plan where
  ranges : List NumberedRange
  chunks : List Chunk
  summary : PlanSummary

/-- What is kept of `yvex_source_payload_stream_result` while a call goes on. -/
structure StreamResult where
  requestedLogicalBytes : Nat
  deliveredLogicalBytes : Nat
  physicalBytesRead : Nat
  chunksCompleted : Nat

/-! ## The interface of the calls -/

inductive Section where
  | enter
  | acquire
  | probeAcquire
  | poison
  | ready
  | other
deriving DecidableEq

/-- What a shard looks like from outside: its cached descriptor, its path, and an attempt to open it
again. -/
structure ShardView where
  descriptor : Option FileStat
  path : Option FileStat
  reopened : Opening
  evictedCloses : Bool

inductive Query where
  | inspect (shardIndex : Nat)
  | validate (shardIndex : Nat)
  | pread (shardIndex offset length : Nat)
  | sinkBegin (summary : PlanSummary)
  | sinkChunk (chunk : Chunk) (bytes : Bytes)
  | sinkCommit (result : StreamResult)
  | sinkAbort (failure : Failure)
  | publishManifest

/-- A read gives nothing or at most what was asked for. -/
def Query.Answer : Query → Type
  | .inspect _ => ShardView
  | .validate _ => Option FileStat × Option FileStat
  | .pread _ _ length => Option { bytes : Bytes // bytes.length ≤ length }
  | .sinkBegin _ => Bool
  | .sinkChunk _ _ => Bool
  | .sinkCommit _ => Bool
  | .sinkAbort _ => Unit
  | .publishManifest => Except Rejection Unit

@[reducible] def payloadInterface : Interface := ⟨Section, Query, Query.Answer⟩

abbrev Call (α : Type) := ExceptT Failure (Program Session payloadInterface) α

namespace Call

def locked (label : Section) (body : Session → Except Failure α × Session) : Call α :=
  .mk (.locked label (fun session => (body session).2) fun session => .done (body session).1)

def update (body : Session → Session) : Call Unit :=
  locked .other fun session => (.ok (), body session)

def ask (query : Query) : Call query.Answer := .mk (.ask query fun answer => .done (.ok answer))

def fail (failure : Failure) : Call α := .mk (.done (.error failure))

def lift (value : Except Failure α) : Call α := .mk (.done value)

def outcome (call : Call α) : Call (Except Failure α) :=
  .mk (call.run.bind fun result => .done (.ok result))

end Call

/-! ## Entering and leaving -/

def Session.enter (bytes : Nat) (required transition : SessionState) (session : Session) :
    Except Failure Unit × Session :=
  if session.state ≠ required ∨ session.cancelled = true then
    (.error ⟨if session.cancelled then .cancelled
        else if required = .ready then .payloadNotTrusted else .invalidState,
      if session.cancelled then .cancelled else .state,
      "payload session is not admissible for this stream", none, none, bytes, 0⟩, session)
  else if session.budget.maximumStreams ≤ session.activeStreams ∨
      u64Sub session.budget.maximumInflightHostBytes session.inflightHostBytes < bytes then
    (.error ⟨.resourceBudget, .bounds, "payload stream resource budget is exhausted", none, none,
      bytes, 0⟩, session)
  else
    (.ok (), { session with
      activeStreams := session.activeStreams + 1
      inflightHostBytes := session.inflightHostBytes + bytes
      state := transition })

def Session.leave (bytes : Nat) (session : Session) : Session :=
  { session with
    activeStreams := session.activeStreams - 1
    inflightHostBytes := session.inflightHostBytes - bytes }

/-! ## Handles -/

def sameFile (shard : Shard) (descriptor path : FileStat) : Bool :=
  path.regular && decide (shard.admittedIdentity = descriptor.identity) &&
    decide (descriptor.identity.device = path.identity.device) &&
    decide (descriptor.identity.inode = path.identity.inode)

def leastRecent (handles : List (Option Handle)) : Option Nat :=
  let candidates := handles.zipIdx.filterMap fun (handle, slot) =>
    (handle.filter fun handle => handle.pins = 0).map fun handle => (handle.useTick, slot)
  (candidates.find? fun (tick, _) => candidates.all fun (other, _) => tick ≤ other).map Prod.snd

def candidateSlot (handles : List (Option Handle)) : Option Nat :=
  handles.findIdx? Option.isNone <|> leastRecent handles

def drifted (shardIndex : Nat) (message : String) (session : Session) :
    Except Failure Unit × Session :=
  (.error ⟨.shardDrift, .state, message, some shardIndex, none, 0, 0⟩,
    { session with state := .poisoned })

def Session.install (session : Session) (slot shardIndex pins : Nat) : Session :=
  { session with
    handles := session.handles.set slot (some ⟨shardIndex, pins, session.useTick + 1⟩)
    useTick := session.useTick + 1 }

def Session.reopen (shard : Shard) (shardIndex slot : Nat) (view : ShardView) (session : Session) :
    Except Failure Unit × Session :=
  match view.reopened with
  | .failed link => (.error (if link
      then ⟨.symlinkRefused, .io, "source shard reopen failed", some shardIndex, none, 0, 0⟩
      else ⟨.shardOpen, .io, "source shard reopen failed", some shardIndex, none, 0, 0⟩), session)
  | .opened status _ =>
    match status, view.path with
    | some descriptor, some path =>
      if sameFile shard descriptor path then (.ok (), session.install slot shardIndex 1)
      else drifted shardIndex "source shard replacement or drift detected" session
    | _, _ => (.error ⟨.stat, .io, "source shard identity stat failed", some shardIndex, none,
        0, 0⟩, session)

def Session.reuse (shard : Shard) (shardIndex slot pins : Nat) (view : ShardView)
    (session : Session) : Except Failure Unit × Session :=
  match view.descriptor, view.path with
  | some descriptor, some path =>
    if sameFile shard descriptor path then (.ok (), session.install slot shardIndex (pins + 1))
    else drifted shardIndex "cached source shard path or descriptor drifted" session
  | _, _ => drifted shardIndex "cached source shard path or descriptor drifted" session

def cachedSlot (handles : List (Option Handle)) (shardIndex : Nat) : Option (Nat × Nat) :=
  (handles.zipIdx.find? fun (handle, _) => handle.any fun handle => handle.shardIndex = shardIndex)
    |>.bind fun (handle, slot) => handle.map fun handle => (slot, handle.pins)

def Session.acquire (shardIndex : Nat) (view : ShardView) (session : Session) :
    Except Failure Unit × Session :=
  match session.shards[shardIndex]? with
  | none => (.error ⟨.invalidArgument, .invalidArgument, "", none, none, 0, 0⟩, session)
  | some shard =>
    match cachedSlot session.handles shardIndex with
    | some (slot, pins) => session.reuse shard shardIndex slot pins view
    | none =>
      match candidateSlot session.handles with
      | none => (.error ⟨.handleCacheExhausted, .state, "all source shard handles are pinned",
          some shardIndex, none, 0, 0⟩, session)
      | some slot =>
        let evicted := { session with handles := session.handles.set slot none }
        if (session.handles[slot]?.join).isSome && !view.evictedCloses then
          (.error ⟨.cleanup, .io, "evicted source shard handle close failed",
            some shardIndex, none, 0, 0⟩, evicted)
        else evicted.reopen shard shardIndex slot view

def Session.releaseHandle (shardIndex : Nat) (session : Session) : Session :=
  match session.handles.findIdx? fun handle =>
      handle.any fun handle => handle.shardIndex = shardIndex && handle.pins != 0 with
  | none => session
  | some slot => { session with
      handles := session.handles.modify slot fun handle =>
        handle.map fun handle => { handle with pins := handle.pins - 1 } }

def handleAcquire (label : Section) (shardIndex : Nat) : Call Unit := do
  let view ← Call.ask (.inspect shardIndex)
  Call.locked label (Session.acquire shardIndex view)

def handleRelease (shardIndex : Nat) : Call Unit := Call.update (Session.releaseHandle shardIndex)

/-! ## Buffers -/

/-- `yvex_source_payload_buffer_acquire`: the slot of the buffer. -/
def Session.acquireBuffer (bytes : Nat) (session : Session) : Except Failure Nat × Session :=
  if bytes = 0 ∨ session.budget.chunkBytes < bytes then
    (.error ⟨.invalidArgument, .invalidArgument, "bounded payload buffer request is invalid", none,
      none, bytes, 0⟩, session)
  else
    let reusable := session.buffers.findIdx? fun buffer =>
      !buffer.inUse && buffer.capacity.any fun capacity => bytes ≤ capacity
    match reusable <|> session.buffers.findIdx? fun buffer => !buffer.inUse with
    | none => (.error ⟨.resourceBudget, .bounds, "all bounded payload buffers are active", none,
        none, bytes, 0⟩, session)
    | some slot => (.ok slot, { session with
        buffers := session.buffers.modify slot fun buffer =>
          ⟨if reusable.isSome then buffer.capacity else some bytes, true⟩ })

def Session.releaseBuffer (slot : Nat) (session : Session) : Session :=
  { session with buffers := session.buffers.modify slot fun buffer =>
    { buffer with inUse := false } }

/-! ## Reading -/

def llongMax : Nat := 2 ^ 63 - 1

def checkCancelled (failure : Failure) : Call Unit :=
  Call.locked .other fun session => (if session.cancelled then .error failure else .ok (), session)

/-- The loop of `yvex_source_payload_exact_read`, which has some bytes already. Every round reads a
byte or fails, so the fuel is the number of bytes. -/
def exactReadLoop (shardIndex offset length : Nat) :
    Nat → Bytes → StreamResult → Call (Bytes × StreamResult)
  | 0, completed, result => return (completed, result)
  | fuel + 1, completed, result =>
    if length ≤ completed.length then return (completed, result) else do
      checkCancelled ⟨.cancelled, .cancelled, "source payload stream cancelled",
        some shardIndex, none, length, result.deliveredLogicalBytes⟩
      Call.lift (demand (decide (offset + completed.length ≤ llongMax)) ⟨.rangeOverflow, .bounds,
        "source payload offset progression overflow", some shardIndex, none, length,
        result.deliveredLogicalBytes⟩)
      let got ← Call.ask (.pread shardIndex (offset + completed.length)
        (length - completed.length))
      let bytes ← Call.lift (orFail got ⟨.io, .io, "positioned source payload read failed",
        some shardIndex, none, length, result.deliveredLogicalBytes⟩)
      Call.lift (demand (!bytes.val.isEmpty) ⟨.shortRead, .io,
        "source payload ended before exact range completion", some shardIndex, none, length,
        result.deliveredLogicalBytes⟩)
      let physical ← Call.lift (orFail (u64Add result.physicalBytesRead bytes.val.length)
        ⟨.rangeOverflow, .bounds, "source payload physical byte accounting overflow",
          some shardIndex, none, length, result.deliveredLogicalBytes⟩)
      exactReadLoop shardIndex offset length fuel (completed ++ bytes.val)
        { result with physicalBytesRead := physical }

def exactRead (shardIndex offset length : Nat) (result : StreamResult) :
    Call (Bytes × StreamResult) := do
  Call.lift (demand (decide (offset ≤ llongMax)) ⟨.rangeOverflow, .bounds,
    "source payload offset is not representable", some shardIndex, none, length, 0⟩)
  exactReadLoop shardIndex offset length length [] result

def validateAfter (shardIndex : Nat) : Call Unit := do
  let (descriptor, path) ← Call.ask (.validate shardIndex)
  let descriptor ← Call.lift (orFail descriptor ⟨.stat, .io, "post-read source shard stat failed",
    some shardIndex, none, 0, 0⟩)
  Call.locked .poison fun session =>
    if path.any fun path => session.shards[shardIndex]?.any fun shard =>
        sameFile shard descriptor path then (.ok (), session)
    else drifted shardIndex "source shard drifted during payload read" session

def deliver (chunk : Chunk) (bytes : Bytes) (result : StreamResult) : Call StreamResult := do
  let accepted ← Call.ask (.sinkChunk chunk bytes)
  Call.lift (demand accepted ⟨.consumer, .state, "payload consumer refused a bounded chunk",
    some chunk.shardIndex, some chunk.sourceTensorIndex, chunk.byteLength,
    result.deliveredLogicalBytes⟩)
  let delivered ← Call.lift (orFail (u64Add result.deliveredLogicalBytes chunk.byteLength)
    ⟨.rangeOverflow, .bounds, "payload delivery accounting overflow", some chunk.shardIndex,
      some chunk.sourceTensorIndex, chunk.byteLength, result.deliveredLogicalBytes⟩)
  checkCancelled ⟨.cancelled, .cancelled, "source payload stream cancelled after chunk delivery",
    some chunk.shardIndex, some chunk.sourceTensorIndex, chunk.byteLength, delivered⟩
  return { result with
    deliveredLogicalBytes := delivered
    chunksCompleted := result.chunksCompleted + 1 }

def withRelease (shardIndex : Nat) (body : Call α) : Call α := do
  let outcome ← body.outcome
  handleRelease shardIndex
  Call.lift outcome

/-! ## Streams -/

def orRelease (shardIndex : Nat) (body : Call α) : Call α := do
  match ← body.outcome with
  | .error failure => do
    handleRelease shardIndex
    Call.fail failure
  | .ok value => return value

def unpin : Option Nat → Call Unit
  | none => return
  | some shardIndex => withRelease shardIndex (validateAfter shardIndex)

def pin (pinned : Option Nat) (shardIndex : Nat) : Call Unit :=
  if pinned = some shardIndex then return else do
    unpin pinned
    handleAcquire .acquire shardIndex

def streamChunks : Option Nat → List Chunk → StreamResult → Call StreamResult
  | pinned, [], result => do
    unpin pinned
    return result
  | pinned, chunk :: rest, result => do
    pin pinned chunk.shardIndex
    let result ← orRelease chunk.shardIndex do
      let (bytes, result) ← exactRead chunk.shardIndex chunk.absoluteOffset chunk.byteLength result
      deliver chunk bytes result
    streamChunks (some chunk.shardIndex) rest result

def abort (began : Bool) (failure : Failure) : Call Unit :=
  if began then Call.ask (.sinkAbort failure) else return

def bufferRelease : Option Nat → Call Unit
  | none => return
  | some slot => Call.update (Session.releaseBuffer slot)

def abandon (began : Bool) (slot : Option Nat) (bytes : Nat) (failure : Failure) : Call α := do
  abort began failure
  bufferRelease slot
  Call.update (Session.leave bytes)
  Call.fail failure

def commit (slot bytes : Nat) (result : StreamResult) (message : String) : Call StreamResult := do
  let accepted : Bool ← Call.ask (.sinkCommit result)
  if accepted then do
    bufferRelease (some slot)
    Call.update (Session.leave bytes)
    return result
  else abandon true (some slot) bytes ⟨.consumer, .state, message, none, none,
    result.requestedLogicalBytes, result.deliveredLogicalBytes⟩

def streamBody (plan : Plan) : Call StreamResult := do
  let accepted ← Call.ask (.sinkBegin plan.summary)
  Call.lift (demand accepted ⟨.consumer, .state, "payload consumer refused stream begin", none,
    none, plan.summary.logicalBytes, 0⟩)
  let result ← streamChunks none plan.chunks ⟨plan.summary.logicalBytes, 0, 0, 0⟩
  Call.lift (demand (result.deliveredLogicalBytes == result.requestedLogicalBytes &&
      result.chunksCompleted == plan.summary.chunkCount)
    ⟨.shortRead, .io, "payload plan did not complete exactly", none, none,
      result.requestedLogicalBytes, result.deliveredLogicalBytes⟩)
  return result

def sessionStream (plan : Plan) : Call StreamResult := do
  let bytes := plan.summary.chunkBytes
  Call.locked .enter (Session.enter bytes .ready .ready)
  match ← (Call.locked .other (Session.acquireBuffer bytes)).outcome with
  | .error failure => abandon false none bytes failure
  | .ok slot =>
    match ← (streamBody plan).outcome with
    | .error failure => abandon true (some slot) bytes failure
    | .ok result => commit slot bytes result "payload consumer refused stream commit"

/-! ## Verification -/

section Verify

variable [Sha256Hex]

/-- `payload_verify_hash_span`: the bytes of a span follow the hash. Every round reads a byte or
fails. -/
def verifyHashSpan (shardIndex bufferBytes : Nat) :
    Nat → Nat → Nat → Bytes → StreamResult → Call (Bytes × StreamResult)
  | 0, _, _, hash, result => return (hash, result)
  | fuel + 1, offset, finish, hash, result =>
    if finish ≤ offset then return (hash, result) else do
      let length := min (finish - offset) bufferBytes
      let (bytes, result) ← exactRead shardIndex offset length result
      verifyHashSpan shardIndex bufferBytes fuel (offset + length) finish (hash ++ bytes) result

/-- The chunks of a shard, with the gaps in front of them. What is left of the plan, the end of the
last chunk and the hash are returned. -/
def verifyChunks (shardIndex bufferBytes : Nat) :
    List Chunk → Nat → Bytes → StreamResult → Call (List Chunk × Nat × Bytes × StreamResult)
  | [], cursor, hash, result => return ([], cursor, hash, result)
  | chunk :: rest, cursor, hash, result =>
    if chunk.shardIndex ≠ shardIndex then return (chunk :: rest, cursor, hash, result) else do
      Call.lift (demand (decide (cursor ≤ chunk.absoluteOffset)) ⟨.duplicateTensor, .format,
        "delivery plan overlaps physical source ranges", some shardIndex,
        some chunk.sourceTensorIndex, chunk.byteLength, result.deliveredLogicalBytes⟩)
      let (hash, result) ← verifyHashSpan shardIndex bufferBytes (chunk.absoluteOffset - cursor)
        cursor chunk.absoluteOffset hash result
      let (bytes, result) ← exactRead shardIndex chunk.absoluteOffset chunk.byteLength result
      let result ← deliver chunk bytes result
      verifyChunks shardIndex bufferBytes rest (chunk.absoluteOffset + chunk.byteLength)
        (hash ++ bytes) result

def Session.sealShard (shardIndex : Nat) (hash : Bytes) (session : Session) :
    Except Failure Unit × Session :=
  match session.shards[shardIndex]? with
  | none => (.ok (), session)
  | some shard =>
    let observed := Sha256Hex.digest hash
    if !shard.expectedDigest.isEmpty && shard.expectedDigest != observed then
      (.error ⟨.digestMismatch, .format, "source shard SHA-256 does not match authoritative digest",
        some shardIndex, none, shard.fileBytes, 0⟩,
        { session with
          state := .poisoned
          shards := session.shards.set shardIndex { shard with observedDigest := observed } })
    else
      (.ok (), { session with
        shards := session.shards.set shardIndex { shard with
          observedDigest := observed
          trustClass := if shard.expectedDigest.isEmpty then .localSnapshotSealed
            else .upstreamVerified } })

def verifyShard (bufferBytes shardIndex fileBytes : Nat) (chunks : List Chunk)
    (result : StreamResult) : Call (List Chunk × StreamResult) := do
  handleAcquire .acquire shardIndex
  let (rest, hash, result) ← withRelease shardIndex do
    let (rest, cursor, hash, result) ← verifyChunks shardIndex bufferBytes chunks 0 [] result
    let (hash, result) ← verifyHashSpan shardIndex bufferBytes (fileBytes - cursor) cursor fileBytes
      hash result
    validateAfter shardIndex
    return (rest, hash, result)
  Call.locked .poison (Session.sealShard shardIndex hash)
  return (rest, result)

def verifyShards (bufferBytes : Nat) :
    List Shard → Nat → List Chunk → StreamResult → Call (List Chunk × StreamResult)
  | [], _, chunks, result => return (chunks, result)
  | shard :: rest, shardIndex, chunks, result => do
    let (chunks, result) ← verifyShard bufferBytes shardIndex shard.fileBytes chunks result
    verifyShards bufferBytes rest (shardIndex + 1) chunks result

def verifyBegin : Option Plan → Call Unit
  | none => return
  | some plan => do
    let accepted ← Call.ask (.sinkBegin plan.summary)
    Call.lift (demand accepted ⟨.consumer, .state, "payload consumer refused trust-stream begin",
      none, none, plan.summary.logicalBytes, 0⟩)

def verifyBody (plan : Option Plan) (bufferBytes : Nat) (shards : List Shard) :
    Call StreamResult := do
  verifyBegin plan
  let requested := (plan.map fun plan => plan.summary.logicalBytes).getD 0
  let (left, result) ← verifyShards bufferBytes shards 0 ((plan.map Plan.chunks).getD [])
    ⟨requested, 0, 0, 0⟩
  Call.lift (demand (left.isEmpty && (plan.isNone || result.deliveredLogicalBytes == requested))
    ⟨.shortRead, .io, "trust stream did not cover its complete delivery plan", none, none,
      requested, result.deliveredLogicalBytes⟩)
  Call.locked .poison identityCompute
  let published ← Call.ask .publishManifest
  Call.lift (published.mapError fun rejection => ⟨.io, rejection.status,
    "trusted payload manifest publication failed", none, none, result.physicalBytesRead,
    result.deliveredLogicalBytes⟩)
  Call.locked .ready fun session => (.ok (), { session with state := .ready })
  return result

def Session.resetTrust (session : Session) : Session :=
  { session with
    trustClass := .none
    trustedShardCount := 0
    payloadIdentity := .ofBytes []
    shards := session.shards.map fun shard => { shard with trustClass := .none }
    ranges := session.ranges.map fun range => { range with trustClass := .none } }

/-- A failed verification leaves its state, unless the session is ready. -/
def Session.failVerify (session : Session) : Session :=
  let released := if session.state = .verifying then { session with state := .untrusted } else
    session
  if released.state = .ready then released else released.resetTrust

def sessionVerify (plan : Option Plan) : Call StreamResult := do
  -- only what never changes is read of this session: its budget and the sizes of the shards
  let session ← Call.locked .other fun session => (.ok session, session)
  let bufferBytes := (plan.map fun plan => plan.summary.chunkBytes).getD session.budget.chunkBytes
  Call.locked .enter (Session.enter bufferBytes .untrusted .verifying)
  match ← (Call.locked .other (Session.acquireBuffer bufferBytes)).outcome with
  | .error failure => do
    Call.update Session.failVerify
    abandon false none bufferBytes failure
  | .ok slot =>
    match ← (verifyBody plan bufferBytes session.shards).outcome with
    | .error failure => do
      Call.update Session.failVerify
      abandon plan.isSome (some slot) bufferBytes failure
    | .ok result =>
      if plan.isSome then
        commit slot bufferBytes result "payload consumer refused trust-stream commit"
      else do
        bufferRelease (some slot)
        Call.update (Session.leave bufferBytes)
        return result

end Verify

/-! ## Building plans -/

/-- The chunks of a range from an offset on, a round for every byte at most. -/
def rangeChunks (range : NumberedRange) (rangeOrdinal chunkBytes pageBytes : Nat) :
    Nat → Nat → Nat → List Chunk
  | 0, _, _ => []
  | fuel + 1, logicalOffset, ordinal =>
    if range.byteLength ≤ logicalOffset then [] else
      let length := min (range.byteLength - logicalOffset) chunkBytes
      let absolute := range.absoluteBegin + logicalOffset
      { ordinal
        rangeOrdinal
        sourceTensorIndex := range.sourceTensorIndex
        sourceTensorName := range.sourceTensorName
        shardIndex := range.shardIndex
        logicalOffset
        absoluteOffset := absolute
        byteLength := length
        firstPage := absolute / pageBytes
        lastPage := (absolute + length - 1) / pageBytes } ::
      rangeChunks range rangeOrdinal chunkBytes pageBytes fuel (logicalOffset + length)
        (ordinal + 1)

def planChunks (chunkBytes pageBytes : Nat) : List NumberedRange → Nat → Nat → List Chunk
  | [], _, _ => []
  | range :: rest, rangeOrdinal, ordinal =>
    let chunks := rangeChunks range rangeOrdinal chunkBytes pageBytes range.byteLength 0 ordinal
    chunks ++ planChunks chunkBytes pageBytes rest (rangeOrdinal + 1) (ordinal + chunks.length)

def planTotals (chunkBytes pageBytes : Nat) (ranges : List NumberedRange) :
    Except Failure (Nat × Nat × Nat) :=
  ranges.foldlM (fun (chunkCount, logicalBytes, pageCount) range =>
    let chunks := range.byteLength / chunkBytes + if range.byteLength % chunkBytes = 0 then 0 else 1
    let pages := (range.absoluteEnd - 1) / pageBytes - range.absoluteBegin / pageBytes + 1
    orFail (do
        let chunkCount ← u64Add chunkCount chunks
        let logicalBytes ← u64Add logicalBytes range.byteLength
        let pageCount ← u64Add pageCount pages
        return (chunkCount, logicalBytes, pageCount))
      ⟨.rangeOverflow, .bounds, "payload plan accounting overflow", some range.shardIndex,
        some range.sourceTensorIndex, range.byteLength, 0⟩) (0, 0, 0)

def checkRepeats : List NumberedRange → Except Failure Unit
  | prior :: next :: rest => do
    demand (prior.sourceTensorIndex != next.sourceTensorIndex) ⟨.duplicateTensor, .format,
      "payload plan repeats a source tensor", none, some next.sourceTensorIndex, 0, 0⟩
    checkRepeats (next :: rest)
  | _ => .ok ()

def planOf (budget : Budget) (ranges : List NumberedRange) (chunkBytes pageBytes : Nat) :
    Except Failure Plan := do
  let (chunkCount, logicalBytes, pageCount) ← planTotals chunkBytes pageBytes ranges
  let sorted := ranges.insertionSort NumberedRange.Precedes
  checkRepeats sorted
  demand (decide (chunkCount ≤ budget.maximumPlanChunks)) ⟨.resourceBudget, .bounds,
    "payload chunk map exceeds addressable memory", none, none, chunkCount, 0⟩
  return ⟨sorted, planChunks chunkBytes pageBytes sorted 0 0,
    ⟨ranges.length, chunkCount, logicalBytes, pageCount, chunkBytes, pageBytes⟩⟩

def Session.selectRanges (tensorIndices : List Nat) (session : Session) :
    Except Failure (List NumberedRange) × Session :=
  if session.state ≠ .untrusted ∧ session.state ≠ .ready then
    (.error ⟨.invalidState, .state, "payload plans require an idle usable session", none, none,
      0, 0⟩, session)
  else
    match tensorIndices.find? fun index => session.ranges.length ≤ index with
    | some absent => (.error ⟨.tensorNotIndexed, .bounds, "selected tensor index is absent", none,
        some absent, 0, 0⟩, session)
    | none => (.ok (tensorIndices.filterMap fun index =>
          session.ranges[index]?.map fun range => ⟨range, index⟩),
        { session with activePlans := session.activePlans + 1 })

/-- The locked part of `yvex_source_payload_plan_close`. -/
def Session.closePlan (session : Session) : Session :=
  { session with activePlans := session.activePlans - 1 }

def planClose : Call Unit := Call.update Session.closePlan

/-- `yvex_source_payload_plan_build`. Without a selection all tensors are taken. -/
def planBuild (selection : Option (List Nat)) (chunkBytes pageBytes : Nat) : Call Plan := do
  let session ← Call.locked .other fun session => (.ok session, session)
  let tensorIndices := selection.getD (List.range session.ranges.length)
  Call.lift (demand (!tensorIndices.isEmpty) ⟨.invalidArgument, .invalidArgument,
    "session and a nonempty tensor selection are required", none, none, 0, 0⟩)
  let chunkBytes := if chunkBytes = 0 then session.budget.chunkBytes else chunkBytes
  let pageBytes := if pageBytes = 0 then session.budget.pageBytes else pageBytes
  Call.lift (demand (decide (minChunkBytes ≤ chunkBytes) && decide (chunkBytes ≤ maxChunkBytes) &&
      decide (chunkBytes ≤ session.budget.chunkBytes) && isPowerOfTwo pageBytes)
    ⟨.invalidChunk, .bounds, "chunk or page configuration is outside session bounds", none, none,
      chunkBytes, 0⟩)
  let ranges ← Call.locked .other (Session.selectRanges tensorIndices)
  match planOf session.budget ranges chunkBytes pageBytes with
  | .error failure => do
    planClose
    Call.fail failure
  | .ok plan => return plan

/-! ## Probes and cancellation -/

inductive ProbeMode where
  | coldAdvisory
  | warm
  | repeated
  | staged
deriving DecidableEq

def probeAdvice : List NumberedRange → Call Unit
  | [] => return
  | range :: rest => do
    handleAcquire .probeAcquire range.shardIndex
    handleRelease range.shardIndex
    probeAdvice rest

def probeStages (summary : PlanSummary) : List NumberedRange → Call Unit
  | [] => return
  | range :: rest => do
    let stage ← planBuild (some [range.sourceTensorIndex]) summary.chunkBytes summary.pageBytes
    let outcome ← (sessionStream stage).outcome
    planClose
    let _ ← Call.lift outcome
    probeStages summary rest

def probeRound (plan : Plan) (mode : ProbeMode) : Call Unit :=
  if mode = .staged then probeStages plan.summary plan.ranges
  else do
    let _ ← sessionStream plan
    return

def probeRounds (plan : Plan) (mode : ProbeMode) : Nat → Call Unit
  | 0 => return
  | repetitions + 1 => do
    probeRound plan mode
    probeRounds plan mode repetitions

def sessionProbe (plan : Plan) (mode : ProbeMode) (repetitions : Nat) : Call Unit := do
  Call.lift (demand (repetitions != 0) ⟨.invalidArgument, .invalidArgument,
    "valid probe session, plan, mode, and repetition count are required", none, none, 0, 0⟩)
  probeAdvice (if mode = .coldAdvisory then plan.ranges else [])
  probeRounds plan mode repetitions

def sessionCancel : Call Unit :=
  Call.locked .other fun session =>
    if session.state = .closed then
      (.error ⟨.invalidState, .state, "closed payload session cannot be cancelled", none, none,
        0, 0⟩, session)
    else (.ok (), { session with cancelled := true })

def sessionResetCancel : Call Unit :=
  Call.locked .other fun session =>
    if session.activeStreams ≠ 0 ∨ session.state ≠ .ready ∧ session.state ≠ .untrusted then
      (.error ⟨.invalidState, .state, "cancellation can reset only on an idle usable session", none,
        none, 0, 0⟩, session)
    else (.ok (), { session with cancelled := false })

inductive PayloadCall where
  | verify (plan : Option Plan)
  | stream (plan : Plan)
  | probe (plan : Plan) (mode : ProbeMode) (repetitions : Nat)
  | planBuild (selection : Option (List Nat)) (chunkBytes pageBytes : Nat)
  | planClose
  | cancel
  | resetCancel

def Call.forget (call : Call α) : Program Session payloadInterface Unit :=
  call.run.bind fun _ => .done ()

def PayloadCall.program [Sha256Hex] : PayloadCall → Program Session payloadInterface Unit
  | .verify plan => (sessionVerify plan).forget
  | .stream plan => (sessionStream plan).forget
  | .probe plan mode repetitions => (sessionProbe plan mode repetitions).forget
  | .planBuild selection chunkBytes pageBytes =>
    (Source.planBuild selection chunkBytes pageBytes).forget
  | .planClose => Source.planClose.forget
  | .cancel => sessionCancel.forget
  | .resetCancel => sessionResetCancel.forget

end Yvex.Source
