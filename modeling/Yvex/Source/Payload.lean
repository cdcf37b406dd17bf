import Mathlib.Data.List.Sort
import Yvex.Provider.Request

namespace Yvex.Source

open Provider (Sha256Hex hashText)

/-! # Payload sessions

A payload session admits the shards of a verified tensor snapshot and gives every tensor its range
of bytes in a shard. -/

inductive FailureCode where
  | invalidArgument
  | invalidState
  | metadataNotVerified
  | payloadNotTrusted
  | manifestVersionUnsupported
  | sourceIdentityMismatch
  | payloadIdentityMismatch
  | duplicateShard
  | duplicateTensor
  | shardNotIndexed
  | tensorNotIndexed
  | pathEscape
  | symlinkRefused
  | shardOpen
  | nonRegularShard
  | stat
  | shardSizeMismatch
  | shardDrift
  | expectedDigestUnavailable
  | digestAlgorithmUnsupported
  | digestMismatch
  | rangeOverflow
  | rangeOutsideDataRegion
  | rangeOutsideFile
  | tensorLengthMismatch
  | invalidChunk
  | resourceBudget
  | handleCacheExhausted
  | shortRead
  | io
  | consumer
  | cancelled
  | cleanup

/-- What `yvex_source_payload_fail` writes. An index that is `ULLONG_MAX` is absent here. -/
structure Failure where
  code : FailureCode
  status : Status
  message : String
  shardIndex : Option Nat := none
  tensorIndex : Option Nat := none
  requestedBytes : Nat := 0
  deliveredBytes : Nat := 0

def demand (condition : Bool) (failure : Failure) : Except Failure Unit :=
  if condition then .ok () else .error failure

def orFail (value : Option α) (failure : Failure) : Except Failure α :=
  match value with
  | some value => .ok value
  | none => .error failure

theorem demand_eq_ok {failure : Failure} :
    demand condition failure = .ok result ↔ condition = true := by
  cases condition <;> simp [demand]

theorem orFail_eq_ok {failure : Failure} :
    orFail value failure = .ok result ↔ value = some result := by
  cases value <;> simp [orFail]

inductive NativeDtype where
  | unknown
  | f64
  | f32
  | f16
  | bf16
  | i64
  | i32
  | i16
  | i8
  | u8
  | bool
  | f8E4M3
  | f8E5M2
  | f8E8M0
  | fp4
  | other
deriving DecidableEq

/-- A row of `yvex_native_weight_info`. -/
structure NativeWeightInfo where
  name : CString
  shardPath : CString
  dtype : NativeDtype
  dims : List Nat
  dataStart : Nat
  dataEnd : Nat

/-- `yvex_native_weight_table_add` writes the difference of the offsets. -/
def NativeWeightInfo.dataBytes (tensor : NativeWeightInfo) : Nat := tensor.dataEnd - tensor.dataStart

structure ShardSnapshot where
  canonicalId : Nat
  canonicalName : CString
  fileBytes : Nat
  dataRegionOffset : Nat
  payloadBytes : Nat

structure TensorSnapshot where
  rows : List NativeWeightInfo
  shards : List ShardSnapshot
  identity : Nat

/-- `yvex_source_tensor_snapshot_shard_find`, a binary search in a sorted catalogue. -/
def TensorSnapshot.shardFind (snapshot : TensorSnapshot) (name : CString) : Option ShardSnapshot :=
  snapshot.shards.find? fun shard => shard.canonicalName = name

def tensorElements (dims : List Nat) : Option Nat :=
  dims.foldlM (fun elements dimension => do
    ensure (dimension != 0)
    u64Mul elements dimension) 1

def NativeDtype.width : NativeDtype → Option Nat
  | .f64 | .i64 => some 8
  | .f32 | .i32 => some 4
  | .f16 | .bf16 | .i16 => some 2
  | .i8 | .u8 | .bool | .f8E4M3 | .f8E5M2 | .f8E8M0 => some 1
  | .unknown | .fp4 | .other => none

def payloadTensorStorage (tensor : NativeWeightInfo) : Option Nat := do
  let elements ← tensorElements tensor.dims
  if tensor.dtype = .fp4 then do
    ensure (elements % 2 == 0)
    return elements / 2
  else do
    let width ← tensor.dtype.width
    u64Mul elements width

structure Budget where
  maximumShards : Nat
  maximumTensors : Nat
  maximumPlanChunks : Nat
  maximumOpenHandles : Nat
  maximumStreams : Nat
  chunkBytes : Nat
  pageBytes : Nat
  maximumInflightHostBytes : Nat
  allowLocalSnapshotSeal : Bool

def minChunkBytes : Nat := 4096

def maxChunkBytes : Nat := 64 * 1024 * 1024

def isPowerOfTwo (value : Nat) : Bool := value != 0 && value &&& (value - 1) == 0

def Budget.valid (budget : Budget) : Bool :=
  budget.maximumShards != 0 && budget.maximumTensors != 0 && budget.maximumPlanChunks != 0 &&
    budget.maximumOpenHandles != 0 && budget.maximumStreams != 0 &&
    decide (minChunkBytes ≤ budget.chunkBytes) && decide (budget.chunkBytes ≤ maxChunkBytes) &&
    isPowerOfTwo budget.pageBytes && decide (budget.chunkBytes ≤ budget.maximumInflightHostBytes)

inductive TrustClass where
  | none
  | localSnapshotSealed
  | upstreamVerified
deriving DecidableEq

structure FileIdentity where
  device : Nat
  inode : Nat
  size : Nat
  mtime : Int × Int
  ctime : Int × Int
deriving DecidableEq

/-- What is read of `struct stat`. -/
structure FileStat where
  regular : Bool
  identity : FileIdentity

/-- `yvex_source_payload_owned_shard`. A digest that is not there is empty. -/
structure Shard where
  name : CString
  dataRegionOffset : Nat
  payloadBytes : Nat
  expectedDigest : CString
  observedDigest : CString
  digestAlgorithm : CString
  digestAuthority : CString
  trustClass : TrustClass
  admittedIdentity : FileIdentity

/-- `public_fact.file_bytes`, which the admission compares with the size of the file. -/
def Shard.fileBytes (shard : Shard) : Nat := shard.admittedIdentity.size

/-- `yvex_source_payload_range`, without its position among the ranges of the session. -/
structure Range where
  sourceTensorName : CString
  shardIndex : Nat
  dataRegionOffset : Nat
  relativeBegin : Nat
  relativeEnd : Nat
  dtype : NativeDtype
  dims : List Nat
  trustClass : TrustClass

namespace Range

variable (range : Range)

def absoluteBegin : Nat := range.dataRegionOffset + range.relativeBegin

def absoluteEnd : Nat := range.dataRegionOffset + range.relativeEnd

def byteLength : Nat := range.relativeEnd - range.relativeBegin

end Range

/-- A range with the position at which the session keeps it, `source_tensor_index`. -/
structure NumberedRange extends Range where
  sourceTensorIndex : Nat

def numbered (ranges : List Range) : List NumberedRange :=
  ranges.zipIdx.map fun (range, index) => ⟨range, index⟩

inductive SessionState where
  | constructing
  | untrusted
  | verifying
  | ready
  | poisoned
  | closed
deriving DecidableEq

/-- `yvex_source_payload_handle` with an open descriptor. -/
structure Handle where
  shardIndex : Nat
  pins : Nat
  useTick : Nat

structure Buffer where
  capacity : Option Nat
  inUse : Bool

structure SourceFacts where
  targetId : CString
  familyKey : CString
  repositoryId : CString
  revision : CString
  sourceSnapshotIdentity : Nat
  manifestPayloadTrusted : Bool
  manifestPayloadIdentity : CString

structure Session where
  state : SessionState
  cancelled : Bool
  budget : Budget
  facts : SourceFacts
  shards : List Shard
  ranges : List Range
  handles : List (Option Handle)
  buffers : List Buffer
  logicalTensorBytes : Nat
  useTick : Nat
  activePlans : Nat
  activeStreams : Nat
  inflightHostBytes : Nat
  payloadIdentity : CString
  trustClass : TrustClass
  trustedShardCount : Nat

end Yvex.Source
