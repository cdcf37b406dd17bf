import Yvex.Source.Payload

namespace Yvex.Source

open Provider (Sha256Hex hashText)

/-! # Opening a payload session -/

def label (text : String) : CString := .ofBytes (Ir.ascii text)

/-- `yvex_core_text_copy` into an array of the given capacity. -/
def textCopy (capacity : Nat) (text : CString) : CString := .ofBytes (text.bytes.take (capacity - 1))

def hexValid (text : CString) : Bool := Ir.sha256HexValid text.bytes

def pathCap : Nat := 4096

/-- `yvex_source_payload_name_is_canonical`: no segment is empty, the directory itself or its
parent. -/
def nameIsCanonical (name : CString) : Bool :=
  (name.bytes.all fun byte => byte != 92 && byte != 10 && byte != 13) &&
    (name.bytes.splitOn 47).all fun segment => segment != [] && segment != [46] && segment !=
      [46, 46]

/-- A file of `yvex_source_acquisition`, with its size in the verified identity. -/
structure AcquiredFile where
  path : CString
  isShard : Bool
  expectedSha256 : CString
  actualSha256 : CString
  localIdentityVerified : Bool
  verifiedIdentity : FileIdentity

structure Acquisition where
  complete : Bool
  acquisitionIdentity : CString
  repository : CString
  revision : CString
  files : List AcquiredFile

/-- What is read of `yvex_source_target_identity`. -/
structure TargetIdentity where
  targetId : CString
  familyKey : CString
  upstreamRepoId : CString
  upstreamRevision : CString

/-- What is read of `yvex_source_verification`. -/
structure Verification where
  verified : Bool
  manifestVerified : Bool
  headerScanCount : Nat
  blockers : List CString
  repositoryId : CString
  revision : CString
  manifestTargetId : CString
  sourceSnapshotIdentity : Nat
  manifestPayloadTrusted : Bool
  manifestPayloadIdentity : CString
  manifestPayloadTrustClass : CString
  manifestPayloadShardCount : Nat
  manifestPayloadTensorCount : Nat
  manifestPayloadLogicalTensorBytes : Nat

inductive Authority where
  | acquired (acquisition : Acquisition) (sourceRoot targetId familyKey payloadIdentity : CString)
      (sourceSnapshotIdentity : Nat)
  | verified (identity : TargetIdentity) (verification : Verification)

def Authority.acquisition : Authority → Option Acquisition
  | .acquired acquisition _ _ _ _ _ => some acquisition
  | .verified _ _ => none

def Authority.expectedSnapshotIdentity : Authority → Nat
  | .acquired _ _ _ _ _ identity => identity
  | .verified _ verification => verification.sourceSnapshotIdentity

def Authority.resolve : Authority → Except Failure Unit
  | .acquired acquisition sourceRoot targetId familyKey payloadIdentity sourceSnapshotIdentity =>
    demand (acquisition.complete && !sourceRoot.isEmpty && !targetId.isEmpty &&
        !familyKey.isEmpty && hexValid payloadIdentity &&
        payloadIdentity == acquisition.acquisitionIdentity && sourceSnapshotIdentity != 0)
      ⟨.metadataNotVerified, .state, "complete acquired source identity facts are required",
        none, none, 0, 0⟩
  | .verified identity verification => do
    demand (verification.verified && verification.manifestVerified &&
        verification.headerScanCount == 1)
      ⟨if verification.blockers.contains (label "unsupported-source-manifest-version")
          then .manifestVersionUnsupported else .metadataNotVerified,
        .state, "exact source metadata/header verification is required", none, none, 0, 0⟩
    demand (decide (identity.targetId.bytes.length < 128) &&
        decide (identity.familyKey.bytes.length < 64) &&
        decide (identity.upstreamRepoId.bytes.length < 256) &&
        verification.repositoryId == identity.upstreamRepoId &&
        verification.revision == identity.upstreamRevision &&
        (verification.manifestTargetId.isEmpty ||
          verification.manifestTargetId == identity.targetId))
      ⟨.sourceIdentityMismatch, .format, "verified source and target identity do not match",
        none, none, 0, 0⟩

def Authority.sourceFacts : Authority → SourceFacts
  | .acquired acquisition _ targetId familyKey payloadIdentity sourceSnapshotIdentity =>
    { targetId := textCopy 128 targetId
      familyKey := textCopy 64 familyKey
      repositoryId := textCopy 256 acquisition.repository
      revision := acquisition.revision
      sourceSnapshotIdentity
      manifestPayloadTrusted := true
      manifestPayloadIdentity := payloadIdentity }
  | .verified identity verification =>
    { targetId := identity.targetId
      familyKey := identity.familyKey
      repositoryId := identity.upstreamRepoId
      revision := verification.revision
      sourceSnapshotIdentity := verification.sourceSnapshotIdentity
      manifestPayloadTrusted := verification.manifestPayloadTrusted
      manifestPayloadIdentity := verification.manifestPayloadIdentity }

/-- An attempt to open a file: it can meet a link, and its descriptor may have no status or fail to
close. -/
inductive Opening where
  | failed (link : Bool)
  | opened (status : Option FileStat) (closes : Bool)

structure Host where
  root : Opening
  rootLocked : Bool
  shard : CString → Opening
  payloadDigest : CString → Except Rejection (Option CString)

structure OpenOptions where
  snapshot : TensorSnapshot
  budget : Budget
  authority : Authority

/-- `payload_open_relative` for a name the host may still refuse. -/
def Host.openRelative (host : Host) (name : CString) : Opening :=
  if nameIsCanonical name && decide (name.bytes.length < pathCap) then host.shard name
  else .failed false

/-- `payload_admit_shard`. The descriptor of a shard beyond the handles is closed. -/
def admitShard (host : Host) (name : CString) (fileBytes index : Nat) (kept : Bool) :
    Except Failure FileIdentity :=
  match host.openRelative name with
  | .failed link => .error
      (if link then ⟨.symlinkRefused, .io, "source shard symlink refused", some index, none, 0, 0⟩
      else ⟨.shardOpen, .io, "source shard open failed", some index, none, 0, 0⟩)
  | .opened status closes => do
    let status ← orFail status ⟨.stat, .io, "source shard fstat failed", some index, none, 0, 0⟩
    demand status.regular
      ⟨.nonRegularShard, .format, "source shard is not a regular file", some index, none, 0, 0⟩
    demand (status.identity.size == fileBytes) ⟨.shardSizeMismatch, .format,
      "source shard size differs from verified snapshot", some index, none, fileBytes,
      status.identity.size⟩
    demand (kept || closes)
      ⟨.cleanup, .io, "source shard admission close failed", some index, none, 0, 0⟩
    return status.identity

structure DigestFact where
  expected : CString
  observed : CString
  authority : CString
  trustClass : TrustClass

def acquiredFile (acquisition : Acquisition) (source : ShardSnapshot) (index : Nat) :
    Except Failure AcquiredFile :=
  orFail ((acquisition.files.find? fun file => file.path = source.canonicalName).filter fun file =>
      file.isShard && file.verifiedIdentity.size == source.fileBytes &&
        hexValid file.actualSha256 && file.expectedSha256 == file.actualSha256 &&
        file.localIdentityVerified)
    ⟨.expectedDigestUnavailable, .format,
      "acquired shard lacks one verified SHA-256 and local-file identity", some index, none, 1, 0⟩

def providerDigest (host : Host) (budget : Budget) (source : ShardSnapshot) (index : Nat) :
    Except Failure DigestFact :=
  match host.payloadDigest source.canonicalName with
  | .error rejection => .error ⟨.digestAlgorithmUnsupported, rejection.status,
      "invalid provider payload digest fact", some index, none, 0, 0⟩
  | .ok (some digest) => .ok ⟨digest, .ofBytes [], label "huggingface-git-lfs-etag", .none⟩
  | .ok none => do
    demand budget.allowLocalSnapshotSeal ⟨.expectedDigestUnavailable, .unsupported,
      "authoritative payload digest unavailable", some index, none, 0, 0⟩
    return ⟨.ofBytes [], .ofBytes [], label "local-snapshot-seal", .none⟩

section

variable (options : OpenOptions) (host : Host) (source : ShardSnapshot)

/-- The expected digest of a shard, and the identity its file had when that digest was taken. -/
def digestFact (index : Nat) : Except Failure (DigestFact × Option FileIdentity) :=
  match options.authority.acquisition with
  | some acquisition => do
    let file ← acquiredFile acquisition source index
    return (⟨file.actualSha256, file.actualSha256, label "verified-source-acquisition",
      .upstreamVerified⟩, some file.verifiedIdentity)
  | none => do
    let fact ← providerDigest host options.budget source index
    return (fact, none)

def indexShard (index : Nat) : Except Failure Shard := do
  demand (source.canonicalId == index && nameIsCanonical source.canonicalName)
    ⟨.pathEscape, .format, "invalid canonical source shard catalog", some index, none, 0, 0⟩
  let (digest, verifiedIdentity) ← digestFact options host source index
  let identity ← admitShard host source.canonicalName source.fileBytes index
    (decide (index < options.budget.maximumOpenHandles))
  demand (verifiedIdentity.all (· = identity))
    ⟨.shardDrift, .format, "acquired shard identity changed after complete SHA-256 verification",
      some index, none, 1, 0⟩
  return { name := source.canonicalName
           dataRegionOffset := source.dataRegionOffset
           payloadBytes := source.payloadBytes
           expectedDigest := digest.expected
           observedDigest := digest.observed
           digestAlgorithm := label "sha256"
           digestAuthority := digest.authority
           trustClass := digest.trustClass
           admittedIdentity := identity }

def indexShards (options : OpenOptions) (host : Host) :
    List ShardSnapshot → Nat → Except Failure (List Shard)
  | [], _ => .ok []
  | source :: rest, index => do
    let shard ← indexShard options host source index
    let shards ← indexShards options host rest (index + 1)
    return shard :: shards

/-- `yvex_shard_index_init`: the names increase. -/
def shardIndexInit (budget : Budget) (shards : List Shard) : Except Failure Unit := do
  demand (decide (shards.length ≤ budget.maximumShards)) ⟨.resourceBudget, .bounds,
    "canonical source shard index admission failed", none, none, shards.length, 0⟩
  demand (decide (shards.IsChain fun prior next => prior.name.bytes < next.name.bytes))
    ⟨.duplicateShard, .format, "canonical source shard index admission failed", none, none,
      shards.length, 0⟩

/-- `payload_index_range`, with the bytes of the tensors so far. -/
def indexRange (snapshot : TensorSnapshot) (tensor : NativeWeightInfo) (index total : Nat) :
    Except Failure (Range × Nat) := do
  let shard ← orFail (snapshot.shardFind tensor.shardPath) ⟨.shardNotIndexed, .format,
    "tensor refers to an absent source shard", none, some index, 0, 0⟩
  demand (decide (tensor.dataStart < tensor.dataEnd) &&
      decide (tensor.dataEnd ≤ shard.payloadBytes))
    ⟨.rangeOutsideDataRegion, .bounds, "tensor range lies outside source data region",
      some shard.canonicalId, some index, tensor.dataBytes, 0⟩
  demand (payloadTensorStorage tensor == some tensor.dataBytes) ⟨.tensorLengthMismatch, .format,
    "tensor dtype and shape disagree with verified byte range", some shard.canonicalId, some index,
    tensor.dataBytes, (payloadTensorStorage tensor).getD 0⟩
  let overflow : Failure := ⟨.rangeOverflow, .bounds, "tensor absolute range overflow",
    some shard.canonicalId, some index, tensor.dataBytes, 0⟩
  let absoluteBegin ← orFail (u64Add shard.dataRegionOffset tensor.dataStart) overflow
  let absoluteEnd ← orFail (u64Add shard.dataRegionOffset tensor.dataEnd) overflow
  demand (decide (absoluteEnd ≤ shard.fileBytes) && decide (absoluteBegin ≤ absoluteEnd))
    ⟨.rangeOutsideFile, .bounds, "tensor range exceeds source file", some shard.canonicalId,
      some index, tensor.dataBytes, 0⟩
  let sum ← orFail (u64Add total tensor.dataBytes) ⟨.rangeOverflow, .bounds,
    "aggregate tensor byte count overflow", some shard.canonicalId, some index, tensor.dataBytes, 0⟩
  return ({ sourceTensorName := tensor.name
            shardIndex := shard.canonicalId
            dataRegionOffset := shard.dataRegionOffset
            relativeBegin := tensor.dataStart
            relativeEnd := tensor.dataEnd
            dtype := tensor.dtype
            dims := tensor.dims
            trustClass := .none }, sum)

def indexRanges (snapshot : TensorSnapshot) :
    List NativeWeightInfo → Nat → Nat → Except Failure (List Range × Nat)
  | [], _, total => .ok ([], total)
  | tensor :: rest, index, total => do
    let (range, sum) ← indexRange snapshot tensor index total
    let (ranges, final) ← indexRanges snapshot rest (index + 1) sum
    return (range :: ranges, final)

def NumberedRange.Precedes (left right : NumberedRange) : Prop :=
  left.shardIndex < right.shardIndex ∨ left.shardIndex = right.shardIndex ∧
    (left.absoluteBegin < right.absoluteBegin ∨ left.absoluteBegin = right.absoluteBegin ∧
      (left.absoluteEnd < right.absoluteEnd ∨ left.absoluteEnd = right.absoluteEnd ∧
        left.sourceTensorIndex ≤ right.sourceTensorIndex))

instance : DecidableRel NumberedRange.Precedes := fun left right =>
  inferInstanceAs (Decidable (left.shardIndex < right.shardIndex ∨ _))

def checkNeighbours : List NumberedRange → Except Failure Unit
  | prior :: next :: rest => do
    demand (!(prior.shardIndex == next.shardIndex &&
        decide (next.absoluteBegin < prior.absoluteEnd)))
      ⟨.duplicateTensor, .format, "source tensor payload ranges overlap", some next.shardIndex,
        some next.sourceTensorIndex, next.byteLength, 0⟩
    checkNeighbours (next :: rest)
  | _ => .ok ()

def buildIndexes : Except Failure (List Shard × List Range × Nat) := do
  let shards ← indexShards options host options.snapshot.shards 0
  shardIndexInit options.budget shards
  let (ranges, total) ← indexRanges options.snapshot options.snapshot.rows 0 0
  checkNeighbours ((numbered ranges).insertionSort NumberedRange.Precedes)
  return (shards, ranges, total)

end

def TrustClass.name : TrustClass → CString
  | .localSnapshotSealed => label "local_payload_snapshot_sealed"
  | .upstreamVerified => label "upstream_payload_verified"
  | .none => label "payload_not_trusted"

def hashU64 (value : Nat) : Bytes := (bigEndian 8 value).reverse

def Shard.stream (shard : Shard) (index : Nat) : Bytes :=
  hashU64 index ++ hashText shard.name ++ hashU64 shard.fileBytes ++
    hashText shard.digestAlgorithm ++ hashText shard.observedDigest ++
    hashText shard.trustClass.name

def identityStream (facts : SourceFacts) (shards : List Shard) : Bytes :=
  hashText (label "yvex.source_manifest.v3") ++ hashText facts.targetId ++
    hashText facts.repositoryId ++ hashText facts.revision ++
    hashU64 facts.sourceSnapshotIdentity ++ hashU64 shards.length ++
    shards.zipIdx.flatMap fun (shard, index) => shard.stream index

def aggregateTrust (shards : List Shard) : TrustClass :=
  if shards.any fun shard => shard.trustClass = .localSnapshotSealed then .localSnapshotSealed
  else .upstreamVerified

section Digest

variable [Sha256Hex]

/-- `yvex_source_payload_identity_compute`. An identity that is not the published one poisons. -/
def identityCompute (session : Session) : Except Failure Unit × Session :=
  if session.facts.targetId.isEmpty || session.facts.familyKey.isEmpty ||
      session.facts.repositoryId.isEmpty then
    (.error ⟨.invalidArgument, .invalidArgument, "payload session identity facts are required",
      none, none, 0, 0⟩, session)
  else
    match session.shards.findIdx? fun shard =>
        shard.observedDigest.isEmpty || shard.trustClass = .none with
    | some index => (.error ⟨.payloadNotTrusted, .state,
        "all shard digests must complete before identity", some index, none, 0, 0⟩, session)
    | none =>
      let identity := Sha256Hex.digest (identityStream session.facts session.shards)
      if session.facts.manifestPayloadTrusted && !session.facts.manifestPayloadIdentity.isEmpty &&
          identity != session.facts.manifestPayloadIdentity then
        (.error ⟨.payloadIdentityMismatch, .format,
          "observed payload set does not match the published snapshot identity", none, none, 0, 0⟩,
          { session with state := .poisoned })
      else
        let aggregate := aggregateTrust session.shards
        (.ok (), { session with
          payloadIdentity := identity
          trustClass := aggregate
          trustedShardCount := session.shards.length
          ranges := session.ranges.map fun range => { range with trustClass := aggregate } })

def restorePublishedTrust (verification : Verification) (session : Session) :
    Except Failure Session := do
  if !(verification.manifestPayloadTrusted &&
      verification.manifestPayloadTrustClass == label "upstream_payload_verified") then
    return session
  else do
    demand (verification.manifestPayloadShardCount == session.shards.length &&
        verification.manifestPayloadTensorCount == session.ranges.length &&
        verification.manifestPayloadLogicalTensorBytes == session.logicalTensorBytes &&
        hexValid verification.manifestPayloadIdentity)
      ⟨.payloadIdentityMismatch, .format,
        "published payload aggregate facts do not match the admitted snapshot", none, none,
        session.ranges.length, verification.manifestPayloadTensorCount⟩
    demand (session.shards.all fun shard => hexValid shard.expectedDigest &&
        shard.digestAlgorithm == label "sha256" &&
        shard.digestAuthority == label "huggingface-git-lfs-etag")
      ⟨.expectedDigestUnavailable, .unsupported,
        "published upstream trust requires an authoritative shard digest",
        session.shards.findIdx? fun shard => !(hexValid shard.expectedDigest &&
          shard.digestAlgorithm == label "sha256" &&
          shard.digestAuthority == label "huggingface-git-lfs-etag"), none, 1, 0⟩
    let (outcome, computed) := identityCompute { session with
      shards := session.shards.map fun shard =>
        { shard with observedDigest := shard.expectedDigest, trustClass := .upstreamVerified } }
    let _ ← outcome
    return { computed with state := .ready }

def trustAcquired (payloadIdentity : CString) (session : Session) : Session :=
  { session with
    payloadIdentity
    trustClass := .upstreamVerified
    trustedShardCount := session.shards.length
    ranges := session.ranges.map fun range => { range with trustClass := .upstreamVerified }
    state := .ready }

def initialHandles (budget : Budget) (shards : List Shard) : List (Option Handle) :=
  (List.range budget.maximumOpenHandles).map fun slot =>
    if slot < shards.length then some ⟨slot, 0, slot + 1⟩ else none

variable (options : OpenOptions)

def indexedSession (shards : List Shard) (ranges : List Range) (total : Nat) : Session where
  state := .untrusted
  cancelled := false
  budget := options.budget
  facts := options.authority.sourceFacts
  shards := shards
  ranges := ranges
  handles := initialHandles options.budget shards
  buffers := List.replicate options.budget.maximumStreams ⟨none, false⟩
  logicalTensorBytes := total
  useTick := min shards.length options.budget.maximumOpenHandles
  activePlans := 0
  activeStreams := 0
  inflightHostBytes := 0
  payloadIdentity := .ofBytes []
  trustClass := .none
  trustedShardCount := 0

def openRoot (host : Host) : Except Failure Unit :=
  match host.root with
  | .failed link => .error ⟨if link then .symlinkRefused else .shardOpen, .io,
      "verified source root cannot be opened safely", none, none, 0, 0⟩
  | .opened _ _ => demand host.rootLocked
      ⟨.shardOpen, .state, "source is pinned by local eviction", none, none, 0, 0⟩

def sessionOpen (host : Host) : Except Failure Session := do
  options.authority.resolve
  demand (!options.snapshot.shards.isEmpty &&
      options.snapshot.identity == options.authority.expectedSnapshotIdentity)
    ⟨.sourceIdentityMismatch, .format, "retained source snapshot identity mismatch",
      none, none, 0, 0⟩
  demand (options.budget.valid &&
      decide (options.snapshot.shards.length ≤ options.budget.maximumShards) &&
      decide (options.snapshot.rows.length ≤ options.budget.maximumTensors))
    ⟨.resourceBudget, .bounds, "source payload resource budget exceeded", none, none, 0, 0⟩
  openRoot host
  let (shards, ranges, total) ← buildIndexes options host
  let session := indexedSession options shards ranges total
  match options.authority with
  | .acquired _ _ _ _ payloadIdentity _ => return trustAcquired payloadIdentity session
  | .verified _ verification => restorePublishedTrust verification session

end Digest

end Yvex.Source
