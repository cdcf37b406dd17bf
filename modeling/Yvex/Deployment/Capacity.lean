import Yvex.Foundation.Bisection
import Yvex.Foundation.Digest
import Yvex.Graph.Pages

namespace Yvex.Deployment

open Yvex.Graph (StateClass)

/-! # Capacity plans

A capacity plan divides usable memory between fixed resources and the state pools of a number
of concurrent sequences. The page size of every state class is chosen first; then the largest
session context whose pools fit is searched for, and the pools are recorded for it. -/

/-- The fields of `yvex_execution_hardware_profile` that capacity planning reads. -/
structure HardwareProfile where
  schemaVersion : Nat
  admittedFactMask : Nat
  usableMemoryBytes : Nat
  devicePageBytes : Nat
  identity : Text

/-- The fields of `yvex_execution_workload_profile` that capacity planning reads. -/
structure WorkloadProfile where
  schemaVersion : Nat
  minimumSessionContext : Nat
  requestedSessionContext : Nat
  concurrentSequences : Nat
  logicalBatchTokens : Nat
  attentionMicrobatchRows : Nat
  moeRowTile : Nat
  outputHeadRows : Nat
  prefixCacheBytes : Nat
  persistentStateBytes : Nat
  systemReserveBytes : Nat
  prefixSharing : Bool
  identity : Text
  representable : requestedSessionContext ≤ u64Max

inductive StateExtent where
  | context
  | fixed
  | candidate
  | prefixBudget
deriving DecidableEq

structure StateClassRequest where
  stateClass : StateClass
  extent : StateExtent
  logicalBlockTokens : Nat
  bytesPerBlock : Nat
  fixedTokensPerSequence : Nat
  alignmentBytes : Nat
  kernelTileTokens : Nat
  promotionGranularityTokens : Nat
  pageTableEntryBytes : Nat
  shared : Bool
  copyOnWrite : Bool

/-- `yvex_execution_state_class_plan`; what a class does not set is zero. -/
structure StateClassPlan where
  stateClass : StateClass
  extent : StateExtent
  logicalBlockTokens : Nat
  bytesPerBlock : Nat
  pageTokens : Nat
  pageBytes : Nat
  tokensPerSequence : Nat := 0
  poolTokens : Nat := 0
  poolBytes : Nat := 0
  pageCount : Nat := 0
  pageTableBytes : Nat := 0
  tailFragmentationBytes : Nat := 0
  copyOnWriteTailBytes : Nat := 0
  promotionFragmentationBytes : Nat := 0
  shared : Bool
  copyOnWrite : Bool

/-- `yvex_execution_capacity_plan_request`; `state_class_count` is the length of the list. -/
structure CapacityRequest where
  schemaVersion : Nat
  modelExecutionIdentity : Text
  semanticMaximumContext : Nat
  candidateWidth : Nat
  semanticStateClassMask : Nat
  hardware : HardwareProfile
  workload : WorkloadProfile
  modelBytes : Nat
  derivedLayoutBytes : Nat
  stateClasses : List StateClassRequest
  workspaceBytes : Nat
  schedulerBytes : Nat
  graphBytes : Nat

structure CapacityPlan where
  schemaVersion : Nat
  modelMaximumContext : Nat
  admittedExecutionMaximum : Nat
  perSessionMaximum : Nat
  perRequestMaximum : Nat
  totalLogicalContextTokens : Nat
  physicalStatePoolTokens : Nat
  candidateReserveTokens : Nat
  concurrentSequences : Nat
  logicalBatchTokens : Nat
  attentionMicrobatchRows : Nat
  moeRowTile : Nat
  outputHeadRows : Nat
  modelBytes : Nat
  derivedLayoutBytes : Nat
  statePoolBytes : Nat
  candidateReserveBytes : Nat
  workspaceBytes : Nat
  schedulerBytes : Nat
  graphBytes : Nat
  prefixCacheBytes : Nat
  persistentStateBytes : Nat
  systemReserveBytes : Nat
  requiredBytes : Nat
  usableMemoryBytes : Nat
  unreservedBytes : Nat
  stateClasses : List StateClassPlan
  modelExecutionIdentity : Text
  hardwareProfileIdentity : Text
  workloadProfileIdentity : Text
  identity : Text

/-- `capacity_gcd`, Euclid's algorithm. -/
def capacityGcd (left right : Nat) : Nat := Nat.gcd left right

def capacityLcm (left right : Nat) : Option Nat := do
  ensure (left != 0 && right != 0)
  u64Mul (left / capacityGcd left right) right

def capacityCeilDiv (value divisor : Nat) : Option Nat := do
  ensure (divisor != 0)
  let adjusted ← u64Add value (divisor - 1)
  pure (adjusted / divisor)

/-- A chain of `capacity_add` from zero. -/
def capacitySum (values : List Nat) : Option Nat := values.foldlM u64Add 0

section

variable (request : StateClassRequest)

def StateClassRequest.valid : Bool :=
  request.logicalBlockTokens != 0 && request.bytesPerBlock != 0 &&
    request.alignmentBytes != 0 && request.kernelTileTokens != 0 &&
    request.promotionGranularityTokens != 0 && request.pageTableEntryBytes != 0 &&
    ((request.extent == .fixed) == (request.fixedTokensPerSequence != 0)) &&
    ((request.stateClass == .candidateDelta) == (request.extent == .candidate)) &&
    ((request.stateClass == .prefixCheckpoint) == (request.extent == .prefixBudget))

def StateClassRequest.tokens (source : StateClassRequest) (candidateWidth context : Nat) : Nat :=
  match source.extent with
  | .fixed => source.fixedTokensPerSequence
  | .candidate => candidateWidth
  | _ => context

def baseTokens : Option Nat := do
  let base ← capacityLcm request.logicalBlockTokens request.kernelTileTokens
  let base ← capacityLcm base request.promotionGranularityTokens
  let alignmentBlocks :=
    request.alignmentBytes / capacityGcd request.bytesPerBlock request.alignmentBytes
  let alignmentTokens ← u64Mul request.logicalBlockTokens alignmentBlocks
  capacityLcm base alignmentTokens

/-- The waste of one page size: `none` inside where the page is not aligned. -/
def pageScore (logicalTokens candidateTokens : Nat) : Option (Option Nat) := do
  let pages ← capacityCeilDiv logicalTokens candidateTokens
  let roundedTokens ← u64Mul pages candidateTokens
  ensure (candidateTokens % request.logicalBlockTokens == 0)
  let blocks := candidateTokens / request.logicalBlockTokens
  ensure (blocks != 0)
  let pageBytes ← u64Mul blocks request.bytesPerBlock
  if pageBytes % request.alignmentBytes != 0 then pure none
  else do
    let tableBytes ← u64Mul pages request.pageTableEntryBytes
    let blocks ← capacityCeilDiv (u64Sub roundedTokens logicalTokens) request.logicalBlockTokens
    let fragmentation ← u64Mul blocks request.bytesPerBlock
    let copyBytes := if request.copyOnWrite then pageBytes else 0
    let promotionBytes := if request.extent = .candidate then fragmentation else 0
    some <$> capacitySum [tableBytes, fragmentation, copyBytes, promotionBytes]

def scanPages (request : StateClassRequest) (logicalTokens base : Nat) :
    (count candidateTokens bestScore bestTokens : Nat) → Option Nat
  | 0, _, _, bestTokens => some bestTokens
  | count + 1, candidateTokens, bestScore, bestTokens => do
    let score ← pageScore request logicalTokens candidateTokens
    let better := score.any fun score =>
      score < bestScore || (score == bestScore && candidateTokens < bestTokens)
    if better then
      scanPages request logicalTokens base count (candidateTokens + base)
        (score.getD bestScore) candidateTokens
    else
      scanPages request logicalTokens base count (candidateTokens + base) bestScore bestTokens

def capacityStateGeometry (candidateWidth : Nat) (hardware : HardwareProfile)
    (workload : WorkloadProfile) : Option StateClassPlan := do
  ensure request.valid
  let base ← baseTokens request
  let most ← u64Mul (hardware.devicePageBytes / request.bytesPerBlock) request.logicalBlockTokens
  let maximumTokens := if most - most % base < base then base else most - most % base
  let logicalTokens := request.tokens candidateWidth workload.requestedSessionContext
  let pageTokens ← scanPages request logicalTokens base (maximumTokens / base) base u64Max 0
  ensure (pageTokens != 0 && pageTokens % request.logicalBlockTokens == 0)
  let pageBytes ← u64Mul (pageTokens / request.logicalBlockTokens) request.bytesPerBlock
  pure {
    stateClass := request.stateClass
    extent := request.extent
    logicalBlockTokens := request.logicalBlockTokens
    bytesPerBlock := request.bytesPerBlock
    pageTokens := pageTokens
    pageBytes := pageBytes
    shared := request.shared
    copyOnWrite := request.copyOnWrite }

end

section

variable (workload : WorkloadProfile) (source : StateClassRequest) (geometry : StateClassPlan)

def prefixUsage : Option StateClassPlan := do
  let bytesPerPage ← u64Add geometry.pageBytes source.pageTableEntryBytes
  let pageCount := workload.prefixCacheBytes / bytesPerPage
  let poolTokens ← u64Mul pageCount geometry.pageTokens
  let pageTableBytes ← u64Mul pageCount source.pageTableEntryBytes
  pure { geometry with
    pageCount := pageCount
    poolTokens := poolTokens
    pageTableBytes := pageTableBytes
    tokensPerSequence := 0
    poolBytes := workload.prefixCacheBytes
    copyOnWriteTailBytes := if geometry.copyOnWrite then geometry.pageBytes else 0 }

def copyTailBytes : Option Nat :=
  if geometry.copyOnWrite then u64Mul geometry.pageBytes workload.concurrentSequences
  else some geometry.copyOnWriteTailBytes

def sequenceUsage (perSequenceTokens : Nat) : Option StateClassPlan := do
  let pagesPerSequence ← capacityCeilDiv perSequenceTokens geometry.pageTokens
  let pages ← u64Mul pagesPerSequence workload.concurrentSequences
  let roundedTokens ← u64Mul pages geometry.pageTokens
  ensure (roundedTokens % geometry.logicalBlockTokens == 0)
  let dataBytes ← u64Mul (roundedTokens / geometry.logicalBlockTokens) geometry.bytesPerBlock
  let pageTableBytes ← u64Mul pages source.pageTableEntryBytes
  let poolBytes ← u64Add dataBytes pageTableBytes
  let poolTokens ← u64Mul perSequenceTokens workload.concurrentSequences
  let tailBlocks ←
    capacityCeilDiv (u64Sub roundedTokens poolTokens) geometry.logicalBlockTokens
  let tailFragmentationBytes ← u64Mul tailBlocks geometry.bytesPerBlock
  let copyOnWriteTailBytes ← copyTailBytes workload geometry
  pure { geometry with
    tokensPerSequence := perSequenceTokens
    poolTokens := poolTokens
    poolBytes := poolBytes
    pageCount := pages
    pageTableBytes := pageTableBytes
    tailFragmentationBytes := tailFragmentationBytes
    copyOnWriteTailBytes := copyOnWriteTailBytes
    promotionFragmentationBytes :=
      if source.extent = .candidate then tailFragmentationBytes
      else geometry.promotionFragmentationBytes }

end

section

variable (request : CapacityRequest)

def classUsage (context : Nat) (source : StateClassRequest) (geometry : StateClassPlan) :
    Option StateClassPlan :=
  if source.extent = .prefixBudget then prefixUsage request.workload source geometry
  else sequenceUsage request.workload source geometry
    (source.tokens request.candidateWidth context)

structure PoolBytes where
  state : Nat
  candidate : Nat

/-- The pool of one class added to the total of its extent; a prefix cache is accounted for
by its own budget. -/
def PoolBytes.add (bytes : PoolBytes) (extent : StateExtent) (poolBytes : Nat) : Option PoolBytes :=
  match extent with
  | .prefixBudget => some bytes
  | .candidate => do
    let candidate ← u64Add bytes.candidate poolBytes
    pure { bytes with candidate := candidate }
  | _ => do
    let state ← u64Add bytes.state poolBytes
    pure { bytes with state := state }

/-- `capacity_state_usage` over the classes with their geometry. -/
def capacityStateUsage (request : CapacityRequest) (context : Nat) :
    PoolBytes → List (StateClassRequest × StateClassPlan) → Option (List StateClassPlan × PoolBytes)
  | bytes, [] => some ([], bytes)
  | bytes, (source, geometry) :: classes => do
    let record ← classUsage request context source geometry
    let bytes ← bytes.add source.extent record.poolBytes
    let rest ← capacityStateUsage request context bytes classes
    pure (record :: rest.1, rest.2)

def requiredBytes (fixedBytes : Nat) (bytes : PoolBytes) : Option Nat := do
  let required ← u64Add fixedBytes bytes.state
  u64Add required bytes.candidate

/-- The mask of the classes of a request, where each is valid, admitted by the model and
behind the one before it. -/
def seenClasses (mask : Nat) :
    (previous : Option StateClass) → (seen : Nat) → List StateClassRequest → Option Nat
  | _, seen, [] => some seen
  | previous, seen, state :: states => do
    ensure state.valid
    ensure (previous.all fun previous => previous.ctorIdx < state.stateClass.ctorIdx)
    let bit := 1 <<< state.stateClass.ctorIdx
    ensure (seen &&& bit == 0 && mask &&& bit != 0)
    seenClasses mask (some state.stateClass) (seen ||| bit) states

def capacityRequestValidate : Bool :=
  request.schemaVersion == 1 && hexValid request.modelExecutionIdentity &&
    request.semanticMaximumContext != 0 && request.candidateWidth != 0 &&
    request.semanticStateClassMask != 0 &&
    decide (request.semanticStateClassMask < 1 <<< 11) &&
    request.hardware.schemaVersion == 1 && request.workload.schemaVersion == 1 &&
    hexValid request.hardware.identity && hexValid request.workload.identity &&
    request.modelBytes != 0 && request.hardware.admittedFactMask.testBit 0 &&
    request.hardware.admittedFactMask.testBit 3 && request.workspaceBytes != 0 &&
    request.stateClasses.length != 0 && decide (request.stateClasses.length ≤ 11) &&
    (seenClasses request.semanticStateClassMask none 0 request.stateClasses).any fun seen =>
      seen == request.semanticStateClassMask &&
        (!request.workload.prefixSharing || seen.testBit StateClass.prefixCheckpoint.ctorIdx)

def capacityGeometry : Option (List StateClassPlan) :=
  request.stateClasses.mapM fun state =>
    capacityStateGeometry state request.candidateWidth request.hardware request.workload

def capacityFixedBytes : Option Nat :=
  capacitySum [request.modelBytes, request.derivedLayoutBytes, request.workspaceBytes,
    request.schedulerBytes, request.graphBytes, request.workload.prefixCacheBytes,
    request.workload.persistentStateBytes, request.workload.systemReserveBytes]

def CapacityRequest.contextBound : Nat :=
  if request.workload.requestedSessionContext < request.semanticMaximumContext then
    request.workload.requestedSessionContext
  else request.semanticMaximumContext

variable (geometry : List StateClassPlan) (fixedBytes context : Nat)

def contextBytes : Option Nat := do
  let usage ← capacityStateUsage request context ⟨0, 0⟩ (request.stateClasses.zip geometry)
  requiredBytes fixedBytes usage.2

def contextFits : Option Bool := do
  let required ← contextBytes request geometry fixedBytes context
  pure (decide (required ≤ request.hardware.usableMemoryBytes))

end

/-- `capacity_plan_identity` without the final digest. -/
def capacityPlanItems (plan : CapacityPlan) : List HashItem :=
  [.label "yvex.execution-capacity-plan.v1", .text plan.modelExecutionIdentity,
    .text plan.hardwareProfileIdentity, .text plan.workloadProfileIdentity,
    .u64 plan.modelMaximumContext, .u64 plan.admittedExecutionMaximum,
    .u64 plan.totalLogicalContextTokens, .u64 plan.candidateReserveTokens,
    .u64 plan.modelBytes, .u64 plan.derivedLayoutBytes, .u64 plan.statePoolBytes,
    .u64 plan.candidateReserveBytes, .u64 plan.workspaceBytes, .u64 plan.schedulerBytes,
    .u64 plan.graphBytes, .u64 plan.prefixCacheBytes, .u64 plan.persistentStateBytes,
    .u64 plan.systemReserveBytes, .u64 plan.requiredBytes,
    .u64 plan.stateClasses.length] ++
  plan.stateClasses.flatMap fun state =>
    [.u64 state.stateClass.ctorIdx, .u64 state.extent.ctorIdx, .u64 state.logicalBlockTokens,
      .u64 state.bytesPerBlock, .u64 state.pageTokens, .u64 state.pageBytes,
      .u64 state.poolTokens, .u64 state.poolBytes, .u64 state.pageTableBytes,
      .u64 (flag state.shared), .u64 (flag state.copyOnWrite)]

section

variable [Sha256] (plan : CapacityPlan)

def capacityPlanIdentity : Text := Sha256.hex (capacityPlanItems plan)

def planned (request : CapacityRequest) (geometry : List StateClassPlan)
    (fixedBytes context : Nat) : Option CapacityPlan := do
  let usage ← capacityStateUsage request context ⟨0, 0⟩ (request.stateClasses.zip geometry)
  let required ← requiredBytes fixedBytes usage.2
  let workload := request.workload
  let total ← u64Mul context workload.concurrentSequences
  let candidateReserveTokens ← u64Mul request.candidateWidth workload.concurrentSequences
  let plan : CapacityPlan := {
    schemaVersion := 1
    modelMaximumContext := request.semanticMaximumContext
    admittedExecutionMaximum := context
    perSessionMaximum := context
    perRequestMaximum := context
    totalLogicalContextTokens := total
    physicalStatePoolTokens := total
    candidateReserveTokens := candidateReserveTokens
    concurrentSequences := workload.concurrentSequences
    logicalBatchTokens := workload.logicalBatchTokens
    attentionMicrobatchRows := workload.attentionMicrobatchRows
    moeRowTile := workload.moeRowTile
    outputHeadRows := workload.outputHeadRows
    modelBytes := request.modelBytes
    derivedLayoutBytes := request.derivedLayoutBytes
    statePoolBytes := usage.2.state
    candidateReserveBytes := usage.2.candidate
    workspaceBytes := request.workspaceBytes
    schedulerBytes := request.schedulerBytes
    graphBytes := request.graphBytes
    prefixCacheBytes := workload.prefixCacheBytes
    persistentStateBytes := workload.persistentStateBytes
    systemReserveBytes := workload.systemReserveBytes
    requiredBytes := required
    usableMemoryBytes := request.hardware.usableMemoryBytes
    unreservedBytes := u64Sub request.hardware.usableMemoryBytes required
    stateClasses := usage.1
    modelExecutionIdentity := request.modelExecutionIdentity
    hardwareProfileIdentity := request.hardware.identity
    workloadProfileIdentity := workload.identity
    identity := [] }
  pure { plan with identity := capacityPlanIdentity plan }

/-- `yvex_execution_capacity_plan_build`, with fuel for the search of the context. -/
def capacityPlanBuild (fuel : Nat) (request : CapacityRequest) :
    Option (Except Rejection CapacityPlan) :=
  if capacityRequestValidate request = false then
    some (.error ⟨.invalidArgument, "complete per-state-class planning facts are required"⟩)
  else
    match capacityGeometry request with
    | none => some (.error ⟨.bounds, "state-class page geometry cannot be represented"⟩)
    | some geometry =>
      match capacityFixedBytes request with
      | none => some (.error ⟨.bounds, "fixed capacity byte accounting overflowed"⟩)
      | some fixedBytes =>
        if request.hardware.usableMemoryBytes ≤ fixedBytes then
          some (.error ⟨.bounds, "fixed runtime resources exceed usable memory"⟩)
        else
          (bisect (contextFits request geometry fixedBytes) (u64Max + 1) fuel
            request.workload.minimumSessionContext request.contextBound 0).map fun
            | none => .error ⟨.bounds, "state-class capacity accounting overflowed"⟩
            | some admitted =>
              if admitted < request.workload.minimumSessionContext then
                .error ⟨.bounds, "memory cannot admit the workload minimum context"⟩
              else orReject (planned request geometry fixedBytes admitted) .bounds
                "state-pool capacity accounting overflowed"

/-- The checks of `capacity_plan_structure_valid` on one class, with the totals so far. -/
def classValid (previous : Option StateClass) (bytes : PoolBytes) (state : StateClassPlan) :
    Option PoolBytes := do
  ensure (previous.all fun previous => previous.ctorIdx < state.stateClass.ctorIdx)
  ensure (state.logicalBlockTokens != 0 && state.bytesPerBlock != 0 && state.pageTokens != 0 &&
    state.pageTokens % state.logicalBlockTokens == 0)
  let pageBytes ← u64Mul (state.pageTokens / state.logicalBlockTokens) state.bytesPerBlock
  ensure (pageBytes == state.pageBytes)
  let roundedTokens ← u64Mul state.pageCount state.pageTokens
  if state.extent = .prefixBudget then do
    ensure (state.tokensPerSequence == 0 && roundedTokens == state.poolTokens &&
      state.poolBytes == plan.prefixCacheBytes && state.promotionFragmentationBytes == 0 &&
      state.copyOnWriteTailBytes == (if state.copyOnWrite then state.pageBytes else 0))
    pure bytes
  else do
    ensure (state.tokensPerSequence != 0)
    let poolTokens ← u64Mul state.tokensPerSequence plan.concurrentSequences
    ensure (poolTokens == state.poolTokens && decide (poolTokens ≤ roundedTokens) &&
      roundedTokens % state.logicalBlockTokens == 0)
    let dataBytes ← u64Mul (roundedTokens / state.logicalBlockTokens) state.bytesPerBlock
    let fragmentation ←
      u64Mul ((roundedTokens - poolTokens) / state.logicalBlockTokens) state.bytesPerBlock
    ensure (decide (dataBytes ≤ state.poolBytes) &&
      state.poolBytes - dataBytes == state.pageTableBytes &&
      fragmentation == state.tailFragmentationBytes)
    let copyBytes ← u64Mul state.pageBytes plan.concurrentSequences
    ensure (state.copyOnWriteTailBytes == (if state.copyOnWrite then copyBytes else 0) &&
      state.promotionFragmentationBytes == (if state.extent = .candidate then fragmentation else 0))
    bytes.add state.extent state.poolBytes

def classesValid (plan : CapacityPlan) :
    Option StateClass → PoolBytes → List StateClassPlan → Option PoolBytes
  | _, bytes, [] => some bytes
  | previous, bytes, state :: states => do
    let bytes ← classValid plan previous bytes state
    classesValid plan (some state.stateClass) bytes states

def capacityPlanStructureValid : Option Unit := do
  ensure (plan.modelMaximumContext != 0 && plan.admittedExecutionMaximum != 0 &&
    decide (plan.admittedExecutionMaximum ≤ plan.modelMaximumContext) &&
    plan.perSessionMaximum == plan.admittedExecutionMaximum &&
    plan.perRequestMaximum == plan.admittedExecutionMaximum &&
    plan.concurrentSequences != 0 && plan.logicalBatchTokens != 0 &&
    plan.attentionMicrobatchRows != 0 && plan.moeRowTile != 0 && plan.outputHeadRows != 0 &&
    plan.modelBytes != 0 && plan.workspaceBytes != 0)
  let logicalTokens ← u64Mul plan.admittedExecutionMaximum plan.concurrentSequences
  ensure (logicalTokens == plan.totalLogicalContextTokens &&
    plan.physicalStatePoolTokens == plan.totalLogicalContextTokens)
  let bytes ← classesValid plan none ⟨0, 0⟩ plan.stateClasses
  ensure (bytes.state == plan.statePoolBytes && bytes.candidate == plan.candidateReserveBytes)
  let required ← capacitySum [plan.modelBytes, plan.derivedLayoutBytes, plan.statePoolBytes,
    plan.candidateReserveBytes, plan.workspaceBytes, plan.schedulerBytes, plan.graphBytes,
    plan.prefixCacheBytes, plan.persistentStateBytes, plan.systemReserveBytes]
  ensure (required == plan.requiredBytes && decide (required ≤ plan.usableMemoryBytes) &&
    plan.unreservedBytes == plan.usableMemoryBytes - required)

def capacityPlanValidate : Except Rejection Unit := do
  require (plan.schemaVersion == 1 && plan.stateClasses.length != 0 &&
    decide (plan.stateClasses.length ≤ 11) && hexValid plan.modelExecutionIdentity &&
    hexValid plan.hardwareProfileIdentity && hexValid plan.workloadProfileIdentity &&
    hexValid plan.identity && (capacityPlanStructureValid plan).isSome) .format
    "persisted capacity plan is incomplete"
  require (capacityPlanIdentity plan == plan.identity) .format
    "persisted capacity plan identity mismatched"

end

end Yvex.Deployment
