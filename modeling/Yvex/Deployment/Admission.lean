import Yvex.Deployment.Capacity

namespace Yvex.Deployment

open Option

open Yvex.Graph (StateClass)

/-! # The admitted context

The bytes a context needs grow with the context wherever the accounting has a value, so the
bisection ends at the largest context that fits. It ends at all only if every context it comes
to can be accounted for. -/

theorem capacityCeilDiv_eq_some : capacityCeilDiv value divisor = some result ↔
      divisor ≠ 0 ∧ value + (divisor - 1) ≤ u64Max ∧ result = (value + (divisor - 1)) / divisor := by
  unfold capacityCeilDiv
  simp only [bind_eq_some, ensure_eq_some, u64Add_eq_some, bne_iff_ne]
  constructor
  · grind
  · rintro ⟨nonzero, bounded, rfl⟩
    exact ⟨(), nonzero, _, ⟨rfl, bounded⟩, rfl⟩

section

variable (workload : WorkloadProfile)

section

variable (geometry : StateClassPlan) (tokens : Nat)

def pagesFor : Nat :=
  (tokens + (geometry.pageTokens - 1)) / geometry.pageTokens * workload.concurrentSequences

def roundedFor : Nat := pagesFor workload geometry tokens * geometry.pageTokens

def tailBlocks : Nat :=
  (roundedFor workload geometry tokens - tokens * workload.concurrentSequences +
    (geometry.logicalBlockTokens - 1)) / geometry.logicalBlockTokens

end

def sequenceRecord (source : StateClassRequest) (geometry : StateClassPlan) (tokens : Nat) :
    StateClassPlan :=
  let tail := tailBlocks workload geometry tokens * geometry.bytesPerBlock
  { geometry with
    tokensPerSequence := tokens
    poolTokens := tokens * workload.concurrentSequences
    poolBytes := roundedFor workload geometry tokens / geometry.logicalBlockTokens *
      geometry.bytesPerBlock + pagesFor workload geometry tokens * source.pageTableEntryBytes
    pageCount := pagesFor workload geometry tokens
    pageTableBytes := pagesFor workload geometry tokens * source.pageTableEntryBytes
    tailFragmentationBytes := tail
    copyOnWriteTailBytes :=
      if geometry.copyOnWrite then geometry.pageBytes * workload.concurrentSequences
      else geometry.copyOnWriteTailBytes
    promotionFragmentationBytes :=
      if source.extent = .candidate then tail else geometry.promotionFragmentationBytes }

structure Accounted (workload : WorkloadProfile) (source : StateClassRequest)
    (geometry : StateClassPlan) (tokens : Nat) : Prop where
  pageTokens : geometry.pageTokens ≠ 0
  rounding : tokens + (geometry.pageTokens - 1) ≤ u64Max
  pages : pagesFor workload geometry tokens ≤ u64Max
  rounded : roundedFor workload geometry tokens ≤ u64Max
  whole : roundedFor workload geometry tokens % geometry.logicalBlockTokens = 0
  pool : (sequenceRecord workload source geometry tokens).poolBytes ≤ u64Max
  logical : tokens * workload.concurrentSequences ≤ u64Max
  block : geometry.logicalBlockTokens ≠ 0
  tailRounding : roundedFor workload geometry tokens - tokens * workload.concurrentSequences +
    (geometry.logicalBlockTokens - 1) ≤ u64Max
  tail : tailBlocks workload geometry tokens * geometry.bytesPerBlock ≤ u64Max
  copies : geometry.copyOnWrite = true → geometry.pageBytes * workload.concurrentSequences ≤ u64Max

variable {geometry : StateClassPlan}

theorem le_roundedFor (nonzero : geometry.pageTokens ≠ 0) (tokens : Nat) :
    tokens * workload.concurrentSequences ≤ roundedFor workload geometry tokens := by
  have positive := Nat.pos_of_ne_zero nonzero
  have divided := Nat.div_add_mod (tokens + (geometry.pageTokens - 1)) geometry.pageTokens
  have remainder := Nat.mod_lt (tokens + (geometry.pageTokens - 1)) positive
  have enough : tokens ≤
      (tokens + (geometry.pageTokens - 1)) / geometry.pageTokens * geometry.pageTokens := by
    rw [mul_comm]
    omega
  calc tokens * workload.concurrentSequences
      ≤ (tokens + (geometry.pageTokens - 1)) / geometry.pageTokens * geometry.pageTokens *
          workload.concurrentSequences := Nat.mul_le_mul_right _ enough
    _ = _ := Nat.mul_right_comm _ _ _

end

theorem copyTailBytes_eq_some {workload : WorkloadProfile} {source : StateClassRequest}
    {geometry : StateClassPlan} {tokens bytes : Nat} :
    copyTailBytes workload geometry = some bytes ↔ (geometry.copyOnWrite = true →
        geometry.pageBytes * workload.concurrentSequences ≤ u64Max) ∧
      bytes = (sequenceRecord workload source geometry tokens).copyOnWriteTailBytes := by
  unfold copyTailBytes sequenceRecord
  split
  · rename_i shared
    rw [u64Mul_eq_some]
    constructor
    · rintro ⟨rfl, fits⟩
      exact ⟨fun _ => fits, rfl⟩
    · rintro ⟨fits, rfl⟩
      exact ⟨rfl, fits shared⟩
  · rename_i unshared
    simp [unshared, eq_comm]

theorem sequenceUsage_eq_some : sequenceUsage workload source geometry tokens = some record ↔
      Accounted workload source geometry tokens ∧
        record = sequenceRecord workload source geometry tokens := by
  unfold sequenceUsage
  simp only [bind_eq_some, ensure_eq_some, u64Add_eq_some,
    u64Mul_eq_some, capacityCeilDiv_eq_some, beq_iff_eq,
    @copyTailBytes_eq_some workload source geometry tokens]
  constructor
  · rintro ⟨_, ⟨nonzero, rounding, rfl⟩, _, ⟨rfl, pages⟩, _, ⟨rfl, rounded⟩, _, whole, _,
      ⟨rfl, data⟩, _, ⟨rfl, table⟩, _, ⟨rfl, pool⟩, _, ⟨rfl, logical⟩, _,
      ⟨block, tailRounding, rfl⟩, _, ⟨rfl, tail⟩, _, ⟨copies, rfl⟩, made⟩
    have part := le_roundedFor workload nonzero tokens
    unfold roundedFor pagesFor at part
    rw [u64Sub_of_le part] at tailRounding tail made
    cases made
    exact ⟨⟨nonzero, rounding, pages, rounded, whole, pool, logical, block, tailRounding, tail,
      copies⟩, rfl⟩
  rintro ⟨accounted, rfl⟩
  have part := le_roundedFor workload accounted.pageTokens tokens
  have data : roundedFor workload geometry tokens / geometry.logicalBlockTokens *
      geometry.bytesPerBlock ≤ u64Max :=
    Nat.le_trans (Nat.le_add_right _ _) accounted.pool
  have table : pagesFor workload geometry tokens * source.pageTableEntryBytes ≤ u64Max :=
    le_trans (Nat.le_add_left _ _) accounted.pool
  have tailRounding := accounted.tailRounding
  have tail := accounted.tail
  unfold tailBlocks at tail
  rw [← u64Sub_of_le part] at tailRounding tail
  refine ⟨_, ⟨accounted.pageTokens, accounted.rounding, rfl⟩, _, ⟨rfl, accounted.pages⟩, _,
    ⟨rfl, accounted.rounded⟩, (), accounted.whole, _, ⟨rfl, data⟩, _, ⟨rfl, table⟩, _,
    ⟨rfl, accounted.pool⟩, _, ⟨rfl, accounted.logical⟩, _, ⟨accounted.block, tailRounding, rfl⟩,
    _, ⟨rfl, tail⟩, _, ⟨accounted.copies, rfl⟩, ?_⟩
  unfold roundedFor pagesFor at part
  rw [u64Sub_of_le part]
  rfl

variable {more : Nat}

theorem pagesFor_mono (workload : WorkloadProfile) (geometry : StateClassPlan)
    (grows : tokens ≤ more) : pagesFor workload geometry tokens ≤ pagesFor workload geometry more :=
  Nat.mul_le_mul_right _ (Nat.div_le_div_right (Nat.add_le_add_right grows _))

theorem sequenceRecord_poolBytes_mono (workload : WorkloadProfile) (source : StateClassRequest)
    (geometry : StateClassPlan) (grows : tokens ≤ more) :
    (sequenceRecord workload source geometry tokens).poolBytes ≤
      (sequenceRecord workload source geometry more).poolBytes := by
  have pages := pagesFor_mono workload geometry grows
  refine Nat.add_le_add (Nat.mul_le_mul_right _ (Nat.div_le_div_right ?_))
    (Nat.mul_le_mul_right _ pages)
  exact Nat.mul_le_mul_right _ pages

theorem StateClassRequest.tokens_mono (source : StateClassRequest) (candidateWidth : Nat)
    (grows : context ≤ larger) :
    source.tokens candidateWidth context ≤ source.tokens candidateWidth larger := by
  unfold tokens
  cases source.extent with
  | fixed => exact le_rfl
  | candidate => exact le_rfl
  | context => exact grows
  | prefixBudget => exact grows

section

theorem classUsage_poolBytes_mono {geometry record more : StateClassPlan} (grows : context ≤ larger)
    (used : classUsage request context source geometry = some record)
    (uses : classUsage request larger source geometry = some more) :
    record.poolBytes ≤ more.poolBytes := by
  unfold classUsage at used uses
  split at used
  · rename_i budget
    rw [if_pos budget, used] at uses
    cases uses
    exact le_rfl
  rename_i sequences
  rw [if_neg sequences] at uses
  rcases sequenceUsage_eq_some.mp used with ⟨_, rfl⟩
  rcases sequenceUsage_eq_some.mp uses with ⟨_, rfl⟩
  exact sequenceRecord_poolBytes_mono _ _ _ (source.tokens_mono _ grows)

variable {bytes more : PoolBytes}

theorem PoolBytes.add_mono (state : bytes.state ≤ more.state)
    (candidate : bytes.candidate ≤ more.candidate) (grows : poolBytes ≤ larger)
    (adds : bytes.add extent poolBytes = some added)
    (addsMore : more.add extent larger = some moreAdded) :
    added.state ≤ moreAdded.state ∧ added.candidate ≤ moreAdded.candidate := by
  cases extent <;>
    simp only [add, bind_eq_bind, bind_eq_some_iff, u64Add_eq_some, Option.pure_def,
      Option.some.injEq] at adds addsMore
  case prefixBudget =>
    subst adds addsMore
    exact ⟨state, candidate⟩
  all_goals
    rcases adds with ⟨_, ⟨rfl, _⟩, rfl⟩
    rcases addsMore with ⟨_, ⟨rfl, _⟩, rfl⟩
    constructor <;> dsimp only <;> omega

theorem capacityStateUsage_mono (grows : context ≤ larger) (state : bytes.state ≤ more.state)
    (candidate : bytes.candidate ≤ more.candidate)
    (used : capacityStateUsage request context bytes classes = some usage)
    (uses : capacityStateUsage request larger more classes = some moreUsage) :
    usage.2.state ≤ moreUsage.2.state ∧ usage.2.candidate ≤ moreUsage.2.candidate := by
  induction classes generalizing bytes more usage moreUsage with
  | nil =>
    cases used
    cases uses
    exact ⟨state, candidate⟩
  | cons entry classes induction => ?_
  rw [capacityStateUsage] at used uses
  simp only [bind_eq_some] at used uses
  rcases used with ⟨record, found, added, adds, rest, used, made⟩
  rcases uses with ⟨moreRecord, moreFound, moreAdded, addsMore, moreRest, uses, moreMade⟩
  cases made
  cases moreMade
  have pools := classUsage_poolBytes_mono grows found moreFound
  rcases PoolBytes.add_mono state candidate pools adds addsMore with ⟨states, candidates⟩
  have ended := induction states candidates used uses
  exact ended

variable {geometry : List StateClassPlan}

theorem contextBytes_mono (grows : context ≤ larger) {required more : Nat}
    (needs : contextBytes request geometry fixedBytes context = some required)
    (needsMore : contextBytes request geometry fixedBytes larger = some more) :
    required ≤ more := by
  unfold contextBytes requiredBytes at needs needsMore
  simp only [bind_eq_some, u64Add_eq_some] at needs needsMore
  rcases needs with ⟨usage, used, _, ⟨rfl, _⟩, rfl, _⟩
  rcases needsMore with ⟨moreUsage, uses, _, ⟨rfl, _⟩, rfl, _⟩
  have pools := capacityStateUsage_mono grows le_rfl le_rfl used uses
  omega

theorem contextFits_eq_some : contextFits request geometry fixedBytes context = some fits ↔
      ∃ required, contextBytes request geometry fixedBytes context = some required ∧
        fits = decide (required ≤ request.hardware.usableMemoryBytes) := by
  unfold contextFits
  simp only [bind_eq_some, pure_eq_some]
  exact exists_congr fun required => and_congr_right fun _ => eq_comm

theorem falling_contextFits (geometry : List StateClassPlan) (fixedBytes : Nat) :
    Falling (contextFits request geometry fixedBytes) := by
  intro context larger grows refused accepted
  rcases contextFits_eq_some.mp refused with ⟨required, needs, beyond⟩
  rcases contextFits_eq_some.mp accepted with ⟨more, needsMore, within⟩
  have bound := contextBytes_mono grows needs needsMore
  have small := of_decide_eq_true within.symm
  exact of_decide_eq_false beyond.symm (le_trans bound small)

end

section

variable (request : CapacityRequest)

/-- The bytes a context of the request needs, where all of the accounting has a value. -/
def CapacityRequest.bytesFor (context : Nat) : Option Nat := do
  let geometry ← capacityGeometry request
  let fixedBytes ← capacityFixedBytes request
  contextBytes request geometry fixedBytes context

def CapacityRequest.Fits (context : Nat) : Prop :=
  ∃ required, request.bytesFor context = some required ∧
    required ≤ request.hardware.usableMemoryBytes

structure CapacityRequest.LargestFit (context : Nat) : Prop where
  minimum : request.workload.minimumSessionContext ≤ context
  bounded : context ≤ request.contextBound
  fits : request.Fits context
  last : ∀ larger, context < larger → larger ≤ request.contextBound → ¬request.Fits larger

def CapacityRequest.probe (context : Nat) : Option Bool := do
  let required ← request.bytesFor context
  pure (decide (required ≤ request.hardware.usableMemoryBytes))

/-- The builder comes to an end for reasons other than memory: the fixed bytes leave room, every
context the halving comes to is accounted for, the last machine number is not accepted, and
the token totals do not overflow. -/
structure CapacityRequest.Completes : Prop where
  geometry : (capacityGeometry request).isSome
  fixed : ∃ fixedBytes, capacityFixedBytes request = some fixedBytes ∧
    fixedBytes < request.hardware.usableMemoryBytes
  answered : ∀ context, Visited request.probe request.workload.minimumSessionContext
    request.contextBound context → request.bytesFor context ≠ none
  finite : request.contextBound = u64Max → ¬request.Fits u64Max
  contextTokens : ∀ context, request.LargestFit context →
    context * request.workload.concurrentSequences ≤ u64Max
  candidateTokens : request.candidateWidth * request.workload.concurrentSequences ≤ u64Max

variable {request}

theorem probe_eq_some :
    request.probe context = some fits ↔ ∃ required, request.bytesFor context = some required ∧
      fits = decide (required ≤ request.hardware.usableMemoryBytes) := by
  unfold CapacityRequest.probe
  simp only [bind_eq_some, pure_eq_some]
  exact exists_congr fun required => and_congr_right fun _ => eq_comm

theorem probe_eq_true : request.probe context = some true ↔ request.Fits context := by
  rw [probe_eq_some]
  exact exists_congr fun required => and_congr_right fun _ => eq_comm.trans decide_eq_true_iff

theorem contextBound_le : request.contextBound ≤ u64Max := by
  have representable := request.workload.representable
  unfold CapacityRequest.contextBound
  split <;> omega

section

variable {geometry : List StateClassPlan} (shaped : capacityGeometry request = some geometry)
  (fixed : capacityFixedBytes request = some fixedBytes)
include shaped fixed

theorem bytesFor_eq (context : Nat) :
    request.bytesFor context = contextBytes request geometry fixedBytes context := by
  unfold CapacityRequest.bytesFor
  rw [shaped, fixed]
  rfl

theorem contextFits_eq_probe : contextFits request geometry fixedBytes = request.probe := by
  funext context
  unfold contextFits CapacityRequest.probe
  rw [bytesFor_eq shaped fixed]

end

def contextSearch (request : CapacityRequest) (fuel : Nat) : Option (Option Nat) :=
  bisect request.probe (u64Max + 1) fuel request.workload.minimumSessionContext
    request.contextBound 0

theorem falling_probe : Falling request.probe := by
  cases shaped : capacityGeometry request with
  | none =>
    intro context larger _ refused
    simp [CapacityRequest.probe, CapacityRequest.bytesFor, shaped] at refused
  | some geometry => ?_
  cases fixed : capacityFixedBytes request with
  | none =>
    intro context larger _ refused
    simp [CapacityRequest.probe, CapacityRequest.bytesFor, fixed] at refused
  | some fixedBytes =>
    rw [← contextFits_eq_probe shaped fixed]
    exact falling_contextFits geometry fixedBytes

theorem contextSearch_eq_some (ran : contextSearch request fuel = some (some admitted)) :
    (admitted = 0 ∧ ∀ context, request.workload.minimumSessionContext ≤ context →
      context ≤ request.contextBound → ¬request.Fits context) ∨ request.LargestFit admitted := by
  have bounded : request.contextBound < u64Max + 1 := Nat.lt_succ_of_le contextBound_le
  rcases falling_probe.largest bounded ran with ⟨zero, none⟩ | ⟨above, below, accepts, last⟩
  · exact .inl ⟨zero, fun context least most fits =>
      none context least most (probe_eq_true.mpr fits)⟩
  · exact .inr ⟨above, below, probe_eq_true.mp accepts, fun larger more most fits =>
      last larger more most (probe_eq_true.mpr fits)⟩

theorem CapacityRequest.LargestFit.unique (first : request.LargestFit context)
    (second : request.LargestFit other) : context = other := by
  grind [cases CapacityRequest.LargestFit]

theorem CapacityRequest.Completes.ends (completes : request.Completes) :
    ∃ fuel admitted, contextSearch request fuel = some (some admitted) := by
  apply exists_bisect 0 (Nat.lt_succ_of_le contextBound_le)
  · intro last accepts
    have same : request.contextBound = u64Max := Nat.succ.inj last
    rw [same] at accepts
    exact completes.finite same (probe_eq_true.mp accepts)
  intro context visited absent
  rcases ne_none_iff_exists'.mp (completes.answered context visited) with ⟨required, needs⟩
  rw [probe_eq_some.mpr ⟨required, needs, rfl⟩] at absent
  cases absent

section

variable [Sha256] {geometry : List StateClassPlan}

theorem planned_eq_some (made : planned request geometry fixedBytes context = some plan) :
    contextBytes request geometry fixedBytes context = some plan.requiredBytes ∧
      plan.admittedExecutionMaximum = context ∧
      plan.unreservedBytes = u64Sub request.hardware.usableMemoryBytes plan.requiredBytes ∧
      context * request.workload.concurrentSequences ≤ u64Max ∧
      request.candidateWidth * request.workload.concurrentSequences ≤ u64Max := by
  unfold planned at made
  unfold contextBytes
  simp only [bind_eq_some, u64Mul_eq_some] at made ⊢
  rcases made with ⟨usage, used, required, sum, _, ⟨rfl, total⟩, _, ⟨rfl, candidates⟩, made⟩
  cases made
  exact ⟨⟨usage, used, sum⟩, rfl, rfl, total, candidates⟩

theorem exists_planned (needs : contextBytes request geometry fixedBytes context ≠ none)
    (total : context * request.workload.concurrentSequences ≤ u64Max)
    (candidates : request.candidateWidth * request.workload.concurrentSequences ≤ u64Max) :
    ∃ plan, planned request geometry fixedBytes context = some plan := by
  rcases ne_none_iff_exists'.mp needs with ⟨required, needs⟩
  unfold contextBytes at needs
  unfold planned
  simp only [bind_eq_some, u64Mul_eq_some] at needs ⊢
  rcases needs with ⟨usage, used, sum⟩
  exact ⟨_, usage, used, required, sum, _, ⟨rfl, total⟩, _, ⟨rfl, candidates⟩, rfl⟩

theorem capacityPlanBuild_eq_ok : capacityPlanBuild fuel request = some (.ok plan) ↔
      capacityRequestValidate request = true ∧ ∃ geometry fixedBytes admitted,
        capacityGeometry request = some geometry ∧ capacityFixedBytes request = some fixedBytes ∧
        fixedBytes < request.hardware.usableMemoryBytes ∧
        contextSearch request fuel = some (some admitted) ∧
        request.workload.minimumSessionContext ≤ admitted ∧
        planned request geometry fixedBytes admitted = some plan := by
  unfold capacityPlanBuild
  constructor
  · intro built
    split at built
    · cases built
    rename_i valid
    rw [Bool.not_eq_false] at valid
    split at built
    · cases built
    rename_i geometry shaped
    split at built
    · cases built
    rename_i fixedBytes fixed
    split at built
    · cases built
    rename_i room
    rw [contextFits_eq_probe shaped fixed, map_eq_some_iff] at built
    rcases built with ⟨found, ran, made⟩
    split at made
    · cases made
    rename_i admitted
    split at made
    · cases made
    rename_i large
    exact ⟨valid, geometry, fixedBytes, admitted, shaped, fixed, by omega, ran, by omega,
      orReject_eq_ok.mp made⟩
  · rintro ⟨valid, geometry, fixedBytes, admitted, shaped, fixed, room, ran, large, made⟩
    unfold contextSearch at ran
    rw [if_neg (by rw [valid]; decide), shaped, fixed]
    dsimp only
    rw [if_neg (by omega), contextFits_eq_probe shaped fixed, ran, map_some]
    dsimp only
    rw [if_neg (by omega), orReject_eq_ok.mpr made]

theorem completes_of_built (built : capacityPlanBuild fuel request = some (.ok plan)) :
    request.Completes := by
  rcases capacityPlanBuild_eq_ok.mp built with
    ⟨_, geometry, fixedBytes, admitted, shaped, fixed, room, ran, large, made⟩
  rcases planned_eq_some made with ⟨_, _, _, total, candidates⟩
  have bounded : request.contextBound < u64Max + 1 := Nat.lt_succ_of_le contextBound_le
  have finite : request.contextBound = u64Max → ¬request.Fits u64Max := by
    intro last fits
    by_cases ordered : request.workload.minimumSessionContext ≤ u64Max
    · unfold contextSearch at ran
      rw [last] at ran
      exact falling_probe.endless (probe_eq_true.mpr fits) ordered ran
    rcases contextSearch_eq_some ran with ⟨zero, _⟩ | largest
    · omega
    · have := largest.bounded
      omega
  refine ⟨by rw [shaped]; rfl, ⟨fixedBytes, fixed, room⟩, ?_, finite, ?_, candidates⟩
  · intro context visited absent
    refine visited.answered bounded ?_ ran ?_
    · intro last
      have same : request.contextBound = u64Max := Nat.succ.inj last
      rw [same]
      exact fun accepts => finite same (probe_eq_true.mp accepts)
    · unfold CapacityRequest.probe
      rw [absent]
      rfl
  · intro context largest
    rcases contextSearch_eq_some ran with ⟨_, none⟩ | found
    · exact absurd largest.fits (none context largest.minimum largest.bounded)
    · rw [largest.unique found]
      exact total

theorem CapacityRequest.Completes.built (completes : request.Completes)
    (valid : capacityRequestValidate request = true)
    (ran : contextSearch request fuel = some (some admitted))
    (large : request.workload.minimumSessionContext ≤ admitted)
    (needs : request.bytesFor admitted ≠ none)
    (total : admitted * request.workload.concurrentSequences ≤ u64Max) :
    ∃ plan, capacityPlanBuild fuel request = some (.ok plan) := by
  rcases isSome_iff_exists.mp completes.geometry with ⟨geometry, shaped⟩
  rcases completes.fixed with ⟨fixedBytes, fixed, room⟩
  rw [bytesFor_eq shaped fixed] at needs
  rcases exists_planned needs total completes.candidateTokens with ⟨plan, made⟩
  exact ⟨plan, capacityPlanBuild_eq_ok.mpr
    ⟨valid, geometry, fixedBytes, admitted, shaped, fixed, room, ran, large, made⟩⟩

/-- What the builder promises about the admitted context: it is the largest that fits, and
where the minimum fits the build succeeds exactly if it completes. -/
structure AdmissionContract (request : CapacityRequest) : Prop where
  largest : ∀ fuel plan, capacityPlanBuild fuel request = some (.ok plan) →
    (request.workload.minimumSessionContext ≠ 0 ∨
      ∃ context, context ≤ request.contextBound ∧ request.Fits context) →
    request.workload.minimumSessionContext ≤ plan.admittedExecutionMaximum ∧
      plan.admittedExecutionMaximum ≤ request.contextBound ∧
      request.bytesFor plan.admittedExecutionMaximum = some plan.requiredBytes ∧
      plan.requiredBytes ≤ request.hardware.usableMemoryBytes ∧
      plan.unreservedBytes + plan.requiredBytes = request.hardware.usableMemoryBytes ∧
      ∀ larger, plan.admittedExecutionMaximum < larger → larger ≤ request.contextBound →
        ∀ required, request.bytesFor larger = some required →
          request.hardware.usableMemoryBytes < required
  succeeds : capacityRequestValidate request = true →
    request.workload.minimumSessionContext ≤ request.contextBound →
    request.Fits request.workload.minimumSessionContext →
    ((∃ fuel plan, capacityPlanBuild fuel request = some (.ok plan)) ↔ request.Completes)

theorem capacityPlanBuild_admits_largest (request : CapacityRequest) :
    AdmissionContract request := by
  refine ⟨fun fuel plan built some => ?_, fun valid ordered fits => ⟨?_, fun completes => ?_⟩⟩
  · rcases capacityPlanBuild_eq_ok.mp built with
      ⟨_, geometry, fixedBytes, admitted, shaped, fixed, _, ran, large, made⟩
    rcases planned_eq_some made with ⟨needs, rfl, rest, _⟩
    rw [← bytesFor_eq shaped fixed] at needs
    rcases contextSearch_eq_some ran with ⟨zero, none⟩ | largest
    · grind
    rcases largest.fits with ⟨required, needed, small⟩
    rw [needs, Option.some.injEq] at needed
    subst needed
    refine ⟨large, largest.bounded, needs, small, ?_, ?_⟩
    · rw [rest, u64Sub_of_le small]
      omega
    · intro larger more within required needed
      by_contra fits
      exact largest.last larger more within ⟨required, needed, by omega⟩
  · rintro ⟨fuel, plan, built⟩
    exact completes_of_built built
  · rcases completes.ends with ⟨fuel, admitted, ran⟩
    rcases contextSearch_eq_some ran with ⟨_, none⟩ | largest
    · exact absurd fits (none _ le_rfl ordered)
    rcases largest.fits with ⟨required, needs, _⟩
    rcases completes.built valid ran largest.minimum (by rw [needs]; nofun)
      (completes.contextTokens admitted largest) with ⟨plan, built⟩
    exact ⟨fuel, plan, built⟩

end

end

def wideRequest : CapacityRequest where
  schemaVersion := 1
  modelExecutionIdentity := List.replicate 64 '0'
  semanticMaximumContext := 2 ^ 63
  candidateWidth := 1
  semanticStateClassMask := 1
  hardware := {
    schemaVersion := 1
    admittedFactMask := 9
    usableMemoryBytes := 2 ^ 33 + 100
    devicePageBytes := 1
    identity := List.replicate 64 '0' }
  workload := {
    schemaVersion := 1
    minimumSessionContext := 1
    requestedSessionContext := 2 ^ 63
    concurrentSequences := 4
    logicalBatchTokens := 1
    attentionMicrobatchRows := 1
    moeRowTile := 1
    outputHeadRows := 1
    prefixCacheBytes := 0
    persistentStateBytes := 0
    systemReserveBytes := 2 ^ 33
    prefixSharing := false
    identity := List.replicate 64 '0'
    representable := by decide }
  modelBytes := 1
  derivedLayoutBytes := 0
  stateClasses := [{
    stateClass := .swaRing
    extent := .context
    logicalBlockTokens := 1
    bytesPerBlock := 1
    fixedTokensPerSequence := 0
    alignmentBytes := 1
    kernelTileTokens := 1
    promotionGranularityTokens := 1
    pageTableEntryBytes := 1
    shared := false
    copyOnWrite := false }]
  workspaceBytes := 1
  schedulerBytes := 0
  graphBytes := 0

/-- One token fits, and the build is refused because the first context tried overflows. -/
theorem capacityPlanBuild_wideRequest : capacityRequestValidate wideRequest = true ∧
      wideRequest.workload.minimumSessionContext ≤ wideRequest.contextBound ∧
      wideRequest.Fits wideRequest.workload.minimumSessionContext ∧
      ∀ (digest : Sha256) (fuel : Nat) (plan : CapacityPlan),
        @capacityPlanBuild digest fuel wideRequest ≠ some (.ok plan) := by
  refine ⟨by decide +kernel, by decide, ⟨2 ^ 33 + 10, by rfl, by decide⟩, ?_⟩
  intro digest fuel plan built
  have completes := completes_of_built built
  exact completes.answered _ (.here (by decide)) (by rfl)

end Yvex.Deployment
