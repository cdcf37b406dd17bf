import Yvex.Deployment.Admission

namespace Yvex.Deployment

open List Option

open Yvex.Graph (StateClass)

/-! # Validating what was built

The validator recomputes every figure of a plan. It agrees with the builder on all of them but
the fragmentation behind the last tokens, which the builder rounds up to whole blocks and the
validator rounds down. -/

theorem capacitySum_eq_some {sum : Nat} :
    capacitySum values = some sum ↔ sum = values.sum ∧ sum ≤ u64Max := by
  have general : ∀ start, start ≤ u64Max →
      (values.foldlM u64Add start = some sum ↔ sum = start + values.sum ∧ sum ≤ u64Max) := by
    induction values with
    | nil =>
      grind
    | cons value values induction =>
      intro start bounded
      rw [foldlM_cons, sum_cons]
      simp only [bind_eq_some, u64Add_eq_some]
      constructor
      · rintro ⟨_, ⟨rfl, fits⟩, rest⟩
        rw [induction _ fits] at rest
        omega
      · grind
  have start := general 0 (Nat.zero_le _)
  rwa [zero_add] at start

structure Shaped (source : StateClassRequest) (geometry : StateClassPlan) : Prop where
  valid : source.valid = true
  stateClass : geometry.stateClass = source.stateClass
  extent : geometry.extent = source.extent
  block : geometry.logicalBlockTokens = source.logicalBlockTokens
  bytes : geometry.bytesPerBlock = source.bytesPerBlock
  pageTokens : geometry.pageTokens ≠ 0
  whole : geometry.pageTokens % geometry.logicalBlockTokens = 0
  pageBytes : u64Mul (geometry.pageTokens / geometry.logicalBlockTokens) geometry.bytesPerBlock =
    some geometry.pageBytes
  noTail : geometry.copyOnWriteTailBytes = 0
  noPromotion : geometry.promotionFragmentationBytes = 0

variable {source : StateClassRequest}

theorem capacityStateGeometry_shaped
    (made : capacityStateGeometry source candidateWidth hardware workload = some geometry) :
    Shaped source geometry := by
  unfold capacityStateGeometry at made
  simp only [bind_eq_some, ensure_eq_some, Bool.and_eq_true, bne_iff_ne, beq_iff_eq] at made
  rcases made with ⟨_, valid, base, _, most, _, pageTokens, _, _, ⟨nonzero, whole⟩, pageBytes,
    product, made⟩
  cases made
  exact ⟨valid, rfl, rfl, rfl, rfl, nonzero, whole, product, rfl, rfl⟩

theorem StateClassRequest.valid_block (valid : source.valid = true) :
    source.logicalBlockTokens ≠ 0 ∧ source.bytesPerBlock ≠ 0 := by
  simp only [StateClassRequest.valid, Bool.and_eq_true, bne_iff_ne] at valid
  exact ⟨valid.1.1.1.1.1.1.1.1, valid.1.1.1.1.1.1.1.2⟩

theorem StateClassRequest.valid_fixed (valid : source.valid = true)
    (fixed : source.extent = .fixed) : source.fixedTokensPerSequence ≠ 0 := by
  simp only [StateClassRequest.valid, Bool.and_eq_true, fixed] at valid
  simpa using valid.1.1.2

theorem mapM_zip {sources : List α}
    (ran : sources.mapM compute = some results) : results.length = sources.length ∧
      ∀ pair ∈ sources.zip results, compute pair.1 = some pair.2 := by
  induction sources generalizing results with
  | nil =>
    cases ran
    simp
  | cons source sources induction => ?_
  rw [mapM_cons] at ran
  simp only [bind_eq_some] at ran
  rcases ran with ⟨result, found, rest, ran, made⟩
  cases made
  rcases induction ran with ⟨long, all⟩
  refine ⟨by rw [length_cons, length_cons, long], ?_⟩
  intro pair member
  rw [zip_cons_cons, mem_cons] at member
  rcases member with rfl | later
  · exact found
  · exact all pair later

theorem div_eq_ceil_iff (positive : divisor ≠ 0) :
    value / divisor = (value + (divisor - 1)) / divisor ↔ divisor ∣ value := by
  have down := Nat.div_add_mod value divisor
  constructor
  · intro same
    by_contra rest
    have up : value / divisor + 1 ≤ (value + (divisor - 1)) / divisor := by
      rw [Nat.le_div_iff_mul_le (Nat.pos_of_ne_zero positive), Nat.add_mul, mul_comm]
      omega
    omega
  · intro rest
    symm
    rw [Nat.div_eq_iff (Nat.pos_of_ne_zero positive)]
    rw [mul_comm (value / divisor)]
    omega

section

variable {source : StateClassRequest} {tokens : Nat}

theorem one_le_pages (accounted : Accounted workload source geometry tokens)
    (nonzero : tokens ≠ 0) : workload.concurrentSequences ≤ pagesFor workload geometry tokens := by
  have positive := Nat.pos_of_ne_zero accounted.pageTokens
  have page : 1 ≤ (tokens + (geometry.pageTokens - 1)) / geometry.pageTokens := by
    rw [Nat.le_div_iff_mul_le positive]
    omega
  calc workload.concurrentSequences = 1 * workload.concurrentSequences := (one_mul _).symm
    _ ≤ pagesFor workload geometry tokens := Nat.mul_le_mul_right _ page

theorem copies_le (shaped : Shaped source geometry)
    (accounted : Accounted workload source geometry tokens) (nonzero : tokens ≠ 0) :
    geometry.pageBytes * workload.concurrentSequences ≤ u64Max := by
  rcases u64Mul_eq_some.mp shaped.pageBytes with ⟨product, _⟩
  have pages := one_le_pages accounted nonzero
  have divides : geometry.logicalBlockTokens ∣ geometry.pageTokens :=
    Nat.dvd_of_mod_eq_zero shaped.whole
  have data : roundedFor workload geometry tokens / geometry.logicalBlockTokens *
      geometry.bytesPerBlock = pagesFor workload geometry tokens * geometry.pageBytes := by
    rw [roundedFor, Nat.mul_div_assoc _ divides, mul_assoc, product]
  calc geometry.pageBytes * workload.concurrentSequences
      = workload.concurrentSequences * geometry.pageBytes := mul_comm _ _
    _ ≤ pagesFor workload geometry tokens * geometry.pageBytes := Nat.mul_le_mul_right _ pages
    _ = _ := data.symm
    _ ≤ (sequenceRecord workload source geometry tokens).poolBytes := Nat.le_add_right _ _
    _ ≤ u64Max := accounted.pool

def floorTail (workload : WorkloadProfile) (geometry : StateClassPlan) (tokens : Nat) : Nat :=
  (roundedFor workload geometry tokens - tokens * workload.concurrentSequences) /
    geometry.logicalBlockTokens

theorem floorTail_le : floorTail workload geometry tokens ≤ tailBlocks workload geometry tokens :=
  Nat.div_le_div_right (Nat.le_add_right _ _)

theorem floorTail_eq_iff (shaped : Shaped source geometry)
    (accounted : Accounted workload source geometry tokens) :
    floorTail workload geometry tokens * geometry.bytesPerBlock =
        tailBlocks workload geometry tokens * geometry.bytesPerBlock ↔
      source.logicalBlockTokens ∣ tokens * workload.concurrentSequences := by
  rcases StateClassRequest.valid_block shaped.valid with ⟨_, bytes⟩
  rw [← shaped.bytes] at bytes
  rw [Nat.mul_left_inj bytes, floorTail, tailBlocks, div_eq_ceil_iff accounted.block,
    ← shaped.block]
  exact Nat.dvd_sub_iff_right (le_roundedFor workload accounted.pageTokens tokens)
    (Nat.dvd_of_mod_eq_zero accounted.whole)

end

section

variable {request : CapacityRequest} {plan : CapacityPlan} {source : StateClassRequest}
  {previous : Option StateClass}

structure Carried (request : CapacityRequest) (plan : CapacityPlan) : Prop where
  sequences : plan.concurrentSequences = request.workload.concurrentSequences
  prefixCache : plan.prefixCacheBytes = request.workload.prefixCacheBytes

section

variable (carried : Carried request plan) (shaped : Shaped source geometry)
  (ordered : previous.all (fun previous => previous.ctorIdx < source.stateClass.ctorIdx) = true)

include carried shaped ordered

theorem prefixUsage_valid (budget : source.extent = .prefixBudget)
    (used : prefixUsage request.workload source geometry = some record) :
    classValid plan previous bytes record = some bytes := by
  rcases StateClassRequest.valid_block shaped.valid with ⟨block, blockBytes⟩
  rw [← shaped.block] at block
  rw [← shaped.bytes] at blockBytes
  unfold prefixUsage at used
  simp only [bind_eq_some, u64Add_eq_some, u64Mul_eq_some] at used
  rcases used with ⟨_, ⟨rfl, _⟩, _, ⟨rfl, tokens⟩, _, ⟨rfl, _⟩, made⟩
  cases made
  unfold classValid
  simp only [bind_eq_some, ensure_eq_some, u64Mul_eq_some,
    shaped.extent, shaped.stateClass, budget, if_true]
  refine ⟨(), ordered, (), ?_, geometry.pageBytes, u64Mul_eq_some.mp shaped.pageBytes, (), ?_, _,
    ⟨rfl, tokens⟩, (), ?_, rfl⟩
  · simp [block, blockBytes, shaped.pageTokens, shaped.whole]
  · simp
  · simp [carried.prefixCache, shaped.noPromotion]

theorem sequenceUsage_valid (sequences : source.extent ≠ .prefixBudget) (nonzero : tokens ≠ 0)
    (used : sequenceUsage request.workload source geometry tokens = some record)
    (adds : bytes.add source.extent record.poolBytes = some added) :
    classValid plan previous bytes record = some checked ↔ checked = added ∧
        source.logicalBlockTokens ∣ tokens * request.workload.concurrentSequences := by
  rcases StateClassRequest.valid_block shaped.valid with ⟨block, blockBytes⟩
  rw [← shaped.block] at block
  rw [← shaped.bytes] at blockBytes
  rcases sequenceUsage_eq_some.mp used with ⟨accounted, rfl⟩
  have roundings := floorTail_eq_iff shaped accounted
  have tail : floorTail request.workload geometry tokens * geometry.bytesPerBlock ≤ u64Max :=
    le_trans (Nat.mul_le_mul_right _ floorTail_le) accounted.tail
  have copies := copies_le shaped accounted nonzero
  have part := le_roundedFor request.workload accounted.pageTokens tokens
  have data : roundedFor request.workload geometry tokens / geometry.logicalBlockTokens *
      geometry.bytesPerBlock ≤ u64Max := Nat.le_trans (Nat.le_add_right _ _) accounted.pool
  have extent : (sequenceRecord request.workload source geometry tokens).extent = source.extent :=
    shaped.extent
  have stateClass : (sequenceRecord request.workload source geometry tokens).stateClass =
      source.stateClass := shaped.stateClass
  unfold classValid
  simp only [bind_eq_some, ensure_eq_some, u64Mul_eq_some,
    extent, stateClass, if_neg sequences, carried.sequences]
  constructor
  · rintro ⟨_, _, _, _, _, _, _, _, _, ⟨rfl, _⟩, _, _, _, ⟨rfl, _⟩, _, _, _, ⟨rfl, _⟩, _,
      ⟨rfl, _⟩, _, agrees, _, ⟨rfl, _⟩, _, _, sum⟩
    rw [adds, Option.some.injEq] at sum
    rw [Bool.and_eq_true, beq_iff_eq] at agrees
    exact ⟨sum.symm, roundings.mp agrees.2⟩
  rintro ⟨rfl, divides⟩
  have agrees := roundings.mpr divides
  refine ⟨(), ordered, (), ?_, geometry.pageBytes, u64Mul_eq_some.mp shaped.pageBytes, (), ?_, _,
    ⟨rfl, accounted.rounded⟩, (), ?_, _, ⟨rfl, accounted.logical⟩, (), ?_, _, ⟨rfl, data⟩, _,
    ⟨rfl, tail⟩, (), ?_, _, ⟨rfl, copies⟩, (), ?_, adds⟩
  · simp [sequenceRecord, block, blockBytes, shaped.pageTokens, shaped.whole]
  · simp [sequenceRecord]
  · simpa [sequenceRecord] using nonzero
  · have whole := accounted.whole
    simp only [Bool.and_eq_true, beq_iff_eq, decide_eq_true_eq]
    exact ⟨⟨rfl, part⟩, whole⟩
  · simp only [Bool.and_eq_true, beq_iff_eq, decide_eq_true_eq]
    exact ⟨⟨Nat.le_add_right _ _, Nat.add_sub_cancel_left _ _⟩, agrees⟩
  · simp only [Bool.and_eq_true, beq_iff_eq]
    constructor
    · simp only [sequenceRecord, shaped.noTail]
    · change (if _ then _ else _) =
        if _ then floorTail request.workload geometry tokens * geometry.bytesPerBlock else _
      rw [agrees, shaped.noPromotion]

end

def StateClassRequest.WholeBlocks (request : CapacityRequest) (context : Nat)
    (source : StateClassRequest) : Prop :=
  source.extent ≠ .prefixBudget → source.logicalBlockTokens ∣
    source.tokens request.candidateWidth context * request.workload.concurrentSequences

theorem StateClassRequest.tokens_ne_zero (valid : source.valid = true)
    (width : request.candidateWidth ≠ 0) (nonzero : context ≠ 0) :
    source.tokens request.candidateWidth context ≠ 0 := by
  unfold tokens
  cases extent : source.extent with
  | fixed => exact source.valid_fixed valid extent
  | candidate => exact width
  | context => exact nonzero
  | prefixBudget => exact nonzero

theorem classUsage_valid (carried : Carried request plan) (shaped : Shaped source geometry)
    (ordered : previous.all (fun previous => previous.ctorIdx < source.stateClass.ctorIdx) = true)
    (width : request.candidateWidth ≠ 0) (nonzero : context ≠ 0)
    (used : classUsage request context source geometry = some record)
    (adds : bytes.add source.extent record.poolBytes = some added) :
    classValid plan previous bytes record = some checked ↔
      checked = added ∧ source.WholeBlocks request context := by
  unfold classUsage at used
  split at used
  · rename_i budget
    rw [prefixUsage_valid carried shaped ordered budget used, Option.some.injEq]
    rw [budget, PoolBytes.add, Option.some.injEq] at adds
    subst adds
    refine ⟨fun same => ⟨same.symm, fun sequences => absurd budget sequences⟩, ?_⟩
    exact fun both => both.1.symm
  · rename_i sequences
    rw [sequenceUsage_valid carried shaped ordered sequences
      (source.tokens_ne_zero shaped.valid width nonzero) used adds]
    exact and_congr_right fun _ => ⟨fun divides _ => divides, fun whole => whole sequences⟩

theorem classUsage_stateClass (shaped : Shaped source geometry)
    (used : classUsage request context source geometry = some record) :
    record.stateClass = source.stateClass := by
  rw [← shaped.stateClass]
  unfold classUsage at used
  split at used
  · unfold prefixUsage at used
    simp only [bind_eq_some] at used
    rcases used with ⟨_, _, _, _, _, _, made⟩
    cases made
    rfl
  · rcases sequenceUsage_eq_some.mp used with ⟨_, rfl⟩
    rfl

theorem classesValid_iff (carried : Carried request plan) (width : request.candidateWidth ≠ 0)
    (nonzero : context ≠ 0)
    (shaped : ∀ pair ∈ classes, Shaped pair.1 pair.2)
    (ordered : seenClasses mask previous seen (classes.map Prod.fst) = some last)
    (used : capacityStateUsage request context bytes classes = some usage) :
    classesValid plan previous bytes usage.1 = some checked ↔
      checked = usage.2 ∧ ∀ pair ∈ classes, pair.1.WholeBlocks request context := by
  induction classes generalizing previous seen bytes usage with
  | nil =>
    cases used
    simp [classesValid, eq_comm]
  | cons entry classes induction => ?_
  rcases entry with ⟨source, geometry⟩
  rw [capacityStateUsage] at used
  rw [map_cons, seenClasses] at ordered
  simp only [bind_eq_some, ensure_eq_some] at used ordered
  rcases used with ⟨record, found, added, adds, rest, used, made⟩
  rcases ordered with ⟨_, _, _, behind, _, _, ordered⟩
  cases made
  rw [forall_mem_cons] at shaped ⊢
  have first := fun checked => @classUsage_valid _ _ _ _ _ _ _ _ _ checked carried shaped.1 behind
    width nonzero found adds
  rw [classesValid, classUsage_stateClass shaped.1 found]
  simp only [bind_eq_some, first]
  constructor
  · grind
  · grind

end

def WorkloadProfile.batched (workload : WorkloadProfile) : Bool :=
  workload.concurrentSequences != 0 && workload.logicalBatchTokens != 0 &&
    workload.attentionMicrobatchRows != 0 && workload.moeRowTile != 0 &&
    workload.outputHeadRows != 0

theorem capacityRequestValidate_eq_true (valid : capacityRequestValidate request = true) :
    hexValid request.modelExecutionIdentity = true ∧ hexValid request.hardware.identity = true ∧
      hexValid request.workload.identity = true ∧ request.semanticMaximumContext ≠ 0 ∧
      request.candidateWidth ≠ 0 ∧ request.modelBytes ≠ 0 ∧ request.workspaceBytes ≠ 0 ∧
      request.stateClasses.length ≠ 0 ∧ request.stateClasses.length ≤ 11 ∧
      ∃ last, seenClasses request.semanticStateClassMask none 0 request.stateClasses =
        some last := by
  unfold capacityRequestValidate at valid
  simp only [Bool.and_eq_true, bne_iff_ne, decide_eq_true_eq, Option.any_eq_true] at valid
  rcases valid with ⟨⟨⟨⟨⟨⟨⟨⟨⟨⟨⟨⟨⟨⟨⟨⟨_, model⟩, maximum⟩, width⟩, _⟩, _⟩, _⟩, _⟩, hardware⟩,
    workload⟩, bytes⟩, _⟩, _⟩, workspace⟩, classes⟩, few⟩, last, seen, _⟩
  exact ⟨model, hardware, workload, maximum, width, bytes, workspace, classes, few, last, seen⟩

section

variable {request : CapacityRequest} {plan : CapacityPlan}

theorem capacityStateUsage_length
    (used : capacityStateUsage request context bytes classes = some usage) :
    usage.1.length = classes.length := by
  induction classes generalizing bytes usage with
  | nil =>
    cases used
    rfl
  | cons entry classes induction => ?_
  rw [capacityStateUsage] at used
  simp only [bind_eq_some] at used
  rcases used with ⟨record, _, added, _, rest, used, made⟩
  cases made
  rw [length_cons, length_cons, induction used]

theorem capacityPlanStructureValid_zero (zero : plan.admittedExecutionMaximum = 0) :
    (capacityPlanStructureValid plan).isSome = false := by
  unfold capacityPlanStructureValid
  rw [zero]
  simp [ensure]

variable [Sha256]

section

variable (valid : capacityRequestValidate request = true)
  (shaped : capacityGeometry request = some geometry)

include valid shaped

theorem capacityPlanStructureValid_planned (fixed : capacityFixedBytes request = some fixedBytes)
    (made : planned request geometry fixedBytes context = some plan)
    (bounded : context ≤ request.semanticMaximumContext) (nonzero : context ≠ 0)
    (fits : plan.requiredBytes ≤ request.hardware.usableMemoryBytes) :
    (capacityPlanStructureValid plan).isSome = true ↔ request.workload.batched = true ∧
        ∀ source ∈ request.stateClasses, source.WholeBlocks request context := by
  rcases capacityRequestValidate_eq_true valid with
    ⟨_, _, _, maximum, width, model, workspace, _, _, last, seen⟩
  rcases mapM_zip shaped with ⟨long, computed⟩
  have listed : (request.stateClasses.zip geometry).map Prod.fst = request.stateClasses :=
    map_fst_zip (le_of_eq long.symm)
  have classes : ∀ pair ∈ request.stateClasses.zip geometry, Shaped pair.1 pair.2 :=
    fun pair member => capacityStateGeometry_shaped (computed pair member)
  unfold planned requiredBytes at made
  simp only [bind_eq_some, u64Add_eq_some, u64Mul_eq_some] at made
  rcases made with ⟨usage, used, _, ⟨_, ⟨rfl, _⟩, rfl, sum⟩, _, ⟨rfl, total⟩, _, ⟨rfl, _⟩, made⟩
  rcases capacitySum_eq_some.mp fixed with ⟨parts, _⟩
  cases made
  rw [← listed] at seen
  have sums : capacitySum [request.modelBytes, request.derivedLayoutBytes, usage.2.state,
      usage.2.candidate, request.workspaceBytes, request.schedulerBytes, request.graphBytes,
      request.workload.prefixCacheBytes, request.workload.persistentStateBytes,
      request.workload.systemReserveBytes] =
        some (fixedBytes + usage.2.state + usage.2.candidate) := by
    refine capacitySum_eq_some.mpr ⟨?_, sum⟩
    simp only [parts, sum_cons]
    omega
  have wholeBlocks : (∀ pair ∈ request.stateClasses.zip geometry,
      pair.1.WholeBlocks request context) ↔
        ∀ source ∈ request.stateClasses, source.WholeBlocks request context := by
    conv_rhs => rw [← listed]
    rw [List.forall_mem_map]
  rw [isSome_iff_exists, ← wholeBlocks]
  unfold capacityPlanStructureValid
  simp only [bind_eq_some, ensure_eq_some, u64Mul_eq_some,
    WorkloadProfile.batched, Bool.and_eq_true, bne_iff_ne, beq_iff_eq, decide_eq_true_eq]
  constructor
  · rintro ⟨_, _, ⟨⟨⟨⟨⟨⟨⟨_, sequences⟩, batch⟩, rows⟩, tile⟩, head⟩, _⟩, _⟩, _, _, _, _, checked,
      valid, _⟩
    rw [classesValid_iff ⟨rfl, rfl⟩ width nonzero classes seen used] at valid
    exact ⟨⟨⟨⟨⟨sequences, batch⟩, rows⟩, tile⟩, head⟩, valid.2⟩
  rintro ⟨⟨⟨⟨⟨sequences, batch⟩, rows⟩, tile⟩, head⟩, whole⟩
  refine ⟨(), (), ?_, _, ⟨rfl, total⟩, (), ⟨rfl, trivial⟩, usage.2, ?_, (), ⟨rfl, rfl⟩, _, sums,
    ⟨rfl, fits⟩, u64Sub_of_le fits⟩
  · grind
  · rw [classesValid_iff ⟨rfl, rfl⟩ width nonzero classes seen used]
    exact ⟨rfl, whole⟩

theorem planned_sealed (made : planned request geometry fixedBytes context = some plan) :
    (plan.schemaVersion == 1 && plan.stateClasses.length != 0 &&
      decide (plan.stateClasses.length ≤ 11) && hexValid plan.modelExecutionIdentity &&
      hexValid plan.hardwareProfileIdentity && hexValid plan.workloadProfileIdentity &&
      hexValid plan.identity) = true ∧ capacityPlanIdentity plan = plan.identity := by
  rcases capacityRequestValidate_eq_true valid with
    ⟨model, hardware, workload, _, _, _, _, some, few, _⟩
  rcases mapM_zip shaped with ⟨long, _⟩
  unfold planned at made
  simp only [bind_eq_some] at made
  rcases made with ⟨usage, used, _, _, _, _, _, _, made⟩
  have count : usage.1.length = request.stateClasses.length := by
    rw [capacityStateUsage_length used, length_zip, long, Nat.min_self]
  cases made
  refine ⟨?_, rfl⟩
  simp only [count, model, hardware, workload, few, some, Bool.and_eq_true, bne_iff_ne, beq_iff_eq,
    decide_true, and_true, ne_eq, not_false_eq_true]
  exact ⟨trivial, Sha256.hex_valid _⟩

end

/-- A built plan is accepted exactly where the workload names a batch and the pooled tokens of
the largest context that fits are whole blocks in every class. -/
theorem capacityPlanValidate_built_iff {fuel : Nat}
    (built : capacityPlanBuild fuel request = some (.ok plan)) :
    capacityPlanValidate plan = .ok () ↔
      request.workload.batched = true ∧ ∃ context, request.LargestFit context ∧ context ≠ 0 ∧
        ∀ source ∈ request.stateClasses, source.WholeBlocks request context := by
  rcases capacityPlanBuild_eq_ok.mp built with
    ⟨valid, geometry, fixedBytes, admitted, shaped, fixed, _, ran, large, made⟩
  rcases planned_eq_some made with ⟨needs, maximum, _⟩
  rw [← bytesFor_eq shaped fixed] at needs
  have sealed := planned_sealed valid shaped made
  have checks : capacityPlanValidate plan = .ok () ↔
      (capacityPlanStructureValid plan).isSome = true := by
    unfold capacityPlanValidate
    rw [Except.bind_eq_ok]
    simp only [require_eq_ok, sealed, beq_self_eq_true, and_true]
    exact ⟨fun ⟨_, structured⟩ => structured, fun structured => ⟨(), structured⟩⟩
  rw [checks]
  rcases contextSearch_eq_some ran with ⟨zero, none⟩ | largest
  · have refused := capacityPlanStructureValid_zero (maximum.trans zero)
    rw [refused]
    apply iff_of_false (by decide)
    rintro ⟨_, context, largest, _⟩
    exact none context largest.minimum largest.bounded largest.fits
  rcases largest.fits with ⟨required, needed, fits⟩
  rw [needs, Option.some.injEq] at needed
  subst needed
  by_cases zero : admitted = 0
  · have refused := capacityPlanStructureValid_zero (maximum.trans zero)
    rw [refused]
    apply iff_of_false (by decide)
    rintro ⟨_, context, other, nonzero, _⟩
    exact nonzero (other.unique largest ▸ zero)
  have bounded : admitted ≤ request.semanticMaximumContext := by
    apply le_trans largest.bounded
    unfold CapacityRequest.contextBound
    split <;> omega
  rw [capacityPlanStructureValid_planned valid shaped fixed made bounded zero fits]
  refine and_congr_right fun _ => ⟨fun whole => ⟨admitted, largest, zero, whole⟩, ?_⟩
  rintro ⟨context, other, _, whole⟩
  rw [other.unique largest] at whole
  exact whole

end

def blockRequest (logicalBlockTokens : Nat) : CapacityRequest :=
  { wideRequest with
    semanticMaximumContext := 3
    workload := {
      wideRequest.workload with
      requestedSessionContext := 3
      representable := by decide }
    stateClasses := wideRequest.stateClasses.map fun source =>
      { source with logicalBlockTokens := logicalBlockTokens } }

/-- Twelve pooled tokens are not whole blocks of eight, and the plan is refused. -/
theorem capacityPlanValidate_blockRequest :
    ∃ plan, @capacityPlanBuild plainDigest 4 (blockRequest 8) = some (.ok plan) ∧
      @capacityPlanValidate plainDigest plan =
        .error ⟨.format, "persisted capacity plan is incomplete"⟩ :=
  ⟨_, rfl, rfl⟩

/-- They are whole blocks of four, and the plan is accepted. -/
theorem capacityPlanValidate_wholeBlocks :
    ∃ plan, @capacityPlanBuild plainDigest 4 (blockRequest 4) = some (.ok plan) ∧
      @capacityPlanValidate plainDigest plan = .ok () := by
  refine ⟨_, rfl, (@capacityPlanValidate_built_iff (blockRequest 4) _ plainDigest 4 rfl).mpr ?_⟩
  refine ⟨by decide, 3, ⟨by decide, by decide, ⟨_, rfl, by decide⟩, ?_⟩, by decide, ?_⟩
  · intro larger more bounded
    have last : (blockRequest 4).contextBound = 3 := rfl
    omega
  · intro source member _
    rw [mem_singleton.mp member]
    decide

end Yvex.Deployment
