import Yvex.Provider.RequestCodec
import Yvex.Server.ClientRequest

namespace Yvex.Server

open Tlv Provider List Option

/-! # Requests come back from their frames

The slots of a request are a layout of tagged fields, so the fields of an encoded request can
come in any order. Only the order of the media conditions follows the order of the fields. -/

@[reducible] def RequestSlot.Value : RequestSlot → Type
  | .operation => Bool × ClientOperation
  | .word _ => UInt64
  | .double _ => Binary64
  | .text _ => CString
  | .prompt => Bool × Bool × Bytes
  | .flags => RequestFlag → Int32
  | .traceLevel => TraceLevel
  | .reasoningPolicy => ReasoningPolicy
  | .image _ => List MediaCondition
  | .mediaExecution => MediaExecution
  | .provider => Option ProviderRequest
  | .content => List (ContentPart CString)

def conditionsOf (role : MediaConditionRole) (conditions : List MediaCondition) :
    List MediaCondition :=
  conditions.filter fun condition => condition.role == role

namespace RequestReading

variable (reading : RequestReading)

def get : (slot : RequestSlot) → slot.Value
  | .operation => (reading.haveOperation, reading.candidate.operation)
  | .word word => reading.candidate.words word
  | .double double => reading.candidate.doubles double
  | .text text => reading.candidate.texts text
  | .prompt => (reading.finitePayload, reading.promptPayload, reading.candidate.prompt)
  | .flags => reading.candidate.flags
  | .traceLevel => reading.candidate.traceLevel
  | .reasoningPolicy => reading.candidate.reasoningPolicy
  | .image role => conditionsOf role reading.candidate.mediaConditions
  | .mediaExecution => reading.candidate.mediaExecution
  | .provider => reading.candidate.providerRequest
  | .content => reading.candidate.contentParts

def Sound : Prop := reading.candidate.schemaVersion = localProtocolVersion ∧
    ∀ role, (conditionsOf role reading.candidate.mediaConditions).length ≤ 1

end RequestReading

variable {conditions : List MediaCondition}

theorem role_of_readerImage (read : readerImage role payload = some conditions) :
    conditions.length ≤ 1 ∧ ∀ condition ∈ conditions, condition.role = role := by
  rw [readerImage] at read
  split at read
  · cases read
    simp
  simp only [bind_eq_some, pure_eq_some] at read
  obtain ⟨path, -, rfl⟩ := read
  simp

theorem conditionsOf_append_self (same : ∀ condition ∈ conditions, condition.role = role)
    (before : List MediaCondition) :
    conditionsOf role (before ++ conditions) = conditionsOf role before ++ conditions := by
  rw [conditionsOf, filter_append]
  congr 1
  apply filter_eq_self.mpr
  intro condition member
  rw [same condition member, beq_self_eq_true]

theorem conditionsOf_append_other (same : ∀ condition ∈ conditions, condition.role = role)
    (different : other ≠ role) (before : List MediaCondition) :
    conditionsOf other (before ++ conditions) = conditionsOf other before := by
  have none : conditions.filter (fun condition => condition.role == other) = [] := by
    apply filter_eq_nil_iff.mpr
    intro condition member
    rw [same condition member, beq_iff_eq]
    exact different.symm
  rw [conditionsOf, filter_append, none, append_nil, conditionsOf]

theorem length_conditions (conditions : List MediaCondition) : conditions.length =
      (conditionsOf .first conditions).length + (conditionsOf .last conditions).length := by
  induction conditions with
  | nil => rfl
  | cons condition conditions induction => ?_
  simp only [conditionsOf] at induction ⊢
  cases role : condition.role
  all_goals
    simp only [length_cons, filter_cons, role, if_true, reduceCtorEq, beq_iff_eq, if_false]
    omega

/-! ## Media conditions -/

/-- What `request_media_conditions_valid` asks of one condition. -/
def MediaCondition.Shaped (condition : MediaCondition) : Prop :=
  condition.schemaVersion = 1 ∧ condition.sourcePath.isEmpty = false ∧
    condition.sourcePath.bytes.length < statePathCap

theorem conditionsValid_iff : ClientRequest.conditionsValid first last conditions = true ↔
      (∀ condition ∈ conditions, condition.Shaped) ∧
        first.toNat + (conditionsOf .first conditions).length ≤ 1 ∧
        last.toNat + (conditionsOf .last conditions).length ≤ 1 := by
  induction conditions generalizing first last with
  | nil => cases first <;> cases last <;> simp [ClientRequest.conditionsValid, conditionsOf]
  | cons condition conditions induction => ?_
  have kind : (condition.kind == MediaConditionKind.image) = true := by
    rfl
  rw [ClientRequest.conditionsValid, forall_mem_cons, MediaCondition.Shaped, kind]
  simp only [Bool.and_eq_true, decide_eq_true_eq, and_true]
  cases role : condition.role
  all_goals
    simp only [Bool.and_eq_true, Bool.not_eq_true', induction, conditionsOf, filter_cons,
      role, if_true, length_cons, Bool.toNat_true, beq_iff_eq,
      reduceCtorEq, if_false, ← Bool.toNat_eq_zero]
    constructor
    · rintro ⟨shape, free, others, rooms⟩
      exact ⟨⟨and_assoc.mp shape, others⟩, by omega⟩
    · grind

/-- The conditions of an admitted request: shaped, with one for each role at most. -/
def ClientRequest.Conditioned (request : ClientRequest) : Prop :=
  (request.operation ≠ .generationTurn → request.mediaConditions = []) ∧
    (∀ condition ∈ request.mediaConditions, condition.Shaped) ∧
    ∀ role, (conditionsOf role request.mediaConditions).length ≤ 1

variable {request : ClientRequest}

theorem mediaConditionsValid_iff : request.mediaConditionsValid = true ↔ request.Conditioned := by
  have roles : (∀ role, (conditionsOf role request.mediaConditions).length ≤ 1) ↔
      (conditionsOf .first request.mediaConditions).length ≤ 1 ∧
        (conditionsOf .last request.mediaConditions).length ≤ 1 := by
    constructor
    · intro each
      exact ⟨each .first, each .last⟩
    intro each role
    cases role with
    | first => exact each.1
    | last => exact each.2
  rw [ClientRequest.mediaConditionsValid, ClientRequest.Conditioned, roles]
  have lengths := length_conditions request.mediaConditions
  by_cases turn : request.operation = .generationTurn
  · simp only [turn, beq_self_eq_true, if_true, Bool.and_eq_true, conditionsValid_iff,
      Bool.toNat_false, ne_eq, not_true_eq_false, false_implies, true_and, zero_add]
    constructor
    · exact And.right
    intro given
    refine ⟨decide_eq_true ?_, given⟩
    rw [mediaConditionCap]
    omega
  have other : (request.operation == ClientOperation.generationTurn) = false := by simpa using turn
  simp only [other, Bool.false_eq_true, if_false, Bool.and_eq_true, decide_eq_true_eq,
    List.isEmpty_iff, ne_eq, turn, not_false_eq_true, true_implies]
  constructor
  · rintro ⟨-, empty⟩
    rw [empty]
    exact ⟨rfl, nofun, Nat.zero_le _, Nat.zero_le _⟩
  · rintro ⟨empty, -⟩
    rw [empty]
    exact ⟨Nat.zero_le _, rfl⟩

theorem mediaConditionPath_spec (conditioned : request.Conditioned) (role : MediaConditionRole) :
    if (request.mediaConditionPath role).isEmpty then
      conditionsOf role request.mediaConditions = []
    else readerImage role (request.mediaConditionPath role).bytes =
      some (conditionsOf role request.mediaConditions) := by
  obtain ⟨-, shaped, single⟩ := conditioned
  rw [ClientRequest.mediaConditionPath]
  cases found : request.mediaConditions.find? fun condition => condition.role == role with
  | none =>
    rw [find?_eq_none] at found
    have none : conditionsOf role request.mediaConditions = [] := filter_eq_nil_iff.mpr found
    exact none
  | some condition => ?_
  have member := mem_of_find?_eq_some found
  have same : condition.role = role := by
    have holds := find?_some found
    exact beq_iff_eq.mp holds
  obtain ⟨version, present, short⟩ := shaped condition member
  have inside : condition ∈ conditionsOf role request.mediaConditions :=
    mem_filter.mpr ⟨member, beq_iff_eq.mpr same⟩
  have alone : conditionsOf role request.mediaConditions = [condition] := by
    obtain ⟨other, equal⟩ := length_eq_one_iff.mp
      (le_antisymm (single role) (length_pos_of_mem inside))
    rw [equal, mem_singleton] at inside
    rw [equal, inside]
  have content : condition.sourcePath.bytes.isEmpty = false := present
  rw [alone]
  simp only [present, readerImage, content, readerText_bytes short]
  cases condition with
  | mk schemaVersion kind role' sourcePath =>
    cases version
    cases same
    rfl

section Layout

variable [Sha256Hex]

def RequestSlot.read : (slot : RequestSlot) → Field → Option slot.Value
  | .operation, field => (readerEnum field.payload).map fun operation => (true, operation)
  | .word _, field => readerU64 field.payload
  | .double _, field => readerDouble field.payload
  | .text named, field => readerText named.capacity field.payload
  | .prompt, field =>
    some (field.tag == finiteRequestTag, field.tag != finiteRequestTag, field.payload)
  | .flags, field => readerFlags field.payload
  | .traceLevel, field => readerEnum field.payload
  | .reasoningPolicy, field => readerReasoningPolicy field.payload
  | .image role, field => readerImage role field.payload
  | .mediaExecution, field => readMediaExecution.whole field.payload
  | .provider, field => readerProvider field.payload
  | .content, field => readerContent field.payload

variable {slot : RequestSlot} {reading : RequestReading}

theorem RequestReading.store_other {next : RequestReading}
    (stored : reading.store slot field = some next)
    (different : other ≠ slot) : next.get other = reading.get other := by
  cases slot with
  | image role =>
    rw [store] at stored
    split at stored
    · cases stored
      rfl
    simp only [bind_eq_some, pure_eq_some] at stored
    obtain ⟨_, -, conditions, read, rfl⟩ := stored
    cases other with
    | image other =>
      apply conditionsOf_append_other (role_of_readerImage read).2
      intro same
      exact different (congrArg RequestSlot.image same)
    | _ => rfl
  | word named | double named | text named =>
    simp only [store, bind_eq_some, pure_eq_some] at stored
    obtain ⟨value, -, rfl⟩ := stored
    cases other <;> first | rfl | skip
    exact Function.update_of_ne (fun same => different (congrArg _ same)) _ _
  | provider | content =>
    simp only [store, bind_eq_some, pure_eq_some] at stored
    obtain ⟨_, -, value, -, rfl⟩ := stored
    cases other <;> first | rfl | exact absurd rfl different
  | operation | prompt | flags | traceLevel | reasoningPolicy | mediaExecution =>
    simp only [store, bind_eq_some, pure_eq_some] at stored
    obtain ⟨value, -, rfl⟩ := stored
    cases other <;> first | rfl | exact absurd rfl different

def RequestSlot.blank (slot : RequestSlot) : slot.Value := RequestReading.start.get slot

theorem RequestReading.store_read (sound : reading.Sound) (unset : reading.get slot = slot.blank)
    (readable : slot.read field = some value) :
    ∃ next, reading.store slot field = some next ∧ next.get slot = value ∧ next.Sound := by
  cases slot with
  | image role =>
    have facts := role_of_readerImage readable
    by_cases empty : field.payload.isEmpty = true
    · refine ⟨reading, if_pos empty, ?_, sound⟩
      rw [RequestSlot.read, readerImage, if_pos empty, Option.some.injEq] at readable
      rw [unset, ← readable]
      rfl
    have none : conditionsOf role reading.candidate.mediaConditions = [] := unset
    have room : reading.candidate.mediaConditions.length < mediaConditionCap := by
      have lengths := length_conditions reading.candidate.mediaConditions
      have first := sound.2 .first
      have last := sound.2 .last
      rw [mediaConditionCap]
      cases role
      all_goals
        rw [none, length_nil] at lengths
        omega
    rw [RequestSlot.read] at readable
    refine ⟨{ reading with
      candidate.mediaConditions := reading.candidate.mediaConditions ++ value }, ?_, ?_, ?_⟩
    · rw [store, if_neg empty, ensure, decide_eq_true room, readable]
      rfl
    · rw [get, conditionsOf_append_self facts.2, none, nil_append]
    · refine ⟨sound.1, ?_⟩
      intro other
      by_cases same : other = role
      · cases same
        rw [conditionsOf_append_self facts.2, none]
        exact facts.1
      · rw [conditionsOf_append_other facts.2 same]
        exact sound.2 other
  | word word | double double | text text =>
    rw [RequestSlot.read] at readable
    refine ⟨_, by rw [store, readable]; rfl, ?_, ?_⟩
    · exact Function.update_self ..
    · exact sound
  | prompt =>
    cases readable
    have blank : reading.finitePayload = false ∧ reading.promptPayload = false := by
      simp only [get, RequestSlot.blank, Prod.mk.injEq] at unset
      exact ⟨unset.1, unset.2.1⟩
    refine ⟨_, by rw [store, blank.1, blank.2]; rfl, ?_, ?_⟩
    · rfl
    · exact sound
  | provider =>
    rw [RequestSlot.read] at readable
    have blank : reading.candidate.providerRequest = none := unset
    refine ⟨_, by rw [store, readable, blank]; rfl, ?_, ?_⟩
    · rfl
    · exact sound
  | content =>
    rw [RequestSlot.read] at readable
    have blank : reading.candidate.contentParts = [] := unset
    refine ⟨_, by rw [store, readable, blank]; rfl, ?_, ?_⟩
    · rfl
    · exact sound
  | operation =>
    rw [RequestSlot.read, map_eq_some_iff] at readable
    obtain ⟨operation, read, rfl⟩ := readable
    refine ⟨_, by rw [store, read]; rfl, ?_, ?_⟩
    · rfl
    · exact sound
  | flags | traceLevel | reasoningPolicy | mediaExecution =>
    rw [RequestSlot.read] at readable
    refine ⟨_, by rw [store, readable]; rfl, ?_, ?_⟩
    · rfl
    · exact sound

def requestLayout : Layout RequestReading RequestSlot where
  Value := RequestSlot.Value
  get := RequestReading.get
  blank := RequestSlot.blank
  slotOf := requestSlot
  read := RequestSlot.read
  store slot field reading := reading.store slot field
  Sound := RequestReading.Sound
  store_other := RequestReading.store_other
  store_read := RequestReading.store_read

end Layout

/-! ## Fields of a request -/

theorem readerReasoningPolicy_code (policy : ReasoningPolicy) :
    readerReasoningPolicy (writeU64 policy.code.toUInt64) = some policy := by
  cases policy <;> rfl

theorem reads_mediaTrajectory : Reads readMediaTrajectory (fun _ => True)
      (fun trajectory => writeU64 (UInt64.ofNat (Enumerated.code trajectory))) := by
  apply reads_u64.convert (fun trajectory => UInt64.ofNat (Enumerated.code trajectory))
  intro number trajectory
  rw [Enumerated.ofCode_eq_some, true_and, true_and]
  constructor
  · intro same
    rw [← same, UInt64.ofNat_toNat]
  · rintro rfl
    exact Enumerated.toNat_ofNat_code trajectory

theorem whole_mediaExecution (execution : MediaExecution) :
    readMediaExecution.whole execution.wire = some execution := by
  have reads : readMediaExecution.run (execution.wire ++ []) = some (execution, []) := by
    simp only [readMediaExecution, Reader.run_bind_eq_some]
    exact ⟨_, _, reads_unsigned.read trivial _, _, _, reads_mediaTrajectory.read trivial _,
      _, _, reads_unsigned.read trivial _, _, _, reads_u64.read trivial _,
      _, _, reads_u64.read trivial _, _, _, reads_u64.read trivial _,
      _, _, reads_u64.read trivial _, rfl⟩
  rw [append_nil] at reads
  simp only [Reader.whole, reads]
  rfl

theorem mediaExecution_zero (valid : request.mediaExecutionValid = true)
    (absent : (request.mediaExecution.schemaVersion == 0) = true) :
    request.mediaExecution = ⟨0, .default, 0, 0, 0, 0, 0⟩ := by
  simp only [ClientRequest.mediaExecutionValid, absent, if_true, Bool.and_eq_true,
    beq_iff_eq] at valid
  have version := beq_iff_eq.mp absent
  cases execution : request.mediaExecution with
  | mk schemaVersion trajectory present width height duration seed =>
    grind

theorem text_eq_blank (empty : text.isEmpty = true) : text = CString.ofBytes [] := by
  apply CString.ext
  exact isEmpty_iff.mp empty

section Emission

variable [Sha256Hex]

def RequestReading.ofRequest (request : ClientRequest) : RequestReading where
  candidate := request
  haveOperation := true
  finitePayload := request.operation == .finiteDecision
  promptPayload := request.operation != .finiteDecision

/-- The bytes of the provider request and of the content stand for them. -/
structure ClientRequest.Carried (request : ClientRequest) (providerBytes contentBytes : Bytes) :
    Prop where
  provider : readerProvider providerBytes = some request.providerRequest
  content :
    if contentBytes.isEmpty then request.contentParts = []
    else readerContent contentBytes = some request.contentParts

structure ClientRequest.Ready (request : ClientRequest) : Prop where
  terminated : ∀ text, request.terminated text = true
  flags : ∀ flag, request.flags flag = 0 ∨ request.flags flag = 1
  conditioned : request.Conditioned
  execution : request.mediaExecutionValid = true

variable {request : ClientRequest} {slot : RequestSlot}

theorem emits_field (fits : field.Fits) (tagged : requestSlot field.tag = some slot)
    (read : slot.read field = some ((RequestReading.ofRequest request).get slot)) :
    requestLayout.Emits (.ofRequest request) slot (some field) ∧
      ∀ field', some field = some field' → field'.Fits :=
  ⟨⟨tagged, read⟩, fun _ same => Option.some.inj same ▸ fits⟩

theorem emit_emits (ready : request.Ready) (carried : request.Carried providerBytes contentBytes)
    (written : request.emit providerBytes contentBytes slot = some emitted) :
    requestLayout.Emits (.ofRequest request) slot emitted ∧
      ∀ field, emitted = some field → field.Fits := by
  cases slot with
  | operation =>
    rw [ClientRequest.emit, writerEnum, writerU64, writerField_eq_some] at written
    obtain ⟨fits, rfl⟩ := written
    apply emits_field fits rfl
    rw [RequestSlot.read, readerEnum_code]
    rfl
  | word word =>
    obtain ⟨fits, rfl⟩ := writerField_eq_some.mp written
    exact emits_field fits (by cases word <;> rfl) (readerU64_writeU64 _)
  | double double =>
    obtain ⟨finite, fits, rfl⟩ := writerDouble_eq_some.mp written
    exact emits_field fits (by cases double <;> rfl) (readerDouble_bits finite)
  | text text =>
    have cases := writerText_eq_some.mp written
    split at cases
    · rename_i empty
      cases cases
      exact ⟨text_eq_blank empty, fun _ same => by cases same⟩
    · obtain ⟨fits, rfl⟩ := cases
      have short := decide_eq_true_eq.mp (ready.terminated text)
      exact emits_field fits (by cases text <;> rfl) (readerText_bytes short)
  | prompt =>
    obtain ⟨fits, rfl⟩ := writerField_eq_some.mp written
    cases finite : request.operation == .finiteDecision
    all_goals
      rw [finite] at fits
      apply emits_field fits rfl
      simp [RequestSlot.read, RequestReading.get, RequestReading.ofRequest, bne, finite,
        finiteRequestTag]
  | flags =>
    rw [ClientRequest.emit, writerU64, writerField_eq_some] at written
    obtain ⟨fits, rfl⟩ := written
    exact emits_field fits rfl (readerFlags_flagWord ready.flags)
  | traceLevel =>
    rw [ClientRequest.emit, writerEnum, writerU64, writerField_eq_some] at written
    obtain ⟨fits, rfl⟩ := written
    exact emits_field fits rfl (readerEnum_code _)
  | reasoningPolicy =>
    rw [ClientRequest.emit, writerU64, writerField_eq_some] at written
    obtain ⟨fits, rfl⟩ := written
    exact emits_field fits rfl (readerReasoningPolicy_code _)
  | image role =>
    have path := mediaConditionPath_spec ready.conditioned role
    have cases := writerText_eq_some.mp written
    split at cases
    · rename_i empty
      cases cases
      rw [if_pos empty] at path
      exact ⟨path, fun _ same => by cases same⟩
    rename_i present
    obtain ⟨fits, rfl⟩ := cases
    rw [if_neg present] at path
    exact emits_field fits (by cases role <;> rfl) path
  | mediaExecution =>
    rw [ClientRequest.emit] at written
    split at written
    · rename_i absent
      cases written
      exact ⟨mediaExecution_zero ready.execution absent, nofun⟩
    · obtain ⟨fits, rfl⟩ := writerField_eq_some.mp written
      exact emits_field fits rfl (whole_mediaExecution _)
  | provider =>
    obtain ⟨fits, rfl⟩ := writerField_eq_some.mp written
    exact emits_field fits rfl carried.provider
  | content =>
    have content := carried.content
    rw [ClientRequest.emit] at written
    split at written
    · rename_i empty
      cases written
      rw [if_pos empty] at content
      exact ⟨content, nofun⟩
    rename_i present
    obtain ⟨fits, rfl⟩ := writerField_eq_some.mp written
    rw [if_neg present] at content
    exact emits_field fits rfl content

end Emission

/-! ## The round trip -/

/-- Two requests that differ in the order of their media conditions at most. -/
def ClientRequest.Same (received request : ClientRequest) : Prop :=
  received = { request with mediaConditions := received.mediaConditions } ∧
    received.mediaConditions.Perm request.mediaConditions

theorem perm_of_conditionsOf
    (same : ∀ role, conditionsOf role conditions = conditionsOf role others) :
    conditions.Perm others := by
  have split : ∀ conditions : List MediaCondition,
      (conditionsOf .first conditions ++ conditionsOf .last conditions).Perm conditions := by
    intro conditions
    have other : conditionsOf .last conditions =
        conditions.filter fun condition => !(condition.role == MediaConditionRole.first) := by
      apply filter_congr
      intro condition _
      cases condition.role <;> rfl
    rw [other]
    exact filter_append_perm _ _
  apply (split conditions).symm.trans
  rw [same .first, same .last]
  exact split others

variable {reading : RequestReading}

theorem same_of_get (version : reading.candidate.schemaVersion = request.schemaVersion)
    (same : ∀ slot, reading.get slot = (RequestReading.ofRequest request).get slot) :
    reading.candidate.Same request := by
  constructor
  · have words : reading.candidate.words = request.words := funext fun word => same (.word word)
    have doubles : reading.candidate.doubles = request.doubles :=
      funext fun double => same (.double double)
    have texts : reading.candidate.texts = request.texts := funext fun text => same (.text text)
    have operation : reading.candidate.operation = request.operation :=
      congrArg Prod.snd (same .operation)
    have prompt : reading.candidate.prompt = request.prompt :=
      congrArg (fun value => value.2.2) (same .prompt)
    have flags : reading.candidate.flags = request.flags := same .flags
    have traceLevel : reading.candidate.traceLevel = request.traceLevel := same .traceLevel
    have policy : reading.candidate.reasoningPolicy = request.reasoningPolicy :=
      same .reasoningPolicy
    have execution : reading.candidate.mediaExecution = request.mediaExecution :=
      same .mediaExecution
    have provider : reading.candidate.providerRequest = request.providerRequest := same .provider
    have content : reading.candidate.contentParts = request.contentParts := same .content
    rw [← version, ← words, ← doubles, ← texts, ← operation, ← prompt, ← flags, ← traceLevel,
      ← policy, ← execution, ← provider, ← content]
  · exact perm_of_conditionsOf fun role => same (.image role)

theorem ClientRequest.Conditioned.perm (conditioned : request.Conditioned)
    (order : conditions.Perm request.mediaConditions) :
    ClientRequest.Conditioned { request with mediaConditions := conditions } := by
  refine ⟨?_, ?_, ?_⟩
  · intro other
    have empty := conditioned.1 other
    rw [empty] at order
    exact order.eq_nil
  · intro condition member
    exact conditioned.2.1 condition (order.mem_iff.mp member)
  · intro role
    have lengths := (order.filter fun condition => condition.role == role).length_eq
    exact lengths.le.trans (conditioned.2.2 role)

theorem fieldsValid_same {received : ClientRequest} (same : received.Same request)
    (valid : request.fieldsValid = true) : received.fieldsValid = true := by
  rw [same.1]
  simp only [ClientRequest.fieldsValid, Bool.and_eq_true] at valid ⊢
  obtain ⟨⟨others, conditions⟩, execution⟩ := valid
  refine ⟨⟨others, ?_⟩, execution⟩
  exact mediaConditionsValid_iff.mpr ((mediaConditionsValid_iff.mp conditions).perm same.2)

theorem requestOrder_nodup : requestOrder.Nodup := by decide

theorem mem_requestOrder (slot : RequestSlot) : slot ∈ requestOrder := by
  cases slot with
  | word word => cases word <;> decide
  | double double => cases double <;> decide
  | text text => cases text <;> decide
  | image role => cases role <;> decide
  | _ => decide

theorem complete_ready (complete : request.complete = true)
    (terminated : ∀ text, request.terminated text = true) : request.Ready := by
  simp only [ClientRequest.complete, ClientRequest.fieldsValid, flagValid, Bool.and_eq_true,
    Bool.or_eq_true, beq_iff_eq] at complete
  obtain ⟨⟨⟨⟨⟨⟨⟨⟨⟨⟨⟨-, fields⟩, stochastic⟩, seedPresent⟩, traceContent⟩, -⟩, -⟩, -⟩, -⟩, -⟩, -⟩,
    -⟩ := complete
  refine ⟨terminated, ?_, mediaConditionsValid_iff.mp fields.1.2, fields.2⟩
  intro flag
  cases flag with
  | stochastic => exact stochastic
  | seedPresent => exact seedPresent
  | traceContent => exact traceContent

theorem readerContent_encoded (encoded : partsWireEncode parts contentWireMaxBytes = .ok wire) :
    wire.isEmpty = false ∧ readerContent wire = some parts := by
  obtain ⟨bounded, valid, written, fits⟩ := partsWireEncode_eq_ok.mp encoded
  have decoded : partsWireDecode wire = .ok parts := by
    apply partsWireDecode_eq_ok.mpr
    refine ⟨_, written, fits, ?_, ?_, valid⟩
    · intro raw member
      obtain ⟨part, inside, rfl⟩ := mem_map.mp member
      exact partValid_framed (valid.2.2 part inside)
    · rw [List.map_map]
      exact (map_id'' (fun part => part.stored_raw) parts).symm
  have present : wire.isEmpty = false := by
    cases wire with
    | nil => cases decoded
    | cons byte bytes => rfl
  refine ⟨present, ?_⟩
  rw [readerContent, present, decoded]
  rfl

theorem accepted_of_get (complete : request.complete = true) (same : reading.candidate.Same request)
    (gets : ∀ slot, reading.get slot = (RequestReading.ofRequest request).get slot) :
    reading.accepted = true := by
  have operation := gets .operation
  have prompt := gets .prompt
  simp only [RequestReading.get, RequestReading.ofRequest, Prod.mk.injEq] at operation prompt
  simp only [ClientRequest.complete, Bool.and_eq_true] at complete
  have fields : request.fieldsValid = true := complete.1.1.1.1.1.1.1.1.1.1.2
  have input : reading.candidate.oneInput = true := by
    rw [same.1]
    exact complete.1.2
  rw [RequestReading.accepted, operation.1, operation.2, prompt.1, prompt.2.1,
    fieldsValid_same same fields, input]
  cases finite : request.operation == .finiteDecision <;> simp [bne, finite]

theorem requestSlot_lt (known : requestSlot tag = some slot) : tag < trackedTags := by
  by_contra large
  rw [trackedTags] at large
  have other : requestSlot tag = none := by
    unfold requestSlot
    split <;> first | omega | rfl
  cases other.symm.trans known

section RoundTrip

variable [Sha256Hex] {request : ClientRequest}

theorem readerProvider_encoded (decoded : requestWireDecode wire = .ok provider) :
    readerProvider wire = some (some provider) := by
  have present : wire.isEmpty = false := by
    cases wire with
    | nil => cases decoded
    | cons byte bytes => rfl
  rw [readerProvider, present, decoded]
  rfl

theorem requestEncode_eq_ok (survives : ∀ provider wire, request.providerRequest = some provider →
      requestWireEncode provider wireMaxBytes = .ok wire → requestWireDecode wire = .ok provider)
    (encoded : requestEncode request capacity = .ok bytes) :
    request.complete = true ∧ ∃ providerBytes contentBytes fields,
      request.Carried providerBytes contentBytes ∧
        collect (request.emit providerBytes contentBytes) requestOrder = some fields ∧
        bytes = frame fields ∧ bytes.length ≤ capacity := by
  simp only [requestEncode, Except.bind_eq_ok, require_eq_ok, orReject_eq_ok,
    bind_eq_some, ensure_eq_some, decide_eq_true_eq,
    pure_eq_some] at encoded
  obtain ⟨_, complete, providerBytes, provider, contentBytes, content, fields, collected, _, fits,
    rfl⟩ := encoded
  refine ⟨complete, providerBytes, contentBytes, fields, ⟨?_, ?_⟩, collected, rfl, fits⟩
  · rw [ClientRequest.providerWire] at provider
    cases given : request.providerRequest with
    | none =>
      rw [given] at provider
      cases provider
      rfl
    | some whole =>
      rw [given] at provider
      exact readerProvider_encoded (survives whole providerBytes given provider)
  · rw [ClientRequest.contentWire] at content
    split at content
    · rename_i empty
      cases content
      exact isEmpty_iff.mp empty
    · obtain ⟨present, read⟩ := readerContent_encoded content
      rw [present]
      exact read

theorem requestDecode_eq_ok : requestDecode input = .ok received ↔
      input.length ≤ frameMaxBytes ∧ ∃ fields reading, (∀ field ∈ fields, Field.Fits field) ∧
        input = frame fields ∧ Fresh trackedTags [] fields ∧
        run requestLayout.handle fields .start = some reading ∧ reading.accepted = true ∧
        received = reading.candidate := by
  have handled : requestLayout.handle = RequestReading.handle := rfl
  simp only [requestDecode, Except.bind_eq_ok, require_eq_ok, orReject_eq_ok, decide_eq_true_eq,
    bind_eq_some, ensure_eq_some, pure_eq_some, scan_eq_some le_rfl]
  constructor
  · grind
  · rintro ⟨bounded, fields, reading, fit, split, fresh, ran, accepted, same⟩
    exact ⟨(), bounded, reading, ⟨fields, fit, split, fresh, ran⟩, (), accepted, same.symm⟩

theorem collected_fits (ready : request.Ready)
    (carried : request.Carried providerBytes contentBytes)
    (collected : collect (request.emit providerBytes contentBytes) requestOrder = some fields) :
    ∀ field ∈ fields, field.Fits := by
  obtain ⟨written, rfl⟩ := collect_eq_some.mp collected
  intro field member
  obtain ⟨slot, inside, emitted⟩ := mem_filterMap.mp member
  obtain ⟨result, equal⟩ := written slot inside
  rw [equal] at emitted
  exact (emit_emits ready carried equal).2 field emitted

theorem requestDecode_emitted (complete : request.complete = true)
    (terminated : ∀ text, request.terminated text = true)
    (carried : request.Carried providerBytes contentBytes)
    (collected : collect (request.emit providerBytes contentBytes) requestOrder = some fields)
    (bounded : (frame fields).length ≤ frameMaxBytes) (permuted : order.Perm fields) :
    ∃ received, requestDecode (frame order) = .ok received ∧ received.Same request := by
  have ready := complete_ready complete terminated
  have fit := collected_fits ready carried collected
  obtain ⟨written, rfl⟩ := collect_eq_some.mp collected
  have emits : ∀ slot ∈ requestOrder, requestLayout.Emits (.ofRequest request) slot
      (request.emit providerBytes contentBytes slot).join := by
    intro slot member
    obtain ⟨emitted, equal⟩ := written slot member
    rw [equal]
    exact (emit_emits ready carried equal).1
  have distinct : (order.map Field.tag).Nodup := by
    have slots := Layout.nodup_emitted requestOrder_nodup emits
    rw [← (permuted.map _).nodup_iff] at slots
    exact List.Nodup.of_map requestSlot (by rwa [List.map_map])
  have first : RequestReading.start.Sound := ⟨rfl, fun _ => Nat.zero_le _⟩
  obtain ⟨reading, ran, sound, gets, -⟩ :=
    Layout.run_emitted requestOrder_nodup emits permuted first (fun _ _ => rfl)
  have version : request.schemaVersion = localProtocolVersion := by
    simp only [ClientRequest.complete, Bool.and_eq_true, beq_iff_eq] at complete
    exact complete.1.1.1.1.1.1.1.1.1.1.1
  have same : reading.candidate.Same request :=
    same_of_get (sound.1.trans version.symm) fun slot => gets slot (mem_requestOrder slot)
  refine ⟨reading.candidate, ?_, same⟩
  apply requestDecode_eq_ok.mpr
  refine ⟨?_, order, reading, ?_, rfl, fresh_of_nodup distinct nofun, ran, ?_, rfl⟩
  · rwa [frame, (permuted.flatMap_right Field.wire).length_eq]
  · exact fun field member => fit field (permuted.mem_iff.mp member)
  · exact accepted_of_get complete same fun slot => gets slot (mem_requestOrder slot)

theorem requestDecode_repeated (fit : ∀ field ∈ fields, field.Fits)
    (repeated : ¬ (fields.map Field.tag).Nodup) :
    ∃ rejection, requestDecode (frame fields) = .error rejection := by
  cases outcome : requestDecode (frame fields) with
  | error rejection => exact ⟨rejection, rfl⟩
  | ok received => ?_
  obtain ⟨-, others, reading, fit', same, fresh, ran, -, -⟩ := requestDecode_eq_ok.mp outcome
  cases frame_injective fit fit' same
  refine absurd (fresh.nodup ?_).1 repeated
  intro field member
  obtain ⟨slot, known⟩ := Layout.known_of_run ran field member
  exact requestSlot_lt known

theorem requestEncode_roundTrip {capacity : Nat} {bytes : Bytes}
    (terminated : ∀ text, request.terminated text = true)
    (survives : ∀ provider wire, request.providerRequest = some provider →
      requestWireEncode provider wireMaxBytes = .ok wire → requestWireDecode wire = .ok provider)
    (limited : capacity ≤ frameMaxBytes) (encoded : requestEncode request capacity = .ok bytes) :
    ∃ fields, bytes = frame fields ∧ (∀ field ∈ fields, Field.Fits field) ∧
      (∀ order, order.Perm fields →
        ∃ received, requestDecode (frame order) = .ok received ∧ received.Same request) ∧
      ∀ field ∈ fields, ∀ copy, Field.Fits copy → copy.tag = field.tag →
        ∀ order, order.Perm (copy :: fields) →
          ∃ rejection, requestDecode (frame order) = .error rejection := by
  obtain ⟨complete, providerBytes, contentBytes, fields, carried, collected, rfl, fits⟩ :=
    requestEncode_eq_ok survives encoded
  have fit := collected_fits (complete_ready complete terminated) carried collected
  refine ⟨fields, rfl, fit, ?_, ?_⟩
  · intro order permuted
    exact requestDecode_emitted complete terminated carried collected (fits.trans limited) permuted
  intro field member copy fitting same order permuted
  apply requestDecode_repeated
  · grind
  · grind

end RoundTrip

def imageRequest : ClientRequest :=
  { ClientRequest.empty with
    operation := .generationTurn
    prompt := [104, 105]
    mediaConditions :=
      [⟨1, .image, .last, CString.ofBytes [47, 98]⟩, ⟨1, .image, .first, CString.ofBytes [47, 97]⟩] }

theorem requestEncode_roundTrip_images :
    ∃ bytes, @requestEncode zeroDigest imageRequest frameMaxBytes = .ok bytes ∧
      ∃ received, @requestDecode zeroDigest bytes = .ok received ∧ received.Same imageRequest := by
  have terminated : ∀ text, imageRequest.terminated text = true := by
    intro text
    cases text <;> decide
  have alone : ∀ provider wire, imageRequest.providerRequest = some provider →
      @requestWireEncode zeroDigest provider wireMaxBytes = .ok wire →
      @requestWireDecode zeroDigest wire = .ok provider := by
    intro provider wire given
    have none : imageRequest.providerRequest = none := rfl
    cases none.symm.trans given
  obtain ⟨bytes, encoded⟩ : ∃ bytes, @requestEncode zeroDigest imageRequest frameMaxBytes =
    .ok bytes := by
    apply Except.exists_of_isOk
    decide +kernel
  obtain ⟨fields, split, -, orders, -⟩ := @requestEncode_roundTrip zeroDigest imageRequest
    frameMaxBytes bytes terminated alone le_rfl encoded
  refine ⟨bytes, encoded, ?_⟩
  rw [split]
  exact orders fields (List.Perm.refl fields)

end Yvex.Server
