import Yvex.Provider.RequestWire

namespace Yvex.Provider

open List Yvex.Except

/-! # Reading back what was written

The reader of each record accepts exactly the written forms of the values that fit its bounds. -/

theorem reads_code {ofCode : UInt32 → Option α} {legal : α → Prop} (code : α → UInt32)
    (coded : ∀ field value, ofCode field = some value ↔ legal value ∧ field = code value) :
    Reads (readCode ofCode) legal (fun value => writeU32 (code value)) := by
  apply reads_u32.convert code
  intro field value
  rw [true_and, coded]

theorem reads_codes :
    Reads (readCode Role.ofCode) (fun _ => True) (fun role => writeU32 role.code) ∧
      Reads (readCode ToolChoiceKind.ofCode) (fun _ => True) (fun kind => writeU32 kind.code) ∧
      Reads (readCode ResponseFormat.ofCode) (fun _ => True) (fun format => writeU32 format.code) ∧
      Reads (readCode ReasoningHistoryPolicy.ofCode) (fun _ => True)
        (fun policy => writeU32 policy.code) := by
  refine ⟨reads_code _ ?_, reads_code _ ?_, reads_code _ ?_, reads_code _ ?_⟩
  all_goals
    intro field value
    constructor
    · intro found
      simp only [Role.ofCode, ToolChoiceKind.ofCode, ResponseFormat.ofCode,
        ReasoningHistoryPolicy.ofCode] at found
      split at found <;> cases found <;> exact ⟨trivial, rfl⟩
    · rintro ⟨-, rfl⟩
      cases value <;> rfl

section

variable (schemaVersion : UInt32)

def ReasoningPolicy.Allowed (policy : ReasoningPolicy) : Prop :=
  policy = .sourceDefault → schemaVersion = 4

theorem reads_reasoningPolicy :
    Reads (readCode (ReasoningPolicy.ofCode schemaVersion)) (ReasoningPolicy.Allowed schemaVersion)
      (fun policy => writeU32 policy.code) := by
  apply reads_code ReasoningPolicy.code
  intro field policy
  constructor
  · intro found
    unfold ReasoningPolicy.ofCode at found
    split at found
    case h_5 =>
      split at found
      · rename_i last
        cases found
        exact ⟨fun _ => last, rfl⟩
      · cases found
    all_goals
      cases found <;> exact ⟨nofun, rfl⟩
  · rintro ⟨allowed, rfl⟩
    cases policy with
    | sourceDefault => exact if_pos (allowed rfl)
    | _ => rfl

theorem reads_flag : Reads readFlag (fun flag => flagValid flag = true) writeInt := by
  apply reads_code Int32.toUInt32
  intro field flag
  simp only [flagValid, Bool.or_eq_true, beq_iff_eq]
  constructor
  · intro found
    split at found
    · rename_i zero
      cases found
      exact ⟨.inl rfl, zero⟩
    split at found
    · rename_i one
      cases found
      exact ⟨.inr rfl, one⟩
    · cases found
  · rintro ⟨rfl | rfl, rfl⟩ <;> rfl

theorem reads_double : Reads readDouble (fun _ => True) writeDouble := by
  apply reads_u64.map Binary64.bits
  intro field value
  constructor
  · rintro ⟨-, rfl⟩
    exact ⟨trivial, rfl⟩
  · rintro ⟨-, rfl⟩
    exact ⟨trivial, rfl⟩

theorem reads_id : Reads (Reader.text 4 idCap) (fun text => text.bytes.length < idCap)
    (writeText 4) :=
  reads_text (by decide) (by decide)

theorem reads_name : Reads (Reader.text 4 toolNameCap)
    (fun text => text.bytes.length < toolNameCap) (writeText 4) :=
  reads_text (by decide) (by decide)

theorem reads_schemaText : Reads (Reader.span 4 maxToolSchemaBytes)
    (fun span => span.length ≤ maxToolSchemaBytes) (writeSpan 4) :=
  reads_span (by decide)

theorem reads_messageText : Reads (Reader.span 4 maxMessageBytes)
    (fun span => span.length ≤ maxMessageBytes) (writeSpan 4) :=
  reads_span (by decide)

/-! ## Records -/

def ToolCall.Fits (call : ToolCall) : Prop :=
  call.callId.bytes.length < idCap ∧ call.name.bytes.length < toolNameCap ∧
    call.argumentsJson.length ≤ maxToolSchemaBytes

theorem reads_toolCall : Reads readToolCall ToolCall.Fits ToolCall.wire := by
  apply Reads.fields
  · apply reads_id.field ToolCall.callId
    intro callId
    apply reads_name.field ToolCall.name
    intro name
    apply reads_schemaText.field ToolCall.argumentsJson
    intro argumentsJson
    apply Reads.record
    rintro ⟨⟩
    simp only [true_and, ToolCall.mk.injEq, and_assoc]
  · intro call
    simp only [ToolCall.Fits, and_true]
  · intro call
    simp only [ToolCall.wire, append_assoc, append_nil]

def Message.Fits (schemaVersion : UInt32) (message : Message) : Prop :=
  message.content.length ≤ maxMessageBytes ∧
    (if schemaVersion != 1 then message.reasoningContent.length ≤ maxMessageBytes
      else message.reasoningContent = []) ∧
    message.toolCallId.bytes.length < idCap ∧
    message.toolCalls.length ≤ maxCalls schemaVersion ∧ ∀ call ∈ message.toolCalls, call.Fits

theorem maxCalls_lt : maxCalls schemaVersion < 256 ^ 4 := by
  unfold maxCalls
  split <;> decide

theorem reads_message :
    Reads (readMessage schemaVersion) (Message.Fits schemaVersion) (Message.wire schemaVersion) := by
  apply Reads.fields
  · apply reads_codes.1.field Message.role
    intro role
    apply reads_messageText.field Message.content
    intro content
    apply (reads_messageText.optional (schemaVersion != 1) []).field Message.reasoningContent
    intro reasoningContent
    apply reads_id.field Message.toolCallId
    intro toolCallId
    apply (reads_list reads_toolCall (maxCalls_lt schemaVersion)).field Message.toolCalls
    intro toolCalls
    apply Reads.record
    rintro ⟨⟩
    simp only [true_and, Message.mk.injEq, and_assoc]
  · intro message
    simp only [Message.Fits, true_and, and_true]
  · intro message
    simp only [Message.wire, append_assoc, append_nil]

def FunctionTool.Fits (tool : FunctionTool) : Prop :=
  tool.name.bytes.length < toolNameCap ∧ tool.description.length ≤ maxMessageBytes ∧
    tool.parametersJson.length ≤ maxToolSchemaBytes ∧ flagValid tool.strict = true ∧
    (if schemaVersion != 1 then flagValid tool.descriptionPresent = true
      else tool.descriptionPresent = 0) ∧
    (if schemaVersion != 1 then flagValid tool.strictPresent = true else tool.strictPresent = 0)

theorem reads_tool : Reads (readTool schemaVersion) (FunctionTool.Fits schemaVersion)
      (FunctionTool.wire schemaVersion) := by
  apply Reads.fields
  · apply reads_name.field FunctionTool.name
    intro name
    apply reads_messageText.field FunctionTool.description
    intro description
    apply reads_schemaText.field FunctionTool.parametersJson
    intro parametersJson
    apply reads_flag.field FunctionTool.strict
    intro strict
    apply (reads_flag.optional (schemaVersion != 1) 0).field FunctionTool.descriptionPresent
    intro descriptionPresent
    apply (reads_flag.optional (schemaVersion != 1) 0).field FunctionTool.strictPresent
    intro strictPresent
    apply Reads.record
    rintro ⟨⟩
    simp only [FunctionTool.mk.injEq]
    tauto
  · intro tool
    simp only [FunctionTool.Fits, and_true]
  · intro tool
    simp only [FunctionTool.wire, append_assoc, append_nil]

def Sampling.Fits (sampling : Sampling) : Prop :=
  flagValid sampling.stochastic = true ∧ flagValid sampling.seedPresent = true

theorem reads_sampling : Reads readSampling Sampling.Fits Sampling.wire := by
  apply Reads.fields
  · apply reads_flag.field Sampling.stochastic
    intro stochastic
    apply reads_flag.field Sampling.seedPresent
    intro seedPresent
    apply reads_u64.field Sampling.seed
    intro seed
    apply reads_u64.field Sampling.topK
    intro topK
    apply reads_double.field Sampling.temperature
    intro temperature
    apply reads_double.field Sampling.topP
    intro topP
    apply reads_double.field Sampling.minP
    intro minP
    apply reads_double.field Sampling.typicalP
    intro typicalP
    apply Reads.record
    rintro ⟨⟩
    simp only [true_and, Sampling.mk.injEq, and_assoc]
  · intro sampling
    simp only [Sampling.Fits, and_true]
  · intro sampling
    simp only [Sampling.wire, append_assoc, append_nil]

def ToolChoice.Fits (choice : ToolChoice) : Prop :=
  choice.functionName.bytes.length < toolNameCap ∧ flagValid choice.parallelCalls = true

theorem reads_toolChoice : Reads readToolChoice ToolChoice.Fits ToolChoice.wire := by
  apply Reads.fields
  · apply reads_codes.2.1.field ToolChoice.kind
    intro kind
    apply reads_name.field ToolChoice.functionName
    intro functionName
    apply reads_flag.field ToolChoice.parallelCalls
    intro parallelCalls
    apply Reads.record
    rintro ⟨⟩
    simp only [true_and, ToolChoice.mk.injEq, and_assoc]
  · intro choice
    simp only [ToolChoice.Fits, true_and, and_true]
  · intro choice
    simp only [ToolChoice.wire, append_assoc, append_nil]

/-- A request that can be read back, the truth values of its sampling apart: its texts and lists
are bounded, its other truth values are zero or one, and the members that its schema does not
carry have their defaults. -/
def ProviderRequest.Fits (request : ProviderRequest) : Prop :=
  request.model.bytes.length < modelCap ∧ (request.messages.length ≤ maxMessages ∧
      ∀ message ∈ request.messages, message.Fits request.schemaVersion) ∧
    (request.tools.length ≤ maxTools ∧ ∀ tool ∈ request.tools, tool.Fits request.schemaVersion) ∧
    (request.stopStrings.length ≤ maxStops ∧
      ∀ stop ∈ request.stopStrings, stop.length ≤ maxStopBytes) ∧
    request.toolChoice.Fits ∧
    (if request.schemaVersion != 1 then
        ReasoningPolicy.Allowed request.schemaVersion request.reasoningPolicy
      else request.reasoningPolicy = .disabled) ∧
    (if request.schemaVersion != 1 then flagValid request.dropThinking = true
      else request.dropThinking = 1) ∧
    (if request.schemaVersion == 4 then True
      else request.reasoningHistoryPolicy = .sourceDefault) ∧
    flagValid request.stream = true ∧ flagValid request.includeUsage = true ∧
    request.adapter.bytes.length < adapterCap ∧
    request.previousResponseId.bytes.length < idCap ∧
    request.externalCorrelationId.bytes.length < idCap ∧
    request.requestIdentity.bytes.length < idCap ∧ request.sealed = false

theorem reads_body : Reads (readBody schemaVersion) (fun request =>
        request.schemaVersion = schemaVersion ∧ request.sampling.Fits ∧ request.Fits)
      ProviderRequest.wireBody := by
  apply Reads.congr
  · apply Reads.fields
    · apply (reads_text (by decide) (by decide)).field ProviderRequest.model
      intro model
      apply (reads_list (reads_message schemaVersion) (by decide)).field ProviderRequest.messages
      intro messages
      apply (reads_list (reads_tool schemaVersion) (by decide)).field ProviderRequest.tools
      intro tools
      apply (reads_list (reads_span (by decide)) (by decide)).field ProviderRequest.stopStrings
      intro stopStrings
      apply reads_toolChoice.field ProviderRequest.toolChoice
      intro toolChoice
      apply reads_codes.2.2.1.field ProviderRequest.responseFormat
      intro responseFormat
      apply ((reads_reasoningPolicy schemaVersion).optional (schemaVersion != 1) .disabled).field
        ProviderRequest.reasoningPolicy
      intro reasoningPolicy
      apply (reads_flag.optional (schemaVersion != 1) 1).field ProviderRequest.dropThinking
      intro dropThinking
      apply (reads_codes.2.2.2.optional (schemaVersion == 4) .sourceDefault).field
        ProviderRequest.reasoningHistoryPolicy
      intro reasoningHistoryPolicy
      apply reads_sampling.field ProviderRequest.sampling
      intro sampling
      apply reads_u64.field ProviderRequest.maximumOutputTokens
      intro maximumOutputTokens
      apply reads_flag.field ProviderRequest.stream
      intro stream
      apply reads_flag.field ProviderRequest.includeUsage
      intro includeUsage
      apply (reads_text (by decide) (by decide)).field ProviderRequest.adapter
      intro adapter
      apply reads_id.field ProviderRequest.previousResponseId
      intro previousResponseId
      apply reads_id.field ProviderRequest.externalCorrelationId
      intro externalCorrelationId
      apply reads_id.field ProviderRequest.requestIdentity
      intro requestIdentity
      apply Reads.record_of fun request : ProviderRequest =>
        request.schemaVersion = schemaVersion ∧ request.sealed = false
      rintro ⟨⟩
      simp only [ProviderRequest.mk.injEq]
      tauto
    · exact fun request => Iff.rfl
    · exact fun request => rfl
  · intro request
    simp only [ProviderRequest.Fits]
    constructor
    · grind
    · rintro ⟨version, given⟩
      rw [version] at given
      tauto
  · intro request given
    have version : request.schemaVersion = schemaVersion := by tauto
    simp only [ProviderRequest.wireBody, version, append_assoc, append_nil]

/-- `request_wire_schema` knows the schemas one to four. -/
def ProviderRequest.Versioned (request : ProviderRequest) : Prop :=
  1 ≤ request.schemaVersion ∧ request.schemaVersion ≤ 4

theorem reads_request :
    Reads readRequest (fun request => request.Versioned ∧ request.sampling.Fits ∧ request.Fits)
      ProviderRequest.wire := by
  intro input request rest
  simp only [readRequest, Reader.run_bind_eq_some, reads_u32 _ _ _, Reader.run_ensure,
    reads_body _ _ _ _, true_and, Bool.and_eq_true, beq_iff_eq, decide_eq_true_eq]
  constructor
  · intro read
    obtain ⟨magic, afterMagic, magicRead, schemaVersion, afterVersion, versionRead, _, body,
      ⟨⟨⟨known, least⟩, greatest⟩, same⟩, ⟨version, flags, fits⟩, bodyRead⟩ := read
    rw [← version] at least greatest versionRead
    refine ⟨⟨⟨least, greatest⟩, flags, fits⟩, ?_⟩
    rw [magicRead, versionRead, ← same, bodyRead, known]
    simp only [ProviderRequest.wire, append_assoc]
  · intro read
    obtain ⟨⟨⟨least, greatest⟩, fits⟩, written⟩ := read
    simp only [ProviderRequest.wire, append_assoc] at written
    exact ⟨_, _, written, _, _, rfl, (), _, ⟨⟨⟨rfl, least⟩, greatest⟩, rfl⟩, ⟨rfl, fits⟩, rfl⟩

/-! ## Sealed requests -/

/-- The members that the wire form of a request carries, with the others at the values that
a reader gives them. The identity and the seal stand beside the fields. -/
def Message.carried (message : Message) : Message :=
  if schemaVersion = 1 then { message with reasoningContent := [] } else message

def FunctionTool.carried (tool : FunctionTool) : FunctionTool :=
  if schemaVersion = 1 then { tool with descriptionPresent := 0, strictPresent := 0 } else tool

end

@[inherit_doc Message.carried]
def ProviderRequest.carried (request : ProviderRequest) : ProviderRequest :=
  let schemaVersion := request.schemaVersion
  { request with
    messages := request.messages.map (Message.carried schemaVersion)
    tools := request.tools.map (FunctionTool.carried schemaVersion)
    reasoningPolicy := if schemaVersion = 1 then .disabled else request.reasoningPolicy
    reasoningHistoryPolicy :=
      if schemaVersion = 4 then request.reasoningHistoryPolicy else .sourceDefault
    dropThinking := if schemaVersion = 1 then 1 else request.dropThinking
    requestIdentity := CString.ofBytes []
    sealed := false }

/-- What `request_fields_validate` accepts. -/
structure ProviderRequest.Valid (request : ProviderRequest) : Prop where
  bounded : request.bounded = true
  sampling : request.sampling.admitted = true
  messages : messagesValid request.schemaVersion 0 request.messages = .ok ()
  tools : toolsValid request.schemaVersion [] request.tools = .ok ()
  defined : (!((request.toolChoice.kind == .required || request.toolChoice.kind == .function) &&
    request.tools.isEmpty)) = true
  named : (request.toolChoice.kind != .function ||
    (identifierValid request.toolChoice.functionName toolNameCap false &&
      request.tools.any fun tool => request.toolChoice.functionName == tool.name)) = true
  stops : (request.stopStrings.all fun stop => spanValid stop maxStopBytes false) = true
  adapter : optionalIdentifierValid request.adapter adapterCap = true
  previous : optionalIdentifierValid request.previousResponseId idCap = true
  correlation : optionalIdentifierValid request.externalCorrelationId idCap = true

theorem requestFieldsValidate_eq_ok :
    requestFieldsValidate request = .ok result ↔ request.Valid := by
  simp only [requestFieldsValidate, bind_eq_ok, require_eq_ok]
  constructor
  · rintro ⟨_, bounded, _, sampling, _, messages, _, tools, _, defined, _, named, _, stops, _,
      adapter, _, previous, correlation⟩
    exact ⟨bounded, sampling, messages, tools, defined, named, stops, adapter, previous,
      correlation⟩
  rintro ⟨bounded, sampling, messages, tools, defined, named, stops, adapter, previous, correlation⟩
  exact ⟨(), bounded, (), sampling, (), messages, (), tools, (), defined, (), named, (), stops,
    (), adapter, (), previous, correlation⟩

variable {value : CString}

theorem identifierValid_lt (valid : identifierValid value capacity allowEmpty = true) :
    value.bytes.length < capacity := by
  simp only [identifierValid, Bool.and_eq_true, decide_eq_true_eq] at valid
  exact valid.1.1

theorem spanValid_le {span : Bytes} {maximum : Nat}
    (valid : spanValid span maximum allowEmpty = true) : span.length ≤ maximum := by
  simp only [spanValid, Bool.and_eq_true, decide_eq_true_eq] at valid
  exact valid.1

theorem length_of_isEmpty (empty : value.isEmpty = true) : value.bytes.length = 0 := by
  rw [isEmpty_iff.mp empty]
  rfl

theorem optionalIdentifierValid_lt (positive : 0 < capacity)
    (valid : optionalIdentifierValid value capacity = true) : value.bytes.length < capacity := by
  rcases Bool.or_eq_true_iff.mp valid with empty | valid
  · rw [length_of_isEmpty empty]
    exact positive
  · exact identifierValid_lt valid

theorem callsValid_fits (valid : callsValid prior calls = .ok ()) : ∀ call ∈ calls, call.Fits := by
  induction calls generalizing prior with
  | nil => simp
  | cons call calls induction => ?_
  simp only [callsValid, bind_eq_ok, require_eq_ok, Bool.and_eq_true] at valid
  rcases valid with ⟨_, ⟨⟨callId, name⟩, span⟩, _, -, _, -, others⟩
  exact forall_mem_cons.mpr
    ⟨⟨identifierValid_lt callId, identifierValid_lt name, spanValid_le span⟩, induction others⟩

variable {schemaVersion : UInt32}

theorem messageValid_fits (valid : messageValid message schemaVersion = .ok ()) :
    message.Fits schemaVersion := by
  simp only [messageValid, bind_eq_ok, require_eq_ok, Bool.and_eq_true, decide_eq_true_eq] at valid
  rcases valid with ⟨_, ⟨⟨⟨⟨content, reasoning⟩, first⟩, -⟩, count⟩, _, role, _, -, calls⟩
  refine ⟨spanValid_le content, ?_, ?_, count, callsValid_fits calls⟩
  · split
    · exact spanValid_le reasoning
    · rename_i version
      simpa [by simpa using version] using first
  unfold answeredCallValid at role
  split at role
  · rw [require_eq_ok, Bool.and_eq_true] at role
    exact identifierValid_lt role.1
  · rw [require_eq_ok] at role
    rw [length_of_isEmpty role]
    decide

theorem messagesValid_each {total : Nat}
    (valid : messagesValid schemaVersion total messages = .ok ()) :
    ∀ message ∈ messages, messageValid message schemaVersion = .ok () := by
  induction messages generalizing total with
  | nil => simp
  | cons message messages induction => ?_
  simp only [messagesValid, bind_eq_ok] at valid
  rcases valid with ⟨_, one, _, -, _, -, others⟩
  exact forall_mem_cons.mpr ⟨one, induction others⟩

theorem toolsValid_each (valid : toolsValid schemaVersion prior tools = .ok ()) :
    ∀ tool ∈ tools, toolValid tool schemaVersion = .ok () := by
  induction tools generalizing prior with
  | nil => simp
  | cons tool tools induction => ?_
  simp only [toolsValid, bind_eq_ok] at valid
  rcases valid with ⟨_, one, _, -, others⟩
  exact forall_mem_cons.mpr ⟨one, induction others⟩

theorem toolValid_fits (valid : toolValid tool schemaVersion = .ok ()) :
    (tool.carried schemaVersion).Fits schemaVersion := by
  simp only [toolValid, bind_eq_ok, require_eq_ok, Bool.and_eq_true] at valid
  rcases valid with ⟨_, ⟨⟨⟨⟨name, description⟩, parameters⟩, strict⟩, flags⟩, -⟩
  by_cases version : schemaVersion = 1
  · rw [FunctionTool.carried]
    simp only [version]
    exact ⟨identifierValid_lt name, spanValid_le description, spanValid_le parameters, strict,
      by simp, by simp⟩
  rw [FunctionTool.carried]
  have flags : flagValid tool.descriptionPresent = true ∧ flagValid tool.strictPresent = true := by
    simp [version] at flags
    exact flags.1.1
  simp only [FunctionTool.Fits, bne_iff_ne, ne_eq, version]
  exact ⟨identifierValid_lt name, spanValid_le description, spanValid_le parameters, strict, flags⟩

theorem messageValid_carried (valid : messageValid message schemaVersion = .ok ()) :
    message.carried schemaVersion = message := by
  have fits := messageValid_fits valid
  unfold Message.carried
  split
  · rename_i first
    have empty : message.reasoningContent = [] := by simpa [first] using fits.2.1
    rw [← empty]
  · rfl

theorem toolValid_carried (tool : FunctionTool) (schemaVersion : UInt32) :
    toolValid (tool.carried schemaVersion) schemaVersion = toolValid tool schemaVersion := by
  unfold FunctionTool.carried
  split
  · rename_i first
    simp only [toolValid, first, beq_self_eq_true, Bool.true_or]
  · rfl

@[simp] theorem FunctionTool.carried_name (tool : FunctionTool) (schemaVersion : UInt32) :
    (tool.carried schemaVersion).name = tool.name := by
  unfold FunctionTool.carried
  split <;> rfl

theorem toolsValid_carried (schemaVersion : UInt32) (prior tools : List FunctionTool) :
    toolsValid schemaVersion (prior.map (FunctionTool.carried schemaVersion))
        (tools.map (FunctionTool.carried schemaVersion)) =
      toolsValid schemaVersion prior tools := by
  induction tools generalizing prior with
  | nil => rfl
  | cons tool tools induction => ?_
  have behind := induction (prior ++ [tool])
  rw [map_append] at behind
  simp only [map_cons, toolsValid, toolValid_carried, any_map, Function.comp_def,
    FunctionTool.carried_name]
  rw [← behind]
  rfl

namespace ProviderRequest

variable {request : ProviderRequest}

/-- What the first condition of `request_fields_validate` says about the members that are
written. -/
structure Bounds (request : ProviderRequest) : Prop where
  versioned : request.Versioned
  model : identifierValid request.model modelCap false = true
  messages : request.messages.length ≤ maxMessages
  tools : request.tools.length ≤ maxTools
  stops : request.stopStrings.length ≤ maxStops
  parallel : flagValid request.toolChoice.parallelCalls = true
  policy : request.reasoningPolicy = .sourceDefault → request.schemaVersion = 4
  history : request.schemaVersion ≠ 4 → request.reasoningHistoryPolicy = .sourceDefault
  thinking : flagValid request.dropThinking = true
  disabled : request.schemaVersion = 1 → request.reasoningPolicy = .disabled
  stream : flagValid request.stream = true
  usage : flagValid request.includeUsage = true

section

variable (valid : request.Valid)

include valid

theorem Valid.bounds : request.Bounds := by
  have bounded := valid.bounded
  simp only [ProviderRequest.bounded, Bool.and_eq_true, Bool.or_eq_true, decide_eq_true_eq,
    Bool.not_eq_true', Bool.and_eq_false_iff, bne_eq_false_iff_eq, beq_eq_false_iff_ne,
    beq_iff_eq, ReasoningPolicy.valid, bne_iff_ne, and_assoc] at bounded
  rcases bounded with ⟨least, greatest, model, -, messages, tools, stops, parallel, -, policy,
    history, thinking, disabled, -, -, stream, usage, -⟩
  exact {
    versioned := ⟨least, greatest⟩
    model, messages, tools, stops, parallel, thinking, stream, usage
    policy := fun default => policy.resolve_right (not_not_intro default)
    history := fun other => history.resolve_left other
    disabled := fun first => disabled.resolve_left (not_not_intro first) }

theorem Valid.messages_carried :
    request.messages.map (Message.carried request.schemaVersion) = request.messages := by
  have each := messagesValid_each valid.messages
  rw [map_congr_left fun message member => messageValid_carried (each message member), map_id']

theorem Valid.carried_eq : request.carried =
      { request with
        tools := request.tools.map (FunctionTool.carried request.schemaVersion)
        dropThinking := if request.schemaVersion = 1 then 1 else request.dropThinking
        requestIdentity := CString.ofBytes []
        sealed := false } := by
  have policy : (if request.schemaVersion = 1 then .disabled else request.reasoningPolicy) =
      request.reasoningPolicy := by
    split
    · rename_i first
      exact (valid.bounds.disabled first).symm
    · rfl
  have history : (if request.schemaVersion = 4 then request.reasoningHistoryPolicy
      else .sourceDefault) = request.reasoningHistoryPolicy := by
    split
    · rfl
    · rename_i other
      exact (valid.bounds.history other).symm
  simp only [carried, valid.messages_carried, policy, history]

theorem Valid.carried : request.carried.Valid := by
  have thinking : flagValid (if request.schemaVersion = 1 then 1 else request.dropThinking) =
      true := by
    split
    · rfl
    · exact valid.bounds.thinking
  have tools := toolsValid_carried request.schemaVersion [] request.tools
  rw [valid.carried_eq]
  exact {
    bounded := by
      have bounded := valid.bounded
      simp only [ProviderRequest.bounded, valid.bounds.thinking, thinking, length_map] at bounded ⊢
      exact bounded
    sampling := valid.sampling
    messages := valid.messages
    tools := by rw [← valid.tools, ← tools]; rfl
    defined := by simpa using valid.defined
    named := by simpa only [any_map, Function.comp_def, FunctionTool.carried_name] using valid.named
    stops := valid.stops
    adapter := valid.adapter
    previous := valid.previous
    correlation := valid.correlation }

end

end ProviderRequest

/-! ## What a reader receives -/

section

variable (schemaVersion : UInt32)

theorem Message.stream_carried (message : Message) :
    (message.carried schemaVersion).stream schemaVersion = message.stream schemaVersion := by
  unfold Message.carried
  split
  · rename_i first
    simp only [Message.stream, first, if_true]
  · rfl

theorem Message.wire_carried (message : Message) :
    (message.carried schemaVersion).wire schemaVersion = message.wire schemaVersion := by
  unfold Message.carried
  split
  · rename_i first
    simp only [Message.wire, first, bne_self_eq_false, Bool.false_eq_true, if_false]
  · rfl

theorem FunctionTool.stream_carried (tool : FunctionTool) :
    (tool.carried schemaVersion).stream schemaVersion = tool.stream schemaVersion := by
  unfold FunctionTool.carried
  split
  · rename_i first
    simp only [FunctionTool.stream, first, if_true]
  · rfl

theorem FunctionTool.wire_carried (tool : FunctionTool) :
    (tool.carried schemaVersion).wire schemaVersion = tool.wire schemaVersion := by
  unfold FunctionTool.carried
  split
  · rename_i first
    simp only [FunctionTool.wire, first, bne_self_eq_false, Bool.false_eq_true, if_false]
  · rfl

end

namespace ProviderRequest

section

variable (request : ProviderRequest)

def received (identity : CString) (sealed : Bool) : ProviderRequest :=
  { request.carried with requestIdentity := identity, sealed := sealed }

theorem identityStream_received (identity : CString) (sealed : Bool) :
    (request.received identity sealed).identityStream = request.identityStream := by
  delta identityStream
  simp only [received, carried, hashList, length_map, flatMap_map,
    Message.stream_carried, FunctionTool.stream_carried]
  split_ifs <;> rfl

theorem wire_received (sealed : Bool) :
    (request.received request.requestIdentity sealed).wire = request.wire := by
  simp only [wire, wireBody, received, carried, writeList, length_map, flatMap_map,
    Message.wire_carried, FunctionTool.wire_carried, bne_iff_ne, beq_iff_eq]
  split_ifs <;> rfl

end

variable {request : ProviderRequest}

section

variable (valid : request.Valid)

include valid

theorem Valid.resealed (identity : CString) (sealed : Bool) :
    Valid { request with requestIdentity := identity, sealed := sealed } :=
  { valid with }

theorem Valid.received (identity : CString) (sealed : Bool) :
    (request.received identity sealed).Valid :=
  valid.carried.resealed identity sealed

theorem Valid.fits (terminated : request.terminated = true)
    {identity : CString} (short : identity.bytes.length < idCap) :
    (request.received identity false).Fits := by
  have bounds := valid.bounds
  have messages := messagesValid_each valid.messages
  have tools := toolsValid_each valid.tools
  have stops := all_eq_true.mp valid.stops
  have policy : if (request.schemaVersion != 1) = true then
      ReasoningPolicy.Allowed request.schemaVersion request.reasoningPolicy
      else request.reasoningPolicy = .disabled := by
    by_cases first : request.schemaVersion = 1
    · simpa [first] using bounds.disabled first
    · simpa [first, ReasoningPolicy.Allowed] using bounds.policy
  have thinking : if (request.schemaVersion != 1) = true then
      flagValid (if request.schemaVersion = 1 then 1 else request.dropThinking) = true
      else (if request.schemaVersion = 1 then 1 else request.dropThinking) = 1 := by
    grind [cases ProviderRequest.Bounds]
  have history : if (request.schemaVersion == 4) = true then True
      else request.reasoningHistoryPolicy = .sourceDefault := by
    grind [cases ProviderRequest.Bounds]
  rw [ProviderRequest.received, valid.carried_eq]
  refine ⟨identifierValid_lt bounds.model, ⟨bounds.messages, ?_⟩, ⟨?_, ?_⟩, ⟨bounds.stops, ?_⟩,
    ⟨of_decide_eq_true terminated, bounds.parallel⟩, policy, thinking, history,
    bounds.stream, bounds.usage, optionalIdentifierValid_lt (by decide) valid.adapter,
    optionalIdentifierValid_lt (by decide) valid.previous,
    optionalIdentifierValid_lt (by decide) valid.correlation, short, rfl⟩
  · exact fun message member => messageValid_fits (messages message member)
  · rw [length_map]
    exact bounds.tools
  · intro tool member
    rcases mem_map.mp member with ⟨tool, inside, rfl⟩
    exact toolValid_fits (tools tool inside)
  · exact fun stop member => spanValid_le (stops stop member)

/-- The first schema has no member of a request that later schemas added; every other one has
all the members. -/
theorem Valid.received_self (later : request.schemaVersion ≠ 1) :
    request.received request.requestIdentity request.sealed = request := by
  have tools : request.tools.map (FunctionTool.carried request.schemaVersion) = request.tools := by
    apply map_id''
    intro tool
    rw [FunctionTool.carried, if_neg later]
  rw [ProviderRequest.received, valid.carried_eq, tools, if_neg later]

end

end ProviderRequest

/-! ## The codec -/

section Codec

variable [Sha256Hex]

theorem length_identity (request : ProviderRequest) : request.identity.bytes.length < idCap := by
  have valid := Sha256Hex.digest_valid request.identityStream
  simp only [Ir.sha256HexValid, Bool.and_eq_true, decide_eq_true_eq] at valid
  rw [ProviderRequest.identity, valid.1]
  decide

variable {request whole : ProviderRequest}

theorem requestSeal_eq_ok : requestSeal request = .ok whole ↔
      request.Valid ∧ whole = { request with requestIdentity := request.identity, sealed := true } := by
  simp only [requestSeal, bind_eq_ok, requestFieldsValidate_eq_ok, pure_eq_ok]
  constructor
  · rintro ⟨_, valid, rfl⟩
    exact ⟨valid, rfl⟩
  · rintro ⟨valid, rfl⟩
    exact ⟨(), valid, rfl⟩

def ProviderRequest.Sealed (request : ProviderRequest) : Prop :=
  request.Valid ∧ request.sealed = true ∧ request.requestIdentity = request.identity

theorem requestSeal_sealed (accepted : requestSeal request = .ok whole) : whole.Sealed := by
  rcases requestSeal_eq_ok.mp accepted with ⟨valid, rfl⟩
  exact ⟨valid.resealed _ _, rfl, rfl⟩

theorem requestValidate_isOk : (requestValidate request).isOk = true ↔ request.Sealed := by
  simp only [isOk_iff, requestValidate, bind_eq_ok, require_eq_ok,
    Bool.and_eq_true, beq_iff_eq, requestFieldsValidate_eq_ok]
  constructor
  · rintro ⟨_, signed, valid, identity⟩
    exact ⟨valid, signed, identity.symm⟩
  · rintro ⟨valid, signed, identity⟩
    exact ⟨(), signed, valid, identity.symm⟩

theorem requestWireEncode_eq_ok : requestWireEncode request capacity = .ok bytes ↔
      capacity ≤ wireMaxBytes ∧ request.Sealed ∧ request.terminated = true ∧
        bytes = request.wire ∧ bytes.length ≤ capacity := by
  simp only [requestWireEncode, bind_eq_ok, require_eq_ok, Bool.and_eq_true,
    decide_eq_true_eq, requestValidate_isOk, pure_eq_ok]
  constructor
  · grind
  · rintro ⟨bounded, signed, terminated, rfl, fits⟩
    exact ⟨(), ⟨bounded, signed⟩, (), ⟨terminated, fits⟩, rfl⟩

theorem requestWireDecode_eq_ok : requestWireDecode bytes = .ok whole ↔
      bytes.length ≤ wireMaxBytes ∧
        ∃ request : ProviderRequest, request.Versioned ∧ request.sampling.Fits ∧ request.Fits ∧
          bytes = request.wire ∧ request.Valid ∧ request.requestIdentity = request.identity ∧
          whole = { request with sealed := true } := by
  simp only [requestWireDecode, bind_eq_ok, require_eq_ok, Bool.and_eq_true,
    decide_eq_true_eq, orReject_eq_ok, bind_eq_some, Prod.exists,
    ensure_eq_some, List.isEmpty_iff, toOption_eq_some, requestSeal_eq_ok, beq_iff_eq,
    reads_request _ _ _, pure, Option.some.injEq]
  constructor
  · grind
  · rintro ⟨bounded, request, versioned, flags, fits, rfl, valid, identity, rfl⟩
    refine ⟨(), ⟨?_, bounded⟩, request, [], ⟨⟨versioned, flags, fits⟩, by rw [append_nil]⟩, (), rfl, _,
      ⟨valid, rfl⟩, (), identity, by rw [← identity]⟩
    rfl

theorem requestWireDecode_wire (sealed : whole.Sealed) (terminated : whole.terminated = true)
    (flags : whole.sampling.Fits) (bounded : whole.wire.length ≤ wireMaxBytes) :
    requestWireDecode whole.wire = .ok (whole.received whole.requestIdentity true) := by
  rcases sealed with ⟨valid, -, signed⟩
  have short : whole.requestIdentity.bytes.length < idCap := by
    rw [signed]
    exact length_identity whole
  apply requestWireDecode_eq_ok.mpr
  refine ⟨bounded, whole.received whole.requestIdentity false, ?_,
    flags, valid.fits terminated short, (whole.wire_received false).symm, valid.received _ _, ?_, rfl⟩
  · exact valid.bounds.versioned
  · rw [ProviderRequest.identity, whole.identityStream_received]
    exact signed

theorem requestWireEncode_decoded (accepted : requestWireDecode bytes = .ok request)
    (limited : capacity ≤ wireMaxBytes) (fits : bytes.length ≤ capacity) :
    requestWireEncode request capacity = .ok bytes := by
  rcases requestWireDecode_eq_ok.mp accepted with ⟨-, claimed, -, -, framed, rfl, valid, signed, rfl⟩
  apply requestWireEncode_eq_ok.mpr
  exact ⟨limited, ⟨valid.resealed _ _, rfl, signed⟩, decide_eq_true framed.2.2.2.2.1.1, rfl, fits⟩

theorem requestWire_roundTrip :
    (∀ (request whole : ProviderRequest) (capacity : Nat), requestSeal request = .ok whole →
        whole.sampling.Fits → whole.terminated = true → capacity ≤ wireMaxBytes →
        whole.wire.length ≤ capacity → requestWireEncode whole capacity = .ok whole.wire ∧
            requestWireDecode whole.wire = .ok (whole.received whole.requestIdentity true) ∧
            (whole.schemaVersion ≠ 1 → whole.received whole.requestIdentity true = whole) ∧
            (whole.schemaVersion = 1 → whole.received whole.requestIdentity true = { whole with
              tools := whole.tools.map fun tool =>
                { tool with descriptionPresent := 0, strictPresent := 0 }
              dropThinking := 1 })) ∧
      ∀ (bytes : Bytes) (request : ProviderRequest), requestWireDecode bytes = .ok request →
        ∀ capacity, capacity ≤ wireMaxBytes → bytes.length ≤ capacity →
          requestWireEncode request capacity = .ok bytes := by
  constructor
  · intro request whole capacity accepted flags terminated limited fits
    have sealed := requestSeal_sealed accepted
    refine ⟨requestWireEncode_eq_ok.mpr ⟨limited, sealed, terminated, rfl, fits⟩,
      requestWireDecode_wire sealed terminated flags (fits.trans limited), fun later => ?_,
      fun first => ?_⟩
    · rw [← sealed.2.1]
      exact sealed.1.received_self later
    · rw [ProviderRequest.received, sealed.1.carried_eq]
      simp [first, FunctionTool.carried, sealed.2.1]
  · intro bytes request accepted capacity limited fits
    exact requestWireEncode_decoded accepted limited fits

end Codec

variable (schemaVersion : UInt32) (stochastic dropThinking : Int32)

/-- A request with the one message `hi`. -/
def sampleRequest : ProviderRequest where
  schemaVersion := schemaVersion
  model := CString.ofBytes [109]
  messages := [⟨.user, [104, 105], [], CString.ofBytes [], []⟩]
  tools := []
  stopStrings := []
  toolChoice := ⟨.auto, CString.ofBytes [], 0⟩
  responseFormat := .text
  reasoningPolicy := .disabled
  reasoningHistoryPolicy := .sourceDefault
  sampling := ⟨stochastic, 0, 0, 0, .zero, .one, .zero, .one⟩
  maximumOutputTokens := 1
  stream := 0
  includeUsage := 0
  dropThinking := dropThinking
  adapter := CString.ofBytes []
  previousResponseId := CString.ofBytes []
  externalCorrelationId := CString.ofBytes []
  requestIdentity := CString.ofBytes []
  sealed := false

def sealedSample : ProviderRequest :=
  { sampleRequest schemaVersion stochastic dropThinking with
    requestIdentity := CString.ofBytes (List.replicate 64 48)
    sealed := true }

/-- The first schema does not carry `drop_thinking`, and no schema carries a truth value of two. -/
theorem requestWireDecode_differs :
    @requestSeal zeroDigest (sampleRequest 1 0 0) = .ok (sealedSample 1 0 0) ∧
      @requestWireEncode zeroDigest (sealedSample 1 0 0) wireMaxBytes = .ok (sealedSample 1 0 0).wire ∧
      @requestWireDecode zeroDigest (sealedSample 1 0 0).wire = .ok (sealedSample 1 0 1) ∧
      @requestSeal zeroDigest (sampleRequest 4 2 1) = .ok (sealedSample 4 2 1) ∧
      @requestWireEncode zeroDigest (sealedSample 4 2 1) wireMaxBytes = .ok (sealedSample 4 2 1).wire ∧
      (@requestWireDecode zeroDigest (sealedSample 4 2 1).wire).isOk = false := by
  decide +kernel

end Yvex.Provider
