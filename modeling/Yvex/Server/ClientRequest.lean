import Yvex.Provider.ContentWire
import Yvex.Provider.RequestWire
import Yvex.Server.Protocol

namespace Yvex.Server

open Tlv Provider Function

/-! # Client requests

A request of a local client, the fields that are admitted together, and its frame. Members of one
type are kept as one function of their names. -/

inductive ClientOperation where
  | handshake
  | runtimeStatus
  | runtimeWatch
  | runtimeTrace
  | runtimeStop
  | sessionNew
  | sessionList
  | sessionShow
  | sessionAttach
  | sessionDetach
  | sessionReset
  | sessionStateSave
  | sessionStateRestore
  | sessionFork
  | sessionClose
  | generationTurn
  | generationCancel
  | consoleStatus
  | engineLoad
  | engineList
  | engineUnload
  | engineEnsureActive
  | engineLeaseRelease
  | executionPreflight
  | finiteDecision
deriving DecidableEq

instance : Enumerated ClientOperation where
  values := [.handshake, .runtimeStatus, .runtimeWatch, .runtimeTrace, .runtimeStop, .sessionNew,
    .sessionList, .sessionShow, .sessionAttach, .sessionDetach, .sessionReset, .sessionStateSave,
    .sessionStateRestore, .sessionFork, .sessionClose, .generationTurn, .generationCancel,
    .consoleStatus, .engineLoad, .engineList, .engineUnload, .engineEnsureActive,
    .engineLeaseRelease, .executionPreflight, .finiteDecision]
  nodup := by decide
  complete value := by cases value <;> decide
  small := by decide

inductive TraceLevel where
  | summary
  | stages
  | tokens
  | full
deriving DecidableEq

instance : Enumerated TraceLevel where
  values := [.summary, .stages, .tokens, .full]
  nodup := by decide
  complete value := by cases value <;> decide
  small := by decide

inductive MediaTrajectory where
  | default
  | preview
  | released
deriving DecidableEq

instance : Enumerated MediaTrajectory where
  values := [.default, .preview, .released]
  nodup := by decide
  complete value := by cases value <;> decide
  small := by decide

/-- `yvex_client_media_condition_kind`, which has one value. -/
inductive MediaConditionKind where
  | image
deriving DecidableEq

inductive MediaConditionRole where
  | first
  | last
deriving DecidableEq

structure MediaCondition where
  schemaVersion : UInt32
  kind : MediaConditionKind
  role : MediaConditionRole
  sourcePath : CString

structure MediaExecution where
  schemaVersion : UInt32
  trajectory : MediaTrajectory
  present : UInt32
  width : UInt64
  height : UInt64
  durationMilliseconds : UInt64
  seed : UInt64

inductive RequestWord where
  | requestNumber
  | engineGeneration
  | loadContextCapacity
  | maximumNewTokens
  | seed
  | topK
  | eventAfterSequence
  | maximumStateFileBytes
  | maximumPrefixBytes
deriving DecidableEq

inductive RequestDouble where
  | temperature
  | topP
  | minP
  | typicalP
deriving DecidableEq

inductive RequestText where
  | modelAlias
  | sessionName
  | forkSessionName
  | statePath
  | modelLeaseIdentity
  | expectedSessionIdentity
deriving DecidableEq

inductive RequestFlag where
  | stochastic
  | seedPresent
  | traceContent
deriving DecidableEq

instance : Enumerated RequestFlag where
  values := [.stochastic, .seedPresent, .traceContent]
  nodup := by decide
  complete value := by cases value <;> decide
  small := by decide

/-- `yvex_client_request`. An array with its count is a list. -/
structure ClientRequest where
  schemaVersion : UInt32
  operation : ClientOperation
  words : RequestWord → UInt64
  doubles : RequestDouble → Binary64
  texts : RequestText → CString
  flags : RequestFlag → Int32
  prompt : Bytes
  contentParts : List (ContentPart CString)
  mediaConditions : List MediaCondition
  mediaExecution : MediaExecution
  traceLevel : TraceLevel
  reasoningPolicy : ReasoningPolicy
  providerRequest : Option ProviderRequest

def RequestText.capacity : RequestText → Nat
  | .modelAlias => modelAliasCap
  | .sessionName => sessionNameCap
  | .forkSessionName => sessionNameCap
  | .statePath => statePathCap
  | .modelLeaseIdentity => sha256HexCap
  | .expectedSessionIdentity => sha256HexCap

def mediaConditionCap : Nat := 2

namespace ClientRequest

variable (request : ClientRequest)

/-- `memchr` finds the final zero of a text in its array. -/
def terminated (text : RequestText) : Bool :=
  decide ((request.texts text).bytes.length < text.capacity)

def stateFieldsValid : Bool := request.terminated .statePath &&
    if request.operation == .sessionStateSave then
      !(request.texts .statePath).isEmpty && request.words .maximumStateFileBytes == 0
    else if request.operation == .sessionStateRestore then
      !(request.texts .statePath).isEmpty && request.words .maximumStateFileBytes != 0
    else (request.texts .statePath).isEmpty && request.words .maximumStateFileBytes == 0

def forkFieldsValid : Bool := request.terminated .forkSessionName &&
    if request.operation == .sessionFork then
      !(request.texts .forkSessionName).isEmpty && request.words .maximumPrefixBytes != 0
    else (request.texts .forkSessionName).isEmpty && request.words .maximumPrefixBytes == 0

def sessionIdentityValid : Bool :=
  let identity := request.texts .expectedSessionIdentity
  request.terminated .expectedSessionIdentity &&
    (identity.isEmpty || Ir.sha256HexValid identity.bytes &&
      (request.operation == .sessionReset || request.operation == .sessionFork ||
        request.operation == .sessionClose || request.operation == .generationTurn ||
        request.operation == .generationCancel))

/-- `request_content_fields_valid`, which validates the parts without an error record. -/
def contentFieldsValid : Bool := request.contentParts.isEmpty ||
    request.operation == .generationTurn && request.prompt.isEmpty &&
      request.providerRequest.isNone && (partsValidate false request.contentParts).isOk

def leaseFieldsValid : Bool :=
  let identity := request.texts .modelLeaseIdentity
  request.terminated .modelLeaseIdentity &&
    if request.operation == .engineLeaseRelease then Ir.sha256HexValid identity.bytes
    else identity.isEmpty

/-- The loop of `request_media_conditions_valid` with the roles that have come. -/
def conditionsValid : Bool → Bool → List MediaCondition → Bool
  | _, _, [] => true
  | first, last, condition :: conditions =>
    condition.schemaVersion == 1 && condition.kind == .image && !condition.sourcePath.isEmpty &&
      decide (condition.sourcePath.bytes.length < statePathCap) &&
      match condition.role with
      | .first => !first && conditionsValid true last conditions
      | .last => !last && conditionsValid first true conditions

def mediaConditionsValid : Bool := decide (request.mediaConditions.length ≤ mediaConditionCap) &&
    if request.operation == .generationTurn then
      conditionsValid false false request.mediaConditions
    else request.mediaConditions.isEmpty

/-- `request_media_execution_valid`. The bits of `present` stand for the width, the height, the
duration and the seed. -/
def mediaExecutionValid : Bool :=
  let execution := request.mediaExecution
  if execution.schemaVersion == 0 then
    execution.trajectory == .default && execution.present == 0 && execution.width == 0 &&
      execution.height == 0 && execution.durationMilliseconds == 0 && execution.seed == 0
  else
    request.operation == .generationTurn && execution.schemaVersion == 1 &&
      execution.present &&& ~~~15 == 0 &&
      (execution.present &&& 1 != 0) == (execution.present &&& 2 != 0) &&
      (execution.present &&& 1 != 0) == (execution.width != 0) &&
      (execution.present &&& 2 != 0) == (execution.height != 0) &&
      (execution.present &&& 4 != 0) == (execution.durationMilliseconds != 0) &&
      (execution.present &&& 8 != 0 || execution.seed == 0)

/-- What `YVEX_CLIENT_OP_FINITE_DECISION` asks of the other fields. -/
def finiteFieldsValid : Bool :=
  !(request.texts .modelAlias).isEmpty && request.words .engineGeneration != 0 &&
    !request.prompt.isEmpty && decide (request.prompt.length ≤ 4096) &&
    (request.texts .sessionName).isEmpty && request.providerRequest.isNone &&
    request.contentParts.isEmpty && request.words .maximumNewTokens == 0 &&
    request.flags .stochastic == 0 && request.flags .seedPresent == 0 &&
    request.words .seed == 0 && request.words .eventAfterSequence == 0 &&
    request.flags .traceContent == 0 && request.traceLevel == .summary

/-- What `YVEX_CLIENT_OP_EXECUTION_PREFLIGHT` asks of the other fields. -/
def preflightFieldsValid : Bool :=
  !(request.texts .modelAlias).isEmpty && request.words .engineGeneration != 0 &&
    request.providerRequest.isSome && (request.texts .sessionName).isEmpty &&
    request.prompt.isEmpty && request.words .maximumNewTokens == 0 &&
    request.flags .stochastic == 0 && request.flags .seedPresent == 0 &&
    (request.doubles .temperature).isZero && (request.doubles .topP).isZero &&
    request.words .topK == 0 && (request.doubles .minP).isZero &&
    (request.doubles .typicalP).isZero && request.words .seed == 0 &&
    request.words .eventAfterSequence == 0 && request.flags .traceContent == 0 &&
    request.traceLevel == .summary

def fieldsValid : Bool := (request.operation != .finiteDecision || request.finiteFieldsValid) &&
    (request.operation == .engineLoad || request.words .loadContextCapacity == 0) &&
    (request.operation != .executionPreflight || request.preflightFieldsValid) &&
    request.sessionIdentityValid && request.stateFieldsValid && request.forkFieldsValid &&
    request.contentFieldsValid && request.leaseFieldsValid && request.mediaConditionsValid &&
    request.mediaExecutionValid

def oneInput : Bool :=
  decide ((!request.prompt.isEmpty).toNat + request.providerRequest.isSome.toNat +
    (!request.contentParts.isEmpty).toNat ≤ 1)

end ClientRequest

inductive RequestSlot where
  | operation
  | word (word : RequestWord)
  | double (double : RequestDouble)
  | text (text : RequestText)
  | prompt
  | flags
  | traceLevel
  | reasoningPolicy
  | image (role : MediaConditionRole)
  | mediaExecution
  | provider
  | content
deriving DecidableEq

/-- The `switch` of `yvex_protocol_request_decode`. -/
def requestSlot : Nat → Option RequestSlot
  | 1 => some .operation
  | 2 => some (.word .requestNumber)
  | 21 => some (.text .modelAlias)
  | 22 => some (.word .engineGeneration)
  | 26 => some (.word .loadContextCapacity)
  | 3 => some (.text .sessionName)
  | 27 => some (.text .expectedSessionIdentity)
  | 4 => some .prompt
  | 271 => some .prompt
  | 5 => some (.word .maximumNewTokens)
  | 6 => some .flags
  | 7 => some (.word .seed)
  | 8 => some (.double .temperature)
  | 9 => some (.word .topK)
  | 10 => some (.double .topP)
  | 11 => some (.double .minP)
  | 12 => some (.double .typicalP)
  | 13 => some (.word .eventAfterSequence)
  | 14 => some .traceLevel
  | 15 => some .provider
  | 263 => some .content
  | 264 => some (.text .modelLeaseIdentity)
  | 16 => some .reasoningPolicy
  | 17 => some (.text .statePath)
  | 18 => some (.word .maximumStateFileBytes)
  | 19 => some (.text .forkSessionName)
  | 20 => some (.word .maximumPrefixBytes)
  | 23 => some (.image .first)
  | 24 => some (.image .last)
  | 25 => some .mediaExecution
  | _ => none

def finiteRequestTag : Nat := 271

def RequestWord.tag : RequestWord → Nat
  | .requestNumber => 2
  | .engineGeneration => 22
  | .loadContextCapacity => 26
  | .maximumNewTokens => 5
  | .seed => 7
  | .topK => 9
  | .eventAfterSequence => 13
  | .maximumStateFileBytes => 18
  | .maximumPrefixBytes => 20

def RequestDouble.tag : RequestDouble → Nat
  | .temperature => 8
  | .topP => 10
  | .minP => 11
  | .typicalP => 12

def RequestText.tag : RequestText → Nat
  | .modelAlias => 21
  | .sessionName => 3
  | .forkSessionName => 19
  | .statePath => 17
  | .modelLeaseIdentity => 264
  | .expectedSessionIdentity => 27

def MediaConditionRole.tag : MediaConditionRole → Nat
  | .first => 23
  | .last => 24

def requestOrder : List RequestSlot :=
  [.operation, .word .requestNumber, .text .modelAlias, .word .engineGeneration,
    .word .loadContextCapacity, .text .sessionName, .text .expectedSessionIdentity, .prompt,
    .word .maximumNewTokens, .flags, .word .seed, .double .temperature, .word .topK,
    .double .topP, .double .minP, .double .typicalP, .word .eventAfterSequence, .traceLevel,
    .reasoningPolicy, .text .statePath, .word .maximumStateFileBytes, .text .forkSessionName,
    .word .maximumPrefixBytes, .image .first, .image .last, .mediaExecution, .provider, .content,
    .text .modelLeaseIdentity]

def MediaExecution.wire (execution : MediaExecution) : Bytes :=
  writeU64 execution.schemaVersion.toUInt64 ++
    writeU64 (UInt64.ofNat (Enumerated.code execution.trajectory)) ++
    writeU64 execution.present.toUInt64 ++ writeU64 execution.width ++ writeU64 execution.height ++
    writeU64 execution.durationMilliseconds ++ writeU64 execution.seed

section

variable (request : ClientRequest)

def ClientRequest.mediaConditionPath (role : MediaConditionRole) : CString :=
  match request.mediaConditions.find? fun condition => condition.role == role with
  | some condition => condition.sourcePath
  | none => CString.ofBytes []

def ClientRequest.emit (providerBytes contentBytes : Bytes) : RequestSlot → Option (Option Field)
  | .operation => writerEnum 1 request.operation
  | .word word => writerU64 word.tag (request.words word)
  | .double double => writerDouble double.tag (request.doubles double)
  | .text text => writerText text.tag (request.texts text)
  | .prompt =>
    writerField (if request.operation == .finiteDecision then finiteRequestTag else 4)
      request.prompt
  | .flags => writerU64 6 (Enumerated.flagWord request.flags)
  | .traceLevel => writerEnum 14 request.traceLevel
  | .reasoningPolicy => writerU64 16 request.reasoningPolicy.code.toUInt64
  | .image role => writerText role.tag (request.mediaConditionPath role)
  | .mediaExecution =>
    if request.mediaExecution.schemaVersion == 0 then some none
    else writerField 25 request.mediaExecution.wire
  | .provider => writerField 15 providerBytes
  | .content => if contentBytes.isEmpty then some none else writerField 263 contentBytes

/-- What `yvex_protocol_request_encode` asks of a request before it writes. -/
def ClientRequest.complete : Bool :=
  request.schemaVersion == localProtocolVersion && request.fieldsValid &&
    flagValid (request.flags .stochastic) && flagValid (request.flags .seedPresent) &&
    flagValid (request.flags .traceContent) && (request.doubles .temperature).isFinite &&
    (request.doubles .topP).isFinite && (request.doubles .minP).isFinite &&
    (request.doubles .typicalP).isFinite && decide (request.prompt.length ≤ frameMaxBytes) &&
    request.oneInput && request.terminated .modelAlias

end

section Codec

variable [Sha256Hex] (request : ClientRequest)

def ClientRequest.providerWire : Except Rejection Bytes :=
  match request.providerRequest with
  | some provider => requestWireEncode provider wireMaxBytes
  | none => .ok []

def ClientRequest.contentWire : Except Rejection Bytes :=
  if request.contentParts.isEmpty then .ok []
  else partsWireEncode request.contentParts contentWireMaxBytes

def requestEncode (capacity : Nat) : Except Rejection Bytes := do
  require request.complete .invalidArgument "complete bounded client request is required"
  let providerBytes ← request.providerWire
  let contentBytes ← request.contentWire
  orReject
    (do let fields ← collect (request.emit providerBytes contentBytes) requestOrder
        ensure (decide ((frame fields).length ≤ capacity))
        return frame fields)
    .bounds "request does not fit the admitted frame"

end Codec

/-- The request under construction and what `yvex_protocol_request_decode` notes beside it. -/
structure RequestReading where
  candidate : ClientRequest
  haveOperation : Bool
  finitePayload : Bool
  promptPayload : Bool

def ClientRequest.empty : ClientRequest where
  schemaVersion := localProtocolVersion
  operation := .handshake
  words _ := 0
  doubles _ := .zero
  texts _ := CString.ofBytes []
  flags _ := 0
  prompt := []
  contentParts := []
  mediaConditions := []
  mediaExecution := ⟨0, .default, 0, 0, 0, 0, 0⟩
  traceLevel := .summary
  reasoningPolicy := .disabled
  providerRequest := none

def RequestReading.start : RequestReading := ⟨.empty, false, false, false⟩

/-- A policy is checked after its number has become an `unsigned int`. -/
def readerReasoningPolicy (payload : Bytes) : Option ReasoningPolicy := do
  let value ← readerU64 payload
  ReasoningPolicy.ofCode 4 value.toUInt32

def readMediaTrajectory : Reader MediaTrajectory := do
  let value ← readU64
  Reader.ofOption (Enumerated.ofCode value.toNat)

def readMediaExecution : Reader MediaExecution := do
  let schemaVersion ← readUnsigned
  let trajectory ← readMediaTrajectory
  let present ← readUnsigned
  let width ← readU64
  let height ← readU64
  let durationMilliseconds ← readU64
  let seed ← readU64
  return { schemaVersion, trajectory, present, width, height, durationMilliseconds, seed }

def readerImage (role : MediaConditionRole) (payload : Bytes) : Option (List MediaCondition) :=
  if payload.isEmpty then some []
  else do
    let sourcePath ← readerText statePathCap payload
    return [{ schemaVersion := 1, kind := .image, role, sourcePath }]

section Codec

variable [Sha256Hex]

def readerProvider (payload : Bytes) : Option (Option ProviderRequest) :=
  if payload.isEmpty then some none
  else do
    let provider ← (requestWireDecode payload).toOption
    return some provider

def readerContent (payload : Bytes) : Option (List (ContentPart CString)) := do
  ensure (!payload.isEmpty)
  (partsWireDecode payload).toOption

/-- One case of the `switch`. -/
def RequestReading.store (slot : RequestSlot) (field : Field) (reading : RequestReading) :
    Option RequestReading :=
  match slot with
  | .operation => do
    let operation ← readerEnum field.payload
    return { reading with candidate.operation := operation, haveOperation := true }
  | .word word => do
    let value ← readerU64 field.payload
    return { reading with candidate.words := update reading.candidate.words word value }
  | .double double => do
    let value ← readerDouble field.payload
    return { reading with
      candidate.doubles := update reading.candidate.doubles double value }
  | .text text => do
    let value ← readerText text.capacity field.payload
    return { reading with candidate.texts := update reading.candidate.texts text value }
  | .prompt => do
    ensure (!reading.finitePayload && !reading.promptPayload)
    return { reading with
      candidate.prompt := field.payload
      finitePayload := field.tag == finiteRequestTag
      promptPayload := field.tag != finiteRequestTag }
  | .flags => do
    let flags ← readerFlags field.payload
    return { reading with candidate.flags := flags }
  | .traceLevel => do
    let level ← readerEnum field.payload
    return { reading with candidate.traceLevel := level }
  | .reasoningPolicy => do
    let policy ← readerReasoningPolicy field.payload
    return { reading with candidate.reasoningPolicy := policy }
  | .image role =>
    if field.payload.isEmpty then some reading
    else do
      ensure (decide (reading.candidate.mediaConditions.length < mediaConditionCap))
      let conditions ← readerImage role field.payload
      return { reading with
        candidate.mediaConditions := reading.candidate.mediaConditions ++ conditions }
  | .mediaExecution => do
    let execution ← readMediaExecution.whole field.payload
    return { reading with candidate.mediaExecution := execution }
  | .provider => do
    ensure reading.candidate.providerRequest.isNone
    let provider ← readerProvider field.payload
    return { reading with candidate.providerRequest := provider }
  | .content => do
    ensure reading.candidate.contentParts.isEmpty
    let parts ← readerContent field.payload
    return { reading with candidate.contentParts := parts }

def RequestReading.handle (field : Field) (reading : RequestReading) : Option RequestReading := do
  let slot ← requestSlot field.tag
  reading.store slot field

def RequestReading.accepted (reading : RequestReading) : Bool := reading.haveOperation &&
    (if reading.candidate.operation == .finiteDecision then
      reading.finitePayload && !reading.promptPayload
    else !reading.finitePayload) &&
    reading.candidate.fieldsValid && reading.candidate.oneInput

def requestDecode (input : Bytes) : Except Rejection ClientRequest := do
  require (decide (input.length ≤ frameMaxBytes)) .invalidArgument
    "bounded request bytes and outputs are required"
  orReject
    (do let reading ← scan trackedTags RequestReading.handle input.length [] .start input
        ensure reading.accepted
        return reading.candidate)
    .format "request frame contains malformed or duplicate fields"

end Codec

end Yvex.Server
