import Yvex.Provider.Request

namespace Yvex.Provider

/-! # The wire form of provider requests

A sealed request crosses the local protocol as one byte string: a magic number, the schema and
the fields of that schema in a fixed order, with the request's identity at the end. -/

def wireMagic : UInt32 := 0x59505231

def wireMaxBytes : Nat := 1048576

def writeInt (value : Int32) : Bytes := writeU32 value.toUInt32

def writeDouble (value : Binary64) : Bytes := writeU64 value.bits

def ToolCall.wire (call : ToolCall) : Bytes :=
  writeText 4 call.callId ++ writeText 4 call.name ++ writeSpan 4 call.argumentsJson

def Message.wire (schemaVersion : UInt32) (message : Message) : Bytes :=
  writeU32 message.role.code ++ writeSpan 4 message.content ++
    (if schemaVersion != 1 then writeSpan 4 message.reasoningContent else []) ++
    writeText 4 message.toolCallId ++ writeList 4 ToolCall.wire message.toolCalls

def FunctionTool.wire (schemaVersion : UInt32) (tool : FunctionTool) : Bytes :=
  writeText 4 tool.name ++ writeSpan 4 tool.description ++ writeSpan 4 tool.parametersJson ++
    writeInt tool.strict ++
    (if schemaVersion != 1 then writeInt tool.descriptionPresent else []) ++
    (if schemaVersion != 1 then writeInt tool.strictPresent else [])

def Sampling.wire (sampling : Sampling) : Bytes :=
  writeInt sampling.stochastic ++ writeInt sampling.seedPresent ++ writeU64 sampling.seed ++
    writeU64 sampling.topK ++ writeDouble sampling.temperature ++ writeDouble sampling.topP ++
    writeDouble sampling.minP ++ writeDouble sampling.typicalP

def ToolChoice.wire (choice : ToolChoice) : Bytes :=
  writeU32 choice.kind.code ++ writeText 4 choice.functionName ++ writeInt choice.parallelCalls

section

variable (request : ProviderRequest)

def ProviderRequest.wireBody : Bytes :=
  let schemaVersion := request.schemaVersion
  writeText 4 request.model ++ writeList 4 (Message.wire schemaVersion) request.messages ++
    writeList 4 (FunctionTool.wire schemaVersion) request.tools ++
    writeList 4 (writeSpan 4) request.stopStrings ++ request.toolChoice.wire ++
    writeU32 request.responseFormat.code ++
    (if schemaVersion != 1 then writeU32 request.reasoningPolicy.code else []) ++
    (if schemaVersion != 1 then writeInt request.dropThinking else []) ++
    (if schemaVersion == 4 then writeU32 request.reasoningHistoryPolicy.code else []) ++
    request.sampling.wire ++ writeU64 request.maximumOutputTokens ++ writeInt request.stream ++
    writeInt request.includeUsage ++ writeText 4 request.adapter ++
    writeText 4 request.previousResponseId ++ writeText 4 request.externalCorrelationId ++
    writeText 4 request.requestIdentity

def ProviderRequest.wire : Bytes :=
  writeU32 wireMagic ++ writeU32 request.schemaVersion ++ request.wireBody

/-- The texts that `write_text` finds without a final zero; all others are validated. -/
def ProviderRequest.terminated : Bool :=
  decide (request.toolChoice.functionName.bytes.length < toolNameCap)

end

section Codec

variable [Sha256Hex]

/-- `yvex_provider_request_wire_encode`. The writer stops where the capacity is passed, so it
reaches the end exactly where the whole form fits. -/
def requestWireEncode (request : ProviderRequest) (capacity : Nat) : Except Rejection Bytes := do
  require (decide (capacity ≤ wireMaxBytes) && (requestValidate request).isOk) .invalidArgument
    "sealed request and bounded wire output are required"
  require (request.terminated && decide (request.wire.length ≤ capacity)) .bounds
    "provider request exceeds wire capacity"
  return request.wire

end Codec

def Role.ofCode : UInt32 → Option Role
  | 0 => some .developer
  | 1 => some .system
  | 2 => some .user
  | 3 => some .assistant
  | 4 => some .tool
  | _ => none

def ToolChoiceKind.ofCode : UInt32 → Option ToolChoiceKind
  | 0 => some .none
  | 1 => some .auto
  | 2 => some .required
  | 3 => some .function
  | _ => Option.none

def ResponseFormat.ofCode : UInt32 → Option ResponseFormat
  | 0 => some .text
  | 1 => some .jsonObject
  | _ => none

section

variable (schemaVersion : UInt32)

/-- `yvex_reasoning_request_policy_valid` and, below the last schema,
`yvex_reasoning_policy_valid`. -/
def ReasoningPolicy.ofCode : UInt32 → Option ReasoningPolicy
  | 0 => some .disabled
  | 1 => some .enabled
  | 2 => some .maximum
  | 3 => some .low
  | 4 => if schemaVersion = 4 then some .sourceDefault else none
  | _ => none

def ReasoningHistoryPolicy.ofCode : UInt32 → Option ReasoningHistoryPolicy
  | 0 => some .sourceDefault
  | 1 => some .drop
  | 2 => some .preserve
  | _ => none

def readCode {α : Type} (ofCode : UInt32 → Option α) : Reader α := do
  let value ← readU32
  Reader.ofOption (ofCode value)

def readFlag : Reader Int32 :=
  readCode fun value => if value = 0 then some 0 else if value = 1 then some 1 else none

def readDouble : Reader Binary64 := Binary64.mk <$> readU64

def readToolCall : Reader ToolCall := do
  let callId ← Reader.text 4 idCap
  let name ← Reader.text 4 toolNameCap
  let argumentsJson ← Reader.span 4 maxToolSchemaBytes
  return { callId, name, argumentsJson }

def readMessage : Reader Message := do
  let role ← readCode Role.ofCode
  let content ← Reader.span 4 maxMessageBytes
  let reasoningContent ← Reader.optional (schemaVersion != 1) (Reader.span 4 maxMessageBytes) []
  let toolCallId ← Reader.text 4 idCap
  let toolCalls ← Reader.list 4 (maxCalls schemaVersion) readToolCall
  return { role, content, reasoningContent, toolCallId, toolCalls }

def readTool : Reader FunctionTool := do
  let name ← Reader.text 4 toolNameCap
  let description ← Reader.span 4 maxMessageBytes
  let parametersJson ← Reader.span 4 maxToolSchemaBytes
  let strict ← readFlag
  let descriptionPresent ← Reader.optional (schemaVersion != 1) readFlag 0
  let strictPresent ← Reader.optional (schemaVersion != 1) readFlag 0
  return { name, description, parametersJson, descriptionPresent, strict, strictPresent }

def readSampling : Reader Sampling := do
  let stochastic ← readFlag
  let seedPresent ← readFlag
  let seed ← readU64
  let topK ← readU64
  let temperature ← readDouble
  let topP ← readDouble
  let minP ← readDouble
  let typicalP ← readDouble
  return { stochastic, seedPresent, seed, topK, temperature, topP, minP, typicalP }

def readToolChoice : Reader ToolChoice := do
  let kind ← readCode ToolChoiceKind.ofCode
  let functionName ← Reader.text 4 toolNameCap
  let parallelCalls ← readFlag
  return { kind, functionName, parallelCalls }

/-- The fields of a schema. The claimed identity is kept in the slot of the identity. -/
def readBody : Reader ProviderRequest := do
  let model ← Reader.text 4 modelCap
  let messages ← Reader.list 4 maxMessages (readMessage schemaVersion)
  let tools ← Reader.list 4 maxTools (readTool schemaVersion)
  let stopStrings ← Reader.list 4 maxStops (Reader.span 4 maxStopBytes)
  let toolChoice ← readToolChoice
  let responseFormat ← readCode ResponseFormat.ofCode
  let reasoningPolicy ←
    Reader.optional (schemaVersion != 1) (readCode (ReasoningPolicy.ofCode schemaVersion)) .disabled
  let dropThinking ← Reader.optional (schemaVersion != 1) readFlag 1
  let reasoningHistoryPolicy ←
    Reader.optional (schemaVersion == 4) (readCode ReasoningHistoryPolicy.ofCode) .sourceDefault
  let sampling ← readSampling
  let maximumOutputTokens ← readU64
  let stream ← readFlag
  let includeUsage ← readFlag
  let adapter ← Reader.text 4 adapterCap
  let previousResponseId ← Reader.text 4 idCap
  let externalCorrelationId ← Reader.text 4 idCap
  let requestIdentity ← Reader.text 4 idCap
  return { schemaVersion, model, messages, tools, stopStrings, toolChoice, responseFormat,
           reasoningPolicy, reasoningHistoryPolicy, sampling, maximumOutputTokens, stream,
           includeUsage, dropThinking, adapter, previousResponseId, externalCorrelationId,
           requestIdentity, sealed := false }

end

def readRequest : Reader ProviderRequest := do
  let magic ← readU32
  let schemaVersion ← readU32
  Reader.ensure (magic == wireMagic && decide (1 ≤ schemaVersion) && decide (schemaVersion ≤ 4))
  readBody schemaVersion

section Codec

variable [Sha256Hex]

def requestWireDecode (input : Bytes) : Except Rejection ProviderRequest := do
  require (!input.isEmpty && decide (input.length ≤ wireMaxBytes)) .invalidArgument
    "bounded provider wire bytes are required"
  orReject
    (do let (request, rest) ← readRequest.run input
        ensure rest.isEmpty
        let sealed ← (requestSeal request).toOption
        ensure (request.requestIdentity == sealed.requestIdentity)
        return sealed)
    .format "provider wire request is malformed or unauthenticated"

end Codec

end Yvex.Provider
