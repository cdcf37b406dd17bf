import Yvex.Core.Json
import Yvex.Foundation.Binary64
import Yvex.Provider.Content

namespace Yvex.Provider

/-! # Provider requests

Adapters hand application intent to the server as one bounded request record. A request is
validated as a whole and sealed by the digest of its fields. -/

inductive Role where
  | developer
  | system
  | user
  | assistant
  | tool
deriving DecidableEq

structure ToolCall where
  callId : CString
  name : CString
  argumentsJson : Bytes
deriving DecidableEq

structure Message where
  role : Role
  content : Bytes
  reasoningContent : Bytes
  toolCallId : CString
  toolCalls : List ToolCall
deriving DecidableEq

structure FunctionTool where
  name : CString
  description : Bytes
  parametersJson : Bytes
  descriptionPresent : Int32
  strict : Int32
  strictPresent : Int32
deriving DecidableEq

inductive ToolChoiceKind where
  | none
  | auto
  | required
  | function
deriving DecidableEq

structure ToolChoice where
  kind : ToolChoiceKind
  functionName : CString
  parallelCalls : Int32
deriving DecidableEq

inductive ResponseFormat where
  | text
  | jsonObject
deriving DecidableEq

inductive ReasoningPolicy where
  | disabled
  | enabled
  | maximum
  | low
  | sourceDefault
deriving DecidableEq

inductive ReasoningHistoryPolicy where
  | sourceDefault
  | drop
  | preserve
deriving DecidableEq

structure Sampling where
  stochastic : Int32
  seedPresent : Int32
  seed : UInt64
  topK : UInt64
  temperature : Binary64
  topP : Binary64
  minP : Binary64
  typicalP : Binary64
deriving DecidableEq

/-- `yvex_provider_request`. An array with its count is a list and a span is its bytes. -/
structure ProviderRequest where
  schemaVersion : UInt32
  model : CString
  messages : List Message
  tools : List FunctionTool
  stopStrings : List Bytes
  toolChoice : ToolChoice
  responseFormat : ResponseFormat
  reasoningPolicy : ReasoningPolicy
  reasoningHistoryPolicy : ReasoningHistoryPolicy
  sampling : Sampling
  maximumOutputTokens : UInt64
  stream : Int32
  includeUsage : Int32
  dropThinking : Int32
  adapter : CString
  previousResponseId : CString
  externalCorrelationId : CString
  requestIdentity : CString
  sealed : Bool
deriving DecidableEq

def Role.code : Role → UInt32
  | .developer => 0
  | .system => 1
  | .user => 2
  | .assistant => 3
  | .tool => 4

def ToolChoiceKind.code : ToolChoiceKind → UInt32
  | .none => 0
  | .auto => 1
  | .required => 2
  | .function => 3

def ResponseFormat.code : ResponseFormat → UInt32
  | .text => 0
  | .jsonObject => 1

def ReasoningPolicy.code : ReasoningPolicy → UInt32
  | .disabled => 0
  | .enabled => 1
  | .maximum => 2
  | .low => 3
  | .sourceDefault => 4

def ReasoningHistoryPolicy.code : ReasoningHistoryPolicy → UInt32
  | .sourceDefault => 0
  | .drop => 1
  | .preserve => 2

def modelCap : Nat := 128

def idCap : Nat := 65

def adapterCap : Nat := 32

def toolNameCap : Nat := 65

def maxMessages : Nat := 128

def maxTools : Nat := 32

def maxStops : Nat := 4

def maxMessageBytes : Nat := 262144

def maxContentBytes : Nat := 1048576

def maxToolSchemaBytes : Nat := 65536

def maxStopBytes : Nat := 256

def spanValid (span : Bytes) (maximum : Nat) (allowEmpty : Bool) : Bool :=
  decide (span.length ≤ maximum) && (allowEmpty || !span.isEmpty)

def identifierByte (byte : UInt8) : Bool :=
  Ir.isLetter byte || Ir.isDigit byte || byte == 95 || byte == 45 || byte == 46 || byte == 58

def identifierValid (value : CString) (capacity : Nat) (allowEmpty : Bool) : Bool :=
  decide (value.bytes.length < capacity) && (allowEmpty || !value.isEmpty) &&
    value.bytes.all identifierByte

def isBlank (byte : UInt8) : Bool := byte == 32 || byte == 9 || byte == 13 || byte == 10

def jsonValueValidate (bytes : Bytes) (requireObject : Bool) : Except Rejection Unit := do
  require (!bytes.isEmpty && decide (bytes.length ≤ maxToolSchemaBytes)) .bounds
    "bounded JSON bytes are required"
  let cursor := bytes.dropWhile isBlank
  require (!cursor.isEmpty &&
      (!requireObject || cursor.head? == some Json.Collection.object.opening)) .format
    "JSON object syntax is required"
  require (((Json.skip bytes).map Json.complete).getD false) .format
    "one complete JSON value is required"

/-- A member of type `int` that holds a truth value. -/
def flagValid (flag : Int32) : Bool := flag == 0 || flag == 1

def toolValid (tool : FunctionTool) (schemaVersion : UInt32) : Except Rejection Unit := do
  require (identifierValid tool.name toolNameCap false &&
      spanValid tool.description maxMessageBytes true &&
      spanValid tool.parametersJson maxToolSchemaBytes false && flagValid tool.strict &&
      (schemaVersion == 1 || (flagValid tool.descriptionPresent && flagValid tool.strictPresent &&
          !(tool.descriptionPresent == 0 && !tool.description.isEmpty) &&
          !(tool.strictPresent == 0 && tool.strict != 0))))
    .invalidArgument "function tool fields are invalid or oversized"
  jsonValueValidate tool.parametersJson true

/-- The loop of `message_valid` over the calls behind `prior`. -/
def callsValid : List ToolCall → List ToolCall → Except Rejection Unit
  | _, [] => .ok ()
  | prior, call :: calls => do
    require (identifierValid call.callId idCap false &&
        identifierValid call.name toolNameCap false &&
        spanValid call.argumentsJson maxToolSchemaBytes false)
      .invalidArgument "assistant tool-call fields are invalid"
    require (!prior.any fun other => other.callId == call.callId)
      .invalidArgument "assistant tool-call IDs must be unique"
    jsonValueValidate call.argumentsJson true
    callsValid (prior ++ [call]) calls

def maxCalls (schemaVersion : UInt32) : Nat :=
  if schemaVersion = 1 then 1 else maxTools

/-- The conditions of `message_valid` on the call that a message answers. -/
def answeredCallValid (message : Message) : Except Rejection Unit :=
  match message.role with
  | .tool =>
    require (identifierValid message.toolCallId idCap false && message.toolCalls.isEmpty)
      .invalidArgument "tool results require exactly one call ID"
  | _ =>
    require message.toolCallId.isEmpty .invalidArgument
      "only tool-result messages carry tool_call_id"

def messageValid (message : Message) (schemaVersion : UInt32) : Except Rejection Unit := do
  require (spanValid message.content maxMessageBytes (message.role == .assistant) &&
      spanValid message.reasoningContent maxMessageBytes true &&
      !(schemaVersion == 1 && !message.reasoningContent.isEmpty) &&
      !(!message.reasoningContent.isEmpty && message.role != .assistant) &&
      decide (message.toolCalls.length ≤ maxCalls schemaVersion))
    .invalidArgument "provider message fields are invalid or oversized"
  answeredCallValid message
  require (message.toolCalls.isEmpty || message.role == .assistant) .invalidArgument
    "only assistant messages carry tool calls"
  callsValid [] message.toolCalls

/-- The loop of `request_fields_validate` over the messages, with the bytes seen so far. -/
def messagesValid (schemaVersion : UInt32) : Nat → List Message → Except Rejection Unit
  | _, [] => .ok ()
  | total, message :: messages => do
    messageValid message schemaVersion
    require (decide (total ≤ maxContentBytes - message.content.length)) .bounds
      "aggregate message bytes exceed the request limit"
    let total := total + message.content.length
    require (decide (total ≤ maxContentBytes - message.reasoningContent.length)) .bounds
      "aggregate reasoning bytes exceed the request limit"
    messagesValid schemaVersion (total + message.reasoningContent.length) messages

/-- The loop of `request_fields_validate` over the tools behind `prior`. -/
def toolsValid (schemaVersion : UInt32) :
    List FunctionTool → List FunctionTool → Except Rejection Unit
  | _, [] => .ok ()
  | prior, tool :: tools => do
    toolValid tool schemaVersion
    require (!prior.any fun other => tool.name == other.name) .format
      "function tool names must be unique"
    toolsValid schemaVersion (prior ++ [tool]) tools

def ReasoningPolicy.valid (policy : ReasoningPolicy) : Bool := policy != .sourceDefault

section

variable (request : ProviderRequest)

/-- The first condition of `request_fields_validate`. -/
def ProviderRequest.bounded : Bool :=
  decide (1 ≤ request.schemaVersion) && decide (request.schemaVersion ≤ 4) &&
    identifierValid request.model modelCap false && !request.messages.isEmpty &&
    decide (request.messages.length ≤ maxMessages) && decide (request.tools.length ≤ maxTools) &&
    decide (request.stopStrings.length ≤ maxStops) &&
    flagValid request.toolChoice.parallelCalls &&
    !(request.schemaVersion == 1 && request.toolChoice.parallelCalls != 0) &&
    (request.schemaVersion == 4 || request.reasoningPolicy.valid) &&
    !(request.schemaVersion != 4 && request.reasoningHistoryPolicy != .sourceDefault) &&
    flagValid request.dropThinking &&
    !(request.schemaVersion == 1 && request.reasoningPolicy != .disabled) &&
    !(decide (request.schemaVersion < 3) && request.maximumOutputTokens == 0) &&
    decide (request.maximumOutputTokens.toNat < 2 ^ 32) && flagValid request.stream &&
    flagValid request.includeUsage && request.sampling.temperature.isFinite &&
    request.sampling.topP.isFinite && request.sampling.minP.isFinite &&
    request.sampling.typicalP.isFinite

/-- The second condition of `request_fields_validate`. -/
def Sampling.admitted (sampling : Sampling) : Bool :=
  sampling.temperature.within .zero .two && sampling.topP.within .zero .one &&
    sampling.minP.within .zero .one && sampling.typicalP.within .zero .one

def optionalIdentifierValid (value : CString) (capacity : Nat) : Bool :=
  value.isEmpty || identifierValid value capacity false

def requestFieldsValidate : Except Rejection Unit := do
  require request.bounded .invalidArgument "complete bounded provider request fields are required"
  require request.sampling.admitted .invalidArgument
    "sampling values are outside the admitted range"
  messagesValid request.schemaVersion 0 request.messages
  toolsValid request.schemaVersion [] request.tools
  let choice := request.toolChoice
  require (!((choice.kind == .required || choice.kind == .function) && request.tools.isEmpty))
    .invalidArgument "required tool choice needs a tool definition"
  require (choice.kind != .function || (identifierValid choice.functionName toolNameCap false &&
        request.tools.any fun tool => choice.functionName == tool.name))
    .invalidArgument "named tool choice does not match a definition"
  require (request.stopStrings.all fun stop => spanValid stop maxStopBytes false)
    .invalidArgument "stop string is empty or oversized"
  require (optionalIdentifierValid request.adapter adapterCap) .invalidArgument
    "provider adapter identifier is invalid"
  require (optionalIdentifierValid request.previousResponseId idCap) .invalidArgument
    "previous response ID is invalid"
  require (optionalIdentifierValid request.externalCorrelationId idCap) .invalidArgument
    "external correlation ID is invalid"

/-- `yvex_sha256_update_text`: the length with its least significant byte first, then the text. -/
def hashText (text : CString) : Bytes := (bigEndian 8 text.bytes.length).reverse ++ text.bytes

def hashSpan (span : Bytes) : Bytes := writeSpan 8 span

/-- A member of type `int`, widened with its sign. -/
def hashInt (value : Int32) : Bytes := writeU64 value.toInt64.toUInt64

def hashCode (value : UInt32) : Bytes := writeU64 value.toUInt64

def hashList {α : Type} (hash : α → Bytes) (values : List α) : Bytes :=
  bigEndian 8 values.length ++ values.flatMap hash

variable (schemaVersion : UInt32)

def requestLabel : CString :=
  CString.ofBytes (Ir.ascii
    (if schemaVersion = 4 then "yvex.provider.request.v4"
    else if schemaVersion = 3 then "yvex.provider.request.v3"
    else if schemaVersion = 2 then "yvex.provider.request.v2"
    else "yvex.provider.request.v1"))

def ToolCall.stream (call : ToolCall) : Bytes :=
  hashText call.callId ++ hashText call.name ++ hashSpan call.argumentsJson

def Message.stream (schemaVersion : UInt32) (message : Message) : Bytes :=
  hashCode message.role.code ++ hashSpan message.content ++
    (if schemaVersion = 1 then [] else hashSpan message.reasoningContent) ++
    hashText message.toolCallId ++ hashList ToolCall.stream message.toolCalls

def FunctionTool.stream (tool : FunctionTool) : Bytes :=
  hashText tool.name ++ hashSpan tool.description ++ hashSpan tool.parametersJson ++
    (if schemaVersion = 1 then []
      else hashInt tool.descriptionPresent ++ hashInt tool.strictPresent) ++
    hashInt tool.strict

def Sampling.stream (sampling : Sampling) : Bytes :=
  hashInt sampling.stochastic ++ hashInt sampling.seedPresent ++ writeU64 sampling.seed ++
    writeU64 sampling.topK ++ writeU64 sampling.temperature.bits ++ writeU64 sampling.topP.bits ++
    writeU64 sampling.minP.bits ++ writeU64 sampling.typicalP.bits

/-- What `request_identity` feeds to the digest. -/
def ProviderRequest.identityStream : Bytes :=
  hashText (requestLabel request.schemaVersion) ++ hashCode request.schemaVersion ++
    hashText request.model ++ hashList (Message.stream request.schemaVersion) request.messages ++
    hashList (FunctionTool.stream request.schemaVersion) request.tools ++
    hashList hashSpan request.stopStrings ++
    hashCode request.toolChoice.kind.code ++ hashText request.toolChoice.functionName ++
    hashInt request.toolChoice.parallelCalls ++ hashCode request.responseFormat.code ++
    (if request.schemaVersion = 1 then []
      else hashCode request.reasoningPolicy.code ++ hashInt request.dropThinking) ++
    (if request.schemaVersion = 4 then hashCode request.reasoningHistoryPolicy.code else []) ++
    request.sampling.stream ++ writeU64 request.maximumOutputTokens ++ hashInt request.stream ++
    hashInt request.includeUsage ++ hashText request.adapter ++
    hashText request.previousResponseId ++ hashText request.externalCorrelationId

end

section Identity

variable [Sha256Hex] (request : ProviderRequest)

def ProviderRequest.identity : CString := Sha256Hex.digest request.identityStream

/-- `yvex_provider_request_seal`, with the sealed record on success. -/
def requestSeal : Except Rejection ProviderRequest := do
  requestFieldsValidate request
  return { request with requestIdentity := request.identity, sealed := true }

def requestValidate : Except Rejection Unit := do
  require request.sealed .state "sealed provider request is required"
  require ((requestFieldsValidate request).isOk && request.identity == request.requestIdentity)
    .state "provider request identity mismatch"

end Identity

end Yvex.Provider
