import Yvex.Core.JsonValue
import Yvex.Tokenizer.Conversation

namespace Yvex.Tokenizer

/-! # Completions

The text of a turn is taken apart into reasoning, content and a block of tool calls. The block is
written in one of two grammars with the markers of the protocol. -/

open Provider (ProviderRequest FunctionTool ToolCall Sha256Hex)

/-- The character classes of `tokenizer/unicode.c`. -/
class UnicodeClasses where
  isSpace : Nat → Bool

variable (input : Bytes)

def startsWith (text : CString) : Bool := text.bytes.isPrefixOf input

def consume (text : CString) : Option Bytes :=
  if startsWith input text then some (input.drop text.bytes.length) else none

/-- `attribute`: the bytes up to a delimiter, which the caller uses as a C string. -/
def attributeText (delimiter : CString) (capacity : Nat) : Option (Bytes × Bytes) := do
  let count ← findBytes input delimiter
  ensure (decide (count ≠ 0) && decide (count < capacity))
  return (input.take count, input.drop (count + delimiter.bytes.length))

variable (request : ProviderRequest)

def toolFind (name : CString) : Option FunctionTool :=
  request.tools.find? fun tool => tool.name == name

def propertiesKey : Bytes := Ir.ascii "properties"
def typeKey : Bytes := Ir.ascii "type"

/-- Whether the type of a schema is `string`, for the types that a schema may have. -/
def schemaType (type : Bytes) : Option Bool :=
  if type = Ir.ascii "string" then some true
  else if type ∈ ["number", "integer", "boolean", "object", "array", "null"].map Ir.ascii then
    some false
  else none

/-- The members of the schema of a parameter, with the type found so far. -/
def schemaMembers : Nat → Nat → Option Bool → Bytes → Option (Option Bool × Bytes)
  | 0, _, _, _ => none
  | fuel + 1, count, found, input =>
    match Json.iterAdvance .object count input with
    | .error => none
    | .finished trailing rest => if trailing || found.isNone then none else some (found, rest)
    | .ready rest => do
      let (key, rest) ← (Json.memberKey Json.keyCap).run rest
      if key = typeKey then
        ensure found.isNone
        let (type, rest) ← (Json.string 32).run rest
        schemaMembers fuel (count + 1) (some (← schemaType type)) rest
      else schemaMembers fuel (count + 1) found (← Json.skip rest)

def propertyMembers (parameter : CString) :
    Nat → Nat → Option Bool → Bytes → Option (Option Bool × Bytes)
  | 0, _, _, _ => none
  | fuel + 1, count, found, input =>
    match Json.iterAdvance .object count input with
    | .error => none
    | .finished trailing rest => if trailing then none else some (found, rest)
    | .ready rest => do
      let (key, rest) ← (Json.memberKey Json.keyCap).run rest
      if key = parameter.bytes then
        ensure found.isNone
        let (found, rest) ← schemaMembers fuel 0 none (← Json.iterBegin .object rest)
        propertyMembers parameter fuel (count + 1) found rest
      else propertyMembers parameter fuel (count + 1) found (← Json.skip rest)

def rootMembers (parameter : CString) :
    Nat → Nat → Option Bool → Bytes → Option (Option Bool × Bytes)
  | 0, _, _, _ => none
  | fuel + 1, count, found, input =>
    match Json.iterAdvance .object count input with
    | .error => none
    | .finished trailing rest => if trailing then none else some (found, rest)
    | .ready rest => do
      let (key, rest) ← (Json.memberKey Json.keyCap).run rest
      if key = propertiesKey then
        let (found, rest) ←
          propertyMembers parameter fuel 0 found (← Json.iterBegin .object rest)
        rootMembers parameter fuel (count + 1) found rest
      else rootMembers parameter fuel (count + 1) found (← Json.skip rest)

/-- `tool_parameter_type`: whether a parameter is a string. -/
def toolParameterType (tool : FunctionTool) (parameter : CString) : Option Bool := do
  let input ← Json.iterBegin .object tool.parametersJson
  let (found, rest) ← rootMembers parameter (tool.parametersJson.length + 1) 0 none input
  ensure (Json.complete rest)
  found

/-- A hexadecimal digit as `%x` writes it. -/
def hexLetter (digit : Nat) : UInt8 := UInt8.ofNat (if digit < 10 then 48 + digit else 87 + digit)

def escapeByte (byte : UInt8) : Bytes :=
  if byte = 34 ∨ byte = 92 then [92, byte]
  else if byte = 8 then [92, 98]
  else if byte = 12 then [92, 102]
  else if byte = 10 then [92, 110]
  else if byte = 13 then [92, 114]
  else if byte = 9 then [92, 116]
  else if byte < 0x20 then
    [92, 117, 48, 48, hexLetter (byte.toNat / 16), hexLetter (byte.toNat % 16)]
  else [byte]

def jsonString (bytes : Bytes) : Bytes := 34 :: bytes.flatMap escapeByte ++ [34]

structure Parameter where
  name : Bytes
  isString : Bool
  value : Bytes
deriving DecidableEq

variable (parameter : Parameter)

def Parameter.label : CString := CString.ofBytes parameter.name

def Parameter.valueJson : Bytes :=
  if parameter.isString then jsonString parameter.value else parameter.value

def membersJson : Bool → List Parameter → Bytes
  | _, [] => [125]
  | first, parameter :: parameters =>
    (if first then [] else [44, 32]) ++ jsonString parameter.label.bytes ++ [58, 32] ++
      parameter.valueJson ++ membersJson false parameters

variable (parameters : List Parameter)

def argumentsJson : Bytes := 123 :: membersJson true parameters

/-- Where a call departs from the grammar: what was expected and the text that is left there. -/
structure Departure where
  predicate : String
  rest : Bytes

def expect {α : Type} (value : Option α) (predicate : String) (rest : Bytes) : Except Departure α :=
  match value with
  | some value => .ok value
  | none => .error ⟨predicate, rest⟩

structure BlockCall where
  name : Bytes
  parameters : List Parameter
deriving DecidableEq

def skipSpaces [UnicodeClasses] : Nat → Bytes → Bytes
  | 0, input => input
  | fuel + 1, input =>
    match Utf8.next input with
    | some (point, width) =>
      if UnicodeClasses.isSpace point then skipSpaces fuel (input.drop width) else input
    | none => input

/-- `consume_invoke_start`. The tag is divided at its last blank. -/
def consumeInvokeStart [UnicodeClasses] (protocol : ConversationProtocol) (input : Bytes) :
    Option Bytes :=
  let start := protocol.toolInvokeStart.bytes
  let name := (start.reverse.takeWhile (· != 32)).reverse
  if protocol.toolGrammar = .typedAttributes ∧ name.length < start.length then do
    let tag := start.take (start.length - name.length - 1)
    ensure (tag.isPrefixOf input)
    let input := input.drop tag.length
    let input := skipSpaces input.length input
    ensure (name.isPrefixOf input)
    return input.drop name.length
  else consume input protocol.toolInvokeStart

def trueText : CString := CString.ofBytes (Ir.ascii "true")
def falseText : CString := CString.ofBytes (Ir.ascii "false")

variable (protocol : ConversationProtocol)

def parameterHead (tool : FunctionTool) (input : Bytes) :
    Except Departure (Bytes × Bool × Bytes) := do
  let named ← expect (consume input protocol.toolParameterStart) "parameter_start" input
  let (name, rest) ← expect (attributeText named protocol.toolParameterNameEnd Provider.toolNameCap)
    "parameter_name" named
  match protocol.toolGrammar with
  | .typedAttributes => do
    let (kind, value) ← expect (attributeText rest protocol.toolParameterKindEnd 6)
      "parameter_kind" rest
    let kind := CString.ofBytes kind
    let isString ← expect
      (if kind = trueText then some true else if kind = falseText then some false else none)
      "parameter_kind" value
    return (name, isString, value)
  | .xmlElements => do
    let isString ← expect (toolParameterType tool (CString.ofBytes name)) "parameter_type" rest
    return (name, isString, rest)

def namesCount : Nat := (parameters.map fun parameter => parameter.label.bytes.length + 1).sum

/-- The loop of `parse_invoke` behind the parameters `seen`. A round takes a byte at least. -/
def parseParameters (protocol : ConversationProtocol) (tool : FunctionTool) :
    Nat → List Parameter → Bytes → Except Departure (List Parameter × Bytes)
  | 0, _, input => .error ⟨"parameter_start", input⟩
  | fuel + 1, seen, input =>
    if input.isEmpty || startsWith input protocol.toolInvokeEnd then .ok (seen, input)
    else do
      let (name, isString, value) ← parameterHead protocol tool input
      let count ← expect (findBytes value protocol.toolParameterEnd) "parameter_close" value
      let parameter : Parameter := ⟨name, isString, value.take count⟩
      expect (ensure (!seen.any fun other => other.label == parameter.label))
        "duplicate_parameter" value
      expect (ensure (decide (namesCount seen ≤
        Provider.maxToolSchemaBytes - (parameter.label.bytes.length + 1))))
        "parameter_limit" value
      expect (ensure (isString || (Provider.jsonValueValidate parameter.value false).isOk))
        "parameter_json" (value.drop count)
      parseParameters protocol tool fuel (seen ++ [parameter])
        (value.drop (count + protocol.toolParameterEnd.bytes.length))

def skipEmptyBody : Bytes → Bytes
  | 10 :: rest => if startsWith rest protocol.toolInvokeEnd then rest else 10 :: rest
  | input => input

def parseInvoke [UnicodeClasses] (protocol : ConversationProtocol) (request : ProviderRequest)
    (input : Bytes) : Except Departure (BlockCall × Bytes) := do
  let named ← expect (consumeInvokeStart protocol input) "invoke_start" input
  let (name, rest) ← expect (attributeText named protocol.toolInvokeNameEnd Provider.toolNameCap)
    "invoke_name" named
  let tool ← expect (toolFind request (CString.ofBytes name)) "function_not_offered" rest
  let (parameters, rest) ← parseParameters protocol tool (rest.length + 1) []
    (skipEmptyBody protocol rest)
  let after ← expect (consume rest protocol.toolInvokeEnd) "invoke_close" rest
  expect (ensure (Provider.jsonValueValidate (argumentsJson parameters) true).isOk)
    "arguments_json" after
  return (⟨name, parameters⟩, after)

def Departure.rejection (text place : String) (begin : Bytes) (departure : Departure) : Rejection :=
  ⟨.format, text ++ ": " ++ departure.predicate ++ " at " ++ place ++ " byte " ++
    toString (begin.length - departure.rest.length)⟩

/-- The errors of `parse_calls` itself. -/
def blockError {α : Type} (status : Status) (predicate : String) (begin rest : Bytes) :
    Except Rejection α :=
  .error { Departure.rejection "completion tool block is not exact source grammar" "block" begin
    ⟨predicate, rest⟩ with status := status }

/-- The loop of `parse_calls` behind some calls. A round takes a byte at least. -/
def parseCallsLoop [UnicodeClasses] (protocol : ConversationProtocol) (request : ProviderRequest)
    (begin : Bytes) : Nat → List BlockCall → Bytes → Except Rejection (List BlockCall × Bytes)
  | 0, _, input => blockError .format "invoke_separator" begin input
  | fuel + 1, calls, input =>
    if input.isEmpty || (decide (protocol.toolGrammar = .typedAttributes) &&
        startsWith input protocol.toolCallsEnd) then .ok (calls, input)
    else if Provider.maxTools ≤ calls.length then blockError .bounds "call_limit" begin input
    else do
      let (call, rest) ← (parseInvoke protocol request input).mapError
        (Departure.rejection "completion contains a malformed source-authored tool call"
          "invocation" input)
      match rest with
      | [] => parseCallsLoop protocol request begin fuel (calls ++ [call]) []
      | 10 :: rest => parseCallsLoop protocol request begin fuel (calls ++ [call]) rest
      | rest => blockError .format "invoke_separator" begin rest

/-- The typed grammar has markers around the calls. -/
def unwrap (marker : CString) (input : Bytes) : Option Bytes :=
  match protocol.toolGrammar with
  | .typedAttributes => consume input marker
  | .xmlElements => some input

/-- A value, or an error of `parse_calls`. -/
def blockExpect {α : Type} (value : Option α) (predicate : String) (begin rest : Bytes) :
    Except Rejection α :=
  match value with
  | some value => .ok value
  | none => blockError .format predicate begin rest

def parseCalls [UnicodeClasses] (protocol : ConversationProtocol) (request : ProviderRequest)
    (input : Bytes) : Except Rejection (List BlockCall) := do
  let inside ← blockExpect (unwrap protocol protocol.toolCallsStart input) "block_start" input input
  let (calls, rest) ← parseCallsLoop protocol request input (inside.length + 1) [] inside
  blockExpect (ensure (!calls.isEmpty)) "empty_block" input rest
  let after ← blockExpect (unwrap protocol protocol.toolCallsEnd rest) "block_close" input rest
  blockExpect (ensure after.isEmpty) "trailing_content" input after
  require (decide (calls.length ≤ 1) || request.toolChoice.parallelCalls != 0) .format
    "completion contains multiple tool calls but parallel_tool_calls=false"
  return calls

/-- The kinds of `yvex_provider_output_kind` that a completion can have. -/
inductive ResultKind where
  | assistantText
  | functionCall
deriving DecidableEq

def ResultKind.code : ResultKind → UInt32
  | .assistantText => 0
  | .functionCall => 1

structure ProviderResult where
  kind : ResultKind
  reasoningContent : Bytes
  content : Bytes
  toolCalls : List ToolCall
  outputIdentity : CString

def ConversationProtocol.toolMarker : CString :=
  match protocol.toolGrammar with
  | .xmlElements => protocol.toolInvokeStart
  | .typedAttributes => protocol.toolCallsStart

def outputLabel : CString := CString.ofBytes (Ir.ascii "yvex.tokenizer.provider.output.v2")

def outputStream (kind : ResultKind) (reasoning content : Bytes) (calls : List BlockCall) : Bytes :=
  Provider.hashText outputLabel ++ Provider.hashText request.requestIdentity ++
    Provider.hashCode kind.code ++ Provider.hashSpan reasoning ++ Provider.hashSpan content ++
    Provider.hashList (fun call : BlockCall => Provider.hashText (CString.ofBytes call.name) ++
      Provider.hashSpan (argumentsJson call.parameters)) calls

variable (outputIdentity : CString)

def callId (index : Nat) : CString :=
  CString.ofBytes (Ir.ascii "call_" ++ outputIdentity.bytes.take 20 ++ Ir.ascii "_" ++
    Ir.ascii (toString index))

def toolCalls (calls : List BlockCall) : List ToolCall :=
  calls.mapIdx fun index call => ⟨callId outputIdentity index, CString.ofBytes call.name,
    argumentsJson call.parameters⟩

def sealResult [Sha256Hex] (request : ProviderRequest) (kind : ResultKind)
    (reasoning content : Bytes) (calls : List BlockCall) : ProviderResult :=
  let identity := Sha256Hex.digest (outputStream request kind reasoning content calls)
  ⟨kind, reasoning, content, toolCalls identity calls, identity⟩

def parseProviderCompletion [UnicodeClasses] [Sha256Hex] (tokenizer : ConversationTokenizer)
    (request : ProviderRequest) (bytes : Bytes) : Except Rejection ProviderResult := do
  require (tokenizer.promptConversation && (Provider.requestValidate request).isOk &&
      Utf8.valid bytes) .invalidArgument
    "sealed request and valid UTF-8 completion are required"
  let protocol := tokenizer.conversation
  let view ← conversationOutputParse tokenizer request.reasoningPolicy bytes
  match findBytes view.final protocol.toolMarker with
  | some position => do
    require (!contains (view.final.take position) protocol.dsml) .format
      "provider completion parsing failed"
    let calls ← parseCalls protocol request (view.final.drop position)
    return sealResult request .functionCall view.reasoning (view.final.take position) calls
  | none => do
    require (!contains view.final protocol.dsml) .format "provider completion parsing failed"
    return sealResult request .assistantText view.reasoning view.final []

end Yvex.Tokenizer
