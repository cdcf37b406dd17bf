import Yvex.Core.Utf8

namespace Yvex.Server.OpenAi

/-! # Streamed generation

The gateway collects the fragments of a turn in one result and, for a streaming client, passes
them on as events. A result has one channel of text, one of reasoning and one for each tool call.
-/

def contentMaxBytes : Nat := 1048576

def toolsMax : Nat := 32

def fragmentCap : Nat := 4096

inductive OutputKind where
  | assistantText
  | functionCall
  | usage
  | terminal
  | error
  | explicitReasoning
deriving DecidableEq

inductive FinishClass where
  | stop
  | length
  | toolCalls
  | cancelled
  | failed
deriving DecidableEq

/-- A `yvex_client_message` of kind `YVEX_CLIENT_MESSAGE_FRAGMENT`. -/
structure Fragment where
  outputKind : OutputKind
  toolCallId : CString
  toolName : CString
  bytes : Bytes
  bounded : bytes.length ≤ fragmentCap

structure Channel where
  bytes : Bytes
  validated : Nat

structure GenerationToolCall where
  callId : CString
  name : CString
  arguments : Channel

structure GenerationResult where
  reasoning : Channel
  text : Channel
  toolCalls : List GenerationToolCall
  finish : FinishClass
  complete : Bool

def GenerationResult.empty : GenerationResult where
  reasoning := ⟨[], 0⟩
  text := ⟨[], 0⟩
  toolCalls := []
  finish := .stop
  complete := false

inductive Endpoint where
  | chat
  | responses

inductive ResponseEventKind where
  | created
  | outputItemAdded
  | contentPartAdded
  | reasoningDelta
  | reasoningDone
  | outputTextDelta
  | outputTextDone
  | contentPartDone
  | functionArgumentsDelta
  | functionArgumentsDone
  | outputItemDone
  | completed
  | incomplete
  | failed
deriving DecidableEq

inductive OutputItem where
  | message (id : Bytes)
  | functionCall (id : Bytes)
deriving DecidableEq

/-- What a rendered event says: its number, the item it is about with its index, the text in it,
and the output list. -/
structure ResponseEvent where
  kind : ResponseEventKind
  sequence : UInt64
  item : Option (Nat × OutputItem)
  content : Bytes
  output : List OutputItem

/-- A chunk of a chat completion carries its delta with the kind and the identity of its
fragment. -/
inductive Event where
  | chunk (kind : OutputKind) (toolIndex : Nat) (toolCallId : CString) (delta : Bytes)
  | response (event : ResponseEvent)

/-- `openai_http_sink` with the events that were written to it. -/
structure HttpSink where
  endpoint : Endpoint
  stream : Bool
  responseSequence : UInt64
  responseItemMask : Nat
  events : List Event

def GenerationResult.firstTool (result : GenerationResult) : Nat :=
  if result.text.bytes.isEmpty then 0 else 1

def responseToolAt (result : GenerationResult) (outputIndex : Nat) : Option GenerationToolCall :=
  if outputIndex < result.firstTool then none
  else result.toolCalls[outputIndex - result.firstTool]?

variable (id : Bytes)

def messageId : Bytes := [109, 115, 103, 95] ++ id.take 48

variable (result : GenerationResult)

/-- `response_item_id` with the type of the item. -/
def responseItem (outputIndex : Nat) : OutputItem :=
  match responseToolAt result outputIndex with
  | some call => .functionCall call.callId.bytes
  | none => .message (messageId id)

/-- The output list of `render_responses_result`. -/
def responseOutput : List OutputItem :=
  (if !result.text.bytes.isEmpty || result.toolCalls.isEmpty then [.message (messageId id)] else
    []) ++
    result.toolCalls.map fun call => .functionCall call.callId.bytes

section

variable (kind : ResponseEventKind)

/-- The item that `render_response_event_payload` names. -/
def eventItem (id : Bytes) (result : GenerationResult) (outputIndex : Nat) :
    Option (Nat × OutputItem) :=
  match kind with
  | .outputItemAdded | .outputItemDone | .contentPartAdded | .contentPartDone | .outputTextDelta
  | .outputTextDone | .functionArgumentsDelta | .functionArgumentsDone =>
    some (outputIndex, responseItem id result outputIndex)
  | .created | .reasoningDelta | .reasoningDone | .completed | .incomplete | .failed => none

def eventContent (result : GenerationResult) (outputIndex : Nat) (delta : Bytes) :
    Except Rejection Bytes :=
  match kind with
  | .reasoningDelta | .outputTextDelta | .functionArgumentsDelta => .ok delta
  | .reasoningDone => .ok result.reasoning.bytes
  | .outputTextDone | .contentPartDone => .ok result.text.bytes
  | .outputItemDone =>
    match responseToolAt result outputIndex with
    | some call => .ok call.arguments.bytes
    | none => .ok result.text.bytes
  | .functionArgumentsDone =>
    match responseToolAt result outputIndex with
    | some call => .ok call.arguments.bytes
    | none => .error ⟨.state, ""⟩
  | .created | .outputItemAdded | .contentPartAdded | .completed | .incomplete | .failed => .ok []

def eventOutput (id : Bytes) (result : GenerationResult) : List OutputItem :=
  match kind with
  | .completed | .incomplete => responseOutput id result
  | _ => []

end

variable (sink : HttpSink) (kind : ResponseEventKind)

def HttpSink.write (item : Option (Nat × OutputItem)) (content : Bytes) (output :
    List OutputItem) : HttpSink :=
  { sink with
    responseSequence := sink.responseSequence + 1
    events := sink.events ++
      [.response { kind, sequence := sink.responseSequence, item, content, output }] }

/-- `response_event_emit` to a client that takes every event. -/
def responseEventEmit (id : Bytes) (result : GenerationResult) (outputIndex : Nat) (delta :
    Bytes) : Except Rejection HttpSink := do
  let content ← eventContent kind result outputIndex delta
  return sink.write kind (eventItem kind id result outputIndex) content (eventOutput kind id result)

def contentPartStart (call : Bool) (outputIndex : Nat) (sink : HttpSink) :
    Except Rejection HttpSink :=
  if call then .ok sink else responseEventEmit sink .contentPartAdded id result outputIndex []

def itemStart (call : Bool) (outputIndex : Nat) (sink : HttpSink) : Except Rejection HttpSink :=
  if sink.responseItemMask.testBit outputIndex then .ok sink
  else do
    let added ← responseEventEmit sink .outputItemAdded id result outputIndex []
    let started ← contentPartStart id result call outputIndex added
    return { started with responseItemMask := started.responseItemMask ||| 2 ^ outputIndex }

def itemDelta (call : Bool) (outputIndex : Nat) (sink : HttpSink) (delta : Bytes) :
    Except Rejection HttpSink := do
  let started ← itemStart id result call outputIndex sink
  responseEventEmit started (if call then .functionArgumentsDelta else .outputTextDelta) id result
    outputIndex delta

def generationFragmentEmit (fragment : Fragment) (result : GenerationResult) (toolIndex : Nat)
    (sink : HttpSink) (delta : Bytes) : Except Rejection HttpSink :=
  match sink.endpoint with
  | .chat =>
    .ok { sink with
      events := sink.events ++ [.chunk fragment.outputKind toolIndex fragment.toolCallId delta] }
  | .responses =>
    match fragment.outputKind with
    | .explicitReasoning => responseEventEmit sink .reasoningDelta id result 0 delta
    | .functionCall => itemDelta id result true (result.firstTool + toolIndex) sink delta
    | _ => itemDelta id result false 0 sink delta

def resultAppend (bytes fragment : Bytes) : Except Rejection Bytes :=
  if contentMaxBytes - fragment.length < bytes.length then .error ⟨.bounds, ""⟩
  else .ok (bytes ++ fragment)

/-- `generation_tool_call`: the index of a call, which is added when it is new. -/
def generationToolCall (calls : List GenerationToolCall) (fragment : Fragment) :
    Except Rejection (Nat × List GenerationToolCall) :=
  if fragment.toolCallId.isEmpty || fragment.toolName.isEmpty then
    .error ⟨.format, "typed tool fragments require call and function identities"⟩
  else
    match calls.findIdx? fun call => call.callId == fragment.toolCallId with
    | some index =>
      if (calls[index]?.map GenerationToolCall.name) = some fragment.toolName then
        .ok (index, calls)
      else .error ⟨.format, "one tool-call identity changed function name"⟩
    | none =>
      if toolsMax ≤ calls.length then
        .error ⟨.bounds, "tool-call result exceeds provider capacity"⟩
      else
        .ok (calls.length, calls ++ [⟨fragment.toolCallId, fragment.toolName, ⟨[], 0⟩⟩])

inductive ChannelName where
  | text
  | reasoning
  | call (index : Nat)

def GenerationResult.channel : ChannelName → Channel
  | .text => result.text
  | .reasoning => result.reasoning
  | .call index => (result.toolCalls[index]?.map GenerationToolCall.arguments).getD ⟨[], 0⟩

def GenerationResult.setChannel (channel : Channel) : ChannelName → GenerationResult
  | .text => { result with text := channel }
  | .reasoning => { result with reasoning := channel }
  | .call index =>
    { result with
      toolCalls := result.toolCalls.modify index fun call => { call with arguments := channel } }

def selectChannel (fragment : Fragment) : Except Rejection (ChannelName × Nat × GenerationResult) :=
  match fragment.outputKind with
  | .functionCall => do
    let (index, toolCalls) ← generationToolCall result.toolCalls fragment
    return (.call index, index, { result with toolCalls })
  | .explicitReasoning => .ok (.reasoning, 0, result)
  | _ => .ok (.text, 0, result)

/-- The loop that cuts complete code points into deltas that fit a message. -/
def deltas : Nat → Bytes → Nat → Except Rejection (List Bytes)
  | _, _, 0 => .ok []
  | 0, _, _ + 1 => .error ⟨.state, ""⟩
  | fuel + 1, pending, count + 1 =>
    match Utf8.utf8Prefix (pending.take (min (count + 1) fragmentCap)) with
    | none | some 0 => .error ⟨.state, ""⟩
    | some (width + 1) => do
      let others ← deltas fuel (pending.drop (width + 1)) (count - width)
      return pending.take (width + 1) :: others

def streamedDeltas (stream : Bool) (pending : Bytes) (count : Nat) : Except Rejection (List Bytes) :=
  if stream then deltas count pending count else .ok []

def generationFragmentAppend (state : HttpSink × GenerationResult) (fragment : Fragment) :
    Except Rejection (HttpSink × GenerationResult) := do
  let (name, toolIndex, result) ← selectChannel state.2 fragment
  let channel := result.channel name
  let bytes ← resultAppend channel.bytes fragment.bytes
  let pending := bytes.drop channel.validated
  let count ← orReject (Utf8.utf8Prefix pending) .format "runtime output contains malformed UTF-8"
  let appended := result.setChannel { channel with bytes } name
  let pieces ← streamedDeltas state.1.stream pending count
  let sink ← pieces.foldlM (generationFragmentEmit id fragment appended toolIndex) state.1
  return (sink, appended.setChannel ⟨bytes, channel.validated + count⟩ name)

/-- The end of a turn in `generation_message`. -/
def generationComplete (finish : FinishClass) : Except Rejection GenerationResult := do
  let whole (channel : Channel) : Bool := channel.validated == channel.bytes.length
  require (result.toolCalls.all (fun call => whole call.arguments) && whole result.text &&
    whole result.reasoning) .format "runtime output ends within a UTF-8 scalar"
  return { result with finish, complete := true }

variable (fragments : List Fragment)

/-- The fragments that `generation_execute` receives. -/
def generationFragments (state : HttpSink × GenerationResult) :
    Except Rejection (HttpSink × GenerationResult) :=
  fragments.foldlM (generationFragmentAppend id) state

variable (finish : FinishClass)

def generationExecute : Except Rejection (HttpSink × GenerationResult) := do
  let state ← generationFragments id fragments (sink, .empty)
  let result ← generationComplete state.2 finish
  return (state.1, result)

def toolTerminalEmit (index : Nat) : Except Rejection HttpSink := do
  let done ← responseEventEmit sink .functionArgumentsDone id result (result.firstTool + index) []
  responseEventEmit done .outputItemDone id result (result.firstTool + index) []

def messageTerminalEmit : Except Rejection HttpSink :=
  if !result.text.bytes.isEmpty || result.toolCalls.isEmpty then do
    let textDone ← responseEventEmit sink .outputTextDone id result 0 []
    let partDone ← responseEventEmit textDone .contentPartDone id result 0 []
    responseEventEmit partDone .outputItemDone id result 0 []
  else .ok sink

def reasoningTerminalEmit : Except Rejection HttpSink :=
  if result.reasoning.bytes.isEmpty then .ok sink
  else responseEventEmit sink .reasoningDone id result 0 []

def responseTerminalEmit : Except Rejection HttpSink := do
  let reasoned ← reasoningTerminalEmit id result sink
  let spoken ← messageTerminalEmit id result reasoned
  let called ← (List.range result.toolCalls.length).foldlM (toolTerminalEmit id result) spoken
  responseEventEmit called (if result.finish = .length then .incomplete else .completed) id result
    0 []

def emptyMessageEmit : Except Rejection HttpSink :=
  if sink.responseItemMask = 0 ∧ result.toolCalls.isEmpty then do
    let added ← responseEventEmit sink .outputItemAdded id result 0 []
    let started ← responseEventEmit added .contentPartAdded id result 0 []
    return { started with responseItemMask := 1 }
  else .ok sink

def responseStreamComplete : Except Rejection HttpSink := do
  let ready ← emptyMessageEmit id result sink
  responseTerminalEmit id result ready

def responseSink : HttpSink := ⟨.responses, true, 0, 0, []⟩

def responseStream : Except Rejection HttpSink := do
  let created ← responseEventEmit responseSink .created id .empty 0 []
  let (sink, result) ← generationExecute id created fragments finish
  responseStreamComplete id result sink

end Yvex.Server.OpenAi
