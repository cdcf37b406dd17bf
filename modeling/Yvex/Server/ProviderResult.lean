import Yvex.Tokenizer.CompletionCalls

namespace Yvex.Server

open List Yvex.Except Option

/-! # The result of a provider turn

The text that a turn generated is cut at the first stop string, put together with the delimiter of
its reasoning, parsed and checked against the request before anything of it is delivered. -/

open Provider (ProviderRequest ReasoningPolicy ToolCall Sha256Hex)
open Tokenizer (ConversationProtocol ConversationTokenizer ProviderResult UnicodeClasses)

section

variable (request : ProviderRequest)

/-- `provider_visible_bytes`, with whether a stop string was found. -/
def providerVisibleBytes (bytes : Bytes) : Nat × Bool :=
  request.stopStrings.foldl (fun found pattern =>
    match occurrence pattern bytes with
    | some offset => (min found.1 offset, true)
    | none => found) (bytes.length, false)

/-- The members of `turn_sink` that say how the generated text was classified. -/
structure TurnSink where
  reasoningBytes : Nat
  finalBytes : Nat
  reasoningControlBytes : Nat
  reasoningActive : Bool
  reasoningBoundarySeen : Bool

/-- `turn_output_geometry` of a turn with reasoning: where the final text begins. -/
def turnOutputGeometry (sink : TurnSink) (generatedBytes : Nat) : Option Nat := do
  let visible ← u64Add sink.reasoningBytes sink.finalBytes
  let raw ← u64Add visible sink.reasoningControlBytes
  ensure (!sink.reasoningActive && sink.reasoningBoundarySeen && raw == generatedBytes)
  u64Add sink.reasoningBytes sink.reasoningControlBytes

def completionText (tokenizer : ConversationTokenizer) (policy : ReasoningPolicy)
    (request : ProviderRequest) (sink : TurnSink) (text : Bytes) : Except Rejection Bytes := do
  let visible := (providerVisibleBytes request text).1
  if policy = .disabled then return text.take visible
  let finalOffset ← orReject (turnOutputGeometry sink text.length) .format
    "typed reasoning channels do not form a complete source output"
  require (decide (finalOffset ≤ visible) && decide (visible - finalOffset ≤ sink.finalBytes))
    .format "typed reasoning channels do not form a complete source output"
  return text.take sink.reasoningBytes ++ tokenizer.conversation.delimiter ++
    (text.drop finalOffset).take (visible - finalOffset)

variable (result : ProviderResult)

/-- The check of `session_provider_result_prepare` on the response format. -/
def responseFormatCheck : Except Rejection Unit :=
  if request.responseFormat = .jsonObject ∧ result.kind = .assistantText then
    Provider.jsonValueValidate result.content false
  else .ok ()

/-- The checks of `session_provider_result_prepare` on the choice of tools. -/
def toolChoiceCheck : Except Rejection Unit := do
  require (!(decide (request.toolChoice.kind = .required ∨ request.toolChoice.kind = .function) &&
      decide (result.kind ≠ .functionCall))) .format
    "required function tool call was not produced"
  require (!(decide (request.toolChoice.kind = .none) && decide (result.kind = .functionCall)))
    .format "function tool call was produced while tools are disabled"
  require (!(decide (request.toolChoice.kind = .function) &&
      decide (result.toolCalls.map ToolCall.name ≠ [request.toolChoice.functionName]))) .format
    "model selected a function other than the required function"

/-- `session_provider_result_prepare` of a provider request, up to the messages it sends. -/
def sessionProviderResultPrepare [UnicodeClasses] [Sha256Hex] (tokenizer : ConversationTokenizer)
    (policy : ReasoningPolicy) (request : ProviderRequest) (sink : TurnSink) (text : Bytes) :
    Except Rejection ProviderResult := do
  let completion ← completionText tokenizer policy request sink text
  let result ← Tokenizer.parseProviderCompletion tokenizer request completion
  responseFormatCheck request result
  toolChoiceCheck request result
  return result

theorem providerVisibleBytes_le (bytes : Bytes) :
    (providerVisibleBytes request bytes).1 ≤ bytes.length ∧
      ∀ stop ∈ request.stopStrings, ∀ position ≤ bytes.length, stop <+: bytes.drop position →
        (providerVisibleBytes request bytes).1 ≤ position := by
  have step : ∀ (stops : List Bytes) (found : Nat × Bool),
      let last := stops.foldl (fun found pattern => match occurrence pattern bytes with
        | some offset => (min found.1 offset, true)
        | none => found) found
      last.1 ≤ found.1 ∧ ∀ stop ∈ stops, ∀ offset, occurrence stop bytes = some offset →
        last.1 ≤ offset := by
    intro stops
    induction stops with
    | nil => exact fun found => ⟨le_rfl, by simp⟩
    | cons stop stops induction => ?_
    intro found
    rw [foldl_cons]
    obtain ⟨below, others⟩ := induction (match occurrence stop bytes with
      | some offset => (min found.1 offset, true)
      | none => found)
    cases here : occurrence stop bytes with
    | none =>
      grind
    | some offset => ?_
    rw [here] at below others
    refine ⟨below.trans (Nat.min_le_left _ _),
      forall_mem_cons.mpr ⟨fun offset' there => ?_, others⟩⟩
    cases here.symm.trans there
    exact below.trans (Nat.min_le_right _ _)
  obtain ⟨below, all⟩ := step request.stopStrings (bytes.length, false)
  refine ⟨below, fun stop member position fits here => ?_⟩
  obtain ⟨first, found⟩ := occurrence_of_begins fits here
  apply (all stop member first found).trans
  by_contra later
  exact (occurrence_begins found).2 position (not_le.mp later) here

end

variable {text : Bytes}

theorem visible_no_stop (visible : part <:+: text.take (providerVisibleBytes request text).1)
    (member : stop ∈ request.stopStrings) (present : stop ≠ []) : ¬ stop <:+: part := by
  intro inside
  obtain ⟨before, behind, whole⟩ := inside.trans visible
  obtain ⟨limit, first⟩ := providerVisibleBytes_le request text
  generalize (providerVisibleBytes request text).1 = count at whole first
  have length := congrArg List.length whole
  rw [length_append, length_append, length_take] at length
  have here : stop <+: text.drop before.length := by
    rw [← take_append_drop count text, ← whole, append_assoc, append_assoc, drop_left]
    exact prefix_append _ _
  have early := first stop member before.length (by omega) here
  have some := length_pos_of_ne_nil present
  omega

/-- The classification of a turn with reasoning: the control bytes of the text are the delimiter. -/
def TurnSink.Splits (sink : TurnSink) (protocol : ConversationProtocol) (text : Bytes) : Prop :=
  text = text.take sink.reasoningBytes ++ protocol.delimiter ++
    text.drop (sink.reasoningBytes + sink.reasoningControlBytes)

theorem completionText_ok (splits : policy ≠ .disabled → sink.Splits tokenizer.conversation text)
    (made : completionText tokenizer policy request sink text = .ok completion) :
    completion = text.take (providerVisibleBytes request text).1 := by
  have limit := (providerVisibleBytes_le request text).1
  rw [completionText] at made
  generalize (providerVisibleBytes request text).1 = visible at made limit
  split at made
  · cases made
    rfl
  rename_i enabled
  obtain ⟨finalOffset, geometry, made⟩ := bind_eq_ok.mp made
  obtain ⟨_, inside, same⟩ := bind_eq_ok.mp made
  cases same
  have inside := require_eq_ok.mp inside
  rw [Bool.and_eq_true, decide_eq_true_eq] at inside
  obtain ⟨shown, _, geometry⟩ := bind_eq_some_iff.mp (orReject_eq_ok.mp geometry)
  obtain ⟨raw, _, geometry⟩ := bind_eq_some_iff.mp geometry
  obtain ⟨_, _, geometry⟩ := bind_eq_some_iff.mp geometry
  obtain ⟨rfl, -⟩ := u64Add_eq_some.mp geometry
  have whole := splits enabled
  rw [TurnSink.Splits] at whole
  generalize text.take sink.reasoningBytes ++ tokenizer.conversation.delimiter = front at whole
  generalize sink.reasoningBytes + sink.reasoningControlBytes = offset at whole inside
  have length := congrArg List.length whole
  rw [length_append, length_drop] at length
  have size : front.length = offset := by omega
  have shown : text.take visible = (front ++ text.drop offset).take visible :=
    congrArg (List.take visible) whole
  rw [shown, take_append, size, take_of_length_le (l := front) (by omega)]

/-- A text that begins like an object and has no byte that JSON does not know. -/
def opensObject (bytes : Bytes) : Bool :=
  (bytes.dropWhile Provider.isBlank).head? == some Json.Collection.object.opening &&
    !bytes.any Json.isForeign

theorem dropWhile_congr {first second : α → Bool} {items : List α}
    (same : ∀ item ∈ items, first item = second item) :
    items.dropWhile first = items.dropWhile second := by
  induction items with
  | nil => rfl
  | cons item items induction =>
    obtain ⟨here, others⟩ := forall_mem_cons.mp same
    rw [dropWhile_cons, dropWhile_cons, here, induction others]

theorem isSpace_of_not_foreign (known : Json.isForeign byte = false) :
    Json.isSpace byte = Provider.isBlank byte := by
  simp only [Json.isForeign, Bool.or_eq_false_iff, beq_eq_false_iff_ne, ne_eq, ← UInt8.toNat_inj]
    at known
  rw [Bool.eq_iff_iff]
  simp only [Json.isSpace, Provider.isBlank, Bool.or_eq_true, Bool.and_eq_true, beq_iff_eq,
    decide_eq_true_eq, UInt8.le_iff_toNat_le, ← UInt8.toNat_inj]
  simp only [UInt8.reduceToNat] at known ⊢
  omega

theorem readValue_isObject (read : Json.readValue (fuel + 1) input = some (value, rest)) :
    (∃ items, value = .collection .object items) ↔
      (Json.space input).head? = some Json.Collection.object.opening := by
  rw [Json.readValue] at read
  split at read
  · cases read
  rename_i byte behind front
  rw [front, head?_cons, some.injEq]
  split_ifs at read with object
  · obtain ⟨found, _, same⟩ := map_eq_some_iff.mp read
    cases same
    exact iff_of_true ⟨_, rfl⟩ object
  all_goals
    refine iff_of_false (fun isObject => ?_) object
    obtain ⟨items, rfl⟩ := isObject
    obtain ⟨found, _, same⟩ := map_eq_some_iff.mp read
  iterate 5 cases same
  simp only [Json.numberValue, Prod.mk.injEq] at same
  split at same <;> cases same.1

theorem value_isObject (valid : Provider.jsonValueValidate bytes false = .ok ()) :
    (∃ items, Json.value bytes = some (.collection .object items)) ↔ opensObject bytes = true := by
  obtain ⟨value, rest, read, complete⟩ := Tokenizer.readValue_of_jsonValueValidate valid
  rw [opensObject, Bool.and_eq_true, beq_iff_eq, Json.value]
  cases known : bytes.any Json.isForeign with
  | true => simp
  | false => ?_
  have blank : Json.space bytes = bytes.dropWhile Provider.isBlank :=
    dropWhile_congr fun byte member =>
      isSpace_of_not_foreign (by simpa using any_eq_false.mp known byte member)
  rw [← blank, ← readValue_isObject read, read]
  simp [complete]

/-- The constraints of a request on the result of a turn that generated a text. -/
structure Honours [UnicodeClasses] [Sha256Hex] (tokenizer : ConversationTokenizer)
    (request : ProviderRequest) (text : Bytes) (result : ProviderResult) : Prop where
  stops : ∀ stop ∈ request.stopStrings, stop ≠ [] → ¬ stop <:+: result.content
  /-- All of the result is made from bytes in front of the first stop string. -/
  suppressed : ∃ visible ≤ text.length,
    Tokenizer.parseProviderCompletion tokenizer request (text.take visible) = .ok result ∧
    result.content <:+: text.take visible ∧
    ∀ stop ∈ request.stopStrings, ∀ position ≤ text.length, stop <+: text.drop position →
      visible ≤ position
  json : request.responseFormat = .jsonObject → result.kind = .assistantText →
    ∃ items, Json.value result.content = some (.collection .object items)
  required : request.toolChoice.kind = .required → result.toolCalls ≠ []
  none : request.toolChoice.kind = .none → result.toolCalls = []
  function : request.toolChoice.kind = .function →
    result.toolCalls.map ToolCall.name = [request.toolChoice.functionName]

/-- A text that answers a request for a JSON object begins like one, where it is not a call. -/
def AnswersWithObject (tokenizer : ConversationTokenizer) (request : ProviderRequest)
    (text : Bytes) : Prop :=
  request.responseFormat = .jsonObject → ∀ view,
    Tokenizer.conversationOutputSelect tokenizer request.reasoningPolicy
      (text.take (providerVisibleBytes request text).1) = .ok view →
    Tokenizer.findBytes view.final tokenizer.conversation.toolMarker = .none →
    opensObject view.final = true

theorem toolChoiceCheck_ok (checked : toolChoiceCheck request result = .ok ()) :
    (request.toolChoice.kind = .required → result.kind = .functionCall) ∧
      (request.toolChoice.kind = .none → result.kind ≠ .functionCall) ∧
      (request.toolChoice.kind = .function →
        result.toolCalls.map ToolCall.name = [request.toolChoice.functionName]) := by
  obtain ⟨_, required, checked⟩ := bind_eq_ok.mp checked
  obtain ⟨_, none, function⟩ := bind_eq_ok.mp checked
  have required := require_eq_ok.mp required
  have none := require_eq_ok.mp none
  have function := require_eq_ok.mp function
  simp only [Bool.not_and, Bool.or_eq_true, Bool.not_eq_true', decide_eq_false_iff_not, not_not,
    not_or] at required none function
  refine ⟨fun kind => ?_, fun kind => ?_, fun kind => ?_⟩
  · exact required.resolve_left fun other => other.1 kind
  · exact none.resolve_left fun other => other kind
  · exact function.resolve_left fun other => other kind

/-- A prepared result honours its request, except that a JSON object is only asked to be a JSON
value: it is one exactly when the visible text begins like an object. -/
theorem sessionProviderResultPrepare_honours [UnicodeClasses] [Sha256Hex]
    {tokenizer : ConversationTokenizer} {policy : ReasoningPolicy} {request : ProviderRequest}
    {sink : TurnSink} {text : Bytes} {result : ProviderResult}
    (splits : policy ≠ .disabled → sink.Splits tokenizer.conversation text)
    (prepared : sessionProviderResultPrepare tokenizer policy request sink text = .ok result) :
    Honours tokenizer request text result ↔ AnswersWithObject tokenizer request text := by
  obtain ⟨completion, made, prepared⟩ := bind_eq_ok.mp prepared
  cases completionText_ok splits made
  obtain ⟨result', parsed, prepared⟩ := bind_eq_ok.mp prepared
  obtain ⟨_, json, prepared⟩ := bind_eq_ok.mp prepared
  obtain ⟨_, checked, same⟩ := bind_eq_ok.mp prepared
  cases same
  obtain ⟨view, selected, -, -, -, kinds⟩ := Tokenizer.parseProviderCompletion_ok parsed
  obtain ⟨limit, first⟩ := providerVisibleBytes_le request text
  have inside : result.content <:+: text.take (providerVisibleBytes request text).1 := by
    rw [Tokenizer.conversationOutputSelect_ok selected]
    rcases kinds with ⟨position, _, _, _, _, _, content, _⟩ | ⟨_, _, content, _⟩
    · rw [content]
      exact ( take_prefix _ _).isInfix.trans (suffix_append _ _).isInfix
    · rw [content]
      exact (suffix_append _ _).isInfix
  obtain ⟨required, none, function⟩ := toolChoiceCheck_ok checked
  constructor
  · intro honours format other selects absent
    cases selected.symm.trans selects
    rcases kinds with ⟨position, _, _, found, _⟩ | ⟨_, kind, content, _⟩
    · cases absent.symm.trans found
    rw [responseFormatCheck, if_pos ⟨format, kind⟩] at json
    rw [← content]
    exact (value_isObject json).mp (honours.json format kind)
  intro answers
  refine ⟨fun stop member present => visible_no_stop inside member present,
    ⟨_, limit, parsed, inside, first⟩, fun format kind => ?_, fun choice => ?_, fun choice => ?_,
    function⟩
  · rcases kinds with ⟨_, _, _, _, _, other, _⟩ | ⟨absent, _, content, _⟩
    · cases kind.symm.trans other
    rw [responseFormatCheck, if_pos ⟨format, kind⟩] at json
    apply (value_isObject json).mpr
    rw [content]
    exact answers format view selected absent
  · rcases kinds with ⟨_, calls, _, _, block, _, _, records⟩ | ⟨_, other, _⟩
    · rw [records, Tokenizer.toolCalls, ne_eq, mapIdx_eq_nil_iff]
      exact (Tokenizer.parseCalls_ok block).2.1
    · cases (required choice).symm.trans other
  · grind

def objectRequest : ProviderRequest :=
  { Provider.sealedSample 4 0 1 with responseFormat := .jsonObject }

def objectAnswer (text : Bytes) : Except Rejection ProviderResult :=
  @sessionProviderResultPrepare Tokenizer.blankClasses Provider.zeroDigest
    (Tokenizer.fullTokenizer Tokenizer.qwenConversation) .disabled objectRequest
    ⟨0, text.length, 0, false, false⟩ text

def stoppedRequest : ProviderRequest :=
  { Tokenizer.parameterRequest with responseFormat := .jsonObject, stopStrings := [[33]] }

/-- Behind the reasoning and its delimiter stand an empty object and a stop string. -/
def stoppedText : Bytes := Tokenizer.utf8 "hm\n</think>\n\n\x7b\x7d!more"

theorem sessionProviderResultPrepare_honours_object :
    ∃ result, @sessionProviderResultPrepare Tokenizer.blankClasses Provider.zeroDigest
        (Tokenizer.fullTokenizer Tokenizer.qwenConversation) .maximum stoppedRequest
        ⟨2, 7, 11, false, true⟩ stoppedText = .ok result ∧
      @Honours Tokenizer.blankClasses Provider.zeroDigest
        (Tokenizer.fullTokenizer Tokenizer.qwenConversation) stoppedRequest stoppedText result := by
  have accepted : (@sessionProviderResultPrepare Tokenizer.blankClasses Provider.zeroDigest
      (Tokenizer.fullTokenizer Tokenizer.qwenConversation) .maximum stoppedRequest
      ⟨2, 7, 11, false, true⟩ stoppedText).isOk = true := by decide +kernel
  obtain ⟨result, prepared⟩ := exists_of_isOk accepted
  refine ⟨result, prepared, (@sessionProviderResultPrepare_honours Tokenizer.blankClasses
    Provider.zeroDigest _ .maximum _ _ _ _ (fun _ => ?_) prepared).mpr ?_⟩
  · unfold TurnSink.Splits
    decide +kernel
  intro format view selects absent
  have selected : Tokenizer.conversationOutputSelect
      (Tokenizer.fullTokenizer Tokenizer.qwenConversation) stoppedRequest.reasoningPolicy
      (stoppedText.take (providerVisibleBytes stoppedRequest stoppedText).1) =
        .ok ⟨[104, 109], [123, 125]⟩ := by decide +kernel
  cases selected.symm.trans selects
  decide

/-- A turn whose text is the number five answers the request for an object. -/
theorem sessionProviderResultPrepare_number :
    ∃ result, objectAnswer [53] = .ok result ∧ result.kind = .assistantText ∧
      objectRequest.responseFormat = .jsonObject ∧ Json.value result.content = some (.integer 5) ∧
      ¬ @Honours Tokenizer.blankClasses Provider.zeroDigest
        (Tokenizer.fullTokenizer Tokenizer.qwenConversation) objectRequest [53] result := by
  have prepared : (objectAnswer [53]).map (fun result => (result.kind, result.content)) =
      .ok (.assistantText, [53]) := by decide +kernel
  cases found : objectAnswer [53] with
  | error rejection =>
    rw [found] at prepared
    cases prepared
  | ok result => ?_
  rw [found] at prepared
  simp only [Except.map, Except.ok.injEq, Prod.mk.injEq] at prepared
  obtain ⟨kind, content⟩ := prepared
  have five : Json.value result.content = some (.integer 5) := by
    rw [content]
    decide +kernel
  refine ⟨result, rfl, kind, rfl, five, fun honours => ?_⟩
  obtain ⟨items, object⟩ := @Honours.json Tokenizer.blankClasses Provider.zeroDigest _ _ _ _
    honours rfl kind
  cases five.symm.trans object

end Yvex.Server
