import Yvex.Core.Utf8
import Yvex.Foundation.Stream
import Yvex.Provider.Request

namespace Yvex.Tokenizer

open Yvex.Except List

/-! # Conversation protocols

A tokenizer family fixes the texts that a model writes around its reasoning and its tool calls.
The completion of a turn is split along these texts. -/

open Provider (ReasoningPolicy)

inductive ToolGrammar where
  | typedAttributes
  | xmlElements
deriving DecidableEq

/-- The members of `yvex_conversation_protocol` that completions are read and written with. -/
structure ConversationProtocol where
  bos : CString
  eos : CString
  thinkingStart : CString
  thinkingEndPrefix : CString
  thinkingEnd : CString
  thinkingEndSuffix : CString
  dsml : CString
  toolCallsStart : CString
  toolCallsEnd : CString
  toolInvokeStart : CString
  toolInvokeNameEnd : CString
  toolInvokeEnd : CString
  toolParameterStart : CString
  toolParameterNameEnd : CString
  toolParameterKindEnd : CString
  toolParameterEnd : CString
  toolGrammar : ToolGrammar
  defaultReasoningPolicy : ReasoningPolicy

/-- What `yvex_tokenizer` says about conversations. -/
structure ConversationTokenizer where
  planSealed : Bool
  promptConversation : Bool
  conversationAdmitted : Bool
  explicitReasoningSupported : Bool
  maximumReasoningSupported : Bool
  lowReasoningSupported : Bool
  conversation : ConversationProtocol

/-- `find_bytes`: where a marker comes first. An empty marker is nowhere. -/
def findBytes (bytes : Bytes) (marker : CString) : Option Nat :=
  if marker.isEmpty then none else occurrence marker.bytes bytes

def contains (bytes : Bytes) (marker : CString) : Bool := (findBytes bytes marker).isSome

def reasoningDelimiterCap : Nat := 64

variable (protocol : ConversationProtocol)

def ConversationProtocol.delimiterParts : List CString :=
  [protocol.thinkingEndPrefix, protocol.thinkingEnd, protocol.thinkingEndSuffix]

def joinParts (capacity : Nat) : Bytes → List CString → Option Bytes
  | joined, [] => some joined
  | joined, part :: parts =>
    if part.bytes.length ≤ capacity - joined.length then
      joinParts capacity (joined ++ part.bytes) parts
    else none

def ConversationProtocol.delimiter : Bytes := protocol.delimiterParts.flatMap CString.bytes

theorem joinParts_eq (fits : joined.length ≤ capacity) : joinParts capacity joined parts =
      if (joined ++ parts.flatMap CString.bytes).length ≤ capacity
      then some (joined ++ parts.flatMap CString.bytes) else none := by
  induction parts generalizing joined with
  | nil => simp [joinParts, fits]
  | cons part parts induction => ?_
  rw [joinParts, flatMap_cons]
  split
  · rename_i room
    rw [induction (by rw [length_append]; omega), append_assoc]
  rename_i full
  rw [if_neg]
  rw [length_append, length_append]
  omega

theorem joinParts_delimiter : joinParts reasoningDelimiterCap [] protocol.delimiterParts =
      if protocol.delimiter.length ≤ reasoningDelimiterCap then some protocol.delimiter
      else none :=
  joinParts_eq (Nat.zero_le _)

structure OutputView where
  reasoning : Bytes
  final : Bytes
deriving DecidableEq

def ConversationProtocol.resolve (policy : ReasoningPolicy) : ReasoningPolicy :=
  if policy = .sourceDefault then protocol.defaultReasoningPolicy else policy

/-- `conversation_output_parse` in front of its check of the control markers. -/
def conversationOutputSelect (tokenizer : ConversationTokenizer) (policy : ReasoningPolicy)
    (bytes : Bytes) : Except Rejection OutputView := do
  require (tokenizer.planSealed && tokenizer.conversationAdmitted && Utf8.valid bytes)
    .invalidArgument "admitted policy and valid completion bytes are required"
  let policy := tokenizer.conversation.resolve policy
  require policy.valid .unsupported "source-default reasoning policy cannot be resolved"
  if policy = .disabled then return ⟨[], bytes⟩
  let delimiter ← orReject
    (joinParts reasoningDelimiterCap [] tokenizer.conversation.delimiterParts) .bounds
    "source reasoning delimiter exceeds parser capacity"
  let position ← orReject (if delimiter.isEmpty then none else occurrence delimiter bytes) .format
    "thinking completion is missing its source delimiter"
  return ⟨bytes.take position, bytes.drop (position + delimiter.length)⟩

def completionSpecialValid (view : OutputView) : Bool := !contains view.reasoning protocol.dsml &&
    [protocol.bos, protocol.eos, protocol.thinkingStart, protocol.thinkingEnd].all fun marker =>
      !contains view.reasoning marker && !contains view.final marker

def conversationOutputParse (tokenizer : ConversationTokenizer) (policy : ReasoningPolicy)
    (bytes : Bytes) : Except Rejection OutputView := do
  let view ← conversationOutputSelect tokenizer policy bytes
  require (completionSpecialValid tokenizer.conversation view) .format
    "completion contains a source control token in content"
  return view

def ConversationProtocol.boundary (policy : ReasoningPolicy) : Bytes :=
  if protocol.resolve policy = .disabled then [] else protocol.delimiter

theorem conversationOutputSelect_ok
    (selected : conversationOutputSelect tokenizer policy bytes = .ok view) :
    bytes = view.reasoning ++ tokenizer.conversation.boundary policy ++ view.final := by
  replace selected := behind (behind selected)
  rw [ConversationProtocol.boundary]
  split at selected
  · rename_i disabled
    cases selected
    rw [if_pos disabled]
    rfl
  rename_i enabled
  rw [if_neg enabled]
  obtain ⟨delimiter, joined, selected⟩ := bind_eq_ok.mp selected
  obtain ⟨position, found, same⟩ := bind_eq_ok.mp selected
  cases same
  rw [joinParts_delimiter] at joined
  split at joined
  · cases joined
    have found := orReject_eq_ok.mp found
    split at found
    · cases found
    obtain ⟨rest, split⟩ := (occurrence_begins found).1
    rw [← drop_drop, ← split, drop_left, append_assoc, split, take_append_drop]
  · cases joined

theorem contains_of_append {bytes more : Bytes} {marker : CString}
    (found : contains bytes marker = true) : contains (bytes ++ more) marker = true := by
  rw [contains, findBytes] at found ⊢
  split at found
  · cases found
  rename_i present
  obtain ⟨position, here⟩ := Option.isSome_iff_exists.mp found
  rw [if_neg present, occurrence_append here]
  rfl

end Yvex.Tokenizer
