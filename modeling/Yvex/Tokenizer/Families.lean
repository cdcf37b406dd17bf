import Yvex.Core.JsonValue
import Yvex.Provider.RequestCodec
import Yvex.Tokenizer.Conversation

namespace Yvex.Tokenizer

/-! # The conversation protocol of a family -/

def utf8 (literal : String) : Bytes := literal.toList.flatMap fun letter => Json.encode letter.toNat

def text (literal : String) : CString := CString.ofBytes (utf8 literal)

def qwenConversation : ConversationProtocol where
  bos := text ""
  eos := text "<|im_end|>"
  thinkingStart := text "<think>"
  thinkingEndPrefix := text "\n"
  thinkingEnd := text "</think>"
  thinkingEndSuffix := text "\n\n"
  dsml := text "<tool_call>"
  toolCallsStart := text ""
  toolCallsEnd := text ""
  toolInvokeStart := text "<tool_call>\n<function="
  toolInvokeNameEnd := text ">\n"
  toolInvokeEnd := text "</function>\n</tool_call>"
  toolParameterStart := text "<parameter="
  toolParameterNameEnd := text ">\n"
  toolParameterKindEnd := text ""
  toolParameterEnd := text "\n</parameter>\n"
  toolGrammar := .xmlElements
  defaultReasoningPolicy := .maximum

def fullTokenizer (conversation : ConversationProtocol) : ConversationTokenizer where
  planSealed := true
  promptConversation := true
  conversationAdmitted := true
  explicitReasoningSupported := true
  maximumReasoningSupported := true
  lowReasoningSupported := true
  conversation := conversation

/-- A sealed request that offers the function `f` without parameters. -/
def toolRequest : Provider.ProviderRequest :=
  { Provider.sealedSample 4 0 1 with
    tools := [⟨text "f", [], utf8 "\x7b\x7d", 0, 0, 0⟩] }

end Yvex.Tokenizer
