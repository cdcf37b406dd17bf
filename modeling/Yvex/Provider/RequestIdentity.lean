import Mathlib.Data.List.Basic
import Yvex.Provider.RequestCodec

namespace Yvex.Provider

open List

/-! # What a request identity stands for

The bytes that are hashed into the identity of a request determine every member that the wire form
of its schema carries. Every member is written behind its length or with a fixed length, so the
members are read off one after the other, and the schema that comes first says which of them
follow. -/

theorem delimited_hashText (small : capacity ≤ 256 ^ 8) :
    Delimited (fun text : CString => text.bytes.length < capacity) hashText := by
  have counts : Delimited (· < 256 ^ 8) (fun length => (bigEndian 8 length).reverse) := by
    apply Delimited.of_length 8
    · intro length
      rw [length_reverse, length_bigEndian]
    · intro first second small small' equal
      exact (reads_number 8).delimited.injective small small' (reverse_injective equal)
  apply counts.counted.coded CString.bytes
  · exact fun text short => lt_of_lt_of_le short small
  · exact fun first second equal => CString.ext equal

theorem delimited_hashSpan {maximum : Nat} (small : maximum < 256 ^ 8) :
    Delimited (fun bytes => bytes.length ≤ maximum) hashSpan :=
  (reads_number 8).delimited.counted.mono fun _ short => lt_of_le_of_lt short small

theorem delimited_hashInt : Delimited (fun _ => True) hashInt := by
  apply reads_u64.delimited.coded (fun value : Int32 => value.toInt64.toUInt64)
  · exact fun value given => given
  intro first second equal
  have same : first.toInt64 = second.toInt64 := congrArg Int64.ofUInt64 equal
  have wide := congrArg Int64.toInt same
  rw [Int32.toInt_toInt64, Int32.toInt_toInt64] at wide
  exact Int32.toInt_inj.mp wide

theorem delimited_flag : Delimited (fun flag => flagValid flag = true) hashInt :=
  delimited_hashInt.mono fun _ _ => trivial

variable {α : Type}

theorem delimited_hashCode (injective : Function.Injective code) :
    Delimited (fun _ => True) (fun value => hashCode (code value)) := by
  apply reads_u64.delimited.coded (fun value => (code value).toUInt64)
  · exact fun value given => given
  · exact fun first second equal => injective (UInt32.toUInt64_inj.mp equal)

theorem delimited_hashList {hash : α → Bytes} {maximum : Nat} (small : maximum < 256 ^ 4)
    (elements : Delimited legal hash) :
    Delimited (fun values => values.length ≤ maximum ∧ ∀ value ∈ values, legal value)
      (hashList hash) := by
  apply ((reads_number 8).delimited.listed elements).mono
  intro values given
  exact ⟨lt_of_le_of_lt given.1 (lt_trans small (by decide)), given.2⟩

theorem delimited_id : Delimited (fun text => text.bytes.length < idCap) hashText :=
  delimited_hashText (by decide)

theorem delimited_name : Delimited (fun text => text.bytes.length < toolNameCap) hashText :=
  delimited_hashText (by decide)

theorem delimited_schemaText : Delimited (fun span => span.length ≤ maxToolSchemaBytes) hashSpan :=
  delimited_hashSpan (by decide)

theorem delimited_messageText : Delimited (fun span => span.length ≤ maxMessageBytes) hashSpan :=
  delimited_hashSpan (by decide)

theorem codes_injective : Function.Injective Role.code ∧ Function.Injective ToolChoiceKind.code ∧
      Function.Injective ResponseFormat.code ∧ Function.Injective ReasoningPolicy.code ∧
      Function.Injective ReasoningHistoryPolicy.code := by
  refine ⟨?_, ?_, ?_, ?_, ?_⟩
  all_goals
    intro first second equal
    cases first <;> cases second <;> first | rfl | cases equal

theorem delimited_toolCall : Delimited ToolCall.Fits ToolCall.stream := by
  intro first second rest rest' good good' equal
  simp only [ToolCall.stream, append_assoc] at equal
  obtain ⟨callId, equal⟩ := delimited_id good.1 good'.1 equal
  obtain ⟨name, equal⟩ := delimited_name good.2.1 good'.2.1 equal
  obtain ⟨argumentsJson, behind⟩ := delimited_schemaText good.2.2 good'.2.2 equal
  cases first
  cases second
  simp only [ToolCall.mk.injEq]
  exact ⟨⟨callId, name, argumentsJson⟩, behind⟩

variable (schemaVersion : UInt32)

theorem delimited_message :
    Delimited (Message.Fits schemaVersion) (Message.stream schemaVersion) := by
  have calls : Delimited (fun calls : List ToolCall =>
      calls.length ≤ maxCalls schemaVersion ∧ ∀ call ∈ calls, call.Fits)
      (hashList ToolCall.stream) :=
    delimited_hashList (maxCalls_lt schemaVersion) delimited_toolCall
  intro first second rest rest' good good' equal
  simp only [Message.Fits, bne_iff_ne, ite_not] at good good'
  simp only [Message.stream, append_assoc] at equal
  obtain ⟨role, equal⟩ := delimited_hashCode codes_injective.1 trivial trivial equal
  obtain ⟨content, equal⟩ := delimited_messageText good.1 good'.1 equal
  obtain ⟨reasoning, equal⟩ :=
    delimited_messageText.omitted (schemaVersion = 1) [] good.2.1 good'.2.1 equal
  obtain ⟨toolCallId, equal⟩ := delimited_id good.2.2.1 good'.2.2.1 equal
  obtain ⟨toolCalls, behind⟩ := calls good.2.2.2 good'.2.2.2 equal
  cases first
  cases second
  simp only [Message.mk.injEq]
  exact ⟨⟨role, content, reasoning, toolCallId, toolCalls⟩, behind⟩

theorem omitted_append (absent : Prop) [Decidable absent] (first second : Bytes) :
    (if absent then [] else first ++ second) =
      (if absent then [] else first) ++ (if absent then [] else second) := by
  split <;> rfl

theorem delimited_tool :
    Delimited (FunctionTool.Fits schemaVersion) (FunctionTool.stream schemaVersion) := by
  have presence := delimited_flag.omitted (schemaVersion = 1) 0
  intro first second rest rest' good good' equal
  simp only [FunctionTool.Fits, bne_iff_ne, ite_not] at good good'
  simp only [FunctionTool.stream, omitted_append, append_assoc] at equal
  obtain ⟨name, equal⟩ := delimited_name good.1 good'.1 equal
  obtain ⟨description, equal⟩ := delimited_messageText good.2.1 good'.2.1 equal
  obtain ⟨parametersJson, equal⟩ := delimited_schemaText good.2.2.1 good'.2.2.1 equal
  obtain ⟨described, equal⟩ := presence good.2.2.2.2.1 good'.2.2.2.2.1 equal
  obtain ⟨restricted, equal⟩ := presence good.2.2.2.2.2 good'.2.2.2.2.2 equal
  obtain ⟨strict, behind⟩ := delimited_hashInt trivial trivial equal
  cases first
  cases second
  simp only [FunctionTool.mk.injEq]
  exact ⟨⟨name, description, parametersJson, described, strict, restricted⟩, behind⟩

theorem delimited_sampling : Delimited (fun _ => True) Sampling.stream := by
  intro first second rest rest' good good' equal
  obtain ⟨stochastic, equal⟩ := delimited_hashInt trivial trivial equal
  obtain ⟨seedPresent, equal⟩ := delimited_hashInt trivial trivial equal
  obtain ⟨seed, equal⟩ := reads_u64.delimited trivial trivial equal
  obtain ⟨topK, equal⟩ := reads_u64.delimited trivial trivial equal
  obtain ⟨temperature, equal⟩ := reads_double.delimited trivial trivial equal
  obtain ⟨topP, equal⟩ := reads_double.delimited trivial trivial equal
  obtain ⟨minP, equal⟩ := reads_double.delimited trivial trivial equal
  obtain ⟨typicalP, behind⟩ := reads_double.delimited trivial trivial equal
  cases first
  cases second
  simp only [Sampling.mk.injEq]
  exact ⟨⟨stochastic, seedPresent, seed, topK, temperature, topP, minP, typicalP⟩, behind⟩

theorem requestLabel_short : (requestLabel schemaVersion).bytes.length < idCap := by
  unfold requestLabel
  split_ifs <;> decide

variable {first second : ProviderRequest}

theorem identityStream_injective (good : first.Fits) (good' : second.Fits)
    (unsigned : first.requestIdentity = second.requestIdentity)
    (equal : first.identityStream = second.identityStream) : first = second := by
  delta ProviderRequest.identityStream at equal
  replace equal := congrArg (· ++ []) equal
  simp only [omitted_append, append_assoc] at equal
  obtain ⟨-, equal⟩ := delimited_id (requestLabel_short _) (requestLabel_short _) equal
  obtain ⟨version, equal⟩ := delimited_hashCode Function.injective_id trivial trivial equal
  rw [← version] at equal
  have policies : Delimited (ReasoningPolicy.Allowed first.schemaVersion)
      (fun policy => hashCode policy.code) :=
    (delimited_hashCode codes_injective.2.2.2.1).mono fun _ _ => trivial
  have histories := (delimited_hashCode codes_injective.2.2.2.2).omitted
    (¬first.schemaVersion = 4) .sourceDefault
  simp only [ite_not] at histories
  simp only [ProviderRequest.Fits, ← version, bne_iff_ne, ite_not, beq_iff_eq] at good good'
  obtain ⟨model, messages, tools, stops, choice, policy, thinking, history, -, -, adapter,
    previous, correlation, -, unsealed⟩ := good
  obtain ⟨model', messages', tools', stops', choice', policy', thinking', history', -, -, adapter',
    previous', correlation', -, unsealed'⟩ := good'
  obtain ⟨model, equal⟩ := delimited_hashText (by decide) model model' equal
  obtain ⟨messages, equal⟩ :=
    delimited_hashList (by decide) (delimited_message first.schemaVersion) messages messages' equal
  obtain ⟨tools, equal⟩ :=
    delimited_hashList (by decide) (delimited_tool first.schemaVersion) tools tools' equal
  obtain ⟨stops, equal⟩ :=
    delimited_hashList (by decide) (delimited_hashSpan (by decide)) stops stops' equal
  obtain ⟨kind, equal⟩ := delimited_hashCode codes_injective.2.1 trivial trivial equal
  obtain ⟨name, equal⟩ := delimited_name choice.1 choice'.1 equal
  obtain ⟨parallel, equal⟩ := delimited_hashInt trivial trivial equal
  obtain ⟨format, equal⟩ := delimited_hashCode codes_injective.2.2.1 trivial trivial equal
  obtain ⟨policy, equal⟩ :=
    policies.omitted (first.schemaVersion = 1) .disabled policy policy' equal
  obtain ⟨thinking, equal⟩ :=
    delimited_flag.omitted (first.schemaVersion = 1) 1 thinking thinking' equal
  obtain ⟨history, equal⟩ := histories history history' equal
  obtain ⟨sampling, equal⟩ := delimited_sampling trivial trivial equal
  obtain ⟨maximum, equal⟩ := reads_u64.delimited trivial trivial equal
  obtain ⟨stream, equal⟩ := delimited_hashInt trivial trivial equal
  obtain ⟨usage, equal⟩ := delimited_hashInt trivial trivial equal
  obtain ⟨adapter, equal⟩ := delimited_hashText (by decide) adapter adapter' equal
  obtain ⟨previous, equal⟩ := delimited_id previous previous' equal
  obtain ⟨correlation, -⟩ := delimited_id correlation correlation' equal
  have choice : first.toolChoice = second.toolChoice := by
    cases firstChoice : first.toolChoice
    cases secondChoice : second.toolChoice
    simp only [firstChoice, secondChoice] at kind name parallel
    rw [kind, name, parallel]
  cases first
  cases second
  simp only [ProviderRequest.mk.injEq]
  exact ⟨version, model, messages, tools, stops, choice, format, policy, history, sampling, maximum,
    stream, usage, thinking, adapter, previous, correlation, unsigned,
    unsealed.trans unsealed'.symm⟩

theorem identityStream_eq_iff (valid : first.Valid) (valid' : second.Valid)
    (terminated : first.terminated = true) (terminated' : second.terminated = true) :
    first.identityStream = second.identityStream ↔ first.carried = second.carried := by
  have empty : (CString.ofBytes []).bytes.length < idCap := by decide
  constructor
  · intro equal
    have good := valid.fits terminated empty
    have good' := valid'.fits terminated' empty
    rw [← first.identityStream_received (CString.ofBytes []) false,
      ← second.identityStream_received (CString.ofBytes []) false] at equal
    exact identityStream_injective good good' rfl equal
  intro equal
  have same : first.received (CString.ofBytes []) false =
      second.received (CString.ofBytes []) false := by
    rw [ProviderRequest.received, ProviderRequest.received, equal]
  rw [← first.identityStream_received (CString.ofBytes []) false, same,
    second.identityStream_received]

theorem requestIdentity_eq_iff [Sha256Hex] {first second whole whole' : ProviderRequest}
    (accepted : requestSeal first = .ok whole) (accepted' : requestSeal second = .ok whole')
    (terminated : whole.terminated = true) (terminated' : whole'.terminated = true) :
    (whole.identityStream = whole'.identityStream ↔ whole.carried = whole'.carried) ∧
      ((Sha256Hex.digest whole.identityStream = Sha256Hex.digest whole'.identityStream →
          whole.identityStream = whole'.identityStream) →
        (whole.requestIdentity = whole'.requestIdentity ↔ whole.carried = whole'.carried)) := by
  obtain ⟨valid, -, signed⟩ := requestSeal_sealed accepted
  obtain ⟨valid', -, signed'⟩ := requestSeal_sealed accepted'
  have streams := identityStream_eq_iff valid valid' terminated terminated'
  refine ⟨streams, fun free => ?_⟩
  rw [signed, signed', ← streams]
  exact ⟨free, fun equal => congrArg Sha256Hex.digest equal⟩

/-- Two requests of the first schema that differ in a member which it does not carry. -/
theorem requestIdentity_eq_iff_uncarried :
    (sealedSample 1 0 0).requestIdentity = (sealedSample 1 0 1).requestIdentity ↔
      (sealedSample 1 0 0).carried = (sealedSample 1 0 1).carried :=
  (@requestIdentity_eq_iff zeroDigest (sampleRequest 1 0 0) (sampleRequest 1 0 1) _ _
    (by decide +kernel) (by decide +kernel) (by decide) (by decide)).2
    (fun _ => by decide +kernel)

end Yvex.Provider
