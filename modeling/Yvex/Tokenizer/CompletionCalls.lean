import Yvex.Tokenizer.Completion
import Yvex.Tokenizer.Families

namespace Yvex.Tokenizer

open List Option Yvex.Except

/-! # What a parsed completion says

A block of tool calls can be read without any check, by its markers alone. The calls that the
parser returns are compared with that reading. -/

open Provider (ProviderRequest FunctionTool ToolCall Sha256Hex)

/-! ## Reading a block by its markers -/

def readParameters (protocol : ConversationProtocol) (tool : FunctionTool) :
    Nat → Bytes → Option (List Parameter × Bytes)
  | 0, _ => none
  | fuel + 1, input =>
    if input.isEmpty || startsWith input protocol.toolInvokeEnd then some ([], input)
    else do
      let (name, isString, value) ← (parameterHead protocol tool input).toOption
      let count ← findBytes value protocol.toolParameterEnd
      let (others, rest) ← readParameters protocol tool fuel
        (value.drop (count + protocol.toolParameterEnd.bytes.length))
      return (⟨name, isString, value.take count⟩ :: others, rest)

def readInvoke [UnicodeClasses] (protocol : ConversationProtocol) (request : ProviderRequest)
    (input : Bytes) : Option (BlockCall × Bytes) := do
  let named ← consumeInvokeStart protocol input
  let (name, rest) ← attributeText named protocol.toolInvokeNameEnd Provider.toolNameCap
  let tool ← toolFind request (CString.ofBytes name)
  let (parameters, rest) ← readParameters protocol tool (rest.length + 1)
    (skipEmptyBody protocol rest)
  let after ← consume rest protocol.toolInvokeEnd
  return (⟨name, parameters⟩, after)

def readCalls [UnicodeClasses] (protocol : ConversationProtocol) (request : ProviderRequest) :
    Nat → Bytes → Option (List BlockCall × Bytes)
  | 0, _ => none
  | fuel + 1, input =>
    if input.isEmpty || (decide (protocol.toolGrammar = .typedAttributes) &&
        startsWith input protocol.toolCallsEnd) then some ([], input)
    else do
      let (call, rest) ← readInvoke protocol request input
      let (others, rest) ← match rest with
        | [] => readCalls protocol request fuel []
        | 10 :: rest => readCalls protocol request fuel rest
        | _ => none
      return (call :: others, rest)

def readBlock [UnicodeClasses] (protocol : ConversationProtocol) (request : ProviderRequest)
    (block : Bytes) : Option (List BlockCall) := do
  let inside ← unwrap protocol protocol.toolCallsStart block
  let (calls, rest) ← readCalls protocol request (inside.length + 1) inside
  let after ← unwrap protocol protocol.toolCallsEnd rest
  ensure after.isEmpty
  return calls

/-! ## What the parser takes -/

variable {α : Type}

theorem expect_eq_ok : expect value predicate rest = .ok result ↔ value = some result := by
  cases value <;> simp [expect]

theorem blockExpect_eq_ok :
    blockExpect value predicate begin rest = .ok result ↔ value = some result := by
  cases value <;> simp [blockExpect, blockError]

structure Admitted (parameters : List Parameter) : Prop where
  distinct : parameters.Pairwise fun first second => first.label ≠ second.label
  json : ∀ parameter ∈ parameters, parameter.isString = false →
    Provider.jsonValueValidate parameter.value false = .ok ()

variable {parameters : List Parameter}

theorem parseParameters_ok
    (parsed : parseParameters protocol tool fuel seen input = .ok (parameters, rest))
    (admitted : Admitted seen) : ∃ others, parameters = seen ++ others ∧
      readParameters protocol tool fuel input = some (others, rest) ∧ Admitted parameters := by
  induction fuel generalizing seen input with
  | zero => cases parsed
  | succ fuel induction => ?_
  rw [parseParameters] at parsed
  rw [readParameters]
  split at parsed
  · rename_i closed
    cases parsed
    exact ⟨[], (append_nil _).symm, if_pos closed, admitted⟩
  rename_i unclosed
  obtain ⟨⟨name, isString, value⟩, head, parsed⟩ := bind_eq_ok.mp parsed
  obtain ⟨count, close, parsed⟩ := bind_eq_ok.mp parsed
  obtain ⟨_, fresh, parsed⟩ := bind_eq_ok.mp parsed
  replace parsed := behind parsed
  obtain ⟨_, json, parsed⟩ := bind_eq_ok.mp parsed
  have fresh := ensure_eq_some.mp (expect_eq_ok.mp fresh)
  have json := ensure_eq_some.mp (expect_eq_ok.mp json)
  have extended : Admitted (seen ++ [⟨name, isString, value.take count⟩]) := by
    refine ⟨pairwise_append.mpr ⟨admitted.distinct, pairwise_singleton _ _, ?_⟩, ?_⟩
    · grind
    intro parameter member
    rcases mem_append.mp member with isSeen | isNew
    · exact admitted.json parameter isSeen
    rw [mem_singleton] at isNew
    subst isNew
    intro plain
    dsimp only at plain
    rw [plain] at json
    exact isOk_iff.mp json
  obtain ⟨others, same, read, final⟩ := induction parsed extended
  refine ⟨⟨name, isString, value.take count⟩ :: others, by rw [same, append_assoc]; rfl, ?_, final⟩
  rw [if_neg unclosed, head]
  simp only [Except.toOption, bind_eq_bind, bind_some, expect_eq_ok.mp close, read]
  rfl

theorem parseInvoke_ok [UnicodeClasses]
    (parsed : parseInvoke protocol request input = .ok (call, rest)) :
    readInvoke protocol request input = some (call, rest) ∧ Admitted call.parameters ∧
      Provider.jsonValueValidate (argumentsJson call.parameters) true = .ok () ∧
      ∃ tool ∈ request.tools, tool.name = CString.ofBytes call.name := by
  obtain ⟨named, start, parsed⟩ := bind_eq_ok.mp parsed
  obtain ⟨⟨name, rest₁⟩, title, parsed⟩ := bind_eq_ok.mp parsed
  obtain ⟨tool, offered, parsed⟩ := bind_eq_ok.mp parsed
  obtain ⟨⟨parameters, rest₂⟩, inside, parsed⟩ := bind_eq_ok.mp parsed
  obtain ⟨after, close, parsed⟩ := bind_eq_ok.mp parsed
  obtain ⟨_, json, same⟩ := bind_eq_ok.mp parsed
  cases same
  obtain ⟨others, same, read, admitted⟩ := parseParameters_ok inside ⟨.nil, by simp⟩
  subst same
  have offered := expect_eq_ok.mp offered
  refine ⟨?_, admitted, isOk_iff.mp (ensure_eq_some.mp (expect_eq_ok.mp json)), tool,
    mem_of_find?_eq_some offered, ?_⟩
  · rw [readInvoke, expect_eq_ok.mp start]
    simp only [bind_eq_bind, bind_some, expect_eq_ok.mp title, offered, read, expect_eq_ok.mp close]
    rfl
  · simpa using find?_some offered

structure AdmittedCall (request : ProviderRequest) (call : BlockCall) : Prop where
  parameters : Admitted call.parameters
  arguments : Provider.jsonValueValidate (argumentsJson call.parameters) true = .ok ()
  offered : ∃ tool ∈ request.tools, tool.name = CString.ofBytes call.name

theorem parseCallsLoop_ok [UnicodeClasses]
    (parsed : parseCallsLoop protocol request begin fuel seen input = .ok (calls, rest)) :
    ∃ others, calls = seen ++ others ∧ readCalls protocol request fuel input = some (others, rest) ∧
      ∀ call ∈ others, AdmittedCall request call := by
  induction fuel generalizing seen input with
  | zero => cases parsed
  | succ fuel induction => ?_
  rw [parseCallsLoop] at parsed
  rw [readCalls]
  split at parsed
  · rename_i closed
    cases parsed
    exact ⟨[], (append_nil _).symm, if_pos closed, by simp⟩
  rename_i unclosed
  split at parsed
  · cases parsed
  obtain ⟨⟨call, behind⟩, one, parsed⟩ := bind_eq_ok.mp parsed
  have one : parseInvoke protocol request input = .ok (call, behind) := by
    cases invoke : parseInvoke protocol request input with
    | error departure =>
      rw [invoke] at one
      cases one
    | ok found => ?_
    rw [invoke] at one
    cases one
    rfl
  obtain ⟨read, admitted, arguments, offered⟩ := parseInvoke_ok one
  rw [if_neg unclosed, read]
  simp only [bind_eq_bind]
  dsimp only at parsed
  split at parsed
  all_goals first
    | cases parsed
    | obtain ⟨others, same, reads, all⟩ := induction parsed
      refine ⟨call :: others, by rw [same, append_assoc]; rfl, ?_,
        forall_mem_cons.mpr ⟨⟨admitted, arguments, offered⟩, all⟩⟩
      simp only [reads, bind_some, pure]

theorem parseCalls_ok [UnicodeClasses] (parsed : parseCalls protocol request block = .ok calls) :
    readBlock protocol request block = some calls ∧ calls ≠ [] ∧
      (1 < calls.length → request.toolChoice.parallelCalls ≠ 0) ∧
      ∀ call ∈ calls, AdmittedCall request call := by
  obtain ⟨inside, opened, parsed⟩ := bind_eq_ok.mp parsed
  obtain ⟨⟨found, rest⟩, loop, parsed⟩ := bind_eq_ok.mp parsed
  obtain ⟨_, present, parsed⟩ := bind_eq_ok.mp parsed
  obtain ⟨after, closed, parsed⟩ := bind_eq_ok.mp parsed
  obtain ⟨⟨⟩, ends, parsed⟩ := bind_eq_ok.mp parsed
  obtain ⟨_, parallel, same⟩ := bind_eq_ok.mp parsed
  cases same
  obtain ⟨others, same, reads, all⟩ := parseCallsLoop_ok loop
  subst same
  refine ⟨?_, ?_, fun several => ?_, all⟩
  · rw [readBlock, blockExpect_eq_ok.mp opened]
    simp only [bind_eq_bind, bind_some, reads, blockExpect_eq_ok.mp closed,
      blockExpect_eq_ok.mp ends]
    rfl
  · simpa using ensure_eq_some.mp (blockExpect_eq_ok.mp present)
  · have allowed := require_eq_ok.mp parallel
    rw [decide_eq_false (not_le.mpr several)] at allowed
    simpa using allowed

/-! ## Rendered arguments are JSON -/

theorem content_unicode (plain : Json.isHighSurrogate code = false) (others : List Json.Letter) :
    Json.content (.unicode code :: others) = Json.encode code ++ Json.content others := by
  rcases others with _ | ⟨_ | _ | low, others⟩
  · rfl
  · rfl
  · rfl
  · rw [Json.content, plain, Bool.false_and, if_neg Bool.false_ne_true]

theorem hexDigit_hexLetter (small : digit < 16) : Json.hexDigit (hexLetter digit) = some digit := by
  have all : ∀ digit < 16, Json.hexDigit (hexLetter digit) = some digit := by decide
  exact all digit small

def escapeLetter (byte : UInt8) : Json.Letter :=
  if byte = 34 ∨ byte = 92 ∨ byte = 8 ∨ byte = 12 ∨ byte = 10 ∨ byte = 13 ∨ byte = 9 then
    .escaped byte
  else if byte < 0x20 then .unicode byte.toNat
  else .byte byte

variable {behind : Bytes}

theorem letters_escaped {text : List Json.Letter}
    (escaped : Json.escapedByte escape = some byte) (read :
      Json.letters rest = some (text, behind)) :
    Json.letters (92 :: escape :: rest) = some (.escaped byte :: text, behind) := by
  rw [Json.letters]
  · simp only [escaped, read, bind_eq_bind, bind_some, pure]
  intro a b c d more isUnicode _
  rw [isUnicode] at escaped
  cases escaped

theorem letters_escapeByte {text : List Json.Letter}
    (read : Json.letters rest = some (text, behind)) :
    Json.letters (escapeByte byte ++ rest) = some (escapeLetter byte :: text, behind) := by
  by_cases short : byte = 34 ∨ byte = 92 ∨ byte = 8 ∨ byte = 12 ∨ byte = 10 ∨ byte = 13 ∨ byte = 9
  · rcases short with rfl | rfl | rfl | rfl | rfl | rfl | rfl
    all_goals exact letters_escaped rfl read
  have others := short
  simp only [not_or] at others
  rw [escapeLetter, escapeByte, if_neg (by simp [others.1, others.2.1]),
    if_neg others.2.2.1, if_neg others.2.2.2.1, if_neg others.2.2.2.2.1,
    if_neg others.2.2.2.2.2.1, if_neg others.2.2.2.2.2.2]
  split
  · rename_i control
    have small : byte.toNat < 0x20 := control
    have code : 0 * 4096 + 0 * 256 + byte.toNat / 16 * 16 + byte.toNat % 16 = byte.toNat := by omega
    simp only [cons_append, nil_append]
    rw [Json.letters]
    simp only [hexDigit_hexLetter (show byte.toNat / 16 < 16 by omega),
      hexDigit_hexLetter (show byte.toNat % 16 < 16 by omega),
      show Json.hexDigit 48 = some 0 from rfl, read, bind_eq_bind, bind_some, pure,
      code]
  · rename_i printable
    rw [singleton_append, Json.letters,
      if_neg (show ¬ byte = Json.quote from others.1), if_neg printable]
    · simp only [read, bind_eq_bind, bind_some, pure]
    · exact fun _ _ _ _ _ isEscape _ => others.2.1 isEscape
    · exact fun _ _ isEscape _ => others.2.1 isEscape

theorem content_escapeLetter (byte : UInt8) (text : List Json.Letter) :
    Json.content (escapeLetter byte :: text) = byte :: Json.content text := by
  rw [escapeLetter]
  split_ifs with short control
  · rfl
  · have small : byte.toNat < 0x20 := control
    rw [content_unicode (by simp [Json.isHighSurrogate]; omega), Json.encode, if_pos (by omega),
      UInt8.ofNat_toNat]
    rfl
  · rfl

theorem letters_jsonString (bytes behind : Bytes) :
    ∃ text, Json.letters (bytes.flatMap escapeByte ++ 34 :: behind) = some (text, behind) ∧
      Json.content text = bytes := by
  induction bytes with
  | nil => exact ⟨[], rfl, rfl⟩
  | cons byte bytes induction => ?_
  obtain ⟨text, read, same⟩ := induction
  refine ⟨escapeLetter byte :: text, ?_, ?_⟩
  · rw [flatMap_cons, append_assoc]
    exact letters_escapeByte read
  · rw [content_escapeLetter, same]

def Stands (parameter : Parameter) (value : Json.Value) : Prop :=
  ∃ fuel rest, Json.readValue fuel parameter.valueJson = some (value, rest) ∧
    Json.complete rest = true

variable {parameter : Parameter}

theorem stands_string (isString : parameter.isString = true) :
    Stands parameter (.string parameter.value) := by
  obtain ⟨text, read, same⟩ := letters_jsonString parameter.value []
  refine ⟨1, [], ?_, rfl⟩
  rw [Parameter.valueJson, if_pos isString, jsonString]
  simp only [Json.readValue, cons_append]
  rw [show Json.space (34 :: (parameter.value.flatMap escapeByte ++ [34])) =
    34 :: (parameter.value.flatMap escapeByte ++ [34]) from rfl]
  simp [Json.Collection.opening, Json.quote, read, same]

theorem skip_of_jsonValueValidate (valid : Provider.jsonValueValidate bytes requireObject = .ok ()) :
    ∃ rest, Json.skip bytes = some rest ∧ Json.complete rest = true := by
  replace valid := behind (behind valid)
  have valid := require_eq_ok.mp valid
  cases skipped : Json.skip bytes with
  | none =>
    rw [skipped] at valid
    cases valid
  | some rest =>
    rw [skipped] at valid
    exact ⟨rest, rfl, valid⟩

theorem readValue_of_jsonValueValidate
    (valid : Provider.jsonValueValidate bytes requireObject = .ok ()) :
    ∃ value rest, Json.readValue (2 * bytes.length + 2) bytes = some (value, rest) ∧
      Json.complete rest = true := by
  obtain ⟨rest, skipped, complete⟩ := skip_of_jsonValueValidate valid
  obtain ⟨value, read⟩ := (Json.read_of_skip _).1 _ _ _ skipped
  exact ⟨value, rest, read, complete⟩

theorem Admitted.stands (admitted : Admitted parameters) (member : parameter ∈ parameters) :
    ∃ value, Stands parameter value := by
  cases isString : parameter.isString with
  | true => exact ⟨_, stands_string isString⟩
  | false => ?_
  obtain ⟨value, rest, read, complete⟩ :=
    readValue_of_jsonValueValidate (admitted.json parameter member isString)
  refine ⟨value, 2 * parameter.value.length + 2, rest, ?_, complete⟩
  rw [Parameter.valueJson, isString]
  exact read

theorem membersJson_ends (parameters : List Parameter) :
    Json.Ends (membersJson false parameters) := by
  cases parameters with
  | nil =>
    intro byte first
    cases first
    decide
  | cons parameter parameters => ?_
  intro byte first
  cases first
  decide

theorem readItems_membersJson (stands : ∀ parameter ∈ parameters, ∃ value, Stands parameter value)
    (count : Nat) :
    ∃ members fuel, Json.readItems fuel .object count (membersJson (count == 0) parameters) =
        some (Json.Items.ofList members, []) ∧
      List.Forall₂ (fun parameter (member : Bytes × Json.Value) =>
        member.1 = parameter.label.bytes ∧ Stands parameter member.2) parameters members := by
  induction parameters generalizing count with
  | nil =>
    refine ⟨[], 1, ?_, .nil⟩
    rfl
  | cons parameter parameters induction => ?_
  obtain ⟨value, fuel, rest, read, complete⟩ := stands parameter (mem_cons_self ..)
  obtain ⟨members, more, reads, all⟩ := induction
    (fun other member => stands other (mem_cons_of_mem _ member)) (count + 1)
  obtain ⟨text, letters, same⟩ := letters_jsonString parameter.label.bytes
    ([58, 32] ++ (parameter.valueJson ++ membersJson false parameters))
  generalize tail : parameter.valueJson ++ membersJson false parameters = rendered
    at letters
  have shape : ∀ first, membersJson first (parameter :: parameters) =
      (if first then [] else [44, 32]) ++
        34 :: (parameter.label.bytes.flatMap escapeByte ++ 34 :: ([58, 32] ++ rendered)) := by
    simp [membersJson, jsonString, ← tail]
  have front : Json.iterAdvance .object count
      (membersJson (count == 0) (parameter :: parameters)) =
      .ready (34 :: (parameter.label.bytes.flatMap escapeByte ++
        34 :: ([58, 32] ++ rendered))) := by
    rw [shape]
    cases count <;> rfl
  have key : Json.readKey (34 :: (parameter.label.bytes.flatMap escapeByte ++
      34 :: ([58, 32] ++ rendered))) = some (parameter.label.bytes, 32 :: rendered) := by
    rw [Json.readKey, show Json.stringLetters (34 :: _) = Json.letters _ from rfl, letters, ← same]
    rfl
  refine ⟨(parameter.label.bytes, value) :: members, max fuel more + 1, ?_,
    .cons ⟨rfl, fuel, rest, read, complete⟩ all⟩
  rw [Json.readItems, front]
  have one := (Json.read_append (membersJson_ends parameters) fuel).1 (max fuel more) _ _ _
    (le_max_left _ _) read
  rw [tail, Json.readValue_of_space (show Json.space rendered = Json.space (32 :: rendered) from
    rfl)] at one
  have others := Json.readItems_mono reads (le_max_right fuel more)
  rw [← Json.readItems_of_space (Json.space_append_of_complete complete _)] at others
  simp only [Json.itemKey, key, bind_eq_bind, bind_some, one]
  rw [show (count + 1 == 0) = false from rfl] at others
  rw [others]
  rfl

theorem escapeByte_plain (byte : UInt8) : (escapeByte byte).any Json.isForeign = false := by
  rw [escapeByte]
  split_ifs with quote backspace feed line carriage tab control
  · rcases quote with rfl | rfl <;> decide
  · decide
  · decide
  · decide
  · decide
  · decide
  · have letters : ∀ digit < 16, Json.isForeign (hexLetter digit) = false := by decide
    have small : byte.toNat < 0x20 := control
    have high := letters (byte.toNat / 16) (by omega)
    have low := letters (byte.toNat % 16) (by omega)
    simp only [any_cons, high, low]
    decide
  · have vertical : byte ≠ 11 := by
      rintro rfl
      exact control (by decide)
    simp [Json.isForeign, vertical, feed]

theorem jsonString_plain (bytes : Bytes) : (jsonString bytes).any Json.isForeign = false := by
  rw [List.any_eq_false]
  intro letter member
  rw [jsonString, cons_append, mem_cons, mem_append, mem_singleton, mem_flatMap] at member
  rcases member with rfl | ⟨byte, -, inside⟩ | rfl
  · decide
  · exact any_eq_false.mp (escapeByte_plain byte) letter inside
  · decide

def Parameter.Copyable (parameter : Parameter) : Prop :=
  parameter.isString = false → parameter.value.any Json.isForeign = false

theorem membersJson_plain (first : Bool) (parameters : List Parameter) :
    (membersJson first parameters).any Json.isForeign = false ↔
      ∀ parameter ∈ parameters, parameter.Copyable := by
  induction parameters generalizing first with
  | nil => exact iff_of_true rfl (by simp)
  | cons parameter parameters induction => ?_
  have separator : (if first then [] else [44, 32] : Bytes).any Json.isForeign = false := by
    cases first <;> rfl
  rw [membersJson, any_append, any_append, any_append, any_append,
    separator, forall_mem_cons, Parameter.Copyable, Parameter.valueJson,
    ← induction false]
  cases parameter.isString <;> simp [jsonString_plain, show Json.isForeign 58 = false from rfl,
    show Json.isForeign 32 = false from rfl]

theorem value_argumentsJson (admitted : Admitted parameters)
    (valid : Provider.jsonValueValidate (argumentsJson parameters) true = .ok ()) :
    ∃ members : List (Bytes × Json.Value), Json.value (argumentsJson parameters) =
        (if (argumentsJson parameters).any Json.isForeign then none
          else some (.collection .object (Json.Items.ofList members))) ∧
      List.Forall₂ (fun parameter (member : Bytes × Json.Value) =>
        member.1 = parameter.label.bytes ∧ Stands parameter member.2) parameters members := by
  obtain ⟨members, fuel, reads, all⟩ := readItems_membersJson (fun _ => admitted.stands) 0
  obtain ⟨value, rest, read, complete⟩ := readValue_of_jsonValueValidate valid
  have object : Json.readValue (fuel + 1) (argumentsJson parameters) =
      some (.collection .object (Json.Items.ofList members), []) := by
    rw [Json.readValue, show Json.space (argumentsJson parameters) = argumentsJson parameters from
      rfl, argumentsJson]
    simp only
    rw [show membersJson true parameters = membersJson (0 == 0) parameters from rfl, reads]
    rfl
  have same := (Json.readValue_mono object (le_max_left _ _)).symm.trans
    (Json.readValue_mono read (le_max_right (fuel + 1) _))
  cases same
  refine ⟨members, ?_, all⟩
  rw [Json.value, read]
  split <;> rfl

/-! ## Calls that are grounded in the block -/

def Parameter.meaning (parameter : Parameter) : Option Json.Value :=
  if parameter.isString then some (.string parameter.value) else Json.value parameter.value

/-- A returned call is the call of the block: it has its name, which is offered, and its arguments
are an object with the parameters as they stand there. -/
structure Faithful (request : ProviderRequest) (call : BlockCall) (made : ToolCall) : Prop where
  name : made.name.bytes = call.name
  offered : ∃ tool ∈ request.tools, tool.name = made.name
  arguments : ∃ members : List (Bytes × Json.Value),
    Json.value made.argumentsJson = some (.collection .object (Json.Items.ofList members)) ∧
    (members.map Prod.fst).Nodup ∧
    List.Forall₂ (fun parameter (member : Bytes × Json.Value) =>
      member.1 = parameter.name ∧ parameter.meaning = some member.2) call.parameters members

/-- A call without zero bytes in its names and without foreign bytes in copied values. -/
structure PlainCall (call : BlockCall) : Prop where
  name : 0 ∉ call.name
  parameters : ∀ parameter ∈ call.parameters, 0 ∉ parameter.name ∧ parameter.Copyable

theorem Items.ofList_injective
    (same : Json.Items.ofList first = Json.Items.ofList second) : first = second := by
  induction first generalizing second with
  | nil =>
    cases second with
    | nil => rfl
    | cons member second => cases same
  | cons member first induction => ?_
  cases second with
  | nil => cases same
  | cons member' second => ?_
  obtain ⟨key, value⟩ := member
  simp only [Json.Items.ofList, Json.Items.cons.injEq] at same
  obtain ⟨rfl, rfl, others⟩ := same
  rw [induction others]

theorem Stands.meaning {value : Json.Value} (stands : Stands parameter value)
    (copyable : parameter.Copyable) (json : parameter.isString = false →
      Provider.jsonValueValidate parameter.value false = .ok ()) :
    parameter.meaning = some value := by
  have unique : ∀ {other : Json.Value}, Stands parameter other → other = value := by
    intro other others
    obtain ⟨fuel, rest, read, -⟩ := stands
    obtain ⟨fuel', rest', read', -⟩ := others
    have same := (Json.readValue_mono read (le_max_left _ fuel')).symm.trans
      (Json.readValue_mono read' (le_max_right fuel _))
    cases same
    rfl
  cases isString : parameter.isString with
  | true => rw [Parameter.meaning, if_pos isString, unique (stands_string isString)]
  | false => ?_
  obtain ⟨other, rest, read, complete⟩ := readValue_of_jsonValueValidate (json isString)
  have isValue : Stands parameter other :=
    ⟨_, rest, by rwa [Parameter.valueJson, isString], complete⟩
  rw [Parameter.meaning, isString, if_neg Bool.false_ne_true, Json.value, copyable isString,
    if_neg Bool.false_ne_true, read, unique isValue]
  simp only [complete, if_true]

theorem forall₂_imp_of_mem {first second : α → β → Prop} {right : List β}
    (all : List.Forall₂ first left right)
    (imp : ∀ one ∈ left, ∀ other, first one other → second one other) :
    List.Forall₂ second left right := by
  induction all with
  | nil => exact .nil
  | cons head _ induction =>
    exact .cons (imp _ (mem_cons_self ..) _ head)
      (induction fun one member => imp one (mem_cons_of_mem _ member))

theorem keys_eq_map {members : List (Bytes × Json.Value)}
    (all : List.Forall₂ (fun parameter member => member.1 = key parameter) parameters members) :
    members.map Prod.fst = parameters.map key := by
  induction all with
  | nil => rfl
  | cons head _ induction => rw [map_cons, map_cons, head, induction]

theorem Admitted.labels_nodup (admitted : Admitted parameters) :
    (parameters.map fun parameter => parameter.label.bytes).Nodup := by
  rw [List.Nodup, pairwise_map]
  exact admitted.distinct.imp fun different same => different (CString.ext same)

theorem faithful_iff (admitted : AdmittedCall request call)
    (name : made.name = CString.ofBytes call.name)
    (arguments : made.argumentsJson = argumentsJson call.parameters) :
    Faithful request call made ↔ PlainCall call := by
  obtain ⟨members, value, all⟩ := value_argumentsJson admitted.parameters admitted.arguments
  have foreign : (argumentsJson call.parameters).any Json.isForeign = false ↔
      ∀ parameter ∈ call.parameters, parameter.Copyable := by
    exact membersJson_plain true _
  constructor
  · intro faithful
    obtain ⟨others, read, -, same⟩ := faithful.arguments
    rw [arguments, value] at read
    split at read
    · cases read
    rename_i plain
    simp only [Option.some.injEq, Json.Value.collection.injEq, true_and] at read
    cases Items.ofList_injective read
    have copyable := foreign.mp (by simpa using plain)
    refine ⟨?_, fun parameter member => ⟨?_, copyable parameter member⟩⟩
    · rw [← faithful.name]
      exact made.name.plain
    have keys := (keys_eq_map (forall₂_imp_of_mem all fun _ _ _ => And.left)).symm.trans
      (keys_eq_map (forall₂_imp_of_mem same fun _ _ _ => And.left))
    rw [← map_inj_left.mp keys parameter member]
    exact parameter.label.plain
  · intro plain
    have copyable := foreign.mpr fun parameter member => (plain.parameters parameter member).2
    refine ⟨by rw [name, CString.bytes_ofBytes plain.name], name ▸ admitted.offered, members, ?_,
      ?_, ?_⟩
    · rw [arguments, value, copyable]
      rfl
    · rw [keys_eq_map (forall₂_imp_of_mem all fun _ _ _ => And.left)]
      exact admitted.parameters.labels_nodup
    · apply forall₂_imp_of_mem all
      rintro parameter member made ⟨labelled, stands⟩
      refine ⟨labelled.trans (CString.bytes_ofBytes (plain.parameters parameter member).1), ?_⟩
      exact stands.meaning (plain.parameters parameter member).2
        (admitted.parameters.json parameter member)

/-! ## Completions that are accounted for -/

structure Grounded [UnicodeClasses] (tokenizer : ConversationTokenizer) (request : ProviderRequest)
    (completion : Bytes) (result : ProviderResult) : Prop where
  /-- The text is reasoning, delimiter, content and, for calls only, a block up to its end. -/
  accounted : ∃ block calls, completion = result.reasoningContent ++
      tokenizer.conversation.boundary request.reasoningPolicy ++ result.content ++ block ∧
    (result.kind = .functionCall ↔ block ≠ []) ∧
    (block ≠ [] → readBlock tokenizer.conversation request block = some calls) ∧
    (block = [] → calls = []) ∧
    List.Forall₂ (Faithful request) calls result.toolCalls
  parallel : 1 < result.toolCalls.length → request.toolChoice.parallelCalls ≠ 0
  /-- No control marker is in the reasoning or in the content. -/
  clean : ∀ marker ∈ [tokenizer.conversation.dsml, tokenizer.conversation.bos,
      tokenizer.conversation.eos, tokenizer.conversation.thinkingStart,
      tokenizer.conversation.thinkingEnd],
    contains result.reasoningContent marker = false ∧ contains result.content marker = false

def PlainBlock [UnicodeClasses] (tokenizer : ConversationTokenizer) (request : ProviderRequest)
    (completion : Bytes) : Prop :=
  ∀ view position calls,
    conversationOutputSelect tokenizer request.reasoningPolicy completion = .ok view →
    findBytes view.final tokenizer.conversation.toolMarker = some position →
    readBlock tokenizer.conversation request (view.final.drop position) = some calls →
    ∀ call ∈ calls, PlainCall call

theorem forall₂_mapIdx (admitted : ∀ call ∈ calls, AdmittedCall request call)
    (name : ∀ index call, (record index call).name = CString.ofBytes call.name)
    (arguments : ∀ index call, (record index call).argumentsJson = argumentsJson call.parameters) :
    List.Forall₂ (Faithful request) calls (calls.mapIdx record) ↔
      ∀ call ∈ calls, PlainCall call := by
  induction calls generalizing record with
  | nil => exact iff_of_true .nil (by simp)
  | cons call calls induction => ?_
  obtain ⟨one, others⟩ := forall_mem_cons.mp admitted
  rw [mapIdx_cons, forall₂_cons, forall_mem_cons, faithful_iff one (name 0 call) (arguments 0 call),
    induction others (fun index => name (index + 1)) (fun index => arguments (index + 1))]

theorem findBytes_block
    (found : findBytes bytes marker = some position) : bytes.drop position ≠ [] := by
  rw [findBytes] at found
  split at found
  · cases found
  rename_i present
  intro empty
  have begins := (occurrence_begins found).1
  rw [empty, prefix_nil] at begins
  exact present (isEmpty_iff.mpr begins)

theorem completionSpecialValid_clean (special : completionSpecialValid protocol view = true)
    (part : content <+: view.final) (plain : contains content protocol.dsml = false) :
    ∀ marker ∈ [protocol.dsml, protocol.bos, protocol.eos, protocol.thinkingStart,
        protocol.thinkingEnd],
      contains view.reasoning marker = false ∧ contains content marker = false := by
  rw [completionSpecialValid, Bool.and_eq_true, List.all_eq_true] at special
  obtain ⟨reasoning, markers⟩ := special
  obtain ⟨more, whole⟩ := part
  refine forall_mem_cons.mpr ⟨⟨by simpa using reasoning, plain⟩, fun marker member => ?_⟩
  have absent := markers marker member
  rw [Bool.and_eq_true, Bool.not_eq_true', Bool.not_eq_true'] at absent
  refine ⟨absent.1, Bool.eq_false_iff.mpr fun found => ?_⟩
  have inside := @contains_of_append _ more _ found
  rw [whole, absent.2] at inside
  cases inside

theorem parseProviderCompletion_ok [UnicodeClasses] [Sha256Hex] {result : ProviderResult}
    (parsed : parseProviderCompletion tokenizer request completion = .ok result) :
    ∃ view, conversationOutputSelect tokenizer request.reasoningPolicy completion = .ok view ∧
      completionSpecialValid tokenizer.conversation view = true ∧
      result.reasoningContent = view.reasoning ∧
      contains result.content tokenizer.conversation.dsml = false ∧ ((∃ position calls identity,
          findBytes view.final tokenizer.conversation.toolMarker = some position ∧
          parseCalls tokenizer.conversation request (view.final.drop position) = .ok calls ∧
          result.kind = .functionCall ∧ result.content = view.final.take position ∧
          result.toolCalls = toolCalls identity calls) ∨
        (findBytes view.final tokenizer.conversation.toolMarker = none ∧
          result.kind = .assistantText ∧ result.content = view.final ∧ result.toolCalls = [])) := by
  replace parsed := behind parsed
  obtain ⟨view, selected, parsed⟩ := bind_eq_ok.mp parsed
  obtain ⟨view', selected, special⟩ := bind_eq_ok.mp selected
  obtain ⟨_, special, same⟩ := bind_eq_ok.mp special
  cases same
  refine ⟨view, selected, require_eq_ok.mp special, ?_⟩
  split at parsed
  · rename_i position found
    obtain ⟨_, content, parsed⟩ := bind_eq_ok.mp parsed
    obtain ⟨calls, block, same⟩ := bind_eq_ok.mp parsed
    cases same
    exact ⟨rfl, (Bool.not_eq_true' _).mp (require_eq_ok.mp content),
      .inl ⟨position, calls, _, found, block, rfl, rfl, rfl⟩⟩
  · rename_i absent
    obtain ⟨_, content, same⟩ := bind_eq_ok.mp parsed
    cases same
    exact ⟨rfl, (Bool.not_eq_true' _).mp (require_eq_ok.mp content), .inr ⟨absent, rfl, rfl, rfl⟩⟩

/-- A parsed completion is accounted for, and its calls are those of the block, exactly when no
name in the block has a zero byte and no copied value a byte that JSON does not know. -/
theorem parseProviderCompletion_grounded [UnicodeClasses] [Sha256Hex]
    {tokenizer : ConversationTokenizer} {request : ProviderRequest} {completion : Bytes}
    {result : ProviderResult}
    (parsed : parseProviderCompletion tokenizer request completion = .ok result) :
    Grounded tokenizer request completion result ↔ PlainBlock tokenizer request completion := by
  obtain ⟨view, selected, special, reasoning, content, made⟩ := parseProviderCompletion_ok parsed
  have text := conversationOutputSelect_ok selected
  rcases made with ⟨position, calls, identity, found, block, kind, front, records⟩ |
    ⟨absent, kind, front, records⟩
  · obtain ⟨read, present, parallel, admitted⟩ := parseCalls_ok block
    have plain : List.Forall₂ (Faithful request) calls result.toolCalls ↔
        ∀ call ∈ calls, PlainCall call := by
      rw [records]
      exact forall₂_mapIdx admitted (fun _ _ => rfl) (fun _ _ => rfl)
    have whole : completion = result.reasoningContent ++
        tokenizer.conversation.boundary request.reasoningPolicy ++ result.content ++
          view.final.drop position := by
      rw [reasoning, front, append_assoc, take_append_drop]
      exact text
    constructor
    · intro grounded other position' calls' selects found' reads
      cases selected.symm.trans selects
      cases found.symm.trans found'
      cases read.symm.trans reads
      obtain ⟨block', calls', same, -, readsBlock, -, all⟩ := grounded.accounted
      have equal : block' = view.final.drop position := append_cancel_left (same.symm.trans whole)
      subst equal
      cases read.symm.trans (readsBlock (findBytes_block found))
      exact plain.mp all
    intro isPlain
    refine ⟨⟨_, calls, whole, iff_of_true kind (findBytes_block found), fun _ => read,
      fun empty => absurd empty (findBytes_block found),
      plain.mpr (isPlain view position calls selected found read)⟩, ?_, ?_⟩
    · rw [records, toolCalls, length_mapIdx]
      exact parallel
    · rw [reasoning]
      apply completionSpecialValid_clean special _ content
      rw [front]
      exact take_prefix _ _
  · apply iff_of_true
    · refine ⟨⟨[], [], ?_, ?_, fun present => absurd rfl present, fun _ => rfl, ?_⟩, ?_, ?_⟩
      · rw [append_nil, reasoning, front]
        exact text
      · rw [kind]
        exact iff_of_false (fun other => by cases other) fun present => present rfl
      · rw [records]
        exact .nil
      · rw [records]
        exact fun several => absurd several (Nat.not_lt_zero 1)
      · rw [reasoning]
        apply completionSpecialValid_clean special _ content
        rw [front]
    · intro other position calls selects found
      cases selected.symm.trans selects
      cases absent.symm.trans found

@[reducible] def blankClasses : UnicodeClasses := ⟨fun point => point == 32⟩

def callText (name : String) : Bytes :=
  utf8 ("<tool_call>\n<function=" ++ name ++ ">\n\n</function>\n</tool_call>")

/-- A sealed request with reasoning that offers `f` with a number `x`. -/
def parameterRequest : ProviderRequest := { toolRequest with
  reasoningPolicy := .maximum
  tools := [⟨text "f", [], utf8 "\x7b\"properties\":\x7b\"x\":\x7b\"type\":\"number\"\x7d\x7d\x7d",
    0, 0, 0⟩] }

def reasonedText : Bytes :=
  utf8 ("h\n</think>\n\no<tool_call>\n<function=f>\n<parameter=x>\n1\n</parameter>\n" ++
    "</function>\n</tool_call>")

theorem parseProviderCompletion_grounded_call :
    ∃ result, @parseProviderCompletion blankClasses Provider.zeroDigest
        (fullTokenizer qwenConversation) parameterRequest reasonedText = .ok result ∧
      @Grounded blankClasses (fullTokenizer qwenConversation) parameterRequest reasonedText
        result := by
  have accepted : (@parseProviderCompletion blankClasses Provider.zeroDigest
      (fullTokenizer qwenConversation) parameterRequest reasonedText).isOk = true := by
    decide +kernel
  obtain ⟨result, parsed⟩ := exists_of_isOk accepted
  refine ⟨result, parsed, (@parseProviderCompletion_grounded blankClasses Provider.zeroDigest
    _ _ _ _ parsed).mpr ?_⟩
  intro view position calls selects found reads
  have selected : conversationOutputSelect (fullTokenizer qwenConversation)
      parameterRequest.reasoningPolicy reasonedText =
        .ok ⟨[104], reasonedText.drop 12⟩ := by decide +kernel
  cases selected.symm.trans selects
  dsimp only at found reads
  have first : findBytes (reasonedText.drop 12)
      (fullTokenizer qwenConversation).conversation.toolMarker = some 1 := by decide +kernel
  cases first.symm.trans found
  have inside : @readBlock blankClasses (fullTokenizer qwenConversation).conversation
      parameterRequest ((reasonedText.drop 12).drop 1) =
        some [⟨[102], [⟨[120], false, [49]⟩]⟩] := by decide +kernel
  cases inside.symm.trans reads
  rw [forall_mem_singleton]
  exact ⟨by decide, forall_mem_singleton.mpr ⟨by decide, fun _ => by decide⟩⟩

/-- A name with a zero byte is cut there: the block calls a function that nobody offers, and the
result is a call of the offered `f`. -/
theorem parseProviderCompletion_cuts :
    ∃ result, @parseProviderCompletion blankClasses Provider.zeroDigest
        (fullTokenizer qwenConversation) toolRequest (callText "f\x00g") = .ok result ∧
      result.toolCalls.map ToolCall.name = [text "f"] ∧
      ¬ @Grounded blankClasses (fullTokenizer qwenConversation) toolRequest (callText "f\x00g")
        result := by
  have parsed : (@parseProviderCompletion blankClasses Provider.zeroDigest
      (fullTokenizer qwenConversation) toolRequest (callText "f\x00g")).map (fun result =>
        (result.reasoningContent, result.content, result.toolCalls.map ToolCall.name)) =
      .ok ([], [], [text "f"]) := by decide +kernel
  have inside : @readBlock blankClasses (fullTokenizer qwenConversation).conversation toolRequest
      (callText "f\x00g") = some [⟨[102, 0, 103], []⟩] := by decide +kernel
  cases found : @parseProviderCompletion blankClasses Provider.zeroDigest
      (fullTokenizer qwenConversation) toolRequest (callText "f\x00g") with
  | error rejection =>
    rw [found] at parsed
    cases parsed
  | ok result =>
    rw [found] at parsed
    simp only [Except.map, Except.ok.injEq, Prod.mk.injEq] at parsed
    obtain ⟨reasoning, content, names⟩ := parsed
    refine ⟨result, rfl, names, fun grounded => ?_⟩
    obtain ⟨block, calls, whole, -, read, -, all⟩ :=
      @Grounded.accounted blankClasses _ _ _ _ grounded
    have same : callText "f\x00g" = block := by
      rw [whole, reasoning, content]
      rfl
    subst same
    cases inside.symm.trans (read (by decide))
    obtain ⟨made, faithful⟩ : ∃ made, Faithful toolRequest ⟨[102, 0, 103], []⟩ made := by
      generalize result.toolCalls = made at all
      cases all with
      | cons faithful _ => exact ⟨_, faithful⟩
    have plain := made.name.plain
    rw [faithful.name] at plain
    exact plain (by decide)

end Yvex.Tokenizer
