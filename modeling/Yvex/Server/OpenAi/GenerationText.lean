import Mathlib.Data.List.Dedup
import Mathlib.Data.List.Induction
import Mathlib.Data.List.Perm.Basic
import Yvex.Server.OpenAi.Generation

namespace Yvex.Server.OpenAi

open Utf8 List Yvex.Except

/-! # Deltas put together

What a client puts together from the deltas of a channel is what came in the fragments of that
channel, cut between code points. -/

/-! ## Cutting -/

theorem take_min_prefix (pending : Bytes) (count limit : Nat) :
    pending.take (min count limit) <+: pending.take count := by
  rw [Nat.min_comm, ← take_take]
  exact take_prefix _ _

theorem deltas_spec {count : Nat}
    (formed : WellFormed (pending.take count)) (fits : count ≤ pending.length)
    (enough : count ≤ fuel) :
    ∃ pieces, deltas fuel pending count = .ok pieces ∧ pieces.flatten = pending.take count ∧
      ∀ piece ∈ pieces, piece ≠ [] ∧ WellFormed piece := by
  induction fuel generalizing pending count with
  | zero =>
    cases Nat.le_zero.mp enough
    exact ⟨[], rfl, rfl, nofun⟩
  | succ fuel induction => ?_
  cases count with
  | zero => exact ⟨[], rfl, rfl, nofun⟩
  | succ count => ?_
  obtain ⟨behind, whole⟩ := take_min_prefix pending (count + 1) fragmentCap
  have length : (pending.take (min (count + 1) fragmentCap)).length =
      min (count + 1) fragmentCap := by
    rw [length_take]
    omega
  have extensible : Extensible (pending.take (min (count + 1) fragmentCap)) :=
    ⟨behind, whole ▸ formed⟩
  obtain ⟨width, found⟩ := Option.isSome_iff_exists.mp (utf8Prefix_isSome.mpr extensible)
  have splits := utf8Prefix_eq_some found
  cases width with
  | zero =>
    -- Four bytes and more have a complete code point in front.
    rcases splits.2.2 with empty | valid
    · rw [drop_zero] at empty
      rw [empty, length_nil, fragmentCap] at length
      omega
    rw [drop_zero] at valid
    have short := length_of_tailValid valid
    rw [length, fragmentCap] at short
    have all : min (count + 1) fragmentCap = count + 1 := by
      rw [fragmentCap]
      omega
    rw [all] at valid
    exact absurd formed (not_wellFormed_of_tailValid valid)
  | succ width =>
    have within := splits.1
    rw [length] at within
    have front : WellFormed (pending.take (width + 1)) := by
      have taken := splits.2.1
      rwa [take_take, min_eq_left within] at taken
    have split : pending.take (count + 1) =
        pending.take (width + 1) ++ (pending.drop (width + 1)).take (count - width) := by
      rw [← take_add]
      congr 1
      omega
    rw [split, front.append_iff] at formed
    have shorter : count - width ≤ (pending.drop (width + 1)).length := by
      rw [length_drop]
      omega
    obtain ⟨others, cut, joined, each⟩ := induction formed shorter (by omega)
    refine ⟨pending.take (width + 1) :: others, ?_, ?_, ?_⟩
    · rw [deltas, found]
      simp only [cut]
      rfl
    · rw [flatten_cons, joined, split]
    refine forall_mem_cons.mpr ⟨⟨?_, front⟩, each⟩
    intro empty
    have zero := congrArg List.length empty
    rw [length_take, length_nil] at zero
    omega

/-! ## Deltas of a channel -/

inductive StreamName where
  | text
  | reasoning
  | call (id : Bytes)
deriving DecidableEq

def streamName (kind : OutputKind) (toolCallId : CString) : StreamName :=
  match kind with
  | .functionCall => .call toolCallId.bytes
  | .explicitReasoning => .reasoning
  | _ => .text

def Fragment.streamName (fragment : Fragment) : StreamName :=
  OpenAi.streamName fragment.outputKind fragment.toolCallId

def deltaOf : Event → Option (StreamName × Bytes)
  | .chunk kind _ toolCallId delta => some (OpenAi.streamName kind toolCallId, delta)
  | .response event =>
    match event.kind, event.item with
    | .outputTextDelta, _ => some (.text, event.content)
    | .reasoningDelta, _ => some (.reasoning, event.content)
    | .functionArgumentsDelta, some (_, .functionCall itemId) => some (.call itemId, event.content)
    | _, _ => none

def received (stream : StreamName) (events : List Event) : Bytes :=
  (events.filterMap deltaOf).flatMap fun delta => if delta.1 = stream then delta.2 else []

def gathered (stream : StreamName) (fragments : List Fragment) : Bytes :=
  fragments.flatMap fun fragment => if fragment.streamName = stream then fragment.bytes else []

def Writes (sink next : HttpSink) (written : List (StreamName × Bytes)) : Prop :=
  next.stream = sink.stream ∧ next.endpoint = sink.endpoint ∧
    ∃ extra, next.events = sink.events ++ extra ∧ extra.filterMap deltaOf = written

theorem Writes.refl (sink : HttpSink) : Writes sink sink [] :=
  ⟨rfl, rfl, [], (append_nil _).symm, rfl⟩

theorem Writes.trans (writes : Writes sink middle first) (writes' : Writes middle last second) :
    Writes sink last (first ++ second) := by
  obtain ⟨stream, endpoint, extra, events, deltas⟩ := writes
  obtain ⟨stream', endpoint', extra', events', deltas'⟩ := writes'
  refine ⟨stream'.trans stream, endpoint'.trans endpoint, extra ++ extra', ?_, ?_⟩
  · rw [events', events, append_assoc]
  · rw [filterMap_append, deltas, deltas']

theorem writes_write (sink : HttpSink) (kind : ResponseEventKind) (item : Option (Nat × OutputItem))
    (content : Bytes) (output : List OutputItem) : Writes sink (sink.write kind item content output)
      (deltaOf (.response ⟨kind, 0, item, content, output⟩)).toList := by
  refine ⟨rfl, rfl, _, rfl, ?_⟩
  -- The number of an event is no part of its delta.
  change List.filterMap deltaOf [.response ⟨kind, 0, item, content, output⟩] = _
  cases found : deltaOf (.response ⟨kind, 0, item, content, output⟩) with
  | none => rw [filterMap_cons_none found]; rfl
  | some delta => rw [filterMap_cons_some found]; rfl

section Emission

variable {id : Bytes} {result : GenerationResult}

theorem itemStart_writes (call : Bool) (outputIndex : Nat) (sink : HttpSink) :
    ∃ started, itemStart id result call outputIndex sink = .ok started ∧ Writes sink started [] := by
  rw [itemStart]
  split
  · exact ⟨sink, rfl, .refl sink⟩
  have added := writes_write sink .outputItemAdded
    (eventItem .outputItemAdded id result outputIndex) [] []
  cases call with
  | true => exact ⟨_, rfl, added⟩
  | false => ?_
  have started := writes_write (sink.write .outputItemAdded
    (eventItem .outputItemAdded id result outputIndex) [] []) .contentPartAdded
    (eventItem .contentPartAdded id result outputIndex) [] []
  exact ⟨_, rfl, added.trans started⟩

def Names (fragment : Fragment) (result : GenerationResult) (toolIndex : Nat) : Prop :=
  fragment.outputKind = .functionCall →
    ∃ call, result.toolCalls[toolIndex]? = some call ∧ call.callId = fragment.toolCallId

theorem responseItem_tool (stands : result.toolCalls[toolIndex]? = some call) :
    responseItem id result (result.firstTool + toolIndex) = .functionCall call.callId.bytes := by
  have same : responseToolAt result (result.firstTool + toolIndex) = some call := by
    rw [responseToolAt, if_neg (by omega), Nat.add_sub_cancel_left]
    exact stands
  rw [responseItem, same]

theorem generationFragmentEmit_writes (names : Names fragment result toolIndex) (sink : HttpSink)
    (delta : Bytes) :
    ∃ next, generationFragmentEmit id fragment result toolIndex sink delta = .ok next ∧
      Writes sink next [(fragment.streamName, delta)] := by
  have message : ∀ name, name = StreamName.text →
      ∃ next, itemDelta id result false 0 sink delta = .ok next ∧
        Writes sink next [(name, delta)] := by
    rintro name rfl
    obtain ⟨started, ok, first⟩ : ∃ started, itemStart id result false 0 sink = .ok started ∧ _ :=
      itemStart_writes false 0 sink
    refine ⟨_, by rw [itemDelta, ok]; rfl, ?_⟩
    exact first.trans (writes_write started .outputTextDelta
      (eventItem .outputTextDelta id result 0) delta [])
  cases target : sink.endpoint with
  | chat =>
    refine ⟨_, by rw [generationFragmentEmit, target], ?_⟩
    exact ⟨rfl, target.symm, _, rfl, rfl⟩
  | responses => ?_
  simp only [generationFragmentEmit, target]
  cases kind : fragment.outputKind with
  | explicitReasoning =>
    refine ⟨_, rfl, ?_⟩
    rw [Fragment.streamName, kind]
    exact writes_write sink .reasoningDelta none delta []
  | functionCall =>
    obtain ⟨call, stands, same⟩ := names kind
    obtain ⟨started, ok, first⟩ : ∃ started, itemStart id result true
        (result.firstTool + toolIndex) sink = .ok started ∧ _ :=
      itemStart_writes true (result.firstTool + toolIndex) sink
    refine ⟨started.write .functionArgumentsDelta (some (result.firstTool + toolIndex,
      .functionCall call.callId.bytes)) delta [], ?_, first.trans ?_⟩
    · rw [itemDelta, ok, ← responseItem_tool stands]
      rfl
    · rw [Fragment.streamName, kind, ← same]
      exact writes_write started .functionArgumentsDelta _ delta []
  | _ => exact message _ (by rw [Fragment.streamName, kind]; rfl)

theorem foldlM_emit_writes (names : Names fragment result toolIndex) (sink : HttpSink)
    (pieces : List Bytes) :
    ∃ next, pieces.foldlM (generationFragmentEmit id fragment result toolIndex) sink = .ok next ∧
      Writes sink next (pieces.map fun piece => (fragment.streamName, piece)) := by
  induction pieces generalizing sink with
  | nil => exact ⟨sink, rfl, .refl sink⟩
  | cons piece pieces induction => ?_
  obtain ⟨middle, emitted, first⟩ := generationFragmentEmit_writes names sink piece
  obtain ⟨next, rest, second⟩ := induction middle
  refine ⟨next, ?_, first.trans second⟩
  rw [foldlM_cons, emitted]
  exact rest

end Emission

/-! ## Tool calls of a result -/

def GenerationResult.named (result : GenerationResult) : StreamName → Channel
  | .text => result.text
  | .reasoning => result.reasoning
  | .call id =>
    ((result.toolCalls.find? fun call => call.callId.bytes == id).map
      GenerationToolCall.arguments).getD ⟨[], 0⟩

def calledIds (fragments : List Fragment) : List CString :=
  fragments.filterMap fun fragment =>
    if fragment.outputKind = .functionCall then some fragment.toolCallId else none

theorem mem_calledIds {id : CString} : id ∈ calledIds fragments ↔
      ∃ fragment ∈ fragments, fragment.outputKind = .functionCall ∧ fragment.toolCallId = id := by
  rw [calledIds, mem_filterMap]
  constructor
  · grind
  · rintro ⟨fragment, member, kind, rfl⟩
    exact ⟨fragment, member, if_pos kind⟩

/-- Fragments that name their tool calls: with a call and a function each, with one function for
each call, and with no more calls than a result holds. -/
structure Identified (fragments : List Fragment) : Prop where
  given : ∀ fragment ∈ fragments, fragment.outputKind = .functionCall →
    fragment.toolCallId.isEmpty = false ∧ fragment.toolName.isEmpty = false
  alike : ∀ fragment ∈ fragments, ∀ other ∈ fragments, fragment.outputKind = .functionCall →
    other.outputKind = .functionCall → fragment.toolCallId = other.toolCallId →
      fragment.toolName = other.toolName
  few : (calledIds fragments).dedup.length ≤ toolsMax

def GenerationResult.identities (result : GenerationResult) : List (CString × CString) :=
  result.toolCalls.map fun call => (call.callId, call.name)

structure Listed (fragments : List Fragment) (calls : List (CString × CString)) : Prop where
  distinct : (calls.map Prod.fst).Nodup
  members : ∀ call, call ∈ calls ↔ ∃ fragment ∈ fragments,
    fragment.outputKind = .functionCall ∧ (fragment.toolCallId, fragment.toolName) = call

theorem Listed.length_eq (listed : Listed fragments calls) :
    calls.length = (calledIds fragments).dedup.length := by
  have same : (calls.map Prod.fst).Perm (calledIds fragments).dedup := by
    apply (perm_ext_iff_of_nodup listed.distinct (nodup_dedup _)).mpr
    intro id
    rw [mem_dedup, mem_calledIds, mem_map]
    constructor
    · grind [cases Listed]
    · rintro ⟨fragment, inside, kind, rfl⟩
      exact ⟨_, (listed.members _).mpr ⟨fragment, inside, kind, rfl⟩, rfl⟩
  rw [← same.length_eq, length_map]

theorem Listed.other (listed : Listed fragments calls) (kind : fragment.outputKind ≠ .functionCall) :
    Listed (fragments ++ [fragment]) calls := by
  refine ⟨listed.distinct, fun call => ?_⟩
  rw [listed.members call]
  simp [kind]

theorem Listed.again (listed : Listed fragments calls)
    (known : (fragment.toolCallId, fragment.toolName) ∈ calls) :
    Listed (fragments ++ [fragment]) calls := by
  refine ⟨listed.distinct, fun call => ?_⟩
  constructor
  · grind [cases Listed]
  rintro ⟨other, inside, same⟩
  rcases mem_append.mp inside with earlier | last
  · exact (listed.members call).mpr ⟨other, earlier, same⟩
  · cases mem_singleton.mp last
    exact same.2 ▸ known

theorem Listed.push (listed : Listed fragments calls) (kind : fragment.outputKind = .functionCall)
    (unknown : fragment.toolCallId ∉ calls.map Prod.fst) :
    Listed (fragments ++ [fragment]) (calls ++ [(fragment.toolCallId, fragment.toolName)]) := by
  refine ⟨?_, fun call => ?_⟩
  · grind [cases Listed]
  · rw [mem_append, listed.members call]
    simp [kind, eq_comm]

section Calls

variable {result : GenerationResult} {call : GenerationToolCall}

theorem named_call (distinct : (result.identities.map Prod.fst).Nodup)
    (member : call ∈ result.toolCalls) :
    result.named (.call call.callId.bytes) = call.arguments := by
  rw [GenerationResult.named]
  cases found : result.toolCalls.find? fun other => other.callId.bytes == call.callId.bytes with
  | none =>
    have missing := find?_eq_none.mp found call member
    exact absurd (beq_self_eq_true _) missing
  | some other => ?_
  have same : other.callId = call.callId := by
    have equal := find?_some found
    exact CString.ext (beq_iff_eq.mp equal)
  rw [GenerationResult.identities, map_map] at distinct
  have one := inj_on_of_nodup_map distinct (mem_of_find?_eq_some found) member same
  rw [one]
  rfl

theorem named_missing {id : Bytes} (missing : ∀ call ∈ result.identities, call.1.bytes ≠ id) :
    result.named (.call id) = ⟨[], 0⟩ := by
  have none : (result.toolCalls.find? fun call => call.callId.bytes == id) = none := by
    apply find?_eq_none.mpr
    intro call member equal
    exact missing _ (mem_map_of_mem member) (beq_iff_eq.mp equal)
  rw [GenerationResult.named, none]
  rfl

/-! ## Places of channels -/

@[simp] theorem setChannel_identities (channel : Channel) (place : ChannelName) :
    (result.setChannel channel place).identities = result.identities := by
  cases place with
  | text => rfl
  | reasoning => rfl
  | call index => ?_
  apply ext_getElem?
  intro position
  simp only [GenerationResult.identities, GenerationResult.setChannel, getElem?_map,
    getElem?_modify]
  cases result.toolCalls[position]? with
  | none => rfl
  | some call => by_cases same : index = position <;> simp [same]

theorem setChannel_setChannel (first second : Channel) (place : ChannelName) :
    (result.setChannel first place).setChannel second place = result.setChannel second place := by
  cases place with
  | text => rfl
  | reasoning => rfl
  | call index => simp [GenerationResult.setChannel, modify_modify_eq, Function.comp_def]

structure Holds (result : GenerationResult) (place : ChannelName) (stream : StreamName) : Prop where
  reads : result.channel place = result.named stream
  writes : ∀ channel other, (result.setChannel channel place).named other =
    if other = stream then channel else result.named other

theorem holds_text : Holds result .text .text where
  reads := rfl
  writes channel other := by cases other <;> rfl

theorem holds_reasoning : Holds result .reasoning .reasoning where
  reads := rfl
  writes channel other := by cases other <;> rfl

theorem holds_call (distinct : (result.identities.map Prod.fst).Nodup)
    (stands : result.toolCalls[index]? = some call) :
    Holds result (.call index) (.call call.callId.bytes) where
  reads := by
    rw [GenerationResult.channel, stands, named_call distinct (mem_of_getElem? stands)]
    rfl
  writes channel other := by
    have distinct' : ((result.setChannel channel (.call index)).identities.map Prod.fst).Nodup := by
      rwa [setChannel_identities]
    cases other with
    | text => rfl
    | reasoning => rfl
    | call id => ?_
    have changed : (result.setChannel channel (.call index)).toolCalls[index]? =
        some { call with arguments := channel } := by
      simp [GenerationResult.setChannel, stands]
    split
    · rename_i same
      cases same
      exact named_call distinct' (mem_of_getElem? changed)
    rename_i differs
    by_cases known : ∃ other ∈ result.toolCalls, other.callId.bytes = id
    · obtain ⟨other, member, rfl⟩ := known
      obtain ⟨position, found⟩ := mem_iff_getElem?.mp member
      have apart : index ≠ position := by
        rintro rfl
        cases stands.symm.trans found
        exact differs rfl
      have kept : (result.setChannel channel (.call index)).toolCalls[position]? = some other := by
        simp [GenerationResult.setChannel, apart, found]
      rw [named_call distinct member]
      exact named_call distinct' (mem_of_getElem? kept)
    · have missing : ∀ other ∈ result.identities, other.1.bytes ≠ id := by
        intro other member same
        obtain ⟨call, inside, rfl⟩ := mem_map.mp member
        exact known ⟨call, inside, same⟩
      rw [named_missing missing]
      apply named_missing
      rwa [setChannel_identities]

theorem Names.setChannel (names : Names fragment result index)
    (channel : Channel) (place : ChannelName) :
    Names fragment (result.setChannel channel place) index := by
  intro kind
  obtain ⟨call, stands, same⟩ := names kind
  have listed : result.identities[index]? = some (call.callId, call.name) := by
    rw [GenerationResult.identities, getElem?_map, stands]
    rfl
  rw [← setChannel_identities channel place, GenerationResult.identities, getElem?_map] at listed
  obtain ⟨call', stands', equal⟩ := Option.map_eq_some_iff.mp listed
  exact ⟨call', stands', (congrArg Prod.fst equal).trans same⟩

end Calls

/-! ## The call of a fragment -/

theorem generationToolCall_eq_ok {next : List GenerationToolCall}
    (selected : generationToolCall calls fragment = .ok (index, next)) :
    (fragment.toolCallId.isEmpty = false ∧ fragment.toolName.isEmpty = false) ∧
      ((∃ call, calls[index]? = some call ∧ call.callId = fragment.toolCallId ∧
          call.name = fragment.toolName ∧ next = calls) ∨
        ((∀ call ∈ calls, call.callId ≠ fragment.toolCallId) ∧ calls.length < toolsMax ∧
          index = calls.length ∧
          next = calls ++ [⟨fragment.toolCallId, fragment.toolName, ⟨[], 0⟩⟩])) := by
  rw [generationToolCall] at selected
  split at selected
  · cases selected
  rename_i given
  rw [Bool.or_eq_true, not_or, Bool.not_eq_true, Bool.not_eq_true] at given
  refine ⟨given, ?_⟩
  split at selected
  · rename_i position found
    split at selected
    · rename_i same
      cases selected
      obtain ⟨call, stands, name⟩ := Option.map_eq_some_iff.mp same
      obtain ⟨inside, equal, -⟩ := findIdx?_eq_some_iff_getElem.mp found
      rw [getElem?_eq_getElem inside, Option.some.injEq] at stands
      rw [stands] at equal
      refine .inl ⟨call, ?_, beq_iff_eq.mp equal, name, rfl⟩
      rw [getElem?_eq_getElem inside, stands]
    · cases selected
  · grind

theorem generationToolCall_isOk
    (given : fragment.toolCallId.isEmpty = false ∧ fragment.toolName.isEmpty = false)
    (alike : ∀ call ∈ calls, call.callId = fragment.toolCallId → call.name = fragment.toolName)
    (room : (∀ call ∈ calls, call.callId ≠ fragment.toolCallId) → calls.length < toolsMax) :
    ∃ selection, generationToolCall calls fragment = .ok selection := by
  rw [generationToolCall, given.1, given.2]
  simp only [Bool.or_self, Bool.false_eq_true, if_false]
  split
  · rename_i position found
    obtain ⟨inside, equal, -⟩ := findIdx?_eq_some_iff_getElem.mp found
    have name := alike calls[position] (getElem_mem inside) (beq_iff_eq.mp equal)
    rw [getElem?_eq_getElem inside, Option.map_some, name, if_pos rfl]
    exact ⟨_, rfl⟩
  rename_i none
  have missing : ∀ call ∈ calls, call.callId ≠ fragment.toolCallId := by
    grind
  rw [if_neg (Nat.not_le_of_lt (room missing))]
  exact ⟨_, rfl⟩

section Selection

variable {result next : GenerationResult}

theorem Identified.append {calls : List (CString × CString)} (identified : Identified fragments)
    (listed : Listed (fragments ++ [fragment]) calls) (room : calls.length ≤ toolsMax)
    (given : fragment.outputKind = .functionCall →
      fragment.toolCallId.isEmpty = false ∧ fragment.toolName.isEmpty = false) :
    Identified (fragments ++ [fragment]) where
  given other member called := by
    grind [cases Identified]
  alike one inside other member called called' same := by
    have first := (listed.members _).mpr ⟨one, inside, called, rfl⟩
    have second := (listed.members _).mpr ⟨other, member, called', rfl⟩
    have equal := inj_on_of_nodup_map listed.distinct first second same
    exact congrArg Prod.snd equal
  few := listed.length_eq ▸ room

theorem named_push (toolCallId toolName : CString) (stream : StreamName) : GenerationResult.named
      { result with toolCalls := result.toolCalls ++ [⟨toolCallId, toolName, ⟨[], 0⟩⟩] } stream =
      result.named stream := by
  cases stream with
  | text => rfl
  | reasoning => rfl
  | call id => ?_
  simp only [GenerationResult.named, find?_append]
  cases result.toolCalls.find? fun call => call.callId.bytes == id with
  | some call => rfl
  | none => by_cases same : toolCallId.bytes = id <;> simp [same]

theorem not_mem_identities {id : CString} (missing : ∀ call ∈ result.toolCalls, call.callId ≠ id) :
    id ∉ result.identities.map Prod.fst := by
  rw [GenerationResult.identities, map_map]
  intro member
  obtain ⟨call, inside, same⟩ := mem_map.mp member
  exact missing call inside same

structure Selected (fragments : List Fragment) (fragment : Fragment)
    (result : GenerationResult) (place : ChannelName) (index : Nat) (next : GenerationResult) :
    Prop where
  identified : Identified (fragments ++ [fragment])
  listed : Listed (fragments ++ [fragment]) next.identities
  holds : Holds next place fragment.streamName
  kept : ∀ stream, next.named stream = result.named stream
  grows : result.identities <+: next.identities
  names : Names fragment next index

theorem generationToolCall_selected (identified : Identified fragments)
    (listed : Listed fragments result.identities) (kind : fragment.outputKind = .functionCall)
    (found : generationToolCall result.toolCalls fragment = .ok (index, calls)) :
    Selected fragments fragment result (.call index) index { result with toolCalls := calls } := by
  have stream : fragment.streamName = .call fragment.toolCallId.bytes := by
    rw [Fragment.streamName, kind]
    rfl
  obtain ⟨given, ⟨call, stands, same, name, rfl⟩ | ⟨missing, free, rfl, rfl⟩⟩ :=
    generationToolCall_eq_ok found
  · have known : (fragment.toolCallId, fragment.toolName) ∈ result.identities := by
      rw [← same, ← name]
      exact mem_map_of_mem (mem_of_getElem? stands)
    have room : result.identities.length ≤ toolsMax := listed.length_eq ▸ identified.few
    have listed' := listed.again known
    refine ⟨identified.append listed' room fun _ => given, listed', ?_, fun _ => rfl,
      prefix_rfl, fun _ => ⟨call, stands, same⟩⟩
    rw [stream, ← same]
    exact holds_call listed'.distinct stands
  · have unknown := not_mem_identities missing
    have pushed : result.identities ++ [(fragment.toolCallId, fragment.toolName)] =
        GenerationResult.identities { result with toolCalls := result.toolCalls ++
          [⟨fragment.toolCallId, fragment.toolName, ⟨[], 0⟩⟩] } := by
      simp [GenerationResult.identities]
    have listed' := pushed ▸ listed.push kind unknown
    have room : (GenerationResult.identities { result with toolCalls := result.toolCalls ++
        [⟨fragment.toolCallId, fragment.toolName, ⟨[], 0⟩⟩] }).length ≤ toolsMax := by
      rw [GenerationResult.identities, length_map, length_append]
      exact free
    have stands : (result.toolCalls ++
        [⟨fragment.toolCallId, fragment.toolName, ⟨[], 0⟩⟩])[result.toolCalls.length]? =
          some ⟨fragment.toolCallId, fragment.toolName, ⟨[], 0⟩⟩ := by
      simp
    refine ⟨identified.append listed' room fun _ => given, listed', ?_, named_push _ _,
      ⟨_, pushed⟩, fun _ => ⟨_, stands, rfl⟩⟩
    rw [stream]
    exact holds_call listed'.distinct stands

theorem selectChannel_selected (identified : Identified fragments)
    (listed : Listed fragments result.identities)
    (selected : selectChannel result fragment = .ok (place, index, next)) :
    Selected fragments fragment result place index next := by
  have plain : fragment.outputKind ≠ .functionCall → Holds result place fragment.streamName →
      Selected fragments fragment result place index result := by
    intro kind holds
    have listed' := listed.other kind
    have room : result.identities.length ≤ toolsMax := listed.length_eq ▸ identified.few
    exact ⟨identified.append listed' room fun called => absurd called kind, listed', holds,
      fun _ => rfl, prefix_rfl, fun called => absurd called kind⟩
  rw [selectChannel] at selected
  rw [Fragment.streamName] at plain
  cases kind : fragment.outputKind with
  | functionCall =>
    simp only [kind] at selected
    obtain ⟨⟨position, calls⟩, found, equal⟩ := bind_eq_ok.mp selected
    cases equal
    exact generationToolCall_selected identified listed kind found
  | explicitReasoning =>
    simp only [kind] at selected plain
    cases selected
    exact plain nofun holds_reasoning
  | _ =>
    simp only [kind] at selected plain
    cases selected
    exact plain nofun holds_text

theorem selectChannel_isOk (listed : Listed fragments result.identities)
    (identified : Identified (fragments ++ [fragment])) :
    ∃ selection, selectChannel result fragment = .ok selection := by
  rw [selectChannel]
  cases kind : fragment.outputKind with
  | functionCall =>
    have last : fragment ∈ fragments ++ [fragment] := by simp
    have alike : ∀ call ∈ result.toolCalls, call.callId = fragment.toolCallId →
        call.name = fragment.toolName := by
      intro call member same
      obtain ⟨earlier, inside, called, equal⟩ :=
        (listed.members (call.callId, call.name)).mp (mem_map_of_mem member)
      obtain ⟨first, second⟩ := Prod.mk.inj equal
      rw [← second]
      exact identified.alike earlier (mem_append_left _ inside) fragment last called kind
        (first.trans same)
    have room : (∀ call ∈ result.toolCalls, call.callId ≠ fragment.toolCallId) →
        result.toolCalls.length < toolsMax := by
      intro missing
      have few := identified.few
      rw [← (listed.push kind (not_mem_identities missing)).length_eq, length_append,
        GenerationResult.identities,
        length_map] at few
      exact few
    obtain ⟨selection, found⟩ :=
      generationToolCall_isOk (identified.given fragment last kind) alike room
    exact ⟨_, by rw [found]; rfl⟩
  | _ => exact ⟨_, rfl⟩

end Selection

/-! ## Runs -/

section

variable (stream : StreamName)

theorem gathered_append (fragments more : List Fragment) :
    gathered stream (fragments ++ more) = gathered stream fragments ++ gathered stream more :=
  flatMap_append

theorem gathered_last (fragments : List Fragment) (fragment : Fragment) :
    gathered stream (fragments ++ [fragment]) =
      gathered stream fragments ++ if fragment.streamName = stream then fragment.bytes else [] := by
  simp [gathered]

theorem received_append (events more : List Event) :
    received stream (events ++ more) = received stream events ++ received stream more := by
  rw [received, filterMap_append, flatMap_append]
  rfl

end

theorem received_pieces {stream other : StreamName} {pieces : List Bytes}
    (written : events.filterMap deltaOf = pieces.map fun piece => (stream, piece)) :
    received other events = if stream = other then pieces.flatten else [] := by
  rw [received, written]
  split
  · rename_i same
    simp [same, flatMap_def, Function.comp_def]
  · rename_i differs
    simp [differs]

def Legible (events : List Event) : Prop :=
  ∀ delta ∈ events.filterMap deltaOf, delta.2 ≠ [] ∧ WellFormed delta.2

/-- A state after some fragments: every channel holds what its fragments carry, and a streaming
client got its complete code points. -/
structure Tracks (start : HttpSink) (fragments : List Fragment)
    (state : HttpSink × GenerationResult) : Prop where
  identified : Identified fragments
  listed : Listed fragments state.2.identities
  bytes : ∀ stream, (state.2.named stream).bytes = gathered stream fragments
  splits : ∀ stream, Splits (state.2.named stream).bytes (state.2.named stream).validated
  stream : state.1.stream = start.stream
  sent : start.stream = true → ∃ events, state.1.events = start.events ++ events ∧
    Legible events ∧ ∀ stream, received stream events =
      (state.2.named stream).bytes.take (state.2.named stream).validated

/-- What the gateway accepts: named calls and, in every channel, the start of some text. -/
def Accepted (fragments : List Fragment) : Prop :=
  Identified fragments ∧ ∀ stream, Extensible (gathered stream fragments)

theorem Tracks.accepted {start : HttpSink} {state : HttpSink × GenerationResult}
    (tracks : Tracks start fragments state) : Accepted fragments :=
  ⟨tracks.identified, fun stream => tracks.bytes stream ▸ Splits.extensible (tracks.splits stream)⟩

section Step

variable {id : Bytes} {next : HttpSink × GenerationResult} {bytes : Bytes}

theorem resultAppend_eq_ok (joins : resultAppend bytes more = .ok joined) :
    joined = bytes ++ more := by
  rw [resultAppend] at joins
  split at joins
  · cases joins
  · cases joins
    rfl

theorem Legible.append {events more : List Event} (legible : Legible events)
    (legible' : Legible more) : Legible (events ++ more) := by
  intro delta member
  rw [filterMap_append] at member
  rcases mem_append.mp member with earlier | later
  · exact legible delta earlier
  · exact legible' delta later

variable {count : Nat} {result : GenerationResult} {pieces : List Bytes}

theorem Tracks.append (tracks : Tracks start fragments state)
    (selected : Selected fragments fragment state.2 place index result)
    (reads : channel = state.2.named fragment.streamName)
    (joins : bytes = channel.bytes ++ fragment.bytes)
    (scans : Splits (bytes.drop channel.validated) count)
    (cuts : start.stream = true → pieces.flatten = (bytes.drop channel.validated).take count ∧
      ∀ piece ∈ pieces, piece ≠ [] ∧ WellFormed piece)
    (writes : Writes state.1 sink (pieces.map fun piece => (fragment.streamName, piece))) :
    Tracks start (fragments ++ [fragment])
      (sink, result.setChannel ⟨bytes, channel.validated + count⟩ place) := by
  have old : Splits channel.bytes channel.validated := reads ▸ tracks.splits fragment.streamName
  have front : bytes.take channel.validated = channel.bytes.take channel.validated := by
    rw [joins, take_append_of_le_length old.1]
  have within : channel.validated ≤ bytes.length := by
    rw [joins, length_append]
    exact Nat.le_add_right_of_le old.1
  have named : ∀ stream, (result.setChannel ⟨bytes, channel.validated + count⟩ place).named stream =
      if stream = fragment.streamName then ⟨bytes, channel.validated + count⟩
      else state.2.named stream := by
    intro stream
    rw [selected.holds.writes, selected.kept]
  obtain ⟨streams, -, extra, events, written⟩ := writes
  refine ⟨selected.identified, ?_, ?_, ?_, streams.trans tracks.stream, ?_⟩
  · rw [setChannel_identities]
    exact selected.listed
  · intro stream
    rw [named, gathered_last, ← tracks.bytes]
    by_cases same : stream = fragment.streamName
    · rw [if_pos same, if_pos same.symm, same, ← reads, joins]
    · rw [if_neg same, if_neg (Ne.symm same), append_nil]
  · intro stream
    rw [named]
    split
    · exact Splits.of_drop (front ▸ old.2.1) within scans
    · exact tracks.splits stream
  · intro on
    obtain ⟨earlier, equal, legible, got⟩ := tracks.sent on
    obtain ⟨whole, each⟩ := cuts on
    refine ⟨earlier ++ extra, ?_, legible.append ?_, ?_⟩
    · rw [events, equal, append_assoc]
    · intro delta member
      rw [written] at member
      obtain ⟨piece, inside, rfl⟩ := mem_map.mp member
      exact each piece inside
    intro stream
    rw [received_append, got, received_pieces written, named, whole]
    by_cases same : stream = fragment.streamName
    · rw [if_pos same, if_pos same.symm, same, ← reads, take_add, front]
    · rw [if_neg same, if_neg (Ne.symm same), append_nil]

/-- What is done with a fragment: its place is selected, the bytes are joined and scanned, and the
complete code points are cut and emitted. -/
structure Taken (id : Bytes) (fragments : List Fragment) (state : HttpSink × GenerationResult)
    (fragment : Fragment) (place : ChannelName) (index : Nat) (result : GenerationResult)
    (bytes : Bytes) (count : Nat) (pieces : List Bytes) (sink : HttpSink) : Prop where
  selected : Selected fragments fragment state.2 place index result
  joins : bytes = (result.channel place).bytes ++ fragment.bytes
  scans : utf8Prefix (bytes.drop (result.channel place).validated) = some count
  cuts : streamedDeltas state.1.stream (bytes.drop (result.channel place).validated) count =
    .ok pieces
  emits : pieces.foldlM (generationFragmentEmit id fragment
    (result.setChannel ⟨bytes, (result.channel place).validated⟩ place) index) state.1 = .ok sink

theorem generationFragmentAppend_eq_ok (tracks : Tracks start fragments state)
    (appended : generationFragmentAppend id state fragment = .ok next) :
    ∃ place index result bytes count pieces sink,
      Taken id fragments state fragment place index result bytes count pieces sink ∧
        next = (sink, result.setChannel ⟨bytes, (result.channel place).validated + count⟩
          place) := by
  obtain ⟨⟨place, index, result⟩, selects, appended⟩ := bind_eq_ok.mp appended
  obtain ⟨bytes, joins, appended⟩ := bind_eq_ok.mp appended
  obtain ⟨count, scans, appended⟩ := bind_eq_ok.mp appended
  obtain ⟨pieces, cuts, appended⟩ := bind_eq_ok.mp appended
  obtain ⟨sink, emits, appended⟩ := bind_eq_ok.mp appended
  cases appended
  have selected := selectChannel_selected tracks.identified tracks.listed selects
  refine ⟨place, index, result, bytes, count, pieces, sink, ?_, ?_⟩
  · exact ⟨selected, resultAppend_eq_ok joins, orReject_eq_ok.mp scans, cuts, emits⟩
  · rw [setChannel_setChannel]

theorem Taken.writes
    (taken : Taken id fragments state fragment place index result bytes count pieces sink) :
    Writes state.1 sink (pieces.map fun piece => (fragment.streamName, piece)) := by
  obtain ⟨written, emitted, writes⟩ : ∃ written, pieces.foldlM (generationFragmentEmit id fragment
      (result.setChannel ⟨bytes, (result.channel place).validated⟩ place) index) state.1 =
        .ok written ∧ _ := foldlM_emit_writes (taken.selected.names.setChannel _ _) state.1 pieces
  cases emitted.symm.trans taken.emits
  exact writes

theorem generationFragmentAppend_tracks (tracks : Tracks start fragments state)
    (appended : generationFragmentAppend id state fragment = .ok next) :
    Tracks start (fragments ++ [fragment]) next := by
  obtain ⟨place, index, result, bytes, count, pieces, sink, taken, rfl⟩ :=
    generationFragmentAppend_eq_ok tracks appended
  have selected := taken.selected
  have splits := utf8Prefix_eq_some taken.scans
  apply tracks.append selected (selected.holds.reads.trans (selected.kept _)) taken.joins splits _
    taken.writes
  intro on
  have cuts := taken.cuts
  rw [streamedDeltas, tracks.stream, if_pos on] at cuts
  obtain ⟨others, cut, whole, each⟩ := deltas_spec splits.2.1 splits.1 le_rfl
  cases cut.symm.trans cuts
  exact ⟨whole, each⟩

theorem resultAppend_isOk (fits : (bytes ++ more).length ≤ contentMaxBytes) :
    resultAppend bytes more = .ok (bytes ++ more) := by
  rw [length_append] at fits
  rw [resultAppend, if_neg (by omega)]

theorem generationFragmentAppend_isOk (tracks : Tracks start fragments state)
    (fits : (gathered fragment.streamName (fragments ++ [fragment])).length ≤ contentMaxBytes)
    (accepted : Accepted (fragments ++ [fragment])) :
    ∃ next, generationFragmentAppend id state fragment = .ok next := by
  obtain ⟨⟨place, index, result⟩, selects⟩ := selectChannel_isOk tracks.listed accepted.1
  have selected := selectChannel_selected tracks.identified tracks.listed selects
  have old := tracks.splits fragment.streamName
  have extensible := accepted.2 fragment.streamName
  rw [gathered_last, if_pos rfl, ← tracks.bytes, ← selected.kept, ← selected.holds.reads]
    at fits extensible
  rw [← selected.kept, ← selected.holds.reads] at old
  have joins := resultAppend_isOk fits
  have front : WellFormed (((result.channel place).bytes ++ fragment.bytes).take
      (result.channel place).validated) := by
    rw [take_append_of_le_length old.1]
    exact old.2.1
  rw [← take_append_drop (result.channel place).validated
    ((result.channel place).bytes ++ fragment.bytes), front.extensible_iff] at extensible
  obtain ⟨count, scans⟩ := Option.isSome_iff_exists.mp (utf8Prefix_isSome.mpr extensible)
  have splits := utf8Prefix_eq_some scans
  obtain ⟨pieces, cuts⟩ : ∃ pieces, streamedDeltas state.1.stream
      (((result.channel place).bytes ++ fragment.bytes).drop (result.channel place).validated)
      count = .ok pieces := by
    rw [streamedDeltas]
    split
    · obtain ⟨pieces, cut, -⟩ := deltas_spec splits.2.1 splits.1 le_rfl
      exact ⟨pieces, cut⟩
    · exact ⟨[], rfl⟩
  obtain ⟨sink, emits, -⟩ : ∃ sink, pieces.foldlM (generationFragmentEmit id fragment
      (result.setChannel ⟨(result.channel place).bytes ++ fragment.bytes,
        (result.channel place).validated⟩ place) index) state.1 = .ok sink ∧ _ :=
    foldlM_emit_writes (selected.names.setChannel _ _) state.1 pieces
  exact ⟨_, bind_eq_ok.mpr ⟨_, selects, bind_eq_ok.mpr ⟨_, joins,
    bind_eq_ok.mpr ⟨count, orReject_eq_ok.mpr scans, bind_eq_ok.mpr ⟨pieces, cuts,
      bind_eq_ok.mpr ⟨sink, emits, rfl⟩⟩⟩⟩⟩⟩

end Step

section Run

variable {id : Bytes}

theorem tracks_empty (start : HttpSink) : Tracks start [] (start, .empty) where
  identified := ⟨nofun, nofun, Nat.zero_le _⟩
  listed := ⟨nodup_nil, fun call => ⟨nofun, nofun⟩⟩
  bytes stream := by cases stream <;> rfl
  splits stream := by cases stream <;> exact ⟨le_rfl, .nil, .inl rfl⟩
  stream := rfl
  sent _ := ⟨[], (append_nil _).symm, nofun, fun stream => by cases stream <;> rfl⟩

theorem generationFragments_tracks
    (runs : generationFragments id fragments (start, .empty) = .ok state) :
    Tracks start fragments state := by
  induction fragments using List.reverseRecOn generalizing state with
  | nil =>
    cases runs
    exact tracks_empty start
  | append_singleton fragments fragment induction => ?_
  rw [generationFragments, foldlM_append] at runs
  obtain ⟨middle, before, appended⟩ := bind_eq_ok.mp runs
  obtain ⟨last, appended, equal⟩ := bind_eq_ok.mp appended
  cases equal
  exact generationFragmentAppend_tracks (induction before) appended

theorem calledIds_dedup_length_le (fragments more : List Fragment) :
    (calledIds fragments).dedup.length ≤ (calledIds (fragments ++ more)).dedup.length := by
  have inside : (calledIds fragments).dedup ⊆ (calledIds (fragments ++ more)).dedup := by
    intro id member
    rw [mem_dedup] at member ⊢
    rw [calledIds, filterMap_append]
    exact mem_append_left _ member
  exact (subperm_of_subset (nodup_dedup _) inside).length_le

theorem Accepted.of_append (accepted : Accepted (fragments ++ more)) : Accepted fragments := by
  obtain ⟨identified, extensible⟩ := accepted
  refine ⟨⟨?_, ?_, ?_⟩, ?_⟩
  · intro fragment member
    exact identified.given fragment (mem_append_left _ member)
  · grind [cases Identified]
  · exact (calledIds_dedup_length_le fragments more).trans identified.few
  · intro stream
    obtain ⟨rest, formed⟩ := extensible stream
    rw [gathered_append, append_assoc] at formed
    exact ⟨_, formed⟩

theorem generationFragments_isOk (id : Bytes) (start : HttpSink)
    (fits : ∀ stream, (gathered stream fragments).length ≤ contentMaxBytes) :
    (∃ state, generationFragments id fragments (start, .empty) = .ok state) ↔
      Accepted fragments := by
  constructor
  · rintro ⟨state, runs⟩
    exact (generationFragments_tracks runs).accepted
  intro accepted
  induction fragments using List.reverseRecOn with
  | nil => exact ⟨_, rfl⟩
  | append_singleton fragments fragment induction => ?_
  have fits' : ∀ stream, (gathered stream fragments).length ≤ contentMaxBytes := by
    intro stream
    have bound := fits stream
    rw [gathered_append, length_append] at bound
    omega
  obtain ⟨state, runs⟩ := induction fits' accepted.of_append
  obtain ⟨next, appended⟩ := generationFragmentAppend_isOk
    (generationFragments_tracks runs) (fits _) accepted
  refine ⟨next, ?_⟩
  rw [generationFragments, foldlM_append]
  refine bind_eq_ok.mpr ⟨state, runs, ?_⟩
  rw [foldlM_cons, appended]
  rfl

variable {result : GenerationResult}

theorem generationComplete_eq_ok : generationComplete result finish = .ok completed ↔
      ((∀ call ∈ result.toolCalls, call.arguments.validated = call.arguments.bytes.length) ∧
        result.text.validated = result.text.bytes.length ∧
        result.reasoning.validated = result.reasoning.bytes.length) ∧
      completed = { result with finish, complete := true } := by
  simp only [generationComplete, bind_eq_ok, require_eq_ok, Bool.and_eq_true, all_eq_true,
    beq_iff_eq, and_assoc, exists_const]
  simp only [pure, Except.pure, Except.ok.injEq, eq_comm]

theorem named_whole_iff (distinct : (result.identities.map Prod.fst).Nodup) :
    ((∀ call ∈ result.toolCalls, call.arguments.validated = call.arguments.bytes.length) ∧
        result.text.validated = result.text.bytes.length ∧
        result.reasoning.validated = result.reasoning.bytes.length) ↔
      ∀ stream, (result.named stream).validated = (result.named stream).bytes.length := by
  constructor
  · rintro ⟨calls, text, reasoning⟩ stream
    cases stream with
    | text => exact text
    | reasoning => exact reasoning
    | call id => ?_
    by_cases known : ∃ call ∈ result.toolCalls, call.callId.bytes = id
    · obtain ⟨call, member, rfl⟩ := known
      rw [named_call distinct member]
      exact calls call member
    rw [named_missing]
    · rfl
    intro call member same
    obtain ⟨call, inside, rfl⟩ := mem_map.mp member
    exact known ⟨call, inside, same⟩
  · intro whole
    refine ⟨?_, whole .text, whole .reasoning⟩
    intro call member
    rw [← named_call distinct member]
    exact whole _

theorem Tracks.whole_iff (tracks : Tracks start fragments state) :
    (∀ stream, (state.2.named stream).validated = (state.2.named stream).bytes.length) ↔
      ∀ stream, WellFormed (gathered stream fragments) := by
  apply forall_congr'
  intro stream
  rw [← tracks.bytes]
  exact (Splits.wellFormed_iff (tracks.splits stream)).symm

end Run

/-! ## What a turn delivers -/

theorem length_gathered_le (stream : StreamName) (fragments : List Fragment) :
    (gathered stream fragments).length ≤
      (fragments.map fun fragment => fragment.bytes.length).sum := by
  induction fragments with
  | nil => exact le_rfl
  | cons fragment fragments induction => ?_
  rw [gathered, flatMap_cons, length_append, map_cons]
  apply Nat.add_le_add _ induction
  split
  · exact le_rfl
  · exact Nat.zero_le _

/-- The deltas of a turn put together are the fragments put together, on every channel, and so is
the result for a client that does not stream. The fragments are refused exactly when a call is not
identified or a channel has malformed text, and the end of the turn when a channel stops within a
code point. -/
theorem generationExecute_reassembles (id : Bytes) (sink : HttpSink) (fragments : List Fragment)
    (finish : FinishClass) (fits : ∀ stream, (gathered stream fragments).length ≤ contentMaxBytes) :
    ((∃ state, generationFragments id fragments (sink, .empty) = .ok state) ↔
        Identified fragments ∧ ∀ stream, Extensible (gathered stream fragments)) ∧
      ((∃ outcome, generationExecute id sink fragments finish = .ok outcome) ↔
        Identified fragments ∧ ∀ stream, WellFormed (gathered stream fragments)) ∧
      ∀ outcome, generationExecute id sink fragments finish = .ok outcome →
        (∀ stream, (outcome.2.named stream).bytes = gathered stream fragments) ∧
          (sink.stream = true → ∃ events, outcome.1.events = sink.events ++ events ∧
            Legible events ∧ ∀ stream, received stream events = gathered stream fragments) := by
  refine ⟨generationFragments_isOk id sink fits, ⟨?_, ?_⟩, ?_⟩
  · rintro ⟨outcome, executes⟩
    obtain ⟨state, runs, completes⟩ := bind_eq_ok.mp executes
    obtain ⟨result, completed, -⟩ := bind_eq_ok.mp completes
    have tracks := generationFragments_tracks runs
    have whole := (named_whole_iff tracks.listed.distinct).mp
      (generationComplete_eq_ok.mp completed).1
    exact ⟨tracks.identified, tracks.whole_iff.mp whole⟩
  · rintro ⟨identified, formed⟩
    obtain ⟨state, runs⟩ := (generationFragments_isOk id sink fits).mpr
      ⟨identified, fun stream => (formed stream).extensible⟩
    have tracks := generationFragments_tracks runs
    have whole := (named_whole_iff tracks.listed.distinct).mpr (tracks.whole_iff.mpr formed)
    exact ⟨_, bind_eq_ok.mpr ⟨state, runs, bind_eq_ok.mpr
      ⟨_, generationComplete_eq_ok.mpr ⟨whole, rfl⟩, rfl⟩⟩⟩
  intro outcome executes
  obtain ⟨state, runs, completes⟩ := bind_eq_ok.mp executes
  obtain ⟨result, completed, equal⟩ := bind_eq_ok.mp completes
  cases equal
  have tracks := generationFragments_tracks runs
  obtain ⟨channels, rfl⟩ := generationComplete_eq_ok.mp completed
  have whole := (named_whole_iff tracks.listed.distinct).mp channels
  refine ⟨tracks.bytes, fun on => ?_⟩
  obtain ⟨events, sent, legible, got⟩ := tracks.sent on
  refine ⟨events, sent, legible, fun stream => ?_⟩
  rw [got, whole, take_length, tracks.bytes]

def cutFragments : List Fragment := [⟨.assistantText, .ofBytes [], .ofBytes [], [0xc3], by decide⟩,
    ⟨.functionCall, .ofBytes [99], .ofBytes [102], [0x7b, 0x7d], by decide⟩,
    ⟨.assistantText, .ofBytes [], .ofBytes [], [0xa9], by decide⟩]

theorem generationExecute_reassembles_cut :
    (∀ stream, (gathered stream cutFragments).length ≤ contentMaxBytes) ∧
      ∃ outcome, generationExecute [] ⟨.responses, true, 0, 0, []⟩ cutFragments .stop =
        .ok outcome ∧ received .text outcome.1.events = [0xc3, 0xa9] := by
  have fits : ∀ stream, (gathered stream cutFragments).length ≤ contentMaxBytes :=
    fun stream => (length_gathered_le stream cutFragments).trans (by decide)
  have runs : (generationExecute [] ⟨.responses, true, 0, 0, []⟩ cutFragments .stop).isOk =
    true := by
    decide +kernel
  obtain ⟨outcome, executes⟩ := exists_of_isOk runs
  refine ⟨fits, outcome, executes, ?_⟩
  obtain ⟨-, -, delivers⟩ :=
    generationExecute_reassembles [] ⟨.responses, true, 0, 0, []⟩ cutFragments .stop fits
  obtain ⟨-, streams⟩ := delivers outcome executes
  obtain ⟨events, sent, -, got⟩ := streams rfl
  rw [sent]
  exact got .text

/-- A tool call without the name of a function is refused although its arguments are text. -/
theorem generationExecute_refuses_unnamed : (∀ stream, WellFormed (gathered stream
        [⟨.functionCall, .ofBytes [99], .ofBytes [], [0x7b, 0x7d], by decide⟩])) ∧
      ∀ outcome, generationExecute [] ⟨.responses, true, 0, 0, []⟩
        [⟨.functionCall, .ofBytes [99], .ofBytes [], [0x7b, 0x7d], by decide⟩] .stop ≠
          .ok outcome := by
  refine ⟨fun stream => ?_, nofun⟩
  have formed : WellFormed ([0x7b] ++ ([0x7d] ++ [])) := .cons rfl (.cons rfl .nil)
  rw [gathered, flatMap_cons, flatMap_nil]
  split
  · exact formed
  · exact .nil

end Yvex.Server.OpenAi
