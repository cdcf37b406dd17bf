import Yvex.Server.OpenAi.GenerationEvents

namespace Yvex.Server.OpenAi

open Utf8 List Yvex.Except

/-! # Turns in order

The last events of a turn name its items once more. They agree with what was streamed when no item
changed its place on the way. -/

/-! ## The end of a turn -/

section

variable (id : Bytes) (result : GenerationResult)

def itemEntry (outputIndex : Nat) (kind : ResponseEventKind) : Entry :=
  (kind, some (outputIndex, responseItem id result outputIndex))

def GenerationResult.hasMessage : Bool := !result.text.bytes.isEmpty || result.toolCalls.isEmpty

def emptyMessageEntries (mask : Nat) : List Entry :=
  if mask = 0 ∧ result.toolCalls.isEmpty then
    [.outputItemAdded, .contentPartAdded].map (itemEntry id result 0)
  else []

def messageEntries : List Entry :=
  if result.hasMessage then
    [.outputTextDone, .contentPartDone, .outputItemDone].map (itemEntry id result 0)
  else []

def toolEntries (index : Nat) : List Entry :=
  [.functionArgumentsDone, .outputItemDone].map (itemEntry id result (result.firstTool + index))

def reasoningEntries : List Entry :=
  if result.reasoning.bytes.isEmpty then [] else [(.reasoningDone, none)]

def closingEntries (mask : Nat) : List Entry :=
  emptyMessageEntries id result mask ++ (reasoningEntries result ++ (messageEntries id result ++
    (List.range result.toolCalls.length).flatMap (toolEntries id result)))

end

section Completion

variable {id : Bytes} {result : GenerationResult} {sink next : HttpSink}

theorem emptyMessageEmit_emits (emitted : emptyMessageEmit id result sink = .ok next) :
    Emits sink next (emptyMessageEntries id result sink.responseItemMask) := by
  rw [emptyMessageEmit] at emitted
  rw [emptyMessageEntries]
  split at emitted
  · rename_i none
    rw [if_pos none]
    obtain ⟨added, first, emitted⟩ := bind_eq_ok.mp emitted
    obtain ⟨started, second, equal⟩ := bind_eq_ok.mp emitted
    cases equal
    obtain ⟨endpoint, counts, events⟩ :=
      (responseEventEmit_emits first).1.trans (responseEventEmit_emits second).1
    exact ⟨endpoint, counts, events⟩
  · rename_i some
    rw [if_neg some]
    cases emitted
    exact .refl sink

theorem reasoningTerminalEmit_emits (emitted : reasoningTerminalEmit id result sink = .ok next) :
    Emits sink next (reasoningEntries result) := by
  rw [reasoningTerminalEmit] at emitted
  rw [reasoningEntries]
  split at emitted
  · rename_i empty
    rw [if_pos empty]
    cases emitted
    exact .refl sink
  · rename_i present
    rw [if_neg present]
    exact (responseEventEmit_emits emitted).1

theorem messageTerminalEmit_emits (emitted : messageTerminalEmit id result sink = .ok next) :
    Emits sink next (messageEntries id result) := by
  rw [messageTerminalEmit] at emitted
  rw [messageEntries, GenerationResult.hasMessage]
  split at emitted
  · rename_i present
    rw [if_pos present]
    obtain ⟨textDone, first, emitted⟩ := bind_eq_ok.mp emitted
    obtain ⟨partDone, second, third⟩ := bind_eq_ok.mp emitted
    exact (responseEventEmit_emits first).1.trans
      ((responseEventEmit_emits second).1.trans (responseEventEmit_emits third).1)
  · rename_i absent
    rw [if_neg absent]
    cases emitted
    exact .refl sink

theorem toolTerminalEmit_emits (emitted : toolTerminalEmit id result sink index = .ok next) :
    Emits sink next (toolEntries id result index) := by
  obtain ⟨done, first, second⟩ := bind_eq_ok.mp emitted
  exact (responseEventEmit_emits first).1.trans (responseEventEmit_emits second).1

theorem foldlM_tool_emits {indices : List Nat}
    (emitted : indices.foldlM (toolTerminalEmit id result) sink = .ok next) :
    Emits sink next (indices.flatMap (toolEntries id result)) := by
  induction indices generalizing sink with
  | nil =>
    cases emitted
    exact .refl _
  | cons index indices induction => ?_
  obtain ⟨middle, first, others⟩ := bind_eq_ok.mp emitted
  exact (toolTerminalEmit_emits first).trans (induction others)

theorem responseStreamComplete_emits (completed : responseStreamComplete id result sink = .ok next) :
    ∃ closed kind, Emits sink closed (closingEntries id result sink.responseItemMask) ∧
      isTerminal kind = true ∧ next = closed.write kind none [] (responseOutput id result) := by
  obtain ⟨ready, empty, completed⟩ := bind_eq_ok.mp completed
  obtain ⟨reasoned, reasoning, completed⟩ := bind_eq_ok.mp completed
  obtain ⟨spoken, message, completed⟩ := bind_eq_ok.mp completed
  obtain ⟨called, tools, terminal⟩ := bind_eq_ok.mp completed
  have emits := (emptyMessageEmit_emits empty).trans ((reasoningTerminalEmit_emits reasoning).trans
    ((messageTerminalEmit_emits message).trans (foldlM_tool_emits tools)))
  split at terminal
  · cases terminal
    exact ⟨called, .incomplete, emits, rfl, rfl⟩
  · cases terminal
    exact ⟨called, .completed, emits, rfl, rfl⟩

end Completion

section Output

variable {id : Bytes} {result : GenerationResult}

theorem about_itemEntries (outputIndex index : Nat) (kinds : List ResponseEventKind) :
    about index (kinds.map (itemEntry id result outputIndex)) =
      if outputIndex = index then kinds else [] := by
  rw [about_uniform outputIndex, map_map]
  · have same : kinds.map (Prod.fst ∘ itemEntry id result outputIndex) = kinds :=
      map_id'' (fun _ => rfl) kinds
    rw [same]
  · intro entry member
    obtain ⟨kind, -, rfl⟩ := mem_map.mp member
    rfl

theorem about_toolEntries (index count : Nat) :
    about index ((List.range count).flatMap (toolEntries id result)) =
      if result.firstTool ≤ index ∧ index < result.firstTool + count then
        [.functionArgumentsDone, .outputItemDone] else [] := by
  induction count with
  | zero =>
    rw [if_neg (by omega)]
    rfl
  | succ count induction => ?_
  rw [range_succ, flatMap_append, about_append, induction, flatMap_singleton,
    toolEntries, about_itemEntries]
  by_cases here : result.firstTool + count = index
  · rw [if_neg (by omega), if_pos here, if_pos (by omega)]
    rfl
  rw [if_neg here, append_nil]
  by_cases within : result.firstTool ≤ index ∧ index < result.firstTool + count
  · rw [if_pos within, if_pos (by omega)]
  · rw [if_neg within, if_neg (by omega)]

theorem about_closingEntries (mask index : Nat) : about index (closingEntries id result mask) =
      (if (mask = 0 ∧ result.toolCalls.isEmpty) ∧ 0 = index
        then [.outputItemAdded, .contentPartAdded] else []) ++
      ((if result.hasMessage ∧ 0 = index
        then [.outputTextDone, .contentPartDone, .outputItemDone] else []) ++
      if result.firstTool ≤ index ∧ index < result.firstTool + result.toolCalls.length
        then [.functionArgumentsDone, .outputItemDone] else []) := by
  have reasoning : about index (reasoningEntries result) = [] := by
    rw [reasoningEntries]
    split <;> rfl
  rw [closingEntries, about_append, about_append, about_append, reasoning, nil_append,
    about_toolEntries, emptyMessageEntries, messageEntries]
  congr 2
  · split
    · rename_i none
      rw [about_itemEntries]
      simp only [none, true_and]
    · rename_i some
      rw [if_neg fun both => some both.1]
      rfl
  split
  · rename_i present
    rw [about_itemEntries]
    simp only [present, true_and]
  · rename_i absent
    rw [if_neg fun both => absent both.1]
    rfl

theorem responseOutput_eq : responseOutput id result =
    (if result.hasMessage then [.message (messageId id)] else []) ++
      result.toolCalls.map fun call => .functionCall call.callId.bytes := rfl

theorem firstTool_eq (some : result.toolCalls ≠ []) :
    result.firstTool = if result.hasMessage then 1 else 0 := by
  rw [GenerationResult.firstTool, GenerationResult.hasMessage]
  cases result.text.bytes.isEmpty <;> simp [some]

theorem responseOutput_message (present : result.hasMessage = true) :
    responseItem id result 0 = .message (messageId id) ∧
      (responseOutput id result)[0]? = some (.message (messageId id)) := by
  have none : responseToolAt result 0 = none := by
    rw [responseToolAt]
    by_cases calls : result.toolCalls = []
    · rw [calls, getElem?_nil, ite_self]
    · rw [firstTool_eq calls, if_pos present, if_pos Nat.zero_lt_one]
  rw [responseItem, none, responseOutput_eq, if_pos present]
  exact ⟨rfl, rfl⟩

theorem responseOutput_tool (stands : result.toolCalls[toolIndex]? = some call) :
    (responseOutput id result)[result.firstTool + toolIndex]? =
      some (.functionCall call.callId.bytes) := by
  have listed : (result.toolCalls.map fun call =>
      OutputItem.functionCall call.callId.bytes)[toolIndex]? =
        some (.functionCall call.callId.bytes) := by
    rw [getElem?_map, stands]
    rfl
  rw [responseOutput_eq, firstTool_eq (ne_nil_of_mem (mem_of_getElem? stands))]
  cases result.hasMessage with
  | true =>
    rw [if_pos rfl, add_comm]
    exact listed
  | false =>
    rw [if_neg Bool.false_ne_true, if_neg Bool.false_ne_true, zero_add]
    exact listed

theorem responseOutput_index (inside : index < (responseOutput id result).length) :
    (result.hasMessage = true ∧ 0 = index) ∨
      ∃ toolIndex < result.toolCalls.length, index = result.firstTool + toolIndex := by
  by_cases calls : result.toolCalls = []
  · have present : result.hasMessage = true := by simp [GenerationResult.hasMessage, calls]
    rw [responseOutput_eq, if_pos present, calls] at inside
    exact .inl ⟨present, (Nat.lt_one_iff.mp inside).symm⟩
  rw [responseOutput_eq, length_append, length_map] at inside
  rw [firstTool_eq calls]
  by_cases present : result.hasMessage = true
  · rw [if_pos present] at inside ⊢
    by_cases first : 0 = index
    · exact .inl ⟨present, first⟩
    · rw [length_singleton] at inside
      exact .inr ⟨index - 1, by omega, by omega⟩
  · rw [if_neg present] at inside ⊢
    rw [length_nil] at inside
    exact .inr ⟨index, by omega, by omega⟩

theorem responseOutput_itemAt (known : itemAt id result.firstTool result index = some item) :
    (responseOutput id result)[index]? = some item := by
  rcases itemAt_eq_some known with ⟨below, rfl⟩ | ⟨above, ⟨callId, name⟩, stands, rfl⟩
  · have spoken : result.text.bytes.isEmpty = false := by
      by_contra silent
      rw [GenerationResult.firstTool, if_pos (Bool.eq_true_of_not_eq_false silent)] at below
      exact Nat.not_lt_zero _ below
    have zero : index = 0 := by
      rw [GenerationResult.firstTool, if_neg (Bool.eq_false_iff.mp spoken)] at below
      omega
    rw [zero]
    apply (responseOutput_message _).2
    rw [GenerationResult.hasMessage, spoken]
    rfl
  · rw [GenerationResult.identities, getElem?_map] at stands
    obtain ⟨call, found, equal⟩ := Option.map_eq_some_iff.mp stands
    cases equal
    have whole : index = result.firstTool + (index - result.firstTool) := by omega
    rw [whole]
    exact responseOutput_tool found

theorem responseOutput_nodup (distinct : (result.identities.map Prod.fst).Nodup) :
    (responseOutput id result).Nodup := by
  have calls : (result.toolCalls.map fun call =>
      OutputItem.functionCall call.callId.bytes).Nodup := by
    rw [GenerationResult.identities, map_map] at distinct
    have injective : ∀ first second : CString,
        OutputItem.functionCall first.bytes = .functionCall second.bytes → first = second :=
      fun first second same => CString.ext (OutputItem.functionCall.inj same)
    have mapped := distinct.map (f := fun id : CString => OutputItem.functionCall id.bytes) injective
    rwa [map_map] at mapped
  rw [responseOutput_eq]
  split
  · grind
  · exact calls

def Closes (output : List OutputItem) (entry : Entry) : Prop :=
  isTerminal entry.1 = false ∧ ∀ index item, entry.2 = some (index, item) →
    output[index]? = some item

theorem closes_itemEntries {kinds : List ResponseEventKind}
    (known : (responseOutput id result)[outputIndex]? = some (responseItem id result outputIndex))
    (runs : ∀ kind ∈ kinds, isTerminal kind = false) :
    ∀ entry ∈ kinds.map (itemEntry id result outputIndex),
      Closes (responseOutput id result) entry := by
  intro entry member
  obtain ⟨kind, inside, rfl⟩ := mem_map.mp member
  refine ⟨runs kind inside, fun index item named => ?_⟩
  cases named
  exact known

theorem closingEntries_closes (mask : Nat) :
    ∀ entry ∈ closingEntries id result mask, Closes (responseOutput id result) entry := by
  have message : result.hasMessage = true →
      (responseOutput id result)[0]? = some (responseItem id result 0) := by
    intro present
    obtain ⟨item, output⟩ := @responseOutput_message id result present
    rw [item, output]
  intro entry member
  rcases mem_append.mp member with empty | member
  · rw [emptyMessageEntries] at empty
    split at empty
    · rename_i none
      have present : result.hasMessage = true := by
        rw [GenerationResult.hasMessage, none.2, Bool.or_true]
      exact closes_itemEntries (message present) (by decide) entry empty
    · cases empty
  rcases mem_append.mp member with reasoning | member
  · rw [reasoningEntries] at reasoning
    split at reasoning
    · cases reasoning
    · cases mem_singleton.mp reasoning
      exact ⟨rfl, nofun⟩
  rcases mem_append.mp member with text | tools
  · rw [messageEntries] at text
    split at text
    · rename_i present
      exact closes_itemEntries (message present) (by decide) entry text
    · cases text
  obtain ⟨toolIndex, inside, among⟩ := mem_flatMap.mp tools
  have stands := getElem?_eq_getElem (mem_range.mp inside)
  apply closes_itemEntries _ (by decide) entry among
  rw [responseItem_tool stands]
  exact responseOutput_tool stands

end Output

section Closing

variable {id : Bytes} {result : GenerationResult} {sink next : HttpSink}

theorem Opened.framed (opened : Opened kinds) (more : List ResponseEventKind)
    (added : .outputItemAdded ∉ more) (done : .outputItemDone ∉ more) :
    ItemFramed (kinds ++ (more ++ [.outputItemDone])) := by
  obtain ⟨middle, rfl, added', done', -⟩ := opened
  refine ⟨middle ++ more, ?_, ?_, ?_⟩
  · simp
  · exact fun member => (mem_append.mp member).elim added' added
  · exact fun member => (mem_append.mp member).elim done' done

theorem Streaming.opened_of_ne_nil (streaming : Streaming items sink)
    (shown : about index ((responses sink.events).map ResponseEvent.entry) ≠ []) :
    sink.responseItemMask.testBit index = true ∧
      Opened (about index ((responses sink.events).map ResponseEvent.entry)) := by
  grind [cases Streaming]

theorem Streaming.closed_of_none (streaming : Streaming items sink)
    (none : ∀ index, items index = none) : sink.responseItemMask = 0 ∧
      ∀ index, about index ((responses sink.events).map ResponseEvent.entry) = [] := by
  have nothing : ∀ index, about index ((responses sink.events).map ResponseEvent.entry) = [] := by
    intro index
    apply eq_nil_iff_forall_not_mem.mpr
    intro kind member
    obtain ⟨item, among⟩ := mem_about.mp member
    obtain ⟨event, inside, entry⟩ := mem_map.mp among
    have fits := streaming.fits event inside
    rw [entry] at fits
    cases (none index).symm.trans (fits.agrees index item rfl)
  refine ⟨Nat.eq_of_testBit_eq fun index => ?_, nothing⟩
  have opened := streaming.opened index
  rw [nothing, Nat.zero_testBit] at *
  split at opened
  · obtain ⟨middle, empty, -⟩ := opened
    cases empty
  · rename_i clear
    exact Bool.eq_false_of_not_eq_true clear

theorem about_closing_tool (mask : Nat) (within : toolIndex < result.toolCalls.length) :
    about (result.firstTool + toolIndex) (closingEntries id result mask) =
      [.functionArgumentsDone, .outputItemDone] := by
  have calls : result.toolCalls ≠ [] := ne_nil_of_length_pos (by omega)
  rw [about_closingEntries, if_neg, if_neg, if_pos (by omega)]
  · rfl
  · rintro ⟨present, zero⟩
    rw [firstTool_eq calls, if_pos present] at zero
    omega
  · rintro ⟨⟨-, empty⟩, -⟩
    exact calls (isEmpty_iff.mp empty)

theorem about_framed (streaming : Streaming (itemAt id result.firstTool result) sink)
    (spoken : ∀ index item, itemAt id result.firstTool result index = some item →
      about index ((responses sink.events).map ResponseEvent.entry) ≠ [])
    (inside : index < (responseOutput id result).length) :
    ItemFramed (about index ((responses sink.events).map ResponseEvent.entry) ++
      about index (closingEntries id result sink.responseItemMask)) := by
  rcases responseOutput_index inside with ⟨present, rfl⟩ | ⟨toolIndex, within, rfl⟩
  · rw [about_closingEntries]
    by_cases silent : result.text.bytes.isEmpty = true
    · have calls : result.toolCalls.isEmpty = true := by
        rw [GenerationResult.hasMessage, silent] at present
        exact present
      have none : ∀ index, itemAt id result.firstTool result index = none := by
        intro index
        rw [itemAt, GenerationResult.firstTool, if_pos silent, GenerationResult.identities,
          isEmpty_iff.mp calls]
        rfl
      obtain ⟨mask, nothing⟩ := streaming.closed_of_none none
      rw [nothing, if_pos ⟨⟨mask, calls⟩, rfl⟩, if_pos ⟨present, rfl⟩, if_neg]
      · exact ⟨[.contentPartAdded, .outputTextDone, .contentPartDone], rfl, by decide, by decide⟩
      · rw [isEmpty_iff.mp calls, length_nil]
        omega
    · have first : result.firstTool = 1 := by rw [GenerationResult.firstTool, if_neg silent]
      have message : itemAt id result.firstTool result 0 = some (.message (messageId id)) := by
        rw [itemAt, first, if_pos Nat.zero_lt_one]
      obtain ⟨set, opened⟩ := streaming.opened_of_ne_nil (spoken 0 _ message)
      rw [if_neg, if_pos ⟨present, rfl⟩, if_neg (by omega)]
      · exact opened.framed [.outputTextDone, .contentPartDone] (by decide) (by decide)
      rintro ⟨⟨zero, -⟩, -⟩
      rw [zero] at set
      cases set
  · have stands := getElem?_eq_getElem within
    obtain ⟨-, opened⟩ := streaming.opened_of_ne_nil (spoken _ _ (itemAt_tool stands))
    rw [about_closing_tool _ within]
    exact opened.framed [.functionArgumentsDone] (by decide) (by decide)

theorem responses_write (sink : HttpSink) (kind : ResponseEventKind)
    (item : Option (Nat × OutputItem)) (content : Bytes) (output : List OutputItem) :
    responses (sink.write kind item content output).events =
      responses sink.events ++ [⟨kind, sink.responseSequence, item, content, output⟩] := by
  rw [HttpSink.write, responses_append]
  rfl

theorem responseStreamComplete_ordered
    (streaming : Streaming (itemAt id result.firstTool result) sink)
    (distinct : (result.identities.map Prod.fst).Nodup)
    (spoken : ∀ index item, itemAt id result.firstTool result index = some item →
      about index ((responses sink.events).map ResponseEvent.entry) ≠ [])
    (completed : responseStreamComplete id result sink = .ok next) :
    Ordered (responses next.events) (responseOutput id result) := by
  obtain ⟨closed, kind, emits, terminal, rfl⟩ := responseStreamComplete_emits completed
  have created := (streaming.toCreated.emits emits).emits
    (emits_write closed kind none [] (responseOutput id result))
  have closes : ∀ event ∈ responses closed.events,
      Closes (responseOutput id result) event.entry := by
    intro event member
    have among := mem_map_of_mem (f := ResponseEvent.entry) member
    rw [emits.entries] at among
    rcases mem_append.mp among with earlier | later
    · obtain ⟨other, inside, same⟩ := mem_map.mp earlier
      have fits := streaming.fits other inside
      rw [← same]
      exact ⟨fits.runs, fun index item named => responseOutput_itemAt (fits.agrees index item named)⟩
    · exact closingEntries_closes _ _ later
  refine ⟨created.numbered, created.starts, ?_, responseOutput_nodup distinct, ?_, ?_⟩
  · exact ⟨_, _, responses_write .., terminal, rfl, fun event member => (closes event member).1⟩
  · intro event member
    rw [responses_write] at member
    rcases mem_append.mp member with earlier | last
    · exact (closes event earlier).2
    · cases mem_singleton.mp last
      exact nofun
  intro index inside
  have nothing : about index ([⟨kind, closed.responseSequence, none, [],
      responseOutput id result⟩].map ResponseEvent.entry) = [] := rfl
  rw [responses_write, map_append, about_append, nothing, append_nil, emits.entries, about_append]
  exact about_framed streaming spoken inside

end Closing

/-! ## Runs -/

structure Settled (fragments : List Fragment) : Prop where
  argued : ∀ id ∈ calledIds fragments, gathered (.call id.bytes) fragments ≠ []
  ahead : Ahead fragments

section Runs

variable {id : Bytes} {fragments : List Fragment} {state : HttpSink × GenerationResult}

theorem firstTool_le (result : GenerationResult) : result.firstTool ≤ 1 := by
  rw [GenerationResult.firstTool]
  split <;> omega

theorem itemAt_injective (distinct : (result.identities.map Prod.fst).Nodup)
    (known : itemAt id result.firstTool result first = some item)
    (known' : itemAt id result.firstTool result second = some other)
    (same : item.streamName = other.streamName) : first = second := by
  have base := firstTool_le result
  rcases itemAt_eq_some known with ⟨below, rfl⟩ | ⟨above, call, stands, rfl⟩
  · rcases itemAt_eq_some known' with ⟨below', rfl⟩ | ⟨above', call', stands', rfl⟩
    · omega
    · cases same
  rcases itemAt_eq_some known' with ⟨below', rfl⟩ | ⟨above', call', stands', rfl⟩
  · cases same
  have ids : call.1 = call'.1 := CString.ext (StreamName.call.inj same)
  have position := index_lt stands
  have equal : (result.identities.map Prod.fst)[first - result.firstTool]? =
      (result.identities.map Prod.fst)[second - result.firstTool]? := by
    rw [getElem?_map, getElem?_map, stands, stands', Option.map_some, Option.map_some, ids]
  have one := (getElem?_inj (by rwa [length_map]) distinct).mp equal
  omega

theorem gathered_of_settled (settled : Settled fragments)
    (tracks : Tracks createdSink fragments state)
    (known : itemAt id state.2.firstTool state.2 index = some item) :
    gathered item.streamName fragments ≠ [] := by
  rcases itemAt_eq_some known with ⟨below, rfl⟩ | ⟨above, call, stands, rfl⟩
  · intro empty
    have none : gathered .text fragments = [] := empty
    rw [tracks.firstTool, none] at below
    exact Nat.not_lt_zero _ below
  · obtain ⟨fragment, inside, kind, equal⟩ :=
      (tracks.listed.members call).mp (mem_of_getElem? stands)
    exact settled.argued call.1 (mem_calledIds.mpr ⟨fragment, inside, kind, congrArg Prod.fst equal⟩)

theorem opened_of_settled (settled : Settled fragments)
    (tracks : Tracks createdSink fragments state)
    (streaming : Streaming (itemAt id state.2.firstTool state.2) state.1)
    (whole : ∀ stream, (state.2.named stream).validated = (state.2.named stream).bytes.length)
    (known : itemAt id state.2.firstTool state.2 index = some item) :
    about index ((responses state.1.events).map ResponseEvent.entry) ≠ [] := by
  have shown : state.2.shown item.streamName ≠ [] := by
    rw [GenerationResult.shown, whole, take_length, tracks.bytes]
    exact gathered_of_settled settled tracks known
  obtain ⟨event, member, delta, carries⟩ := tracks.exists_delta shown
  have apart : item.streamName ≠ .reasoning := by cases item <;> simp [OutputItem.streamName]
  obtain ⟨other, item', known', same, opens⟩ := streaming.about_of_delta member carries apart
  rwa [itemAt_injective tracks.listed.distinct known known' same.symm]

theorem generationFragmentAppend_extends (tracks : Tracks start fragments state)
    (appended : generationFragmentAppend id state fragment = .ok last) :
    state.1.events <+: last.1.events ∧ state.2.identities <+: last.2.identities := by
  obtain ⟨place, index, result, bytes, count, pieces, sink, taken, rfl⟩ :=
    generationFragmentAppend_eq_ok tracks appended
  have selected := taken.selected
  constructor
  · obtain ⟨-, -, extra, events, -⟩ := taken.writes
    exact ⟨extra, events.symm⟩
  · rw [setChannel_identities]
    exact selected.grows

theorem generationFragments_extends (tracks : Tracks start fragments state)
    (runs : generationFragments id more state = .ok last) :
    state.1.events <+: last.1.events ∧ state.2.identities <+: last.2.identities := by
  induction more generalizing fragments state with
  | nil =>
    cases runs
    exact ⟨prefix_rfl, prefix_rfl⟩
  | cons fragment more induction => ?_
  obtain ⟨middle, appended, rest⟩ := bind_eq_ok.mp runs
  obtain ⟨events, calls⟩ := generationFragmentAppend_extends tracks appended
  obtain ⟨events', calls'⟩ := induction (generationFragmentAppend_tracks tracks appended) rest
  exact ⟨events.trans events', calls.trans calls'⟩

theorem ahead_of_silent (empty : gathered .text fragments = []) : Ahead fragments := by
  intro before fragment after whole _ text present
  rw [whole, gathered_append] at empty
  have rest := (append_eq_nil_iff.mp empty).2
  rw [gathered, flatMap_cons, if_pos text] at rest
  exact absurd (append_eq_nil_iff.mp rest).1 present

theorem Tracks.shown_of_scan (tracks : Tracks createdSink fragments state) {stream : StreamName}
    (found : utf8Prefix (gathered stream fragments) ≠ some 0) : state.2.shown stream ≠ [] := by
  have splits := tracks.splits stream
  have extensible := splits.extensible
  rw [tracks.bytes] at extensible
  obtain ⟨count, scan⟩ := Option.isSome_iff_exists.mp (utf8Prefix_isSome.mpr extensible)
  have split := utf8Prefix_eq_some scan
  have least := (tracks.bytes stream ▸ splits).le split.1 split.2.1
  have positive : count ≠ 0 := fun zero => found (zero ▸ scan)
  have fits := splits.1
  intro empty
  have size := congrArg List.length empty
  rw [GenerationResult.shown, length_take, length_nil] at size
  omega

variable {next : HttpSink} {result : GenerationResult} {output : List OutputItem}
  (completed : responseStreamComplete id result state.1 = .ok next)

include completed

theorem mem_responses_of_complete
    (member : event ∈ responses state.1.events) : event ∈ responses next.events := by
  obtain ⟨closed, kind, emits, -, rfl⟩ := responseStreamComplete_emits completed
  obtain ⟨-, -, extra, events, -, -⟩ := emits
  rw [responses_write, events, responses_append, append_assoc]
  exact mem_append_left _ member

variable (ordered : Ordered (responses next.events) output)

include ordered

theorem Ordered.output_eq : output = responseOutput id result := by
  obtain ⟨closed, kind, -, -, rfl⟩ := responseStreamComplete_emits completed
  obtain ⟨front, last, events, -, rfl, -⟩ := ordered.ends
  rw [responses_write] at events
  obtain ⟨-, same⟩ := append_inj' events rfl
  cases singleton_inj.mp same
  rfl

variable (toolCalls : result.toolCalls = state.2.toolCalls)
  (base : result.firstTool = state.2.firstTool)

include toolCalls base

theorem ahead_of_ordered
    (runs : generationFragments id fragments (createdSink, .empty) = .ok state) :
    Ahead fragments := by
  intro before fragment after whole empty text present callId
  by_contra found
  have spoken := (generationFragments_tracks runs).firstTool
  rw [whole] at runs
  rw [generationFragments, foldlM_append] at runs
  obtain ⟨middle, first, rest⟩ := bind_eq_ok.mp runs
  have tracks := generationFragments_tracks first
  have streaming := generationFragments_streaming (ahead_of_silent empty) first
  obtain ⟨events, calls⟩ := generationFragments_extends tracks rest
  obtain ⟨event, member, delta, carries⟩ := tracks.exists_delta (tracks.shown_of_scan found)
  obtain ⟨index, item, known, same, opens⟩ := streaming.about_of_delta member carries (by simp)
  have agreed : output[index]? = some item := by
    obtain ⟨kind, among⟩ := exists_mem_of_ne_nil _ opens
    obtain ⟨item', entry⟩ := mem_about.mp among
    obtain ⟨shown, inside, equal⟩ := mem_map.mp entry
    have fits := streaming.fits shown inside
    rw [equal] at fits
    cases (fits.agrees index item' rfl).symm.trans known
    apply ordered.agrees shown _ index item (congrArg Prod.snd equal)
    apply mem_responses_of_complete completed
    obtain ⟨extra, events⟩ := events
    rw [← events, responses_append]
    exact mem_append_left _ inside
  -- The text moves the tool calls by one place.
  have moved : output[index + 1]? = some item := by
    rw [ordered.output_eq completed]
    apply responseOutput_itemAt
    have silent : middle.2.firstTool = 0 := by
      rw [tracks.firstTool, empty]
      rfl
    have later : result.firstTool = 1 := by
      rw [base, spoken]
      rw [whole, gathered_append, empty, gathered, flatMap_cons, if_pos text]
      simp [present]
    rcases itemAt_eq_some known with ⟨below, -⟩ | ⟨-, call, stands, rfl⟩
    · omega
    obtain ⟨extra, calls⟩ := calls
    rw [silent, Nat.sub_zero] at stands
    have identities : result.identities = state.2.identities := by
      rw [GenerationResult.identities, toolCalls]
      rfl
    rw [itemAt, later, Nat.add_sub_cancel, identities, ← calls,
      List.getElem?_append_left (index_lt stands), stands]
    rfl
  have inside := index_lt agreed
  have one := (getElem?_inj inside ordered.distinct).mp (agreed.trans moved.symm)
  omega

theorem argued_of_ordered (tracks : Tracks createdSink fragments state)
    (streaming : Streaming (itemAt id state.2.firstTool state.2) state.1) :
    ∀ callId ∈ calledIds fragments, gathered (.call callId.bytes) fragments ≠ [] := by
  intro callId member empty
  obtain ⟨fragment, inside, kind, rfl⟩ := mem_calledIds.mp member
  have listed := (tracks.listed.members _).mpr ⟨fragment, inside, kind, rfl⟩
  obtain ⟨call, among, equal⟩ := mem_map.mp listed
  obtain ⟨toolIndex, stands⟩ := mem_iff_getElem?.mp among
  have known : itemAt id state.2.firstTool state.2 (state.2.firstTool + toolIndex) = _ :=
    itemAt_tool stands
  have nothing : about (state.2.firstTool + toolIndex)
      ((responses state.1.events).map ResponseEvent.entry) = [] := by
    by_contra opens
    obtain ⟨event, member, delta, carries⟩ := streaming.exists_delta known opens
    apply tracks.shown_ne_nil member carries
    have same : call.callId = fragment.toolCallId := congrArg Prod.fst equal
    rw [OutputItem.streamName, same, GenerationResult.shown, tracks.bytes, empty, take_nil]
  have within : toolIndex < result.toolCalls.length := by
    rw [toolCalls]
    exact index_lt stands
  have framed : ItemFramed [.functionArgumentsDone, .outputItemDone] := by
    have place : result.firstTool + toolIndex < output.length := by
      rw [ordered.output_eq completed]
      rw [← toolCalls] at stands
      exact index_lt (responseOutput_tool stands)
    obtain ⟨closed, kind, emits, -, rfl⟩ := responseStreamComplete_emits completed
    have frames := ordered.framed _ place
    have last : about (result.firstTool + toolIndex) ([⟨kind, closed.responseSequence, none, [],
        responseOutput id result⟩].map ResponseEvent.entry) = [] := rfl
    rw [responses_write, map_append, about_append, last, emits.entries,
      about_append, about_closing_tool _ within, base, nothing] at frames
    exact frames
  obtain ⟨middle, equal, -⟩ := framed
  cases equal

end Runs

section Stream

variable {id : Bytes} {fragments : List Fragment} {finish : FinishClass} {sink : HttpSink}

section

variable (runs : responseStream id fragments finish = .ok sink)

include runs

theorem responseStream_eq_ok :
    ∃ state result, generationFragments id fragments (createdSink, .empty) = .ok state ∧
      (∀ stream, (state.2.named stream).validated = (state.2.named stream).bytes.length) ∧
      (result.toolCalls = state.2.toolCalls ∧ result.firstTool = state.2.firstTool) ∧
      responseStreamComplete id result state.1 = .ok sink := by
  obtain ⟨created, first, rest⟩ := bind_eq_ok.mp runs
  cases first
  obtain ⟨⟨before, result⟩, executes, completed⟩ := bind_eq_ok.mp rest
  obtain ⟨state, fragments, completes⟩ := bind_eq_ok.mp executes
  obtain ⟨result', ends, equal⟩ := bind_eq_ok.mp completes
  cases equal
  obtain ⟨channels, rfl⟩ := generationComplete_eq_ok.mp ends
  have distinct := (generationFragments_tracks fragments).listed.distinct
  exact ⟨state, { state.2 with finish, complete := true }, fragments,
    (named_whole_iff distinct).mp channels, ⟨rfl, rfl⟩, completed⟩

theorem ordered_of_settled
    (settled : Settled fragments) : ∃ output, Ordered (responses sink.events) output := by
  obtain ⟨state, result, turn, whole, ⟨toolCalls, base⟩, completed⟩ := responseStream_eq_ok runs
  have tracks := generationFragments_tracks turn
  have streaming := generationFragments_streaming settled.ahead turn
  have identities : state.2.identities = result.identities := by
    rw [GenerationResult.identities, ← toolCalls]
    rfl
  have same : itemAt id result.firstTool result = itemAt id state.2.firstTool state.2 := by
    funext index
    rw [itemAt, itemAt, base, identities]
  have distinct := tracks.listed.distinct
  rw [identities] at distinct
  refine ⟨_, responseStreamComplete_ordered (same ▸ streaming) distinct ?_ completed⟩
  intro index item known
  rw [same] at known
  exact opened_of_settled settled tracks streaming whole known

theorem settled_of_ordered (ordered : Ordered (responses sink.events) output) :
    Settled fragments := by
  obtain ⟨state, result, turn, -, ⟨toolCalls, base⟩, completed⟩ := responseStream_eq_ok runs
  have tracks := generationFragments_tracks turn
  have ahead := ahead_of_ordered completed ordered toolCalls base turn
  have streaming := generationFragments_streaming ahead turn
  exact ⟨argued_of_ordered completed ordered toolCalls base tracks streaming, ahead⟩

end

/-- The events of a successful stream are in order exactly when every tool call has arguments and
no complete code point of them comes before the first byte of text. -/
theorem responseStream_ordered_iff (runs : responseStream id fragments finish = .ok sink) :
    (∃ output, Ordered (responses sink.events) output) ↔ Settled fragments :=
  ⟨fun ⟨_, ordered⟩ => settled_of_ordered runs ordered, ordered_of_settled runs⟩

def textFragment : Fragment := ⟨.assistantText, .ofBytes [], .ofBytes [], [104], by decide⟩

def callFragment (bytes : Bytes) (bounded : bytes.length ≤ fragmentCap) : Fragment :=
  ⟨.functionCall, .ofBytes [99], .ofBytes [102], bytes, bounded⟩

theorem responseStream_ordered_text_call :
    ∃ sink, responseStream [114] [textFragment, callFragment [123, 125] (by decide)] .stop =
      .ok sink ∧ ∃ output, Ordered (responses sink.events) output := by
  have runs : (responseStream [114] [textFragment, callFragment [123, 125] (by decide)] .stop).isOk =
      true := by decide +kernel
  obtain ⟨sink, runs⟩ := exists_of_isOk runs
  refine ⟨sink, runs, (responseStream_ordered_iff runs).mpr ⟨by decide, ?_⟩⟩
  intro before fragment after whole empty _ _ callId
  cases before with
  | nil => rfl
  | cons first rest => ?_
  cases (cons.inj whole).1
  cases empty

/-- Text behind a tool call and a tool call without arguments are streamed out of order. -/
theorem responseStream_out_of_order :
    (∃ sink, responseStream [114] [callFragment [123, 125] (by decide), textFragment] .stop =
        .ok sink ∧ ∀ output, ¬ Ordered (responses sink.events) output) ∧
      ∃ sink, responseStream [114] [callFragment [] (by decide)] .stop = .ok sink ∧
        ∀ output, ¬ Ordered (responses sink.events) output := by
  constructor
  · have runs : (responseStream [114] [callFragment [123, 125] (by decide), textFragment]
        .stop).isOk = true := by decide +kernel
    obtain ⟨sink, runs⟩ := exists_of_isOk runs
    refine ⟨sink, runs, fun output ordered => ?_⟩
    have ahead := (settled_of_ordered runs ordered).ahead
    have silent := ahead [callFragment [123, 125] (by decide)] textFragment [] rfl rfl rfl nofun [99]
    cases silent
  · have runs : (responseStream [114] [callFragment [] (by decide)] .stop).isOk = true := by
      decide +kernel
    obtain ⟨sink, runs⟩ := exists_of_isOk runs
    refine ⟨sink, runs, fun output ordered => ?_⟩
    exact (settled_of_ordered runs ordered).argued (.ofBytes [99]) (by decide) rfl

end Stream

end Yvex.Server.OpenAi
