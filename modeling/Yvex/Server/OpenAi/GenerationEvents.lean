import Mathlib.Data.Nat.Bitwise
import Yvex.Server.OpenAi.GenerationText

namespace Yvex.Server.OpenAi

open Utf8 List Option Yvex.Except

/-! # The order of the events of a response

A client follows the items of a response by their index and id. Each item is added, gets its
deltas and is done, and the last event lists the items of the whole response. -/

/-! ## Order -/

def asResponse : Event → Option ResponseEvent
  | .response event => some event
  | .chunk .. => none

def responses (events : List Event) : List ResponseEvent := events.filterMap asResponse

abbrev Entry := ResponseEventKind × Option (Nat × OutputItem)

def ResponseEvent.entry (event : ResponseEvent) : Entry := (event.kind, event.item)

def about (index : Nat) (entries : List Entry) : List ResponseEventKind :=
  entries.filterMap fun entry => if entry.2.map Prod.fst = some index then some entry.1 else none

def isTerminal : ResponseEventKind → Bool
  | .completed | .incomplete => true
  | _ => false

/-- The kinds of the events of one item: it is added once, first, and done once, last. -/
def ItemFramed (kinds : List ResponseEventKind) : Prop :=
  ∃ middle, kinds = [.outputItemAdded] ++ middle ++ [.outputItemDone] ∧
    .outputItemAdded ∉ middle ∧ .outputItemDone ∉ middle

/-- Consecutive numbers of 64 bits. -/
def numbersFrom (first : UInt64) (count : Nat) : List UInt64 :=
  (List.range count).map (first + .ofNat ·)

/-- A stream that a client can follow to its output list. -/
structure Ordered (events : List ResponseEvent) (output : List OutputItem) : Prop where
  numbered : events.map ResponseEvent.sequence = numbersFrom 0 events.length
  starts : events.head?.map ResponseEvent.kind = some .created
  ends : ∃ front last, events = front ++ [last] ∧ isTerminal last.kind = true ∧
    last.output = output ∧ ∀ event ∈ front, isTerminal event.kind = false
  distinct : output.Nodup
  agrees : ∀ event ∈ events, ∀ index item, event.item = some (index, item) →
    output[index]? = some item
  framed : ∀ index < output.length, ItemFramed (about index (events.map ResponseEvent.entry))

theorem about_append (index : Nat) (entries more : List Entry) :
    about index (entries ++ more) = about index entries ++ about index more :=
  filterMap_append

theorem mem_about : kind ∈ about index entries ↔ ∃ item, (kind, some (index, item)) ∈ entries := by
  rw [about, mem_filterMap]
  constructor
  · rintro ⟨⟨kind', item'⟩, member, equal⟩
    split at equal
    · rename_i same
      cases equal
      obtain ⟨⟨index', item⟩, rfl, rfl⟩ := map_eq_some_iff.mp same
      exact ⟨item, member⟩
    · cases equal
  · rintro ⟨item, member⟩
    exact ⟨_, member, if_pos rfl⟩

theorem responses_append (events more : List Event) :
    responses (events ++ more) = responses events ++ responses more :=
  filterMap_append

theorem responses_map (events : List ResponseEvent) : responses (events.map .response) = events := by
  induction events with
  | nil => rfl
  | cons event events induction => exact congrArg (event :: ·) induction

theorem numbersFrom_add (first : UInt64) (count more : Nat) : numbersFrom first (count + more) =
    numbersFrom first count ++ numbersFrom (first + .ofNat count) more := by
  simp [numbersFrom, range_add, UInt64.add_assoc]

/-! ## Written events -/

structure Emits (sink next : HttpSink) (written : List Entry) : Prop where
  endpoint : next.endpoint = sink.endpoint
  counts : next.responseSequence = sink.responseSequence + .ofNat written.length
  events : ∃ extra : List ResponseEvent, next.events = sink.events ++ extra.map .response ∧
    extra.map ResponseEvent.entry = written ∧
    extra.map ResponseEvent.sequence = numbersFrom sink.responseSequence extra.length

theorem Emits.refl (sink : HttpSink) : Emits sink sink [] :=
  ⟨rfl, (UInt64.add_zero _).symm, [], (append_nil _).symm, rfl, rfl⟩

variable {sink : HttpSink}

theorem Emits.trans (emits : Emits sink middle first) (emits' : Emits middle last second) :
    Emits sink last (first ++ second) := by
  obtain ⟨endpoint, counts, extra, events, rfl, numbers⟩ := emits
  obtain ⟨endpoint', counts', extra', events', rfl, numbers'⟩ := emits'
  refine ⟨endpoint'.trans endpoint, ?_, extra ++ extra', ?_, map_append, ?_⟩
  · rw [counts', counts, length_append, UInt64.ofNat_add, UInt64.add_assoc]
  · rw [events', events, append_assoc, map_append]
  · rw [map_append, numbers, numbers', counts, length_append, length_map, numbersFrom_add]

theorem emits_write (sink : HttpSink) (kind : ResponseEventKind) (item : Option (Nat × OutputItem))
    (content : Bytes) (output : List OutputItem) :
    Emits sink (sink.write kind item content output) [(kind, item)] := by
  exact ⟨rfl, rfl, [⟨kind, sink.responseSequence, item, content, output⟩], rfl, rfl,
    by simp [numbersFrom]⟩

theorem responseEventEmit_emits {next : HttpSink} {id : Bytes}
    (emitted : responseEventEmit sink kind id result outputIndex delta = .ok next) :
    Emits sink next [(kind, eventItem kind id result outputIndex)] ∧
      next.responseItemMask = sink.responseItemMask := by
  obtain ⟨content, rendered, equal⟩ := bind_eq_ok.mp emitted
  cases equal
  exact ⟨emits_write _ _ _ _ _, rfl⟩

section Items

variable {id : Bytes} {result : GenerationResult} {call : Bool} {outputIndex : Nat}
  {sink next : HttpSink}

def openingEntries (call : Bool) (item : Option (Nat × OutputItem)) : List Entry :=
  (.outputItemAdded, item) :: if call then [] else [(.contentPartAdded, item)]

def deltaKind (call : Bool) : ResponseEventKind :=
  if call then .functionArgumentsDelta else .outputTextDelta

theorem contentPartStart_emits
    (started : contentPartStart id result call outputIndex sink = .ok next) :
    Emits sink next (if call then [] else
        [(.contentPartAdded, some (outputIndex, responseItem id result outputIndex))]) ∧
      next.responseItemMask = sink.responseItemMask := by
  cases call with
  | true =>
    cases started
    exact ⟨.refl sink, rfl⟩
  | false => exact responseEventEmit_emits started

theorem itemStart_emits (started : itemStart id result call outputIndex sink = .ok next) :
    Emits sink next (if sink.responseItemMask.testBit outputIndex then [] else
        openingEntries call (some (outputIndex, responseItem id result outputIndex))) ∧
      ∀ index, next.responseItemMask.testBit index =
        (sink.responseItemMask.testBit index || decide (outputIndex = index)) := by
  rw [itemStart] at started
  split at started
  · rename_i already
    cases started
    rw [if_pos already]
    refine ⟨.refl sink, fun index => ?_⟩
    by_cases same : outputIndex = index
    · rw [← same, already, Bool.true_or]
    · rw [decide_eq_false same, Bool.or_false]
  rename_i fresh
  obtain ⟨added, first, started⟩ := bind_eq_ok.mp started
  obtain ⟨parted, second, equal⟩ := bind_eq_ok.mp started
  cases equal
  obtain ⟨emits, mask⟩ := responseEventEmit_emits first
  obtain ⟨emits', mask'⟩ := contentPartStart_emits second
  rw [if_neg fresh]
  refine ⟨?_, fun index => ?_⟩
  · obtain ⟨endpoint, counts, events⟩ := emits.trans emits'
    exact ⟨endpoint, counts, events⟩
  · rw [Nat.testBit_or, Nat.testBit_two_pow, mask', mask]

theorem itemDelta_emits (emitted : itemDelta id result call outputIndex sink delta = .ok next) :
    Emits sink next ((if sink.responseItemMask.testBit outputIndex then [] else
        openingEntries call (some (outputIndex, responseItem id result outputIndex))) ++
          [(deltaKind call, some (outputIndex, responseItem id result outputIndex))]) ∧
      ∀ index, next.responseItemMask.testBit index =
        (sink.responseItemMask.testBit index || decide (outputIndex = index)) := by
  obtain ⟨started, start, emitted⟩ := bind_eq_ok.mp emitted
  obtain ⟨emits, mask⟩ := itemStart_emits start
  obtain ⟨emits', mask'⟩ := responseEventEmit_emits emitted
  rw [mask']
  refine ⟨emits.trans ?_, mask⟩
  cases call <;> exact emits'

end Items

/-! ## An open stream -/

def Opened (kinds : List ResponseEventKind) : Prop :=
  ∃ middle, kinds = .outputItemAdded :: middle ∧ .outputItemAdded ∉ middle ∧
    .outputItemDone ∉ middle ∧ ∃ call, deltaKind call ∈ middle

def Typed : Entry → Prop
  | (.outputTextDelta, item) => ∃ index id, item = some (index, .message id)
  | (.functionArgumentsDelta, item) => ∃ index id, item = some (index, .functionCall id)
  | _ => True

structure Fits (items : Nat → Option OutputItem) (entry : Entry) : Prop where
  runs : isTerminal entry.1 = false
  agrees : ∀ index item, entry.2 = some (index, item) → items index = some item
  typed : Typed entry

/-- A stream that has been created: numbered events, the first of which says so. -/
structure Created (sink : HttpSink) : Prop where
  endpoint : sink.endpoint = .responses
  events : sink.events = (responses sink.events).map .response
  counts : sink.responseSequence = .ofNat (responses sink.events).length
  numbered : (responses sink.events).map ResponseEvent.sequence =
    numbersFrom 0 (responses sink.events).length
  starts : (responses sink.events).head?.map ResponseEvent.kind = some .created

/-- A stream that has not ended, over the items that it is about. -/
structure Streaming (items : Nat → Option OutputItem) (sink : HttpSink) : Prop
    extends Created sink where
  fits : ∀ event ∈ responses sink.events, Fits items event.entry
  opened : ∀ index, if sink.responseItemMask.testBit index
    then Opened (about index ((responses sink.events).map ResponseEvent.entry))
    else about index ((responses sink.events).map ResponseEvent.entry) = []

section Streaming

variable {sink next : HttpSink}

theorem Emits.entries (emits : Emits sink next written) :
    (responses next.events).map ResponseEvent.entry =
      (responses sink.events).map ResponseEvent.entry ++ written := by
  obtain ⟨-, -, extra, events, rfl, -⟩ := emits
  rw [events, responses_append, responses_map, map_append]

theorem Created.emits (created : Created sink) (emits : Emits sink next written) :
    Created next := by
  obtain ⟨endpoint, counts, extra, events, rfl, numbers⟩ := emits
  have shown : responses next.events = responses sink.events ++ extra := by
    rw [events, responses_append, responses_map]
  refine ⟨endpoint.trans created.endpoint, ?_, ?_, ?_, ?_⟩
  · rw [shown, events, map_append, ← created.events]
  · rw [counts, created.counts, shown, length_append, length_map, UInt64.ofNat_add]
  · rw [shown, map_append, numbers, created.numbered, created.counts, length_append,
      numbersFrom_add, UInt64.zero_add]
  · grind [cases Created]

theorem Streaming.emits (streaming : Streaming items sink) (emits : Emits sink next written)
    (fits : ∀ entry ∈ written, Fits items entry)
    (opened : ∀ index, if next.responseItemMask.testBit index
      then Opened (about index ((responses sink.events).map ResponseEvent.entry ++ written))
      else about index ((responses sink.events).map ResponseEvent.entry ++ written) = []) :
    Streaming items next := by
  refine ⟨streaming.toCreated.emits emits, ?_, ?_⟩
  · intro event member
    have among := mem_map_of_mem (f := ResponseEvent.entry) member
    rw [emits.entries] at among
    rcases mem_append.mp among with earlier | later
    · grind [cases Streaming]
    · exact fits event.entry later
  · rw [emits.entries]
    exact opened

theorem Opened.append (opened : Opened kinds) (call : Bool) :
    Opened (kinds ++ [deltaKind call]) := by
  obtain ⟨middle, rfl, added, done, other, delta⟩ := opened
  refine ⟨middle ++ [deltaKind call], rfl, ?_, ?_, other, mem_append_left _ delta⟩
  · cases call <;> simpa [deltaKind] using added
  · cases call <;> simpa [deltaKind] using done

theorem about_uniform (outputIndex : Nat)
    (uniform : ∀ entry ∈ entries, entry.2.map Prod.fst = some outputIndex) (index : Nat) :
    about index entries = if outputIndex = index then entries.map Prod.fst else [] := by
  split
  · rename_i same
    rw [← filterMap_eq_map]
    apply filterMap_congr
    intro entry member
    rw [uniform entry member, if_pos (congrArg some same)]
    rfl
  · rename_i differs
    apply filterMap_eq_nil_iff.mpr
    intro entry member
    rw [uniform entry member, if_neg]
    exact fun equal => differs (some.inj equal)

theorem opened_start (call : Bool) (item : Option (Nat × OutputItem)) :
    Opened ((openingEntries call item ++ [(deltaKind call, item)]).map Prod.fst) := by
  cases call with
  | true => exact ⟨[deltaKind true], rfl, by decide, by decide, true, by decide⟩
  | false =>
    exact ⟨[.contentPartAdded, deltaKind false], rfl, by decide, by decide, false, by decide⟩

def deltaEntries (started call : Bool) (index : Nat) (item : OutputItem) : List Entry :=
  (if started then [] else openingEntries call (some (index, item))) ++
    [(deltaKind call, some (index, item))]

variable {call : Bool}

theorem openingEntries_entry :
    ∀ entry ∈ openingEntries call item, entry.2 = item ∧ isTerminal entry.1 = false ∧
      Typed entry := by
  cases call <;> simp [openingEntries, isTerminal, Typed]

theorem deltaEntries_entry :
    ∀ entry ∈ deltaEntries started call index item, entry.2 = some (index, item) ∧
      isTerminal entry.1 = false ∧ (Typed (deltaKind call, some (index, item)) → Typed entry) := by
  intro entry member
  rw [deltaEntries, mem_append, mem_singleton] at member
  rcases member with opening | rfl
  · cases started with
    | true => cases opening
    | false =>
      obtain ⟨about, runs, typed⟩ := openingEntries_entry entry opening
      exact ⟨about, runs, fun _ => typed⟩
  · refine ⟨rfl, ?_, id⟩
    cases call <;> rfl

theorem about_deltaEntries (started call : Bool) (outputIndex : Nat) (item : OutputItem)
    (index : Nat) :
    about index (deltaEntries started call outputIndex item) =
      if outputIndex = index then (deltaEntries started call outputIndex item).map Prod.fst
      else [] := by
  apply about_uniform outputIndex
  intro entry member
  rw [(deltaEntries_entry entry member).1]
  rfl

theorem itemDelta_streaming {id : Bytes} (streaming : Streaming items sink)
    (known : items outputIndex = some (responseItem id result outputIndex))
    (typed : Typed (deltaKind call, some (outputIndex, responseItem id result outputIndex)))
    (emitted : itemDelta id result call outputIndex sink delta = .ok next) :
    Streaming items next := by
  obtain ⟨emits, mask⟩ := itemDelta_emits emitted
  change Emits sink next (deltaEntries _ call outputIndex (responseItem id result outputIndex))
    at emits
  apply streaming.emits emits
  · intro entry member
    obtain ⟨about, runs, types⟩ := deltaEntries_entry entry member
    refine ⟨runs, ?_, types typed⟩
    intro index item named
    cases about.symm.trans named
    exact known
  intro index
  have before := streaming.opened index
  rw [mask, about_append, about_deltaEntries]
  by_cases same : outputIndex = index
  · subst same
    rw [decide_eq_true rfl, Bool.or_true, if_pos rfl, if_pos rfl]
    split at before
    · rename_i already
      rw [already]
      exact before.append call
    · rename_i fresh
      rw [before, Bool.eq_false_of_not_eq_true fresh]
      exact opened_start call _
  · rw [decide_eq_false same, Bool.or_false, if_neg same, append_nil]
    exact before

end Streaming

/-! ## Fragments -/

def itemAt (id : Bytes) (base : Nat) (result : GenerationResult) (index : Nat) :
    Option OutputItem :=
  if index < base then some (.message (messageId id))
  else result.identities[index - base]?.map fun call => .functionCall call.1.bytes

section Fragments

variable {id : Bytes} {result : GenerationResult} {sink next : HttpSink} {index : Nat}

theorem itemAt_eq_some (known : itemAt id base result index = some item) :
    (index < base ∧ item = .message (messageId id)) ∨
      (base ≤ index ∧ ∃ call, result.identities[index - base]? = some call ∧
        item = .functionCall call.1.bytes) := by
  rw [itemAt] at known
  split at known
  · rename_i below
    exact .inl ⟨below, (some.inj known).symm⟩
  · grind

theorem itemAt_tool (stands : result.toolCalls[toolIndex]? = some call) :
    itemAt id base result (base + toolIndex) = some (.functionCall call.callId.bytes) := by
  rw [itemAt, if_neg (by omega), Nat.add_sub_cancel_left, GenerationResult.identities,
    getElem?_map, stands]
  rfl

theorem itemAt_grows (grows : result.identities <+: other.identities)
    (known : itemAt id base result index = some item) : itemAt id base other index = some item := by
  rw [itemAt] at known ⊢
  split at known
  · rename_i below
    rw [if_pos below, known]
  rename_i above
  rw [if_neg above]
  obtain ⟨call, stands, rfl⟩ := map_eq_some_iff.mp known
  obtain ⟨rest, whole⟩ := grows
  rw [← whole, List.getElem?_append_left (index_lt stands), stands]
  rfl

theorem Streaming.mono (streaming : Streaming items sink)
    (grows : ∀ index item, items index = some item → other index = some item) :
    Streaming other sink :=
  { streaming with
    fits := fun event member =>
      { streaming.fits event member with
        agrees := fun index item named =>
          grows index item ((streaming.fits event member).agrees index item named) } }

theorem Streaming.plain (streaming : Streaming items sink) (emits : Emits sink next [(kind, none)])
    (mask : next.responseItemMask = sink.responseItemMask) (fits : Fits items (kind, none)) :
    Streaming items next := by
  apply streaming.emits emits
  · intro entry member
    cases mem_singleton.mp member
    exact fits
  intro index
  have nothing : about index [(kind, none)] = [] := rfl
  rw [mask, about_append, nothing, append_nil]
  exact streaming.opened index

theorem generationFragmentEmit_streaming
    (streaming : Streaming (itemAt id result.firstTool result) sink)
    (names : Names fragment result toolIndex)
    (spoken : fragment.streamName = .text → result.firstTool = 1)
    (emitted : generationFragmentEmit id fragment result toolIndex sink delta = .ok next) :
    Streaming (itemAt id result.firstTool result) next := by
  have message : fragment.streamName = .text →
      itemAt id result.firstTool result 0 = some (.message (messageId id)) ∧
        responseItem id result 0 = .message (messageId id) := by
    intro text
    have first := spoken text
    rw [itemAt, responseItem, responseToolAt, if_pos (by omega), if_pos (by omega)]
    exact ⟨rfl, rfl⟩
  rw [Fragment.streamName] at message
  rw [generationFragmentEmit, streaming.endpoint] at emitted
  cases kind : fragment.outputKind with
  | explicitReasoning =>
    simp only [kind] at emitted
    obtain ⟨emits, mask⟩ := responseEventEmit_emits emitted
    exact streaming.plain emits mask ⟨rfl, by simp, trivial⟩
  | functionCall =>
    simp only [kind] at emitted
    obtain ⟨call, stands, -⟩ := names kind
    refine itemDelta_streaming streaming ?_ ?_ emitted
    · rw [itemAt_tool stands, responseItem_tool stands]
    · rw [responseItem_tool stands]
      exact ⟨_, _, rfl⟩
  | _ =>
    simp only [kind] at emitted message
    obtain ⟨known, item⟩ := message rfl
    refine itemDelta_streaming streaming ?_ ?_ emitted
    · rw [known, item]
    · rw [item]
      exact ⟨_, _, rfl⟩

variable {pieces : List Bytes}

theorem foldlM_emit_streaming (streaming : Streaming (itemAt id result.firstTool result) sink)
    (names : Names fragment result toolIndex)
    (spoken : fragment.streamName = .text → result.firstTool = 1)
    (emitted : pieces.foldlM (generationFragmentEmit id fragment result toolIndex) sink = .ok next) :
    Streaming (itemAt id result.firstTool result) next := by
  induction pieces generalizing sink with
  | nil =>
    cases emitted
    exact streaming
  | cons piece pieces induction => ?_
  obtain ⟨middle, first, others⟩ := bind_eq_ok.mp emitted
  exact induction (generationFragmentEmit_streaming streaming names spoken first) others

theorem itemAt_setChannel (base : Nat) (channel : Channel) (place : ChannelName) :
    itemAt id base (result.setChannel channel place) = itemAt id base result := by
  funext index
  rw [itemAt, itemAt, setChannel_identities]

theorem firstTool_setChannel (validated other : Nat) (place : ChannelName) :
    (result.setChannel ⟨bytes, validated⟩ place).firstTool =
      (result.setChannel ⟨bytes, other⟩ place).firstTool := by
  cases place <;> rfl

theorem streamedDeltas_nil {count : Nat} (scans : utf8Prefix [] = some count)
    (cuts : streamedDeltas stream [] count = .ok pieces) : pieces = [] := by
  cases scans
  cases stream <;> (cases cuts; rfl)

theorem generationFragmentAppend_streaming (tracks : Tracks start fragments state)
    (streaming : Streaming (itemAt id last.2.firstTool state.2) state.1)
    (appended : generationFragmentAppend id state fragment = .ok last) :
    Streaming (itemAt id last.2.firstTool last.2) last.1 := by
  obtain ⟨place, index, result, bytes, count, pieces, sink, taken, rfl⟩ :=
    generationFragmentAppend_eq_ok tracks appended
  have selected := taken.selected
  rw [firstTool_setChannel _ (result.channel place).validated, itemAt_setChannel]
  rw [firstTool_setChannel _ (result.channel place).validated] at streaming
  rw [← itemAt_setChannel _ ⟨bytes, (result.channel place).validated⟩ place]
  have grown := streaming.mono fun index item => itemAt_grows (selected.grows)
  rw [← itemAt_setChannel _ ⟨bytes, (result.channel place).validated⟩ place] at grown
  have text : fragment.streamName = .text →
      (result.setChannel ⟨bytes, (result.channel place).validated⟩ place).text =
        ⟨bytes, (result.channel place).validated⟩ := by
    intro named
    have written := selected.holds.writes ⟨bytes, (result.channel place).validated⟩ .text
    rwa [if_pos named.symm] at written
  by_cases silent : fragment.streamName = .text ∧ bytes = []
  · obtain ⟨-, rfl⟩ := silent
    have scans := taken.scans
    have cuts := taken.cuts
    rw [drop_nil] at scans cuts
    have emits := taken.emits
    rw [streamedDeltas_nil scans cuts] at emits
    cases emits
    exact grown
  · apply foldlM_emit_streaming grown (selected.names.setChannel _ _) _ taken.emits
    intro named
    rw [GenerationResult.firstTool, text named, if_neg]
    rw [List.isEmpty_iff]
    exact fun empty => silent ⟨named, empty⟩

end Fragments

/-! ## Turns -/

/-- No complete code point of a tool call comes before the first byte of text. -/
def Ahead (fragments : List Fragment) : Prop :=
  ∀ before fragment after, fragments = before ++ fragment :: after →
    gathered .text before = [] → fragment.streamName = .text → fragment.bytes ≠ [] →
      ∀ id, utf8Prefix (gathered (.call id) before) = some 0

theorem Ahead.of_append (ahead : Ahead (fragments ++ more)) : Ahead fragments := by
  intro before fragment after whole
  apply ahead before fragment (after ++ more)
  rw [whole, append_assoc, cons_append]

def createdSink : HttpSink := responseSink.write .created none [] []

section Turns

variable {id : Bytes}

theorem createdSink_streaming (items : Nat → Option OutputItem) : Streaming items createdSink where
  endpoint := rfl
  events := rfl
  counts := rfl
  numbered := rfl
  starts := rfl
  fits event member := by
    cases mem_singleton.mp member
    exact ⟨rfl, nofun, trivial⟩
  opened index := by
    have none : createdSink.responseItemMask.testBit index = false := Nat.zero_testBit index
    rw [none]
    exact rfl

theorem Tracks.firstTool (tracks : Tracks start fragments state) :
    state.2.firstTool = if (gathered .text fragments).isEmpty then 0 else 1 := by
  rw [← tracks.bytes]
  rfl

variable {stream : StreamName} {events : List Event}

theorem received_ne_nil (legible : Legible events) (member : event ∈ events)
    (carries : deltaOf event = some (stream, delta)) : received stream events ≠ [] := by
  have inside := mem_filterMap.mpr ⟨event, member, carries⟩
  intro nothing
  rw [received, flatMap_eq_nil_iff] at nothing
  have empty := nothing _ inside
  rw [if_pos rfl] at empty
  exact (legible _ inside).1 empty

theorem exists_delta (some : received stream events ≠ []) :
    ∃ event ∈ events, ∃ delta, deltaOf event = Option.some (stream, delta) := by
  by_contra none
  apply some
  rw [received, flatMap_eq_nil_iff]
  rintro ⟨other, delta⟩ inside
  obtain ⟨event, member, carries⟩ := mem_filterMap.mp inside
  rw [if_neg]
  rintro rfl
  exact none ⟨event, member, delta, carries⟩

def OutputItem.streamName : OutputItem → StreamName
  | .message _ => .text
  | .functionCall id => .call id

section Deltas

variable {sink : HttpSink}

theorem Streaming.exists_delta (streaming : Streaming items sink) (known : items index = some item)
    (shown : about index ((responses sink.events).map ResponseEvent.entry) ≠ []) :
    ∃ event ∈ sink.events, ∃ delta, deltaOf event = some (item.streamName, delta) := by
  have opened := streaming.opened index
  split at opened
  · obtain ⟨middle, kinds, -, -, call, inside⟩ := opened
    have present : deltaKind call ∈ about index ((responses sink.events).map ResponseEvent.entry) :=
      kinds ▸ mem_cons_of_mem _ inside
    obtain ⟨item', member⟩ := mem_about.mp present
    obtain ⟨event, among, entry⟩ := mem_map.mp member
    have fits := streaming.fits event among
    rw [entry] at fits
    cases (fits.agrees index item' rfl).symm.trans known
    refine ⟨.response event, ?_, event.content, ?_⟩
    · rw [streaming.events]
      exact mem_map_of_mem among
    obtain ⟨kind, sequence, about, content, output⟩ := event
    cases entry
    cases call with
    | true =>
      obtain ⟨_, _, same⟩ := fits.typed
      cases same
      rfl
    | false => ?_
    obtain ⟨_, _, same⟩ := fits.typed
    cases same
    rfl
  · exact absurd opened shown

theorem Streaming.about_of_delta (streaming : Streaming items sink) (member : event ∈ sink.events)
    (carries : deltaOf event = some (stream, delta)) (apart : stream ≠ .reasoning) :
    ∃ index item, items index = some item ∧ item.streamName = stream ∧
      about index ((responses sink.events).map ResponseEvent.entry) ≠ [] := by
  rw [streaming.events] at member
  obtain ⟨response, among, rfl⟩ := mem_map.mp member
  have fits := streaming.fits response among
  have opens : ∀ index item, response.item = some (index, item) →
      about index ((responses sink.events).map ResponseEvent.entry) ≠ [] := by
    intro index item named
    apply ne_nil_of_mem
    apply mem_about.mpr ⟨item, mem_map.mpr ⟨response, among, ?_⟩⟩
    · exact response.kind
    · rw [ResponseEvent.entry, named]
  obtain ⟨kind, sequence, named, content, output⟩ := response
  cases kind with
  | outputTextDelta =>
    cases carries
    obtain ⟨index, id, same⟩ := fits.typed
    exact ⟨index, .message id, fits.agrees _ _ same, rfl, opens _ _ same⟩
  | functionArgumentsDelta =>
    obtain ⟨index, id, same⟩ := fits.typed
    cases same
    cases carries
    exact ⟨index, .functionCall id, fits.agrees _ _ rfl, rfl, opens _ _ rfl⟩
  | reasoningDelta =>
    cases carries
    exact absurd rfl apart
  | _ => cases carries

end Deltas

def GenerationResult.shown (result : GenerationResult) (stream : StreamName) : Bytes :=
  (result.named stream).bytes.take (result.named stream).validated

theorem Tracks.shown_ne_nil (tracks : Tracks createdSink fragments state)
    (member : event ∈ state.1.events) (carries : deltaOf event = some (stream, delta)) :
      state.2.shown stream ≠ [] := by
  obtain ⟨events, sent, legible, got⟩ := tracks.sent rfl
  rw [GenerationResult.shown, ← got]
  rw [sent] at member
  rcases mem_append.mp member with first | later
  · cases mem_singleton.mp first
    cases carries
  · exact received_ne_nil legible later carries

theorem Tracks.exists_delta (tracks : Tracks createdSink fragments state)
    (shown : state.2.shown stream ≠ []) :
    ∃ event ∈ state.1.events, ∃ delta, deltaOf event = some (stream, delta) := by
  obtain ⟨events, sent, -, got⟩ := tracks.sent rfl
  rw [GenerationResult.shown, ← got] at shown
  obtain ⟨event, member, carries⟩ := OpenAi.exists_delta shown
  exact ⟨event, sent ▸ mem_append_right _ member, carries⟩

theorem Streaming.of_silent (streaming : Streaming items state.1)
    (tracks : Tracks createdSink fragments state)
    (silent : ∀ item : OutputItem, state.2.shown item.streamName = []) :
    Streaming other state.1 := by
  refine { streaming with fits := fun event member => ?_ }
  have fits := streaming.fits event member
  refine { fits with agrees := fun index item named => ?_ }
  have present : event.kind ∈ about index ((responses state.1.events).map ResponseEvent.entry) :=
    mem_about.mpr ⟨item, named ▸ mem_map_of_mem member⟩
  obtain ⟨delta, among, bytes, carries⟩ :=
    streaming.exists_delta (fits.agrees index item named) (ne_nil_of_mem present)
  exact absurd (silent item) (tracks.shown_ne_nil among carries)

theorem Tracks.silent (tracks : Tracks createdSink fragments state)
    (empty : gathered .text fragments = [])
    (none : ∀ id, utf8Prefix (gathered (.call id) fragments) = some 0) (item : OutputItem) :
    state.2.shown item.streamName = [] := by
  rw [GenerationResult.shown]
  cases item with
  | message _ => rw [OutputItem.streamName, tracks.bytes, empty, take_nil]
  | functionCall id => ?_
  have splits := tracks.splits (.call id)
  rw [tracks.bytes] at splits
  have zero := (utf8Prefix_eq_some (none id)).le splits.1 splits.2.1
  rw [OutputItem.streamName, Nat.le_zero.mp zero, take_zero]

theorem generationFragments_streaming (ahead : Ahead fragments)
    (runs : generationFragments id fragments (createdSink, .empty) = .ok state) :
    Streaming (itemAt id state.2.firstTool state.2) state.1 := by
  induction fragments using List.reverseRecOn generalizing state with
  | nil =>
    cases runs
    exact createdSink_streaming _
  | append_singleton fragments fragment induction => ?_
  rw [generationFragments, foldlM_append] at runs
  obtain ⟨middle, before, appended⟩ := bind_eq_ok.mp runs
  obtain ⟨last, appended, equal⟩ := bind_eq_ok.mp appended
  cases equal
  have tracks := generationFragments_tracks before
  have streaming := induction ahead.of_append before
  apply generationFragmentAppend_streaming tracks _ appended
  by_cases same : state.2.firstTool = middle.2.firstTool
  · rw [same]
    exact streaming
  -- The fragment brings the first byte of text.
  rw [(generationFragmentAppend_tracks tracks appended).firstTool, tracks.firstTool,
    gathered_last] at same
  have empty : gathered .text fragments = [] := by
    by_contra present
    simp [present] at same
  rw [empty] at same
  have text : fragment.streamName = .text := by
    by_contra other
    rw [if_neg other] at same
    exact same rfl
  have present : fragment.bytes ≠ [] := by
    intro none
    rw [none, ite_self] at same
    exact same rfl
  apply streaming.of_silent tracks
  exact tracks.silent empty (ahead fragments fragment [] rfl empty text present)

end Turns

end Yvex.Server.OpenAi
