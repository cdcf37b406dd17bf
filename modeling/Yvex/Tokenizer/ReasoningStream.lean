import Yvex.Foundation.Matcher
import Yvex.Tokenizer.Conversation

namespace Yvex.Tokenizer

open List Bool

/-! # Streamed reasoning

The bytes of a turn arrive in pieces. The stream hands what stands in front of the delimiter to
its sink as reasoning and what stands behind it as final text, and it keeps back the bytes that
may still turn into the delimiter. -/

open Provider (ReasoningPolicy)

def reasoningEmitCap : Nat := 4096

inductive ReasoningSegment where
  | explicit
  | finalText
deriving DecidableEq

structure Delivery where
  segment : ReasoningSegment
  bytes : Bytes

def ReasoningSink : Type := List Delivery → Delivery → Except Rejection Unit

/-- `yvex_tokenizer_reasoning_stream`, with what its sink was given so far. -/
structure ReasoningStream where
  reasoningEnd : Bytes
  pending : Bytes
  reasoning : Bool
  finished : Bool
  delivered : List Delivery

section

variable (sink : ReasoningSink)

def reasoningEmit (stream : ReasoningStream) (segment : ReasoningSegment) (bytes : Bytes) :
    Except Rejection Unit × ReasoningStream :=
  if bytes.isEmpty then (.ok (), stream)
  else (sink stream.delivered ⟨segment, bytes⟩,
    { stream with delivered := stream.delivered ++ [⟨segment, bytes⟩] })

variable (tokenizer : ConversationTokenizer) (policy : ReasoningPolicy)

def ConversationTokenizer.supports : Bool :=
  tokenizer.planSealed && tokenizer.conversationAdmitted && policy.valid &&
    (policy == .disabled || tokenizer.explicitReasoningSupported) &&
    (policy != .maximum || tokenizer.maximumReasoningSupported) &&
    (policy != .low || tokenizer.lowReasoningSupported)

def reasoningStreamOpen : Except Rejection ReasoningStream := do
  require (tokenizer.supports policy) .unsupported
    "reasoning policy is not supported by the tokenizer plan"
  let reasoningEnd ← orReject
    (joinParts reasoningDelimiterCap [] tokenizer.conversation.delimiterParts) .bounds
    "source reasoning delimiter exceeds stream capacity"
  require (!reasoningEnd.isEmpty) .bounds "source reasoning delimiter exceeds stream capacity"
  return ⟨reasoningEnd, [], policy != .disabled, false, []⟩

/-- The variables of `yvex_tokenizer_reasoning_stream_push` while it runs. -/
structure PushState where
  stream : ReasoningStream
  emitted : Bytes
  rc : Except Rejection Unit

section

variable (state : PushState)

def PushState.flush : PushState :=
  let (rc, stream) := reasoningEmit sink state.stream .explicit state.emitted
  ⟨stream, [], rc⟩

/-- The inner loop: the oldest pending byte is given up until the others begin the delimiter. -/
def shiftPending (sink : ReasoningSink) (state : PushState) : Bytes → PushState
  | [] => { state with stream.pending := [] }
  | byte :: pending =>
    if (byte :: pending).isPrefixOf state.stream.reasoningEnd then
      { state with stream.pending := byte :: pending }
    else
      let state := { state with emitted := state.emitted ++ [byte] }
      shiftPending sink
        (if state.emitted.length = reasoningEmitCap then state.flush sink else state) pending

/-- The delimiter is complete. What was collected is written, and the reasoning ends. -/
def PushState.boundary : PushState :=
  let state := if state.emitted.isEmpty then state else state.flush sink
  { state with stream.pending := [], stream.reasoning := false }

def PushState.take (byte : UInt8) : PushState :=
  let state := shiftPending sink state (state.stream.pending ++ [byte])
  if state.stream.pending.length = state.stream.reasoningEnd.length then state.boundary sink
  else state

end

def pushLoop (sink : ReasoningSink) (state : PushState) : Bytes → PushState × Bytes
  | [] => (state, [])
  | byte :: bytes =>
    if state.rc.isOk && state.stream.reasoning then pushLoop sink (state.take sink byte) bytes
    else (state, byte :: bytes)

variable (stream : ReasoningStream)

def reasoningStreamPush (bytes : Bytes) : Except Rejection Unit × ReasoningStream :=
  if stream.finished then
    (.error ⟨.invalidArgument, "open reasoning stream and bounded bytes are required"⟩, stream)
  else if !stream.reasoning then reasoningEmit sink stream .finalText bytes
  else
    let (state, rest) := pushLoop sink ⟨stream, [], .ok ()⟩ bytes
    let state := if state.rc.isOk && !state.emitted.isEmpty then state.flush sink else state
    if state.rc.isOk && !rest.isEmpty then reasoningEmit sink state.stream .finalText rest
    else (state.rc, state.stream)

def reasoningStreamFinish : Except Rejection Unit × ReasoningStream :=
  if stream.finished then (.error ⟨.state, "open reasoning stream is required"⟩, stream)
  else
    let (rc, emitted) :=
      reasoningEmit sink stream (if stream.reasoning then .explicit else .finalText) stream.pending
    (do
      rc
      require (!stream.reasoning) .format
        "thinking ended before its source delimiter; reset and retry with a larger token limit",
      { emitted with pending := [], finished := true })

def pushAll (sink : ReasoningSink) (stream : ReasoningStream) :
    List Bytes → Except Rejection Unit × ReasoningStream
  | [] => (.ok (), stream)
  | piece :: pieces =>
    match reasoningStreamPush sink stream piece with
    | (.ok _, stream) => pushAll sink stream pieces
    | (.error rejection, stream) => (.error rejection, stream)

def deliveredText (segment : ReasoningSegment) (deliveries : List Delivery) : Bytes :=
  deliveries.flatMap fun delivery => if delivery.segment = segment then delivery.bytes else []

def ReasoningSink.Accepts : Prop := ∀ earlier delivery, sink earlier delivery = .ok ()

end

structure Emits (before after : ReasoningStream) (segment : ReasoningSegment) (bytes : Bytes) :
    Prop where
  kept : after = { before with delivered := after.delivered }
  explicit : deliveredText .explicit after.delivered =
    deliveredText .explicit before.delivered ++ if segment = .explicit then bytes else []
  final : deliveredText .finalText after.delivered =
    deliveredText .finalText before.delivered ++ if segment = .finalText then bytes else []

variable {sink : ReasoningSink}

theorem reasoningEmit_emits (accepts : sink.Accepts) (stream : ReasoningStream)
    (segment : ReasoningSegment) (bytes : Bytes) :
    (reasoningEmit sink stream segment bytes).1 = .ok () ∧
      Emits stream (reasoningEmit sink stream segment bytes).2 segment bytes := by
  rw [reasoningEmit]
  split
  · rename_i empty
    rw [isEmpty_iff.mp empty]
    exact ⟨rfl, rfl, by simp, by simp⟩
  · refine ⟨accepts _ _, rfl, ?_, ?_⟩
    · simp [deliveredText]
    · simp [deliveredText]

/-- What a running push has handed out or collected as reasoning. -/
def PushState.explicit (state : PushState) : Bytes :=
  deliveredText .explicit state.stream.delivered ++ state.emitted

structure Gives (before after : PushState) (given : Bytes) : Prop where
  rc : before.rc = .ok () → after.rc = .ok ()
  explicit : after.explicit = before.explicit ++ given
  final : deliveredText .finalText after.stream.delivered =
    deliveredText .finalText before.stream.delivered
  reasoningEnd : after.stream.reasoningEnd = before.stream.reasoningEnd
  reasoning : after.stream.reasoning = before.stream.reasoning
  finished : after.stream.finished = before.stream.finished

theorem Gives.trans {first second third : PushState} {given more : Bytes}
    (gives : Gives first second given) (others : Gives second third more) :
    Gives first third (given ++ more) where
  rc accepted := others.rc (gives.rc accepted)
  explicit := by rw [others.explicit, gives.explicit, append_assoc]
  final := others.final.trans gives.final
  reasoningEnd := others.reasoningEnd.trans gives.reasoningEnd
  reasoning := others.reasoning.trans gives.reasoning
  finished := others.finished.trans gives.finished

theorem gives_collect (state : PushState) (given : Bytes) :
    Gives state { state with emitted := state.emitted ++ given } given :=
  ⟨id, (append_assoc ..).symm, rfl, rfl, rfl, rfl⟩

theorem flush_gives (accepts : sink.Accepts) (state : PushState) :
    Gives state (state.flush sink) [] ∧ (state.flush sink).emitted = [] ∧
      (state.flush sink).stream.pending = state.stream.pending := by
  obtain ⟨accepted, emits⟩ := reasoningEmit_emits accepts state.stream .explicit state.emitted
  have kept := emits.kept
  refine ⟨⟨fun _ => accepted, ?_, ?_, ?_, ?_, ?_⟩, rfl, ?_⟩
  · simpa [PushState.explicit, PushState.flush] using emits.explicit
  · simpa [PushState.flush] using emits.final
  all_goals
    simp only [PushState.flush]
    rw [kept]

theorem shiftPending_gives (accepts : sink.Accepts) (state : PushState) (window : Bytes) :
    Gives state (shiftPending sink state window)
        (Matcher.settle state.stream.reasoningEnd window).1 ∧
      (shiftPending sink state window).stream.pending =
        (Matcher.settle state.stream.reasoningEnd window).2 := by
  induction window generalizing state with
  | nil => exact ⟨⟨id, (append_nil _).symm, rfl, rfl, rfl, rfl⟩, rfl⟩
  | cons byte window induction => ?_
  rw [shiftPending, Matcher.settle]
  split
  · exact ⟨⟨id, (append_nil _).symm, rfl, rfl, rfl, rfl⟩, rfl⟩
  have collected := gives_collect state [byte]
  dsimp only
  split
  · have flushed := collected.trans (flush_gives accepts _).1
    obtain ⟨gives, pending⟩ := induction (PushState.flush sink
      { state with emitted := state.emitted ++ [byte] })
    rw [flushed.reasoningEnd] at gives pending
    exact ⟨flushed.trans gives, pending⟩
  · obtain ⟨gives, pending⟩ := induction { state with emitted := state.emitted ++ [byte] }
    exact ⟨collected.trans gives, pending⟩

structure SplitAt (delimiter text before behind : Bytes) : Prop where
  found : occurrence delimiter text = some before.length
  text_eq : text = before ++ delimiter ++ behind

variable {text : Bytes}

theorem SplitAt.append (split : SplitAt delimiter text before behind) (more : Bytes) :
    SplitAt delimiter (text ++ more) before (behind ++ more) where
  found := occurrence_append split.found more
  text_eq := by rw [split.text_eq, append_assoc]

/-- The stream took a text, of which it handed out `explicit`. -/
structure Follows (delimiter text : Bytes) (stream : ReasoningStream) (explicit : Bytes) :
    Prop where
  reasoningEnd : stream.reasoningEnd = delimiter
  finished : stream.finished = false
  /-- The delimiter is not complete. -/
  reading : stream.reasoning = true → Matcher.Tracks delimiter text explicit stream.pending ∧
    stream.pending.length < delimiter.length ∧ deliveredText .finalText stream.delivered = []
  /-- The delimiter is behind the stream. -/
  answering : stream.reasoning = false → stream.pending = [] ∧
    SplitAt delimiter text explicit (deliveredText .finalText stream.delivered)

variable {state : PushState}

theorem take_follows (accepts : sink.Accepts)
    (follows : Follows delimiter text state.stream state.explicit)
    (reasoning : state.stream.reasoning = true) (accepted : state.rc = .ok ()) (byte : UInt8) :
    Follows delimiter (text ++ [byte]) (state.take sink byte).stream
        (state.take sink byte).explicit ∧ (state.take sink byte).rc = .ok () := by
  obtain ⟨tracks, unfilled, final⟩ := follows.reading reasoning
  have stepped := tracks.step unfilled byte
  obtain ⟨gives, pending⟩ := shiftPending_gives accepts state (state.stream.pending ++ [byte])
  rw [follows.reasoningEnd] at gives pending
  rw [← gives.explicit, ← pending] at stepped
  rw [PushState.take]
  generalize shiftPending sink state (state.stream.pending ++ [byte]) = after
    at gives stepped
  have ended : after.stream.reasoningEnd = delimiter := gives.reasoningEnd.trans follows.reasoningEnd
  have empty := gives.final.trans final
  rw [ended]
  split
  · rename_i full
    -- the byte completes the delimiter
    have flushed : ∃ written, Gives after written [] ∧ written.emitted = [] ∧ after.boundary sink =
          { written with stream.pending := [], stream.reasoning := false } := by
      rw [PushState.boundary]
      split
      · rename_i nothing
        exact ⟨after, ⟨id, (append_nil _).symm, rfl, rfl, rfl, rfl⟩, isEmpty_iff.mp nothing, rfl⟩
      · obtain ⟨given, collected, -⟩ := flush_gives accepts after
        exact ⟨after.flush sink, given, collected, rfl⟩
    obtain ⟨written, given, -, same⟩ := flushed
    rw [same]
    refine ⟨⟨given.reasoningEnd.trans ended, ?_,
      fun reading => absurd reading false_ne_true, fun _ => ⟨rfl, ?_, ?_⟩⟩,
      given.rc (gives.rc accepted)⟩
    · exact given.finished.trans (gives.finished.trans follows.finished)
    · have found := stepped.occurrence_eq full
      rwa [← append_nil after.explicit, ← given.explicit] at found
    · have split := stepped.split
      rw [stepped.begins.eq_of_length full, ← append_nil after.explicit, ← given.explicit] at split
      rw [given.final.trans empty, append_nil]
      exact split
  · rename_i unfilled'
    have shorter := stepped.begins.length_le
    refine ⟨⟨ended, gives.finished.trans follows.finished, fun _ => ⟨stepped, by omega, empty⟩,
      fun answering => ?_⟩, gives.rc accepted⟩
    rw [gives.reasoning, reasoning] at answering
    cases answering

theorem pushLoop_follows {sink : ReasoningSink} (accepts : sink.Accepts) {delimiter text : Bytes}
    {state : PushState} (follows : Follows delimiter text state.stream state.explicit)
    (accepted : state.rc = .ok ()) (bytes : Bytes) :
    ∃ taken, taken ++ (pushLoop sink state bytes).2 = bytes ∧
      Follows delimiter (text ++ taken) (pushLoop sink state bytes).1.stream
        (pushLoop sink state bytes).1.explicit ∧ (pushLoop sink state bytes).1.rc = .ok () ∧
      ((pushLoop sink state bytes).2 ≠ [] →
        (pushLoop sink state bytes).1.stream.reasoning = false) := by
  induction bytes generalizing state text with
  | nil =>
    exact ⟨[], rfl, by simpa [pushLoop] using follows, accepted, fun absent => absurd rfl absent⟩
  | cons byte bytes induction => ?_
  rw [pushLoop]
  split
  · rename_i continues
    have reasoning := (and_eq_true_iff.mp continues).2
    obtain ⟨next, fine⟩ := take_follows accepts follows reasoning accepted byte
    obtain ⟨taken, whole, last, ends, rest⟩ := induction next fine
    refine ⟨byte :: taken, congrArg (byte :: ·) whole, ?_, ends, rest⟩
    rwa [append_assoc] at last
  · rename_i stops
    refine ⟨[], rfl, by simpa using follows, accepted, fun _ => ?_⟩
    simpa [accepted, Except.toBool] using stops

theorem Follows.emit_final (accepts : sink.Accepts) {explicit : Bytes}
    (follows : Follows delimiter text stream explicit) (answering : stream.reasoning = false)
    (bytes : Bytes) : (reasoningEmit sink stream .finalText bytes).1 = .ok () ∧
      Follows delimiter (text ++ bytes) (reasoningEmit sink stream .finalText bytes).2 explicit ∧
      deliveredText .explicit (reasoningEmit sink stream .finalText bytes).2.delivered =
        deliveredText .explicit stream.delivered := by
  obtain ⟨accepted, emits⟩ := reasoningEmit_emits accepts stream .finalText bytes
  have kept := emits.kept
  obtain ⟨empty, split⟩ := follows.answering answering
  refine ⟨accepted, ⟨?_, ?_, fun reading => ?_, fun _ => ⟨?_, ?_⟩⟩, by simpa using emits.explicit⟩
  · rw [kept]
    exact follows.reasoningEnd
  · rw [kept]
    exact follows.finished
  · rw [kept, answering] at reading
    cases reading
  · rw [kept]
    exact empty
  · rw [emits.final]
    exact split.append bytes

theorem Follows.gives {after : PushState}
    (follows : Follows delimiter text state.stream state.explicit) (gives : Gives state after [])
    (pending : after.stream.pending = state.stream.pending) :
    Follows delimiter text after.stream after.explicit := by
  have explicit : after.explicit = state.explicit := gives.explicit.trans (append_nil _)
  refine ⟨gives.reasoningEnd.trans follows.reasoningEnd, gives.finished.trans follows.finished,
    fun reading => ?_, fun answering => ?_⟩
  · rw [gives.reasoning] at reading
    rw [explicit, pending, gives.final]
    exact follows.reading reading
  · rw [gives.reasoning] at answering
    rw [explicit, pending, gives.final]
    exact follows.answering answering

theorem reasoningStreamPush_follows (accepts : sink.Accepts)
    (follows : Follows delimiter text stream (deliveredText .explicit stream.delivered))
    (bytes : Bytes) : (reasoningStreamPush sink stream bytes).1 = .ok () ∧
      Follows delimiter (text ++ bytes) (reasoningStreamPush sink stream bytes).2
        (deliveredText .explicit (reasoningStreamPush sink stream bytes).2.delivered) := by
  rw [reasoningStreamPush, if_neg (by rw [follows.finished]; exact false_ne_true)]
  split
  · rename_i answering
    have answered : stream.reasoning = false := by simpa using answering
    obtain ⟨accepted, next, explicit⟩ := follows.emit_final accepts answered bytes
    exact ⟨accepted, explicit ▸ next⟩
  obtain ⟨taken, whole, next, accepted, stopped⟩ :=
    @pushLoop_follows sink accepts delimiter text ⟨stream, [], .ok ()⟩
      (by simpa [PushState.explicit] using follows) rfl bytes
  generalize pushLoop sink ⟨stream, [], .ok ()⟩ bytes = outcome at *
  obtain ⟨state, rest⟩ := outcome
  dsimp only at accepted ⊢
  have flushed : ∃ written : PushState, written.rc = .ok () ∧
      written.stream.reasoning = state.stream.reasoning ∧
      Follows delimiter (text ++ taken) written.stream
        (deliveredText .explicit written.stream.delivered) ∧
      (if state.rc.isOk && !state.emitted.isEmpty then state.flush sink else state) = written := by
    split
    · obtain ⟨gives, empty, pending⟩ := flush_gives accepts state
      have flushed := next.gives gives pending
      rw [PushState.explicit, empty, append_nil] at flushed
      exact ⟨_, gives.rc accepted, gives.reasoning, flushed, rfl⟩
    rename_i nothing
    have empty : state.emitted = [] := by simpa [accepted, Except.toBool] using nothing
    rw [PushState.explicit, empty, append_nil] at next
    exact ⟨state, accepted, rfl, next, rfl⟩
  obtain ⟨written, fine, same, follows', equal⟩ := flushed
  rw [equal]
  split
  · rename_i more
    have present : rest ≠ [] := by simpa using (and_eq_true_iff.mp more).2
    obtain ⟨accepted', final, explicit⟩ :=
      follows'.emit_final accepts (same.trans (stopped present)) rest
    rw [append_assoc, whole] at final
    exact ⟨accepted', explicit ▸ final⟩
  · rename_i done
    have nothing : rest = [] := by simpa [fine, Except.toBool] using done
    rw [nothing, append_nil] at whole
    rw [whole] at follows'
    exact ⟨fine, follows'⟩

theorem pushAll_follows (accepts : sink.Accepts)
    (follows : Follows delimiter text stream (deliveredText .explicit stream.delivered))
    (pieces : List Bytes) : (pushAll sink stream pieces).1 = .ok () ∧
      Follows delimiter (text ++ pieces.flatten) (pushAll sink stream pieces).2
        (deliveredText .explicit (pushAll sink stream pieces).2.delivered) := by
  induction pieces generalizing stream text with
  | nil => exact ⟨rfl, by simpa [pushAll] using follows⟩
  | cons piece pieces induction => ?_
  obtain ⟨accepted, next⟩ := reasoningStreamPush_follows accepts follows piece
  rw [pushAll]
  generalize reasoningStreamPush sink stream piece = outcome at accepted next
  obtain ⟨rc, after⟩ := outcome
  cases accepted
  rw [flatten_cons, ← append_assoc]
  exact induction next

structure Finished (delimiter text : Bytes) (rc : Except Rejection Unit)
    (delivered : List Delivery) : Prop where
  /-- With the delimiter in the text, the two sides of its first occurrence. -/
  complete : ∀ position, occurrence delimiter text = some position → rc = .ok () ∧
    deliveredText .explicit delivered = text.take position ∧
    deliveredText .finalText delivered = text.drop (position + delimiter.length)
  /-- Without it, all of the text as reasoning. -/
  incomplete : occurrence delimiter text = none → rc = .error ⟨.format,
      "thinking ended before its source delimiter; reset and retry with a larger token limit"⟩ ∧
    deliveredText .explicit delivered = text ∧ deliveredText .finalText delivered = []

theorem reasoningStreamFinish_finished (accepts : sink.Accepts)
    (follows : Follows delimiter text stream (deliveredText .explicit stream.delivered)) :
    Finished delimiter text (reasoningStreamFinish sink stream).1
      (reasoningStreamFinish sink stream).2.delivered := by
  rw [reasoningStreamFinish, if_neg (by rw [follows.finished]; exact false_ne_true)]
  cases reasoning : stream.reasoning with
  | true =>
    obtain ⟨tracks, unfilled, final⟩ := follows.reading reasoning
    obtain ⟨accepted, emits⟩ := reasoningEmit_emits accepts stream .explicit stream.pending
    have absent := tracks.occurrence_eq_none unfilled
    refine ⟨fun position found => ?_, fun _ => ⟨?_, ?_, ?_⟩⟩
    · cases absent.symm.trans found
    · simp only [if_true, accepted]
      rfl
    · exact emits.explicit.trans tracks.split.symm
    · exact emits.final.trans (by simpa using final)
  | false =>
    obtain ⟨empty, split⟩ := follows.answering reasoning
    obtain ⟨accepted, emits⟩ := reasoningEmit_emits accepts stream .finalText stream.pending
    refine ⟨fun position found => ?_, fun absent => ?_⟩
    · cases split.found.symm.trans found
      have whole := split.text_eq
      refine ⟨?_, ?_, ?_⟩
      · simp only [Bool.false_eq_true, if_false, accepted]
        rfl
      · refine emits.explicit.trans ?_
        rw [if_neg (by decide), append_nil]
        rw [whole, append_assoc, take_left]
      · refine emits.final.trans ?_
        rw [empty, if_pos rfl, append_nil]
        rw [whole, ← length_append, drop_left]
    · cases split.found.symm.trans absent

theorem reasoningStreamOpen_eq (supported : tokenizer.supports policy = true)
    (present : tokenizer.conversation.delimiter ≠ [])
    (fits : tokenizer.conversation.delimiter.length ≤ reasoningDelimiterCap) :
    reasoningStreamOpen tokenizer policy =
      .ok ⟨tokenizer.conversation.delimiter, [], policy != .disabled, false, []⟩ := by
  rw [reasoningStreamOpen, joinParts_delimiter, if_pos fits]
  simp [supported, present, require, orReject, bind, Except.bind, pure, Except.pure]

theorem conversationOutputSelect_eq (supported : tokenizer.supports policy = true)
    (enabled : policy ≠ .disabled) (present : tokenizer.conversation.delimiter ≠ [])
    (fits : tokenizer.conversation.delimiter.length ≤ reasoningDelimiterCap)
    (formed : Utf8.WellFormed text) :
    conversationOutputSelect tokenizer policy text =
      match occurrence tokenizer.conversation.delimiter text with
      | some position => .ok ⟨text.take position,
          text.drop (position + tokenizer.conversation.delimiter.length)⟩
      | none => .error ⟨.format, "thinking completion is missing its source delimiter"⟩ := by
  have valid : policy.valid = true := by
    simp only [ConversationTokenizer.supports, and_eq_true] at supported
    exact supported.1.1.1.2
  have admitted : tokenizer.planSealed = true ∧ tokenizer.conversationAdmitted = true := by
    simp only [ConversationTokenizer.supports, and_eq_true] at supported
    exact supported.1.1.1.1
  have resolved : tokenizer.conversation.resolve policy = policy := by
    apply if_neg
    rintro rfl
    cases valid
  rw [conversationOutputSelect, joinParts_delimiter, if_pos fits, resolved]
  have whole : Utf8.valid text = true := (Utf8.validLoop_iff le_rfl).mpr formed
  simp only [admitted.1, admitted.2, whole, valid, enabled, orReject,
    isEmpty_eq_false_iff.mpr present, bind, Except.bind]
  cases occurrence tokenizer.conversation.delimiter text <;> rfl

/-- However a text is cut into pieces, the stream hands out the two sides of the first delimiter
as reasoning and final text, and these are the spans that a batch reading of the text selects. A
text without the delimiter is reasoning as a whole, and finishing it is an error. -/
theorem reasoningStream_splits {tokenizer : ConversationTokenizer} {policy : ReasoningPolicy}
    (supported : tokenizer.supports policy = true) (enabled : policy ≠ .disabled)
    (present : tokenizer.conversation.delimiter ≠ [])
    (fits : tokenizer.conversation.delimiter.length ≤ reasoningDelimiterCap)
    {sink : ReasoningSink} (accepts : sink.Accepts) (pieces : List Bytes) :
    ∃ opened pushed finished rc, reasoningStreamOpen tokenizer policy = .ok opened ∧
      pushAll sink opened pieces = (.ok (), pushed) ∧
      reasoningStreamFinish sink pushed = (rc, finished) ∧
      Finished tokenizer.conversation.delimiter pieces.flatten rc finished.delivered ∧
      ((∃ rejection, rc = .error rejection ∧ rejection.status = .format) ↔
        occurrence tokenizer.conversation.delimiter pieces.flatten = none) ∧
      (Utf8.WellFormed pieces.flatten → conversationOutputSelect tokenizer policy pieces.flatten =
          if rc = .ok () then
            .ok ⟨deliveredText .explicit finished.delivered,
              deliveredText .finalText finished.delivered⟩
          else .error ⟨.format, "thinking completion is missing its source delimiter"⟩) := by
  have opened := reasoningStreamOpen_eq supported present fits
  have enabled' : (policy != .disabled) = true := by simpa using enabled
  rw [enabled'] at opened
  have first : Follows tokenizer.conversation.delimiter []
      ⟨tokenizer.conversation.delimiter, [], true, false, []⟩ (deliveredText .explicit []) :=
    ⟨rfl, rfl, fun _ => ⟨Matcher.tracks_nil _, length_pos_of_ne_nil present, rfl⟩,
      fun answering => absurd answering.symm false_ne_true⟩
  obtain ⟨accepted, follows⟩ := pushAll_follows accepts first pieces
  rw [nil_append] at follows
  have finished := reasoningStreamFinish_finished accepts follows
  generalize pushes : pushAll sink _ pieces = pushed at accepted finished
  obtain ⟨fine, pushed⟩ := pushed
  generalize finishes : reasoningStreamFinish sink pushed = outcome at finished
  obtain ⟨rc, last⟩ := outcome
  dsimp only at finished
  refine ⟨_, pushed, last, rc, opened, pushes.trans (Prod.ext accepted rfl), finishes, finished, ?_,
    fun formed => ?_⟩
  · cases found : occurrence tokenizer.conversation.delimiter pieces.flatten with
    | none => exact iff_of_true ⟨_, (finished.incomplete found).1, rfl⟩ rfl
    | some position => ?_
    refine iff_of_false ?_ (Option.some_ne_none _)
    rintro ⟨rejection, failed, -⟩
    cases (finished.complete position found).1.symm.trans failed
  · rw [conversationOutputSelect_eq supported enabled present fits formed]
    cases found : occurrence tokenizer.conversation.delimiter pieces.flatten with
    | none =>
      rw [(finished.incomplete found).1]
      rfl
    | some position =>
      grind [cases Finished]

def overlapTokenizer : ConversationTokenizer where
  planSealed := true
  promptConversation := true
  conversationAdmitted := true
  explicitReasoningSupported := true
  maximumReasoningSupported := false
  lowReasoningSupported := false
  conversation :=
    let empty := CString.ofBytes []
    ⟨empty, empty, empty, CString.ofBytes [97], CString.ofBytes [97, 98], empty, empty, empty,
      empty, empty, empty, empty, empty, empty, empty, empty, .typedAttributes, .enabled⟩

theorem reasoningStream_splits_overlap :
    overlapTokenizer.supports .enabled = true ∧ ∃ opened pushed finished rc,
      reasoningStreamOpen overlapTokenizer .enabled = .ok opened ∧
      pushAll (fun _ _ => .ok ()) opened [[97, 97], [97], [98, 99]] = (.ok (), pushed) ∧
      reasoningStreamFinish (fun _ _ => .ok ()) pushed = (rc, finished) ∧
      rc = .ok () ∧ deliveredText .explicit finished.delivered = [97] ∧
      deliveredText .finalText finished.delivered = [99] := by
  refine ⟨by decide, ?_⟩
  obtain ⟨opened, pushed, finished, rc, opens, pushes, finishes, ends, -⟩ :=
    @reasoningStream_splits overlapTokenizer .enabled (by decide) (by decide) (by decide)
      (by decide) (fun _ _ => .ok ()) (fun _ _ => rfl)
      [[97, 97], [97], [98, 99]]
  exact ⟨opened, pushed, finished, rc, opens, pushes, finishes, ends.complete 1 (by decide)⟩

end Yvex.Tokenizer
