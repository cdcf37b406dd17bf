import Yvex.Core.Utf8

namespace Yvex.Tokenizer

open List Utf8

/-! # The incremental decoder

A token stands for the piece that it decodes to. How a piece is decoded, cancellation and the
lifecycle of a decoder are outside: a push is refused for the length of its piece or as malformed. -/

structure TokenizerDecoder where
  pending : Bytes
  stripPrefixPending : Bool

def stripPrefix (wanted : Bool) (piece : Bytes) : Bytes :=
  if wanted && piece.head? == some 32 then piece.tail else piece

/-- `decoder_stage_token`, from the decoded piece on: the fragment and the next state. -/
def decoderStageToken : TokenizerDecoder → Bytes → Except Rejection (Bytes × TokenizerDecoder)
  | ⟨pending, strip⟩, piece => do
    let combined := pending ++ stripPrefix strip piece
    require (decide (combined.length ≤ 4096)) .bounds "one token piece exceeds decoder bound"
    let count ← orReject (utf8Prefix combined) .format "token produces malformed UTF-8 stream"
    return (combined.take count, ⟨combined.drop count, strip && piece.isEmpty⟩)

def decoderPushes : TokenizerDecoder → List Bytes → Except Rejection (Bytes × TokenizerDecoder)
  | decoder, [] => .ok ([], decoder)
  | decoder, piece :: pieces => do
    let (bytes, state) ← decoderStageToken decoder piece
    let (others, last) ← decoderPushes state pieces
    return (bytes ++ others, last)

/-- `yvex_tokenizer_decoder_finish` behind all tokens, with the bytes of the fragments. -/
def decoderFinish (requireComplete : Bool) (decoder : TokenizerDecoder) (pieces : List Bytes) :
    Except Rejection Bytes := do
  let (bytes, last) ← decoderPushes decoder pieces
  require (!(requireComplete && !last.pending.isEmpty)) .format "incomplete UTF-8 tail remains"
  return bytes

/-- `yvex_tokenizer_decode`, from the decoded pieces on. -/
def tokenizerDecode (requireComplete metaspace : Bool) (pieces : List Bytes) :
    Except Rejection Bytes := do
  let text := stripPrefix metaspace pieces.flatten
  require (!requireComplete || valid text) .format "batch output is not complete UTF-8"
  return text

/-- The scanner leaves nothing or the beginning of one code point. -/
def Waits (pending : Bytes) : Prop := pending = [] ∨ tailValid pending = true

def Decodes (text : Bytes) : Except Rejection (Bytes × TokenizerDecoder) → Prop
  | .ok (bytes, last) => bytes ++ last.pending = text ∧ WellFormed bytes ∧ Waits last.pending
  | .error _ => ¬ Extensible text

theorem Waits.length_le (waits : Waits pending) : pending.length ≤ 3 := by
  rcases waits with empty | valid
  · simp [empty]
  · exact length_of_tailValid valid

theorem stripPrefix_append : stripPrefix strip (piece ++ others) =
    stripPrefix strip piece ++ stripPrefix (strip && piece.isEmpty) others := by
  cases piece with
  | nil => simp [stripPrefix]
  | cons byte _ => cases strip <;> by_cases space : byte = 32 <;> simp [stripPrefix, space]

theorem length_stripPrefix_le : (stripPrefix strip piece).length ≤ piece.length := by
  rw [stripPrefix]
  split <;> simp

theorem decoderPushes_decodes (waits : Waits pending)
    (short : ∀ piece ∈ pieces, piece.length ≤ 4092) :
    Decodes (pending ++ stripPrefix strip pieces.flatten) (decoderPushes ⟨pending, strip⟩ pieces) := by
  induction pieces generalizing pending strip with
  | nil => exact ⟨by simp [stripPrefix], .nil, waits⟩
  | cons piece pieces induction => ?_
  rcases forall_mem_cons.mp short with ⟨fits, others⟩
  have bound : (pending ++ stripPrefix strip piece).length ≤ 4096 := by
    have left := waits.length_le
    have right := @length_stripPrefix_le strip piece
    rw [length_append]
    omega
  rw [flatten_cons, stripPrefix_append, ← append_assoc, decoderPushes, decoderStageToken]
  generalize pending ++ stripPrefix strip piece = combined at bound ⊢
  rw [require, if_pos (decide_eq_true bound)]
  cases scanned : utf8Prefix combined with
  | none =>
    -- what nothing can complete stays so with more behind it
    rintro ⟨more, formed⟩
    rw [append_assoc] at formed
    cases scanned ▸ utf8Prefix_isSome.mpr ⟨_, formed⟩
  | some count =>
    rcases utf8Prefix_eq_some scanned with ⟨_, front, behind⟩
    have rest := @induction _ (strip && piece.isEmpty) behind others
    nth_rewrite 1 [← take_append_drop count combined]
    rw [append_assoc]
    simp only [orReject, bind, Except.bind, pure, Except.pure]
    generalize decoderPushes _ pieces = outcome at rest ⊢
    cases outcome with
    | error => exact fun possible => rest (front.extensible_iff.mp possible)
    | ok => exact ⟨by rw [append_assoc, rest.1], front.append_iff.mpr rest.2.1, rest.2.2⟩

/-- However a text is cut into tokens, the decoder refuses it exactly if nothing can complete it,
and otherwise has given out all its complete code points. -/
theorem decoderPushes_exact (short : ∀ piece ∈ pieces, piece.length ≤ 4092) :
    Decodes (stripPrefix metaspace pieces.flatten) (decoderPushes ⟨[], metaspace⟩ pieces) :=
  decoderPushes_decodes (.inl rfl) short

theorem decoderPushes_exact_euro :
    Decodes [226, 130, 172] (decoderPushes ⟨[], true⟩ [[32, 226], [130, 172]]) :=
  @decoderPushes_exact [[32, 226], [130, 172]] true (by decide)

/-- Decoding token by token gives the text of the batch, or both refuse it. -/
theorem decoderFinish_batch (short : ∀ piece ∈ pieces, piece.length ≤ 4092) :
    (decoderFinish true ⟨[], metaspace⟩ pieces).toOption =
      (tokenizerDecode true metaspace pieces).toOption := by
  have decodes := @decoderPushes_decodes [] _ metaspace (.inl rfl) short
  rw [nil_append] at decodes
  rw [decoderFinish, tokenizerDecode]
  generalize stripPrefix metaspace pieces.flatten = text at decodes ⊢
  generalize decoderPushes _ pieces = outcome at decodes ⊢
  have formed : valid text = true ↔ WellFormed text := validLoop_iff le_rfl
  simp only [require, bind, Except.bind]
  cases outcome with
  | error => simp [formed.not.mpr (mt WellFormed.extensible decodes), Except.toOption]
  | ok result => ?_
  rcases decodes with ⟨whole, front, waits⟩
  rw [← whole, front.append_iff] at formed
  rw [← whole]
  rcases waits with empty | behind
  · have complete := formed.mpr (empty ▸ .nil)
    simp_all
  · have malformed := formed.not.mpr (not_wellFormed_of_tailValid behind)
    simp [malformed, (tailValid_iff.mp behind).1, Except.toOption]

theorem decoderFinish_batch_euro :
    (decoderFinish true ⟨[], true⟩ [[32, 226], [130, 172]]).toOption = some [226, 130, 172] :=
  @decoderFinish_batch [[32, 226], [130, 172]] true (by decide)

end Yvex.Tokenizer
