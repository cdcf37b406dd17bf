import Yvex.Runtime.Speculation

namespace Yvex.Runtime

open List Bool

/-! # What an iteration commits

Whatever is drafted, an iteration commits a portion of what the target decodes on its own, or
leaves the turn's tokens as they are (`Advance`). An iteration that nothing disturbs goes
through (`Went`). -/

namespace GenerationSettings

variable (settings : GenerationSettings)

inductive Advance (before : Turn) : StepResult → Prop
  | refused (rejection : Rejection) : Advance before (before, some rejection)
  | outputLimit (reached : before.modelCommittedTokenCount = settings.maximumNewTokens) :
      Advance before ({ before with stopReason := .maxNewTokens }, none)
  | contextLimit (reached : before.consumed.length = settings.contextCapacity) :
      Advance before ({ before with stopReason := .contextCapacity }, none)
  | extended (portion : List Nat) (after : Turn) (failure : Option Rejection)
      (nonempty : portion ≠ [])
      (decoded : portion = decode settings.next settings.terminal portion.length before.consumed)
      (unstopped : ∀ token ∈ portion, settings.terminal token = false)
      (output : before.modelCommittedTokenCount + portion.length ≤ settings.maximumNewTokens)
      (context : before.consumed.length + portion.length ≤ settings.contextCapacity)
      (consumed : after.consumed = before.consumed ++ portion)
      (committed : after.committed = before.committed ++ portion)
      (counted : after.modelCommittedTokenCount = before.modelCommittedTokenCount + portion.length)
      (kept : after.failure = before.failure)
      (stop : after.stopReason = before.stopReason ∧ failure = none ∨
        after.stopReason = .outputFailure ∧ failure.isSome) :
      Advance before (after, failure)
  | ended (portion : List Nat) (last : Nat) (after : Turn) (failure : Option Rejection)
      (decoded : portion ++ [last] =
        decode settings.next settings.terminal (portion.length + 1) before.consumed)
      (unstopped : ∀ token ∈ portion, settings.terminal token = false)
      (stopped : settings.terminal last = true)
      (output : before.modelCommittedTokenCount + portion.length < settings.maximumNewTokens)
      (context : before.consumed.length + portion.length < settings.contextCapacity)
      (consumed : after.consumed = before.consumed ++ portion)
      (committed : after.committed = before.committed ++ portion ++ [last])
      (counted : after.modelCommittedTokenCount = before.modelCommittedTokenCount + portion.length)
      (kept : after.failure = before.failure)
      (stop : after.stopReason = .eos ∨ after.stopReason = .tokenizerToken) :
      Advance before (after, failure)

theorem Advance.failure_eq
    (advance : settings.Advance before result) : result.1.failure = before.failure := by
  cases advance with
  | refused rejection => rfl
  | outputLimit reached => rfl
  | contextLimit reached => rfl
  | extended => assumption
  | ended => assumption

/-! ## One cycle -/

/-- The rows of a verification behind `held`, candidate by candidate. -/
theorem range_map_rows (next : List Nat → Nat) (held : List Nat) (first : Nat) (rest : List Nat) :
    (List.range ((first :: rest).length + 1)).map
        (fun row => next (held ++ (first :: rest).take row)) =
      next held :: (List.range (rest.length + 1)).map
        (fun row => next (held ++ [first] ++ rest.take row)) := by
  rw [range_succ_eq_map, map_cons]
  simp [Function.comp_def]

theorem follows_accepted (next : List Nat → Nat) (held candidates : List Nat) :
    let rows := (List.range (candidates.length + 1)).map
      fun row => next (held ++ candidates.take row)
    let agreed := agreement candidates rows
    Follows next held (candidates.take agreed ++ [rows.getD agreed 0]) := by
  induction candidates generalizing held with
  | nil => simp [agreement, Follows]
  | cons first rest induction => ?_
  simp only [range_map_rows, agreement]
  split
  · rename_i same
    have behind := induction (held ++ [first])
    simpa [Follows, same] using behind
  · simp [Follows]

theorem length_verificationRows (consumed : List Nat) (anchor : Nat) (candidates : List Nat) :
    (settings.verificationRows consumed anchor candidates).length = candidates.length + 1 := by
  simp [verificationRows]

theorem follows_cycle (consumed candidates : List Nat) :
    Follows settings.next consumed (settings.next consumed :: (acceptanceOf
      (settings.cycleRequest consumed (settings.next consumed) candidates)).committedTokenIds) := by
  have behind := follows_accepted settings.next (consumed ++ [settings.next consumed]) candidates
  simpa [Follows, acceptanceOf, cycleRequest, verificationRows] using behind

def published (turn : Turn) (portion : List Nat) : Turn :=
  { turn with
    consumed := turn.consumed ++ portion
    committed := turn.committed ++ portion
    modelCommittedTokenCount := turn.modelCommittedTokenCount + portion.length
    speculationSourceBoundaryTokenCount :=
      settings.sourceBoundary turn.committed.length
        turn.speculationSourceBoundaryTokenCount portion }

variable {count : Nat} {turn : Turn}

theorem speculativePublish_cases (fault : Option Fault) (within : count ≤ pending.tokens.length)
    (unstopped : ∀ token ∈ pending.tokens.take count, settings.terminal token = false)
    (staged : settings.commitPrefix pending count turn.consumed =
      .ok (turn.consumed ++ pending.tokens.take count)) :
    (∃ rejection, settings.speculativePublish fault pending count turn = (turn, some rejection)) ∨
      (∃ rejection, settings.speculativePublish fault pending count turn =
        ({ settings.published turn (pending.tokens.take count) with
            stopReason := .outputFailure }, some rejection)) ∨
      settings.speculativePublish fault pending count turn =
        (settings.published turn (pending.tokens.take count), none) := by
  have clean : (pending.tokens.take count).any settings.terminal = false := by
    simpa [any_eq_false] using unstopped
  have length : (pending.tokens.take count).length = count := by simp [within]
  simp only [speculativePublish, published, clean, staged, length]
  rcases fault with _ | fault
  · simp
  · cases fault <;> simp

theorem Advance.of_published
    (follows : Follows settings.next turn.consumed tokens) (cut : portion = tokens.take count)
    (positive : 0 < count) (within : count ≤ tokens.length)
    (unstopped : count ≤ tokens.findIdx settings.terminal)
    (output : turn.modelCommittedTokenCount + count ≤ settings.maximumNewTokens)
    (context : turn.consumed.length + count ≤ settings.contextCapacity)
    {failure : Option Rejection} (stop : reason = turn.stopReason ∧ failure = none ∨
      reason = .outputFailure ∧ failure.isSome) :
    settings.Advance turn
      ({ settings.published turn portion with stopReason := reason }, failure) := by
  have length : portion.length = count := by simp [cut, within]
  refine .extended portion _ failure ?_ ?_ ?_ (by omega) (by omega) rfl rfl rfl rfl stop
  · intro empty
    rw [empty, length_nil] at length
    omega
  · rw [length, cut]
    exact follows.take_eq_decode within (by omega)
  · rw [cut]
    exact stops_take_of_le_findIdx unstopped

theorem committedTokenIds_acceptanceOf (request : AcceptanceRequest) :
    (acceptanceOf request).committedTokenIds =
      request.candidateTokenIds.take (acceptanceOf request).acceptedDraftCount ++
        [(acceptanceOf request).correctionOrBonusTokenId] := rfl

theorem acceptedDraftCount_acceptanceOf_le (request : AcceptanceRequest) :
    (acceptanceOf request).acceptedDraftCount ≤ request.candidateTokenIds.length :=
  agreement_le _ _

theorem length_committedTokenIds_acceptanceOf (anchor : Nat) (request : AcceptanceRequest) :
    (anchor :: (acceptanceOf request).committedTokenIds).length =
      (acceptanceOf request).acceptedDraftCount + 2 := by
  simp [committedTokenIds_acceptanceOf, acceptedDraftCount_acceptanceOf_le request]

theorem take_tokens_pendingOf (verified : count ≤ (acceptanceOf request).acceptedDraftCount + 1) :
    (anchor :: request.candidateTokenIds).take count =
      (anchor :: (acceptanceOf request).committedTokenIds).take count := by
  have agrees := acceptedDraftCount_acceptanceOf_le request
  rcases count with _ | count
  · rfl
  rw [take_succ_cons, take_succ_cons, committedTokenIds_acceptanceOf,
    take_append_of_le_length (by rw [length_take]; omega), take_take,
    min_eq_left (by omega)]

/-- A prefix of a cycle is staged as it was accepted: the verified rows are promoted, and the
target's own token is run behind all of them. -/
theorem commitPrefix_pendingOf (consumed : List Nat) (anchor : Nat)
    (block : request.candidateTokenIds.length ≤ settings.blockSize) (positive : 0 < count)
    (within : count ≤ (acceptanceOf request).acceptedDraftCount + 2)
    (context : consumed.length + count ≤ settings.contextCapacity) : settings.commitPrefix
        (pendingOf consumed anchor request.candidateTokenIds (acceptanceOf request))
        count consumed =
      .ok (consumed ++ (anchor :: (acceptanceOf request).committedTokenIds).take count) := by
  have agrees := acceptedDraftCount_acceptanceOf_le request
  have length := length_committedTokenIds_acceptanceOf anchor request
  generalize tokens : anchor :: (acceptanceOf request).committedTokenIds = pending at length
  have staged : (if count > min count ((acceptanceOf request).acceptedDraftCount + 1) then
        consumed ++ (anchor :: request.candidateTokenIds).take
            (min count ((acceptanceOf request).acceptedDraftCount + 1)) ++
          (pending.drop (min count ((acceptanceOf request).acceptedDraftCount + 1))).take 1
      else consumed ++ (anchor :: request.candidateTokenIds).take
        (min count ((acceptanceOf request).acceptedDraftCount + 1))) =
        consumed ++ pending.take count := by
    rw [take_tokens_pendingOf (Nat.min_le_right _ _), tokens]
    split
    · grind
    · rw [min_eq_left (by omega)]
  have complete : ((consumed ++ pending.take count).length == consumed.length + count) = true := by
    rw [length_append, length_take, beq_iff_eq]
    omega
  simp only [commitPrefix, pendingOf, tokens, staged, complete, Except.bind_eq_ok,
    require_eq_ok, and_eq_true, or_eq_true, bne_iff_ne, decide_eq_true_eq,
    Option.isSome_some]
  exact ⟨(), ⟨⟨⟨⟨⟨by omega, by omega⟩, by omega⟩, by omega⟩, by omega⟩,
    .inl ⟨⟨trivial, by omega⟩, by omega⟩⟩, (), trivial, rfl⟩

theorem commitPrefix_anchor (context : consumed.length + 1 ≤ settings.contextCapacity) :
    settings.commitPrefix
        { position := consumed.length, tokens := [anchor], verifiedPrefixCount := 0,
          verification := none } 1 consumed = .ok (consumed ++ [anchor]) := by
  have admitted : consumed.length ≤ settings.contextCapacity - 1 := by omega
  have small : 1 ≤ settings.contextCapacity := by omega
  simp [commitPrefix, require, admitted, small, bind, Except.bind, pure, Except.pure]

theorem terminalToken_cases (token : Nat) (turn : Turn) :
    ∃ reason failure, (reason = StopReason.eos ∨ reason = .tokenizerToken) ∧
      settings.terminalToken token turn =
        ({ turn with committed := turn.committed ++ [token], stopReason := reason }, failure) := by
  simp only [terminalToken]
  refine ⟨if (settings.classify token).eos = true then .eos else .tokenizerToken,
    if (!(settings.classify token).eos && !(settings.classify token).additionalStop) = true then
      some ⟨.state, "terminal generation token lacks an admitted stop fact"⟩ else none, ?_, ?_⟩
  · cases (settings.classify token).eos <;> simp
  · split <;> rfl

theorem Advance.of_terminalToken (follows : Follows settings.next turn.consumed tokens)
    (found : tokens.findIdx settings.terminal = index) (within : index < tokens.length)
    (output : turn.modelCommittedTokenCount + index < settings.maximumNewTokens)
    (context : turn.consumed.length + index < settings.contextCapacity) (before : Turn)
    (carried : before.consumed = turn.consumed ++ tokens.take index)
    (committed : before.committed = turn.committed ++ tokens.take index)
    (counted : before.modelCommittedTokenCount = turn.modelCommittedTokenCount + index)
    (kept : before.failure = turn.failure) :
    settings.Advance turn (settings.terminalToken (tokens.getD index 0) before) := by
  have length : (tokens.take index).length = index := by
    rw [length_take]
    omega
  have last : tokens.getD index 0 = tokens.get ⟨index, within⟩ := by
    simp [getElem?_eq_getElem within]
  have stopped : settings.terminal (tokens.getD index 0) = true := by
    subst found
    rw [last]
    exact findIdx_getElem
  have decoded : tokens.take index ++ [tokens.getD index 0] =
      decode settings.next settings.terminal ((tokens.take index).length + 1) turn.consumed := by
    rw [length, ← follows.take_eq_decode (by omega) (by omega), last]
    simp
  have unstopped : ∀ token ∈ tokens.take index, settings.terminal token = false :=
    stops_take_of_le_findIdx (by omega)
  rcases settings.terminalToken_cases (tokens.getD index 0) before with
    ⟨reason, failure, stop, equal⟩
  rw [equal]
  refine .ended (tokens.take index) (tokens.getD index 0) _ failure decoded unstopped stopped
    (by omega) (by omega) carried ?_ (by simp only; omega) kept stop
  rw [committed]

section

variable (fault : Option Fault) (block : request.candidateTokenIds.length ≤ settings.blockSize)
  (output : turn.modelCommittedTokenCount + (request.candidateTokenIds.length + 2) ≤
    settings.maximumNewTokens)
  (context : turn.consumed.length + (request.candidateTokenIds.length + 2) ≤
    settings.contextCapacity)
  (follows : Follows settings.next turn.consumed
    (anchor :: (acceptanceOf request).committedTokenIds))

include block output context follows

theorem cyclePublish_advance (found : (anchor :: (acceptanceOf request).committedTokenIds).findIdx
      settings.terminal = index) (positive : 0 < index) (prefixed : plan.statePrefixCount = index)
    (ends : plan.terminal = decide (index < (acceptanceOf request).acceptedDraftCount + 2)) :
    settings.Advance turn (settings.cyclePublish fault
      (pendingOf turn.consumed anchor request.candidateTokenIds (acceptanceOf request)) plan
      ((anchor :: (acceptanceOf request).committedTokenIds).getD index 0) turn) := by
  have agrees := acceptedDraftCount_acceptanceOf_le request
  have length := length_committedTokenIds_acceptanceOf anchor request
  have bound : index ≤ (acceptanceOf request).acceptedDraftCount + 2 := by
    rw [← found, ← length]
    exact findIdx_le_length
  have staged := settings.commitPrefix_pendingOf turn.consumed anchor block positive bound
    (by omega)
  have published := settings.speculativePublish_cases fault
    (show index ≤ (pendingOf turn.consumed anchor request.candidateTokenIds
      (acceptanceOf request)).tokens.length from by rw [pendingOf, length]; exact bound)
    (stops_take_of_le_findIdx (le_of_eq found.symm)) staged
  unfold cyclePublish
  rw [prefixed]
  rcases published with ⟨rejection, equal⟩ | ⟨rejection, equal⟩ | equal
  · rw [equal]
    exact .refused rejection
  · rw [equal]
    exact Advance.of_published settings follows rfl positive (by omega) (by omega) (by omega)
      (by omega) (.inr ⟨rfl, rfl⟩)
  rw [equal]
  by_cases inside : index < (acceptanceOf request).acceptedDraftCount + 2
  · simp only [ends, inside]
    refine Advance.of_terminalToken settings follows found (by omega) (by omega) (by omega) _
      rfl rfl ?_ rfl
    simp only [GenerationSettings.published, pendingOf, length_take]
    omega
  · simp only [ends, inside]
    exact Advance.of_published settings follows rfl positive (by omega) (by omega) (by omega)
      (by omega) (.inl ⟨rfl, rfl⟩)

theorem cycleCommit_advance (small : request.candidateTokenIds.length ≤ speculationMaxBlock) :
    settings.Advance turn (settings.cycleCommit fault anchor request.candidateTokenIds
      (acceptanceOf request) turn) := by
  have length := length_committedTokenIds_acceptanceOf anchor request
  simp only [cycleCommit]
  split
  · exact .refused _
  rename_i positive
  generalize found : (pendingOf turn.consumed anchor request.candidateTokenIds
    (acceptanceOf request)).tokens.findIdx settings.terminal = index at positive
  have bound : index ≤ (acceptanceOf request).acceptedDraftCount + 2 := by
    rw [← found, ← length]
    exact findIdx_le_length
  have planned : commitPlanBuild (acceptanceOf request) index =
      .ok (if index < (acceptanceOf request).acceptedDraftCount + 2 then
        ⟨index, index + 1, true⟩ else ⟨index, index, false⟩) :=
    commitPlanBuild_acceptanceOf request small (Nat.pos_of_ne_zero positive) bound
  rw [planned]
  by_cases inside : index < (acceptanceOf request).acceptedDraftCount + 2
  · simp only [inside, if_true, toNat_true, ne_eq]
    exact settings.cyclePublish_advance fault block output context follows found
      (Nat.pos_of_ne_zero positive) rfl (by simp [inside])
  · simp only [inside, if_false, toNat_false, add_zero, ne_eq]
    exact settings.cyclePublish_advance fault block output context follows found
      (Nat.pos_of_ne_zero positive) rfl (by simp [inside])

end

theorem speculationCycle_eq_ok (cycled : settings.speculationCycle draft consumed anchor count =
      .ok (candidates, acceptance)) : candidates.length = count ∧
      acceptance = acceptanceOf (settings.cycleRequest consumed anchor candidates) := by
  simp only [speculationCycle, Except.bind_eq_ok] at cycled
  rcases cycled with ⟨_, _, accepted, acceptedEqual, rfl, rfl⟩
  refine ⟨by simp, speculationAccept_eq_ok ?_ acceptedEqual⟩
  exact settings.length_verificationRows _ _ _

section

variable (fault : Option Fault) (output : turn.modelCommittedTokenCount < settings.maximumNewTokens)
  (context : turn.consumed.length < settings.contextCapacity)

include output context

theorem speculativePublish_anchor_advance
    (running : settings.terminal (settings.next turn.consumed) = false) :
    settings.Advance turn (settings.speculativePublish fault
      { position := turn.consumed.length, tokens := [settings.next turn.consumed],
        verifiedPrefixCount := 0, verification := none } 1 turn) := by
  have follows : Follows settings.next turn.consumed [settings.next turn.consumed] := ⟨rfl, trivial⟩
  have first : 1 ≤ [settings.next turn.consumed].findIdx settings.terminal := by
    simp [running]
  have published := settings.speculativePublish_cases fault (Nat.le_refl 1)
    (by simpa using running) (settings.commitPrefix_anchor context)
  rcases published with ⟨rejection, equal⟩ | ⟨rejection, equal⟩ | equal
  · rw [equal]
    exact .refused rejection
  · rw [equal]
    exact Advance.of_published settings follows rfl Nat.one_pos (Nat.le_refl 1) first
      (by omega) (by omega) (.inr ⟨rfl, rfl⟩)
  · rw [equal]
    exact Advance.of_published settings follows rfl Nat.one_pos (Nat.le_refl 1) first
      (by omega) (by omega) (.inl ⟨rfl, rfl⟩)

theorem terminalStep_advance (ends : settings.terminal (settings.next turn.consumed) = true) :
    settings.Advance turn (settings.terminalStep fault (settings.next turn.consumed) turn) := by
  have follows : Follows settings.next turn.consumed [settings.next turn.consumed] := ⟨rfl, trivial⟩
  have first : [settings.next turn.consumed].findIdx settings.terminal = 0 := by
    simp [ends]
  have terminated : settings.Advance turn
      (settings.terminalToken (settings.next turn.consumed) turn) :=
    Advance.of_terminalToken settings follows first Nat.one_pos (by omega) (by omega) turn
      (by simp) (by simp) (by simp) rfl
  unfold terminalStep
  split
  · exact .refused _
  · exact terminated

end

section

variable (iteration : Iteration)
  (output : turn.modelCommittedTokenCount ≤ settings.maximumNewTokens)
  (context : turn.consumed.length ≤ settings.contextCapacity)

include output context

theorem candidateCycle_advance (running : settings.terminal (settings.next turn.consumed) = false) :
    settings.Advance turn
      (settings.candidateCycle iteration (settings.next turn.consumed) turn) := by
  unfold candidateCycle
  rw [u64Sub_of_le output, u64Sub_of_le context]
  cases extent : candidateExtent settings.blockSize
      (settings.maximumNewTokens - turn.modelCommittedTokenCount)
      (settings.contextCapacity - turn.consumed.length) with
  | error rejection => exact .refused rejection
  | ok count =>
    rcases candidateExtent_eq_ok extent with ⟨block, small, outputs, contexts, room⟩
    cases count with
    | zero =>
      exact settings.speculativePublish_anchor_advance iteration.fault (by omega) (by omega)
        running
    | succ count => ?_
    simp only
    split
    · exact .refused _
    rename_i candidates acceptance cycled
    rcases settings.speculationCycle_eq_ok cycled with ⟨length, rfl⟩
    have follows := settings.follows_cycle turn.consumed candidates
    have proposed : (settings.cycleRequest turn.consumed (settings.next turn.consumed)
        candidates).candidateTokenIds.length = count + 1 := length
    exact settings.cycleCommit_advance iteration.fault (by omega) (by omega) (by omega) follows
      (by omega)

theorem speculativeStep_advance :
    settings.Advance turn (settings.speculativeStep iteration turn) := by
  unfold speculativeStep
  split
  · exact .outputLimit (by assumption)
  split
  · exact .contextLimit (by assumption)
  simp only
  split
  · exact .refused _
  split
  · exact settings.terminalStep_advance _ (by omega) (by omega) (by assumption)
  · rename_i running
    exact settings.candidateCycle_advance iteration output context (by simpa using running)

theorem targetStep_advance : settings.Advance turn (settings.targetStep iteration turn) := by
  unfold targetStep
  split
  · exact .outputLimit (by assumption)
  split
  · exact .contextLimit (by assumption)
  simp only
  split
  · exact .refused _
  split
  · exact settings.terminalStep_advance _ (by omega) (by omega) (by assumption)
  rename_i running
  have decoded : [settings.next turn.consumed] =
      decode settings.next settings.terminal 1 turn.consumed := by
    simp [decode]
  have longer (after : Turn) (failure : Option Rejection)
      (consumed : after.consumed = turn.consumed ++ [settings.next turn.consumed])
      (committed : after.committed = turn.committed ++ [settings.next turn.consumed])
      (counted : after.modelCommittedTokenCount = turn.modelCommittedTokenCount + 1)
      (kept : after.failure = turn.failure)
      (stop : after.stopReason = turn.stopReason ∧ failure = none ∨
        after.stopReason = .outputFailure ∧ failure.isSome) :
      settings.Advance turn (after, failure) :=
    .extended [settings.next turn.consumed] after failure (by simp) decoded
      (by simpa using running) (by simp; omega) (by simp; omega) consumed committed counted
      kept stop
  split
  · exact .refused _
  split
  · exact longer _ _ rfl rfl rfl rfl (.inr ⟨rfl, rfl⟩)
  · exact longer _ _ rfl rfl rfl rfl (.inl ⟨rfl, rfl⟩)

end

/-! ## Iterations that nothing disturbs -/

structure Sound : Prop where
  block : settings.blockSize ≠ 0
  small : settings.blockSize ≤ speculationMaxBlock
  accepted : settings.blockSize ≤ settings.acceptedPrefixMaximum
  vocabulary : settings.vocabularySize ≤ u32Max
  target : ∀ held, settings.next held < settings.vocabularySize

structure Undisturbed (iteration : Iteration) : Prop where
  fault : iteration.fault = none
  draft : ∀ index, iteration.draft index < settings.vocabularySize

def Went (result : StepResult) : Prop :=
  result.2 = none ∨ result.1.stopReason = .eos ∨ result.1.stopReason = .tokenizerToken

theorem went_terminalToken (token : Nat) (turn : Turn) :
    Went (settings.terminalToken token turn) := by
  rcases settings.terminalToken_cases token turn with ⟨reason, failure, stop, equal⟩
  rw [equal]
  exact .inr stop

theorem speculativePublish_none
    (unstopped : ∀ token ∈ pending.tokens.take count, settings.terminal token = false)
    (commits : settings.commitPrefix pending count turn.consumed =
      .ok staged) : (settings.speculativePublish none pending count turn).2 = none := by
  have clean : (pending.tokens.take count).any settings.terminal = false := by
    simpa [any_eq_false] using unstopped
  simp [speculativePublish, clean, commits]

theorem went_cyclePublish (unstopped : ∀ token ∈ pending.tokens.take plan.statePrefixCount,
      settings.terminal token = false)
    (commits : settings.commitPrefix pending plan.statePrefixCount turn.consumed = .ok staged) :
    Went (settings.cyclePublish none pending plan terminalId turn) := by
  have through := settings.speculativePublish_none unstopped commits
  unfold cyclePublish
  generalize settings.speculativePublish none pending plan.statePrefixCount turn = result
    at through
  rcases result with ⟨after, failure⟩
  subst through
  simp only
  split
  · exact settings.went_terminalToken _ _
  · exact .inl rfl

theorem speculationCycle_sound (sound : settings.Sound)
    (undisturbed : settings.Undisturbed iteration) (positive : 0 < count)
    (block : count ≤ settings.blockSize) :
    settings.speculationCycle iteration.draft consumed (settings.next consumed) count =
      .ok ((List.range count).map iteration.draft, acceptanceOf (settings.cycleRequest consumed
        (settings.next consumed) ((List.range count).map iteration.draft))) := by
  have nonzero : settings.vocabularySize ≠ 0 := by
    have inside := sound.target consumed
    omega
  have size := sound.small
  have prefixes := sound.accepted
  have admitted : (settings.cycleRequest consumed (settings.next consumed)
      ((List.range count).map iteration.draft)).Admitted (speculationMaxBlock + 1) := by
    refine ⟨settings.length_verificationRows _ _ _, ?_⟩
    have candidates : ((List.range count).map iteration.draft).all
        (· < settings.vocabularySize) = true := by
      simp [undisturbed.draft]
    have targets : (settings.verificationRows consumed (settings.next consumed)
        ((List.range count).map iteration.draft)).all (· < settings.vocabularySize) = true := by
      simp [verificationRows, sound.target]
    simp only [acceptanceValidate, cycleRequest, length_map, length_range,
      Except.bind_eq_ok, require_eq_ok, and_eq_true, bne_iff_ne, decide_eq_true_eq]
    exact ⟨(), ⟨⟨⟨⟨by omega, by omega⟩, nonzero⟩, decide_eq_true sound.vocabulary⟩, by omega⟩,
      (), candidates, targets⟩
  simp only [speculationCycle, Except.bind_eq_ok, require_eq_ok, and_eq_true, bne_iff_ne,
    decide_eq_true_eq]
  exact ⟨(), ⟨⟨⟨by omega, block⟩, by omega⟩, sound.target consumed⟩, _,
    speculationAccept_eq admitted, rfl⟩

theorem went_cycleCommit (small : request.candidateTokenIds.length ≤ speculationMaxBlock)
    (block : request.candidateTokenIds.length ≤ settings.blockSize)
    (context : turn.consumed.length + (request.candidateTokenIds.length + 2) ≤
      settings.contextCapacity) (running : settings.terminal anchor = false) :
    Went (settings.cycleCommit none anchor request.candidateTokenIds (acceptanceOf request)
      turn) := by
  have agrees := acceptedDraftCount_acceptanceOf_le request
  have positive : 0 < (anchor :: (acceptanceOf request).committedTokenIds).findIdx
      settings.terminal := by
    rw [findIdx_cons, running]
    simp
  have bound : (anchor :: (acceptanceOf request).committedTokenIds).findIdx settings.terminal ≤
      (acceptanceOf request).acceptedDraftCount + 2 := by
    rw [← length_committedTokenIds_acceptanceOf anchor request]
    exact findIdx_le_length
  have staged := settings.commitPrefix_pendingOf turn.consumed anchor block positive bound
    (by omega)
  have planned := commitPlanBuild_acceptanceOf request small positive bound
  simp only [cycleCommit, tokens_pendingOf, if_neg (ne_of_gt positive), planned]
  by_cases inside : (anchor :: (acceptanceOf request).committedTokenIds).findIdx
      settings.terminal < agreement request.candidateTokenIds request.targetTokenIds + 2
  · simp only [if_pos inside, toNat_true, ne_eq]
    exact settings.went_cyclePublish (stops_take_of_le_findIdx le_rfl) staged
  · simp only [if_neg inside, toNat_false, add_zero, ne_eq]
    exact settings.went_cyclePublish (stops_take_of_le_findIdx le_rfl) staged

section

variable (sound : settings.Sound)

include sound

theorem candidateExtent_sound (outputs : 0 < output) (contexts : 0 < context) :
    ∃ count, candidateExtent settings.blockSize output context = .ok count := by
  have positive := sound.block
  have small := sound.small
  have admitted : (require (settings.blockSize != 0 &&
      settings.blockSize ≤ speculationMaxBlock && output != 0 && context != 0)
      .invalidArgument "speculative candidate extent requires bounded output and context") =
        .ok () := by
    simp only [require_eq_ok, and_eq_true, bne_iff_ne, decide_eq_true_eq]
    omega
  unfold candidateExtent
  rw [admitted]
  split <;> exact ⟨_, rfl⟩

section

variable (undisturbed : settings.Undisturbed iteration)

include undisturbed

theorem went_candidateCycle (output : turn.modelCommittedTokenCount < settings.maximumNewTokens)
    (context : turn.consumed.length < settings.contextCapacity)
    (running : settings.terminal (settings.next turn.consumed) = false) :
    Went (settings.candidateCycle iteration (settings.next turn.consumed) turn) := by
  rcases settings.candidateExtent_sound sound (Nat.sub_pos_of_lt output)
    (Nat.sub_pos_of_lt context) with ⟨count, extent⟩
  rcases candidateExtent_eq_ok extent with ⟨block, small, outputs, contexts, room⟩
  unfold candidateCycle
  rw [u64Sub_of_le (le_of_lt output), u64Sub_of_le (le_of_lt context), extent, undisturbed.fault]
  cases count with
  | zero =>
    exact .inl (settings.speculativePublish_none (by simpa using running)
      (settings.commitPrefix_anchor context))
  | succ count => ?_
  have positive : 0 < count + 1 := Nat.succ_pos count
  have length : (settings.cycleRequest turn.consumed (settings.next turn.consumed)
      ((List.range (count + 1)).map iteration.draft)).candidateTokenIds.length = count + 1 := by
    simp [cycleRequest]
  simp only [settings.speculationCycle_sound sound undisturbed positive block]
  exact settings.went_cycleCommit (by omega) (by omega) (by omega) running

theorem went_speculativeStep (output : turn.modelCommittedTokenCount ≤ settings.maximumNewTokens)
    (context : turn.consumed.length ≤ settings.contextCapacity) :
    Went (settings.speculativeStep iteration turn) := by
  have target := sound.target turn.consumed
  unfold speculativeStep
  split
  · exact .inl rfl
  split
  · exact .inl rfl
  simp only
  split
  · omega
  split
  · simp only [undisturbed.fault]
    exact settings.went_terminalToken _ _
  · rename_i running
    exact settings.went_candidateCycle sound undisturbed (by omega) (by omega)
      (by simpa using running)

theorem went_targetStep (turn : Turn) : Went (settings.targetStep iteration turn) := by
  have target := sound.target turn.consumed
  unfold targetStep
  split
  · exact .inl rfl
  split
  · exact .inl rfl
  simp only
  split
  · omega
  split
  · simp only [undisturbed.fault]
    exact settings.went_terminalToken _ _
  · simp only [undisturbed.fault]
    exact .inl rfl

end

end

end GenerationSettings

end Yvex.Runtime
