import Mathlib.Data.List.TakeWhile
import Yvex.Runtime.SpeculationSteps

namespace Yvex.Runtime

open List

/-! # Speculative turns decode greedily

From the description of one iteration follows what every run of a turn keeps: the committed
tokens are the ones the target decodes on its own, and its state has consumed all of them but
the one that ended the turn. -/

namespace GenerationSettings

variable (settings : GenerationSettings)

def running (tokens : List Nat) : List Nat := tokens.takeWhile fun token => !settings.terminal token

theorem running_eq_self (unstopped : ∀ token ∈ tokens, settings.terminal token = false) :
    settings.running tokens = tokens := by
  rw [running, takeWhile_eq_self_iff]
  intro token member
  simp [unstopped token member]

theorem running_append (unstopped : ∀ token ∈ tokens, settings.terminal token = false)
    (stopped : settings.terminal last = true) : settings.running (tokens ++ [last]) = tokens := by
  rw [running, takeWhile_append_of_pos]
  · simp [stopped]
  · intro token member
    simp [unstopped token member]

theorem length_running_le (tokens : List Nat) : (settings.running tokens).length ≤ tokens.length :=
  ( takeWhile_prefix _).length_le

def allowance (prompt : List Nat) : Nat :=
  min settings.maximumNewTokens (settings.contextCapacity - prompt.length)

structure Decoding (prompt : List Nat) (turn : Turn) : Prop where
  decoded : turn.committed = decode settings.next settings.terminal turn.committed.length prompt
  consumed : turn.consumed = prompt ++ settings.running turn.committed
  counted : turn.modelCommittedTokenCount = (settings.running turn.committed).length
  output : turn.committed.length ≤ settings.maximumNewTokens
  context : prompt.length + turn.committed.length ≤ settings.contextCapacity
  unstopped : turn.failure = none → turn.stopReason = .none →
    ∀ token ∈ turn.committed, settings.terminal token = false
  full : turn.stopReason = .maxNewTokens → turn.committed.length = settings.maximumNewTokens
  crowded : turn.stopReason = .contextCapacity →
    prompt.length + turn.committed.length = settings.contextCapacity
  ended : turn.stopReason = .eos ∨ turn.stopReason = .tokenizerToken →
    ∃ token ∈ turn.committed, settings.terminal token = true

namespace Decoding

variable {settings} {turn : Turn}

section

variable (decoding : settings.Decoding prompt turn)

include decoding

theorem length_consumed_le : turn.consumed.length ≤ settings.contextCapacity := by
  have shorter := settings.length_running_le turn.committed
  have context := decoding.context
  rw [decoding.consumed, length_append]
  omega

theorem modelCommitted_le : turn.modelCommittedTokenCount ≤ settings.maximumNewTokens := by
  rw [decoding.counted]
  exact (settings.length_running_le turn.committed).trans decoding.output

theorem eq_decode
    (stopped : turn.stopReason ≠ .none) (delivered : turn.stopReason ≠ .outputFailure) :
    turn.committed = decode settings.next settings.terminal (settings.allowance prompt) prompt := by
  have output := decoding.output
  have context := decoding.context
  have decoded := decoding.decoded
  have all (reached : turn.committed.length = settings.allowance prompt) : turn.committed =
        decode settings.next settings.terminal (settings.allowance prompt) prompt := by
    rw [← reached]
    exact decoded
  have through (ended : turn.stopReason = .eos ∨ turn.stopReason = .tokenizerToken) :
      turn.committed =
        decode settings.next settings.terminal (settings.allowance prompt) prompt := by
    rcases decoding.ended ended with ⟨token, member, terminal⟩
    have enough : turn.committed.length ≤ settings.allowance prompt := by
      unfold allowance
      omega
    rw [decoded] at member
    have whole := decode_of_stopped (settings.allowance prompt - turn.committed.length) member
      terminal
    rw [Nat.add_sub_cancel' enough] at whole
    rw [whole]
    exact decoded
  cases reason : turn.stopReason with
  | none => exact absurd reason stopped
  | outputFailure => exact absurd reason delivered
  | eos => exact through (.inl reason)
  | tokenizerToken => exact through (.inr reason)
  | maxNewTokens =>
    have reached := decoding.full reason
    exact all (by unfold allowance; omega)
  | contextCapacity =>
    have reached := decoding.crowded reason
    exact all (by unfold allowance; omega)

end

end Decoding

variable {turn : Turn}

theorem Decoding.begin (begun : settings.turnBegin optionsMaximumNewTokens prompt = .ok turn) :
    settings.Decoding prompt turn := by
  simp only [turnBegin, Except.bind_eq_ok, require_eq_ok, Bool.and_eq_true, decide_eq_true_eq,
    pure_eq_ok] at begun
  rcases begun with ⟨_, _, _, ⟨fits, _⟩, rfl⟩
  constructor <;> simp [decode, running, fits]

theorem decode_committed
    (decoded : committed = decode settings.next settings.terminal committed.length prompt)
    (unstopped : ∀ token ∈ committed, settings.terminal token = false)
    (behind : portion = decode settings.next settings.terminal portion.length
      (prompt ++ committed)) : committed ++ portion = decode settings.next settings.terminal
      (committed ++ portion).length prompt := by
  rw [length_append, decode_add portion.length (by rw [← decoded]; exact unstopped)
    (by rw [← decoded]), ← decoded, ← behind]

theorem Decoding.advance (decoding : settings.Decoding prompt turn) (live : turn.failure = none)
    (going : turn.stopReason = .none)
      (advance : settings.Advance turn result) :
    settings.Decoding prompt { result.1 with failure := result.2 } := by
  have unstopped := decoding.unstopped live going
  have whole := settings.running_eq_self unstopped
  have consumed := decoding.consumed
  have counted := decoding.counted
  rw [whole] at consumed counted
  have length : turn.consumed.length = prompt.length + turn.committed.length := by
    rw [consumed, length_append]
  cases advance with
  | refused rejection => exact { decoding with unstopped := by simp }
  | outputLimit reached => exact { decoding with
      unstopped := by simp, full := fun _ => by simp only; omega, crowded := by simp,
      ended := by simp }
  | contextLimit reached => exact { decoding with
      unstopped := by simp, full := by simp, crowded := fun _ => by simp only; omega,
      ended := by simp }
  | extended portion after failure nonempty decoded unstoppedPortion outputs contexts
      consumedAfter committedAfter countedAfter kept stop =>
      have unstoppedAfter : ∀ token ∈ after.committed, settings.terminal token = false := by
        grind
      have wholeAfter := settings.running_eq_self unstoppedAfter
      rw [consumed] at decoded
      have lengthAfter : after.committed.length = turn.committed.length + portion.length := by
        rw [committedAfter, length_append]
      refine ⟨?_, ?_, ?_, ?_, ?_, fun _ _ => unstoppedAfter, ?_, ?_, ?_⟩
      · simp only [committedAfter]
        exact settings.decode_committed decoding.decoded unstopped decoded
      · simp only [wholeAfter]
        rw [consumedAfter, committedAfter, consumed, append_assoc]
      · simp only [wholeAfter, countedAfter, lengthAfter, counted]
      · simp only [lengthAfter]
        omega
      · simp only [lengthAfter]
        omega
      all_goals
        rcases stop with ⟨stop, _⟩ | ⟨stop, _⟩ <;> simp [stop, going]
  | ended portion last after failure decoded unstoppedPortion stopped outputs contexts
      consumedAfter committedAfter countedAfter kept stop =>
      have unstoppedBefore : ∀ token ∈ turn.committed ++ portion,
          settings.terminal token = false := by
        grind
      have runningAfter : settings.running after.committed = turn.committed ++ portion := by
        rw [committedAfter]
        exact settings.running_append unstoppedBefore stopped
      have lengthAfter : after.committed.length = turn.committed.length + portion.length + 1 := by
        simp [committedAfter]
        omega
      have member : last ∈ after.committed := by simp [committedAfter]
      rw [consumed] at decoded
      refine ⟨?_, ?_, ?_, ?_, ?_, ?_, ?_, ?_, fun _ => ⟨last, member, stopped⟩⟩
      · have behind := settings.decode_committed decoding.decoded unstopped
          (show portion ++ [last] = _ by simpa using decoded)
        simpa [committedAfter] using behind
      · simp only [runningAfter, consumedAfter, consumed, append_assoc]
      · simp only [runningAfter, countedAfter, length_append, counted]
      · simp only [lengthAfter]
        omega
      · simp only [lengthAfter]
        omega
      all_goals
        rcases stop with stop | stop <;> simp [stop]

theorem Decoding.filled (decoding : settings.Decoding prompt turn)
    (reached : turn.modelCommittedTokenCount = settings.maximumNewTokens) :
    settings.Decoding prompt { turn with stopReason := .maxNewTokens } := by
  have shorter := settings.length_running_le turn.committed
  have counted := decoding.counted
  have output := decoding.output
  exact ⟨decoding.decoded, decoding.consumed, counted, output, decoding.context, by simp,
    fun _ => by simp only; omega, by simp, by simp⟩

section

variable (iteration : Iteration)

def turnStep (turn : Turn) : StepResult :=
  if turn.speculationSourceBoundaryTokenCount = 0 then settings.speculativeStep iteration turn
  else settings.targetStep iteration turn

theorem turnAdvance_of_going (live : turn.failure = none) (going : turn.stopReason = .none) :
    settings.turnAdvance turn iteration =
      match settings.turnStep iteration turn with
      | (turn, some rejection) => { turn with failure := some rejection }
      | (turn, none) =>
        if turn.modelCommittedTokenCount = settings.maximumNewTokens then
          { turn with stopReason := .maxNewTokens }
        else turn := by
  simp only [GenerationSettings.turnAdvance, live, going]
  rfl

theorem turnAdvance_of_stopped (stopped : turn.failure ≠ none ∨ turn.stopReason ≠ .none) :
    settings.turnAdvance turn iteration = turn := by
  unfold GenerationSettings.turnAdvance
  rw [if_pos]
  simpa [Option.isSome_iff_ne_none] using stopped

end

section

variable (decoding : settings.Decoding prompt turn)

include decoding

variable (iteration : Iteration)

theorem Decoding.turnStep_advance : settings.Advance turn (settings.turnStep iteration turn) := by
  unfold turnStep
  split
  · exact settings.speculativeStep_advance iteration decoding.modelCommitted_le
      decoding.length_consumed_le
  · exact settings.targetStep_advance iteration decoding.modelCommitted_le
      decoding.length_consumed_le

theorem Decoding.turnAdvance : settings.Decoding prompt (settings.turnAdvance turn iteration) := by
  by_cases stopped : turn.failure ≠ none ∨ turn.stopReason ≠ .none
  · rw [settings.turnAdvance_of_stopped iteration stopped]
    exact decoding
  simp only [not_or, Decidable.not_not] at stopped
  have advance := decoding.turnStep_advance settings iteration
  rw [settings.turnAdvance_of_going iteration stopped.1 stopped.2]
  generalize settings.turnStep iteration turn = result at advance
  have kept := Decoding.advance settings decoding stopped.1 stopped.2 advance
  have same := advance.failure_eq
  rcases result with ⟨after, _ | rejection⟩
  · have unchanged : { after with failure := none } = after := by rw [← stopped.1, ← same]
    rw [unchanged] at kept
    simp only
    split
    · exact Decoding.filled settings kept (by assumption)
    · exact kept
  · exact kept

theorem Decoding.turnRun (iterations : List Iteration) :
    settings.Decoding prompt (settings.turnRun turn iterations) := by
  induction iterations generalizing turn with
  | nil => exact decoding
  | cons iteration rest induction => exact induction (decoding.turnAdvance settings iteration)

end

structure Flowing (turn : Turn) : Prop where
  live : turn.stopReason = .none → turn.failure = none
  delivered : turn.stopReason ≠ .outputFailure
  room : turn.stopReason = .none → turn.modelCommittedTokenCount ≠ settings.maximumNewTokens

theorem Flowing.turnAdvance (sound : settings.Sound) (decoding : settings.Decoding prompt turn)
    (flowing : settings.Flowing turn) {iteration : Iteration}
    (undisturbed : settings.Undisturbed iteration) :
    settings.Flowing (settings.turnAdvance turn iteration) ∧
      ((settings.turnAdvance turn iteration).stopReason = .none → turn.stopReason = .none ∧
          turn.committed.length < (settings.turnAdvance turn iteration).committed.length) := by
  by_cases going : turn.stopReason = .none
  · have live := flowing.live going
    have advance := decoding.turnStep_advance settings iteration
    have went : Went (settings.turnStep iteration turn) := by
      unfold turnStep
      split
      · exact settings.went_speculativeStep sound undisturbed decoding.modelCommitted_le
          decoding.length_consumed_le
      · exact settings.went_targetStep sound undisturbed turn
    rw [settings.turnAdvance_of_going iteration live going]
    generalize settings.turnStep iteration turn = result at advance went
    cases advance with
    | refused rejection =>
      rcases went with went | went | went
      · contradiction
      · rw [going] at went
        contradiction
      · rw [going] at went
        contradiction
    | outputLimit reached => exact absurd reached (flowing.room going)
    | contextLimit reached =>
      simp only [if_neg (flowing.room going)]
      exact ⟨⟨by simp, by simp, by simp⟩, by simp⟩
    | extended portion after failure nonempty decoded unstopped output context consumed
        committed counted kept stop =>
        rcases stop with ⟨stop, rfl⟩ | ⟨stop, failed⟩
        · simp only
          split
          · exact ⟨⟨by simp, by simp, by simp⟩, by simp⟩
          rename_i room
          refine ⟨⟨fun _ => kept.trans live, by simp [stop, going], fun _ => room⟩,
            fun _ => ⟨going, ?_⟩⟩
          have positive := length_pos_iff.mpr nonempty
          rw [committed, length_append]
          omega
        · rcases went with went | went | went
          · simp only at went
            simp [went] at failed
          · rw [stop] at went
            contradiction
          · rw [stop] at went
            contradiction
    | ended portion last after failure decoded unstopped stopped output context consumed
        committed counted kept stop =>
        have short : after.modelCommittedTokenCount ≠ settings.maximumNewTokens := by omega
        cases failure with
        | none =>
          simp only [if_neg short]
          rcases stop with stop | stop <;>
            exact ⟨⟨by simp [stop], by simp [stop], by simp [stop]⟩, by simp [stop]⟩
        | some rejection => ?_
        rcases stop with stop | stop <;>
          exact ⟨⟨by simp [stop], by simp [stop], by simp [stop]⟩, by simp [stop]⟩
  · rw [settings.turnAdvance_of_stopped iteration (.inr going)]
    exact ⟨flowing, fun stopped => absurd stopped going⟩

theorem turnRun_of_stopped (iterations : List Iteration) (stopped : turn.stopReason ≠ .none) :
    settings.turnRun turn iterations = turn := by
  induction iterations with
  | nil => rfl
  | cons iteration rest induction =>
    change settings.turnRun (settings.turnAdvance turn iteration) rest = turn
    rw [settings.turnAdvance_of_stopped iteration (.inr stopped), induction]

theorem Flowing.turnRun (sound : settings.Sound) (decoding : settings.Decoding prompt turn)
    (flowing : settings.Flowing turn)
    (undisturbed : ∀ iteration ∈ iterations, settings.Undisturbed iteration) :
    settings.Flowing (settings.turnRun turn iterations) ∧
      ((settings.turnRun turn iterations).stopReason = .none →
        turn.committed.length + iterations.length ≤
          (settings.turnRun turn iterations).committed.length) := by
  induction iterations generalizing turn with
  | nil => exact ⟨flowing, fun _ => le_rfl⟩
  | cons iteration rest induction => ?_
  have stepped := Flowing.turnAdvance settings sound decoding flowing
    (undisturbed iteration (by simp))
  have ran := induction (decoding.turnAdvance settings iteration) stepped.1
    fun other member => undisturbed other (mem_cons_of_mem _ member)
  refine ⟨ran.1, fun going => ?_⟩
  have later := ran.2 going
  have continued : (settings.turnAdvance turn iteration).stopReason = .none := by
    by_contra stopped
    have same := settings.turnRun_of_stopped rest stopped
    exact stopped (same ▸ going)
  have longer := (stepped.2 continued).2
  change _ ≤ (settings.turnRun (settings.turnAdvance turn iteration) rest).committed.length
  rw [length_cons]
  omega

section

variable (begun : settings.turnBegin optionsMaximumNewTokens prompt = .ok turn)

include begun

theorem Flowing.begin : settings.Flowing turn := by
  simp only [turnBegin, Except.bind_eq_ok, require_eq_ok, Bool.and_eq_true, bne_iff_ne,
    pure_eq_ok] at begun
  rcases begun with ⟨_, ⟨positive, _⟩, _, _, rfl⟩
  exact ⟨fun _ => rfl, by simp, fun _ => positive.symm⟩

theorem stopReason_turnRun (sound : settings.Sound)
    (undisturbed : ∀ iteration ∈ iterations, settings.Undisturbed iteration)
    (enough : settings.maximumNewTokens ≤ iterations.length) :
    (settings.turnRun turn iterations).stopReason ≠ .none ∧
      (settings.turnRun turn iterations).stopReason ≠ .outputFailure := by
  have decoding := Decoding.begin settings begun
  have ran := Flowing.turnRun settings sound decoding (Flowing.begin settings begun) undisturbed
  have last := decoding.turnRun settings iterations
  refine ⟨fun going => ?_, ran.1.delivered⟩
  have longer := ran.2 going
  have bound := last.output
  have whole := settings.running_eq_self (last.unstopped (ran.1.live going) going)
  have counted := last.counted
  rw [whole] at counted
  exact ran.1.room going (by omega)

end

/-- Whatever the drafts propose, a speculative turn commits what greedy decoding of the target
gives behind the prompt, up to and with the first terminal token and within its limits. Its
target state has consumed the committed tokens without the terminal one. -/
theorem turnRun_decodes {optionsMaximumNewTokens : Nat} {prompt : List Nat} {turn : Turn}
    (begun : settings.turnBegin optionsMaximumNewTokens prompt = .ok turn)
    (iterations : List Iteration) : (settings.turnRun turn iterations).committed <+:
        decode settings.next settings.terminal (settings.allowance prompt) prompt ∧
      (settings.turnRun turn iterations).committed.length ≤ settings.maximumNewTokens ∧
      prompt.length + (settings.turnRun turn iterations).committed.length ≤
        settings.contextCapacity ∧ (settings.turnRun turn iterations).consumed =
        prompt ++ settings.running (settings.turnRun turn iterations).committed ∧
      ((settings.turnRun turn iterations).stopReason ≠ .none →
        (settings.turnRun turn iterations).stopReason ≠ .outputFailure →
        (settings.turnRun turn iterations).committed =
          decode settings.next settings.terminal (settings.allowance prompt) prompt) ∧
      (settings.Sound → (∀ iteration ∈ iterations, settings.Undisturbed iteration) →
        settings.maximumNewTokens ≤ iterations.length →
        (settings.turnRun turn iterations).committed =
          decode settings.next settings.terminal (settings.allowance prompt) prompt) := by
  have decoding := (Decoding.begin settings begun).turnRun settings iterations
  have output := decoding.output
  have context := decoding.context
  refine ⟨?_, output, context, decoding.consumed, decoding.eq_decode, ?_⟩
  · rw [decoding.decoded]
    exact decode_prefix prompt (by unfold allowance; omega)
  · intro sound undisturbed enough
    have stopped := settings.stopReason_turnRun begun sound undisturbed enough
    exact decoding.eq_decode stopped.1 stopped.2

end GenerationSettings

def briefSettings : GenerationSettings where
  next held := if held.length = 1 then 5 else 1
  classify token := ⟨token = 1, false, false⟩
  reasoningEnd := none
  vocabularySize := 9
  blockSize := 4
  acceptedPrefixMaximum := 4
  contextCapacity := 16
  maximumNewTokens := 8

/-- The turn of `briefSettings` behind the prompt of token 3. -/
def briefTurn : Turn where
  consumed := [3]
  committed := []
  modelCommittedTokenCount := 0
  speculationSourceBoundaryTokenCount := 0
  stopReason := .none
  failure := none

theorem turnRun_decodes_brief : briefSettings.turnBegin 8 [3] = .ok briefTurn ∧
      (briefSettings.turnRun briefTurn [⟨fun _ => 7, none⟩]).consumed = [3] ++ briefSettings.running
          (briefSettings.turnRun briefTurn [⟨fun _ => 7, none⟩]).committed :=
  have begun : briefSettings.turnBegin 8 [3] = .ok briefTurn := by decide
  ⟨begun, (briefSettings.turnRun_decodes begun [⟨fun _ => 7, none⟩]).2.2.2.1⟩

/-- The cycle commits tokens 5 and 1; only token 5 enters the target state. -/
theorem turnRun_consumed_ne_committed :
    ¬ ∀ (settings : GenerationSettings) (optionsMaximumNewTokens : Nat) (prompt : List Nat)
        (turn : Turn) (iterations : List Iteration),
        settings.turnBegin optionsMaximumNewTokens prompt = .ok turn →
        (settings.turnRun turn iterations).consumed =
          prompt ++ (settings.turnRun turn iterations).committed := by
  intro entered
  have equal := entered briefSettings 8 [3] briefTurn [⟨fun _ => 7, none⟩] (by decide)
  revert equal
  decide

end Yvex.Runtime
