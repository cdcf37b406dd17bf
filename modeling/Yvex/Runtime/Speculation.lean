import Yvex.Foundation.Autoregression
import Yvex.Runtime.Acceptance

namespace Yvex.Runtime

/-! # Speculative generation

A turn holds the tokens its target state has consumed. The target is a function from these
tokens to the token it chooses; drafts are arbitrary. Each iteration of a speculative turn
selects the target's own token, drafts behind it, verifies the draft in one pass of the target
and promotes the part of that pass that was accepted. -/

/-- `yvex_tokenizer_token_classification` with the turn's additional stop tokens. -/
structure TokenClassification where
  eos : Bool
  stop : Bool
  additionalStop : Bool

def TokenClassification.terminal (classification : TokenClassification) : Bool :=
  classification.eos || classification.stop || classification.additionalStop

structure GenerationSettings where
  /-- The target's greedy choice behind the tokens its state has consumed. -/
  next : List Nat → Nat
  classify : Nat → TokenClassification
  /-- The tokenizer's end-of-reasoning token, where it has one. -/
  reasoningEnd : Option Nat
  vocabularySize : Nat
  blockSize : Nat
  acceptedPrefixMaximum : Nat
  contextCapacity : Nat
  maximumNewTokens : Nat

def GenerationSettings.terminal (settings : GenerationSettings) (token : Nat) : Bool :=
  (settings.classify token).terminal

inductive StopReason where
  | none
  | eos
  | tokenizerToken
  | maxNewTokens
  | contextCapacity
  | outputFailure
deriving DecidableEq

structure Turn where
  /-- The tokens the target state has consumed; its length is the next position. -/
  consumed : List Nat
  /-- The tokens committed to the caller, in order. -/
  committed : List Nat
  modelCommittedTokenCount : Nat
  speculationSourceBoundaryTokenCount : Nat
  stopReason : StopReason
  failure : Option Rejection
deriving DecidableEq

/-- Where a failure of the surroundings (cancellation, storage, a sink of the caller) hits an
iteration: nothing is committed yet, or the staged tokens have been. -/
inductive Fault where
  | beforeCommit (rejection : Rejection)
  | afterCommit (rejection : Rejection)

structure Iteration where
  draft : Nat → Nat
  fault : Option Fault

abbrev StepResult := Turn × Option Rejection

/-- A pending cycle of `yvex_runtime_speculation_context`. -/
structure PendingCycle where
  position : Nat
  tokens : List Nat
  verifiedPrefixCount : Nat
  /-- The tokens of the staged verification, when there is one. -/
  verification : Option (List Nat)

namespace GenerationSettings

variable (settings : GenerationSettings)

/-- `yvex_runtime_generation_turn_begin` with the checks of `generation_turn_prepare`: the
prompt has been consumed, nothing is committed. -/
def turnBegin (optionsMaximumNewTokens : Nat) (prompt : List Nat) : Except Rejection Turn := do
  require (settings.maximumNewTokens != 0 && settings.maximumNewTokens ≤ optionsMaximumNewTokens)
    .invalidArgument "generation outputs do not satisfy sealed capacities"
  require (prompt.length ≤ settings.contextCapacity && prompt.length != 0)
    .bounds "prompt suffix or caller token capacity is incompatible"
  return { consumed := prompt, committed := [], modelCommittedTokenCount := 0,
           speculationSourceBoundaryTokenCount := 0, stopReason := .none, failure := none }

/-- `generation_terminal_token`: the token is committed and ends the turn without entering the
target state. -/
def terminalToken (token : Nat) (turn : Turn) : StepResult :=
  let classification := settings.classify token
  let turn := { turn with
    committed := turn.committed ++ [token]
    stopReason := if classification.eos then .eos else .tokenizerToken }
  if !classification.eos && !classification.additionalStop then
    (turn, some ⟨.state, "terminal generation token lacks an admitted stop fact"⟩)
  else (turn, none)

/-- `yvex_runtime_speculation_commit_prefix`: the accepted rows of the verification are
promoted, and the target runs once more when the last token is its own. -/
def commitPrefix (pending : PendingCycle) (committedCount : Nat) (consumed : List Nat) :
    Except Rejection (List Nat) := do
  require (committedCount != 0 && committedCount ≤ pending.tokens.length &&
      committedCount ≤ settings.blockSize + 2 && committedCount ≤ settings.contextCapacity &&
      pending.position ≤ settings.contextCapacity - committedCount &&
      ((pending.verification.isSome && pending.verifiedPrefixCount != 0 &&
          committedCount ≤ pending.verifiedPrefixCount + 1) ||
        (committedCount == 1 && pending.tokens.length == 1 && pending.verification.isNone &&
          pending.verifiedPrefixCount == 0)))
    .invalidArgument "committed prefix is not an admitted pending DSpark result"
  match pending.verification with
  | none => return consumed ++ pending.tokens.take 1
  | some verification =>
    let baseCount := min committedCount pending.verifiedPrefixCount
    let promoted := consumed ++ verification.take baseCount
    let staged :=
      if committedCount > baseCount then promoted ++ (pending.tokens.drop baseCount).take 1
      else promoted
    require (staged.length == pending.position + committedCount)
      .state "promoted target prefix is not a complete staged transaction"
    return staged

def sourceBoundary (ordinal : Nat) (before : Nat) : List Nat → Nat
  | [] => before
  | token :: rest =>
    sourceBoundary (ordinal + 1)
      (if some token = settings.reasoningEnd then ordinal + 1 else before) rest

variable (fault : Option Fault) (pending : PendingCycle)

/-- `generation_speculative_publish`: the first `count` pending tokens enter the target state
and are committed to the caller together. -/
def speculativePublish (count : Nat) (turn : Turn) : StepResult :=
  let tokens := pending.tokens.take count
  if tokens.any settings.terminal then
    (turn, some ⟨.state, "terminal token cannot enter a speculative commit prefix"⟩)
  else
    match fault, settings.commitPrefix pending count turn.consumed with
    | some (.beforeCommit rejection), _ => (turn, some rejection)
    | _, .error rejection => (turn, some rejection)
    | fault, .ok consumed =>
      let turn := { turn with
        consumed
        committed := turn.committed ++ tokens
        modelCommittedTokenCount := turn.modelCommittedTokenCount + count
        speculationSourceBoundaryTokenCount :=
          settings.sourceBoundary turn.committed.length
            turn.speculationSourceBoundaryTokenCount tokens }
      match fault with
      | some (.afterCommit rejection) =>
        ({ turn with stopReason := .outputFailure }, some rejection)
      | _ => (turn, none)

variable (consumed : List Nat) (anchor : Nat) (candidates : List Nat)

/-- The target's choices behind the anchor and behind each candidate: the rows of
`speculation_verify_target`. -/
def verificationRows : List Nat :=
  (List.range (candidates.length + 1)).map fun row =>
    settings.next (consumed ++ anchor :: candidates.take row)

def cycleRequest : AcceptanceRequest where
  vocabularySize := settings.vocabularySize
  candidateTokenIds := candidates
  targetTokenIds := settings.verificationRows consumed anchor candidates

/-- `yvex_runtime_speculation_cycle`: draft, verify, accept. -/
def speculationCycle (draft : Nat → Nat) (consumed : List Nat) (anchor candidateCount : Nat) :
    Except Rejection (List Nat × AcceptanceResult) := do
  require (candidateCount != 0 && candidateCount ≤ settings.blockSize &&
      candidateCount ≤ settings.acceptedPrefixMaximum && anchor < settings.vocabularySize)
    .invalidArgument "DSpark cycle request does not continue its target anchor"
  let candidates := (List.range candidateCount).map draft
  let acceptance ← speculationAccept (settings.cycleRequest consumed anchor candidates)
    (speculationMaxBlock + 1)
  return (candidates, acceptance)

variable (acceptance : AcceptanceResult)

def pendingOf : PendingCycle where
  position := consumed.length
  tokens := anchor :: acceptance.committedTokenIds
  verifiedPrefixCount := acceptance.acceptedDraftCount + 1
  verification := some (anchor :: candidates)

@[simp] theorem tokens_pendingOf : (pendingOf consumed anchor candidates acceptance).tokens =
      anchor :: acceptance.committedTokenIds := rfl

def cyclePublish (plan : CommitPlan) (terminalId : Nat) (turn : Turn) : StepResult :=
  match settings.speculativePublish fault pending plan.statePrefixCount turn with
  | (turn, some rejection) => (turn, some rejection)
  | (turn, none) => if plan.terminal then settings.terminalToken terminalId turn else (turn, none)

/-- The end of a candidate cycle: the accepted tokens up to the first terminal one enter the
target state. -/
def cycleCommit (turn : Turn) : StepResult :=
  let pending := pendingOf turn.consumed anchor candidates acceptance
  let terminalIndex := pending.tokens.findIdx settings.terminal
  if terminalIndex = 0 then
    (turn, some ⟨.state, "a terminal target anchor escaped pre-verification admission"⟩)
  else
    match commitPlanBuild acceptance terminalIndex with
    | .error rejection => (turn, some rejection)
    | .ok plan =>
      if plan.publicationTokenCount ≠ plan.statePrefixCount + plan.terminal.toNat then
        (turn, some ⟨.state, "speculative publication extent does not match its commit plan"⟩)
      else
        settings.cyclePublish fault pending plan (pending.tokens.getD terminalIndex 0) turn

variable (iteration : Iteration)

def candidateCycle (anchor : Nat) (turn : Turn) : StepResult :=
  match candidateExtent settings.blockSize
      (u64Sub settings.maximumNewTokens turn.modelCommittedTokenCount)
      (u64Sub settings.contextCapacity turn.consumed.length) with
  | .error rejection => (turn, some rejection)
  | .ok 0 =>
    settings.speculativePublish iteration.fault
      { position := turn.consumed.length, tokens := [anchor], verifiedPrefixCount := 0,
        verification := none }
      1 turn
  | .ok (count + 1) =>
    match settings.speculationCycle iteration.draft turn.consumed anchor (count + 1) with
    | .error rejection => (turn, some rejection)
    | .ok (candidates, acceptance) =>
      settings.cycleCommit iteration.fault anchor candidates acceptance turn

/-- A terminal token the target chose itself, committed by `generation_speculative_terminal`
or by `generation_target_step`. -/
def terminalStep (token : Nat) (turn : Turn) : StepResult :=
  match fault with
  | some (.beforeCommit rejection) => (turn, some rejection)
  | _ => settings.terminalToken token turn

variable (turn : Turn)

def speculativeStep : StepResult :=
  if turn.modelCommittedTokenCount = settings.maximumNewTokens then
    ({ turn with stopReason := .maxNewTokens }, none)
  else if turn.consumed.length = settings.contextCapacity then
    ({ turn with stopReason := .contextCapacity }, none)
  else
    let anchor := settings.next turn.consumed
    if settings.vocabularySize ≤ anchor then
      (turn, some ⟨.state, "target selection returned incomplete or stale facts"⟩)
    else if settings.terminal anchor then settings.terminalStep iteration.fault anchor turn
    else settings.candidateCycle iteration anchor turn

/-- `generation_target_step`, which goes on behind the end of reasoning. -/
def targetStep : StepResult :=
  if turn.modelCommittedTokenCount = settings.maximumNewTokens then
    ({ turn with stopReason := .maxNewTokens }, none)
  else if turn.consumed.length = settings.contextCapacity then
    ({ turn with stopReason := .contextCapacity }, none)
  else
    let token := settings.next turn.consumed
    if settings.vocabularySize ≤ token then
      (turn, some ⟨.bounds, "token ID or directory capacity is invalid"⟩)
    else if settings.terminal token then settings.terminalStep iteration.fault token turn
    else
      match iteration.fault with
      | some (.beforeCommit rejection) => (turn, some rejection)
      | fault =>
        let turn := { turn with
          consumed := turn.consumed ++ [token]
          committed := turn.committed ++ [token]
          modelCommittedTokenCount := turn.modelCommittedTokenCount + 1 }
        match fault with
        | some (.afterCommit rejection) =>
          ({ turn with stopReason := .outputFailure }, some rejection)
        | _ => (turn, none)

/-- One round of the loop of `yvex_runtime_generation_turn_advance`. -/
def turnAdvance (iteration : Iteration) : Turn :=
  if turn.failure.isSome || turn.stopReason != .none then turn
  else
    let outcome :=
      if turn.speculationSourceBoundaryTokenCount = 0 then
        settings.speculativeStep iteration turn
      else settings.targetStep iteration turn
    match outcome with
    | (turn, some rejection) => { turn with failure := some rejection }
    | (turn, none) =>
      if turn.modelCommittedTokenCount = settings.maximumNewTokens then
        { turn with stopReason := .maxNewTokens }
      else turn

def turnRun (iterations : List Iteration) : Turn := iterations.foldl settings.turnAdvance turn

end GenerationSettings

end Yvex.Runtime
