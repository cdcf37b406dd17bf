import Yvex.Runtime.Sampling

namespace Yvex.Server

open Runtime.Sampling

/-! # Restoring a session from a checkpoint

A restore checks the file, closes the generation context of the session, restores the runtime state
and then puts the stored content in the place of the old one. The random numbers of the next turn
are those of the generation context, or of the one that the turn opens. -/

structure SamplingPolicy where
  strategy : Strategy
  seed : UInt64
  policyIdentity : Text

/-- `yvex_runtime_sampling_checkpoint`. -/
structure SamplingCheckpoint where
  schemaVersion : Nat
  rngState : UInt64
  rngIncrement : UInt64
  successfulDraws : Nat
  policyIdentity : Text
  rngStateIdentity : Text
  checkpointIdentity : Text

/-- `yvex_runtime_generation_checkpoint`. -/
structure GenerationCheckpoint where
  schemaVersion : Nat
  generationPlanIdentity : Text
  sampling : SamplingCheckpoint
  checkpointIdentity : Text

/-- What is kept of `yvex_runtime_generation_context` between two turns. -/
structure GenerationContext where
  planIdentity : Text
  policy : SamplingPolicy
  sampling : Context
  closing : Bool

structure PromptMessage where
  role : Nat
  content : List UInt8
  reasoningContent : List UInt8

/-- The members of a session that a checkpoint stores. -/
structure SessionContent where
  messages : List PromptMessage
  committedTokens : List Nat
  turnCount : Nat
  messageHistoryGeneration : Nat
  transcriptGeneration : Nat
  policy : SamplingPolicy
  policySet : Bool
  reasoningPolicy : Nat
  lastTurnIdentity : Text
  stateDigest : Text
  generatedTokenIdentity : Text
  generatedTextDigest : Text

/-- `server_session_store_state`. -/
structure StoredState where
  content : SessionContent
  checkpoint : Option GenerationCheckpoint

/-- What is kept of `server_session`. -/
structure ServerSession where
  content : SessionContent
  transcriptCapacity : Nat
  tokenCapacity : Nat
  generation : Option GenerationContext
  pending : Option GenerationCheckpoint

/-- What the options of a registry fix about the contexts that its sessions open. -/
structure SessionRegistry where
  planIdentity : SamplingPolicy → Text
  maximumRows : Nat

/-- The file as it is inspected and decoded, and how the two calls end that can fail afterwards. -/
structure RestoreAnswers where
  inspect : Except Rejection (Nat × List UInt8 × Nat)
  decode : List UInt8 → Except Rejection StoredState
  close : Except Rejection Unit
  restore : Except Rejection Unit

def PromptMessage.transcriptBytes (message : PromptMessage) : Nat :=
  message.content.length + 1 + (message.reasoningContent.length + 1)

def sessionStoreStateFits (session : ServerSession) (state : StoredState) : Bool :=
  state.content.messages.length ≤ 128 &&
    (state.content.messages.map PromptMessage.transcriptBytes).sum ≤ session.transcriptCapacity &&
    state.content.committedTokens.length ≤ session.tokenCapacity

section

variable (answers : RestoreAnswers) (session : ServerSession)

/-- The part of `yvex_server_session_state_restore` that reads the file. -/
def storedStateRead : Except Rejection StoredState := do
  let (schemaVersion, payload, committedSequenceLength) ← answers.inspect
  require (schemaVersion = 2 && !payload.isEmpty) .format
    "state checkpoint lacks semantic session state"
  let state ← answers.decode payload
  require (state.content.committedTokens.length = committedSequenceLength &&
    sessionStoreStateFits session state) .format
    "semantic and physical session checkpoint extents diverged"
  return state

/-- `yvex_runtime_generation_context_close`, which marks the context before it can fail. -/
def generationContextClose : Except Rejection Unit × ServerSession :=
  match session.generation with
  | none => (.ok (), session)
  | some context =>
    match answers.close with
    | .ok () => (.ok (), { session with generation := none })
    | .error failure =>
      (.error failure, { session with generation := some { context with closing := true } })

def sessionStoreStateApply (state : StoredState) : ServerSession :=
  { session with content := state.content, pending := state.checkpoint }

/-- `yvex_server_session_state_restore`. -/
def sessionStateRestore : Except Rejection Unit × ServerSession :=
  match storedStateRead answers session with
  | .error failure => (.error failure, session)
  | .ok state =>
    match generationContextClose answers session with
    | (.error failure, closing) => (.error failure, closing)
    | (.ok (), closed) =>
      match answers.restore with
      | .error failure => (.error failure, closed)
      | .ok () => (.ok (), sessionStoreStateApply closed state)

end

section Turn

variable [Sha256]

def SamplingCheckpoint.identity (checkpoint : SamplingCheckpoint) : Text :=
  Sha256.hex [.label "yvex.runtime.sampling.checkpoint.v1", .u64 checkpoint.schemaVersion,
    .u64 checkpoint.rngState.toNat, .u64 checkpoint.rngIncrement.toNat,
    .u64 checkpoint.successfulDraws, .text checkpoint.policyIdentity,
    .text checkpoint.rngStateIdentity]

def GenerationCheckpoint.identity (checkpoint : GenerationCheckpoint) : Text :=
  Sha256.hex [.label "yvex.runtime.generation.checkpoint.v1", .u64 checkpoint.schemaVersion,
    .text checkpoint.generationPlanIdentity, .text checkpoint.sampling.checkpointIdentity]

/-- The sampling context that a policy opens. -/
def SessionRegistry.opened (registry : SessionRegistry) (policy : SamplingPolicy) : Context :=
  Context.opened policy.seed policy.strategy registry.maximumRows

/-- `yvex_runtime_sampling_context_restore`, for a context without transactions. -/
def samplingContextRestore (policy : SamplingPolicy) (context : Context)
    (checkpoint : SamplingCheckpoint) : Except Rejection Context := do
  context.enter
  require (checkpoint.schemaVersion = 1 && checkpoint.rngIncrement = context.rngIncrement &&
    checkpoint.policyIdentity = policy.policyIdentity &&
    context.rngIdentity checkpoint.rngState checkpoint.successfulDraws =
      checkpoint.rngStateIdentity &&
    checkpoint.identity = checkpoint.checkpointIdentity) .format
    "sampling checkpoint is incompatible or corrupt"
  return { context with
    rngState := checkpoint.rngState
    successfulDraws := checkpoint.successfulDraws
    rngStateIdentity := checkpoint.rngStateIdentity }

def GenerationContext.enter (context : GenerationContext) : Except Rejection Unit :=
  require (!context.closing) .state "generation context is closing"

/-- `yvex_runtime_generation_context_restore`. -/
def generationContextRestore (context : GenerationContext) (checkpoint : GenerationCheckpoint) :
    Except Rejection GenerationContext := do
  context.enter
  require (checkpoint.schemaVersion = 1 &&
    checkpoint.generationPlanIdentity = context.planIdentity &&
    checkpoint.identity = checkpoint.checkpointIdentity) .format
    "generation checkpoint is incompatible or corrupt"
  let sampling ← samplingContextRestore context.policy context.sampling checkpoint.sampling
  return { context with sampling }

/-- `session_generation_open`, with the context that the turn then runs in. -/
def sessionGenerationOpen (registry : SessionRegistry) (session : ServerSession)
    (policy : SamplingPolicy) : Except Rejection GenerationContext := do
  require (!(session.content.policySet &&
    policy.policyIdentity ≠ session.content.policy.policyIdentity)) .state
    "sampling policy is immutable until session reset"
  match session.generation, session.pending with
  | some context, _ => return context
  | none, none => return ⟨registry.planIdentity policy, policy, registry.opened policy, false⟩
  | none, some checkpoint =>
    generationContextRestore ⟨registry.planIdentity policy, policy, registry.opened policy, false⟩
      checkpoint

/-- The sampling context in which a turn under the policy of the session draws. -/
def nextTurn (registry : SessionRegistry) (session : ServerSession) : Except Rejection Context := do
  let context ← sessionGenerationOpen registry session session.content.policy
  context.enter
  return context.sampling

/-- The content is as before, and so is the position from which the next turn draws. -/
structure Unchanged (registry : SessionRegistry) (before after : ServerSession) : Prop where
  content : after.content = before.content
  turn : nextTurn registry after = nextTurn registry before

variable {registry : SessionRegistry} {session : ServerSession} {context : GenerationContext}

theorem nextTurn_of_open (generation : session.generation = some context) :
    nextTurn registry session = context.enter.map fun _ => context.sampling := by
  cases entered : context.enter <;>
    simp [nextTurn, sessionGenerationOpen, require, generation, entered, bind, Except.bind, pure,
      Except.pure, Except.map]

/-- A turn that opens its own context is not refused because of the closed one. -/
theorem nextTurn_ne_closing (generation : session.generation = none) :
    nextTurn registry session ≠ .error ⟨.state, "generation context is closing"⟩ := by
  intro refused
  simp only [nextTurn, sessionGenerationOpen, generation, require, ne_eq, not_true_eq_false,
    decide_false, Bool.and_false, Bool.not_false, if_true, bind, Except.bind] at refused
  cases settled : session.pending with
  | none =>
    simp [settled, pure, Except.pure, GenerationContext.enter, require] at refused
  | some checkpoint =>
    simp only [settled, generationContextRestore, samplingContextRestore, GenerationContext.enter,
      Context.enter, SessionRegistry.opened, Context.opened, require, bind, Except.bind, pure,
      Except.pure] at refused
    grind

/-- A failed restore changes nothing exactly where no context was open, where the file was refused
first, where a context that was already closing could not be closed again, or where the context
was closed and the turn that opens another one draws from the same position. -/
theorem sessionStateRestore_unchanged_iff (answers : RestoreAnswers) {failure : Rejection}
    (failed : (sessionStateRestore answers session).1 = .error failure) :
    Unchanged registry session (sessionStateRestore answers session).2 ↔
      ∀ context ∈ session.generation, (storedStateRead answers session).isOk →
        context.closing = true ∧ answers.close ≠ .ok () ∨
        context.closing = false ∧ answers.close = .ok () ∧
          nextTurn registry { session with generation := none } = .ok context.sampling := by
  cases read : storedStateRead answers session with
  | error refusal =>
    have same : (sessionStateRestore answers session).2 = session := by
      rw [sessionStateRestore, read]
    rw [same]
    exact ⟨fun _ _ _ accepted => absurd accepted (by simp [Except.toBool]), fun _ => ⟨rfl, rfl⟩⟩
  | ok state =>
    cases generation : session.generation with
    | none =>
      have same : (sessionStateRestore answers session).2 = session := by
        cases restored : answers.restore with
        | ok =>
          simp [sessionStateRestore, read, generationContextClose, generation, restored] at failed
        | error refusal =>
          simp [sessionStateRestore, read, generationContextClose, generation, restored]
      rw [same]
      exact ⟨fun _ => by simp, fun _ => ⟨rfl, rfl⟩⟩
    | some context =>
      have before : nextTurn registry session = context.enter.map fun _ => context.sampling :=
        nextTurn_of_open generation
      have only : (∀ other ∈ some context, (Except.ok state : Except Rejection StoredState).isOk →
          other.closing = true ∧ answers.close ≠ .ok () ∨
          other.closing = false ∧ answers.close = .ok () ∧
            nextTurn registry { session with generation := none } = .ok other.sampling) ↔ _ :=
        ⟨fun condition => condition context rfl rfl, fun condition _ same _ => by
          cases same
          exact condition⟩
      rw [only]
      cases closed : answers.close with
      | error refusal =>
        have after : (sessionStateRestore answers session).2 =
            { session with generation := some { context with closing := true } } := by
          simp only [sessionStateRestore, read, generationContextClose, generation, closed]
        have turn : nextTurn registry
            { session with generation := some { context with closing := true } } =
              .error ⟨.state, "generation context is closing"⟩ := by
          rw [nextTurn_of_open rfl]
          rfl
        rw [after]
        cases closing : context.closing with
        | true =>
          refine ⟨fun _ => .inl ⟨rfl, by simp⟩, fun _ => ⟨rfl, ?_⟩⟩
          rw [turn, before, GenerationContext.enter, closing]
          rfl
        | false =>
          refine ⟨fun same => ?_, by simp⟩
          have same := same.turn
          rw [turn, before, GenerationContext.enter, closing] at same
          cases same
      | ok =>
        have after : (sessionStateRestore answers session).2 =
            { session with generation := none } := by
          cases restored : answers.restore with
          | ok => simp [sessionStateRestore, read, generationContextClose, generation, closed,
              restored] at failed
          | error refusal =>
            simp [sessionStateRestore, read, generationContextClose, generation, closed, restored]
        rw [after]
        rw [GenerationContext.enter] at before
        cases closing : context.closing with
        | true =>
          rw [closing] at before
          refine ⟨fun same => absurd (same.turn.trans before) (nextTurn_ne_closing rfl), by simp⟩
        | false =>
          rw [closing] at before
          exact ⟨fun same => .inr ⟨rfl, rfl, same.turn.trans before⟩,
            fun condition => ⟨rfl, before ▸ (condition.resolve_left (by simp)).2.2⟩⟩

end Turn

def plainRegistry : SessionRegistry := ⟨fun policy => "plan".toList ++ policy.policyIdentity, 1⟩

/-- A session after a turn, whose context has drawn some numbers. -/
def drawnSession (draws : Nat) : ServerSession :=
  let policy : SamplingPolicy := ⟨.stochastic, 7, "seven".toList⟩
  let fresh := @SessionRegistry.opened plainDigest plainRegistry policy
  ⟨⟨[⟨1, [72, 105], []⟩, ⟨2, [79, 75], [46]⟩], [5, 6, 7], 1, 2, 1, policy, true, 1, "turn".toList,
      "state".toList, "tokens".toList, "text".toList⟩, 64, 16,
    some ⟨plainRegistry.planIdentity policy, policy, { fresh with
      rngState := (fun state => (pcgNext pcgIncrement state).2)^[draws] fresh.rngState
      successfulDraws := draws }, false⟩, none⟩

/-- A file that fits the session and has changed when the runtime reads it again. -/
def changedFile : RestoreAnswers :=
  ⟨.ok (2, [89], 2), fun _ => .ok ⟨{ (drawnSession 0).content with
      messages := [⟨1, [72], []⟩], committedTokens := [5, 6] }, none⟩, .ok (),
    .error ⟨.state, "state checkpoint changed or mismatches its semantic session"⟩⟩

/-- The next turn draws the first number of the seed again. -/
theorem sessionStateRestore_rewinds : (sessionStateRestore changedFile (drawnSession 1)).1 =
        .error ⟨.state, "state checkpoint changed or mismatches its semantic session"⟩ ∧
      (@nextTurn plainDigest plainRegistry (drawnSession 1)).map Context.successfulDraws =
        .ok 1 ∧ (@nextTurn plainDigest plainRegistry
        (sessionStateRestore changedFile (drawnSession 1)).2).map Context.successfulDraws = .ok 0 :=
  ⟨rfl, rfl, rfl⟩

theorem sessionStateRestore_unchanged_fresh : (sessionStateRestore changedFile (drawnSession 0)).1 =
        .error ⟨.state, "state checkpoint changed or mismatches its semantic session"⟩ ∧
      @Unchanged plainDigest plainRegistry (drawnSession 0)
        (sessionStateRestore changedFile (drawnSession 0)).2 := by
  refine ⟨rfl, (@sessionStateRestore_unchanged_iff plainDigest _ _ changedFile _ rfl).mpr ?_⟩
  intro context member _
  cases member
  exact .inr ⟨rfl, rfl, rfl⟩

end Yvex.Server
