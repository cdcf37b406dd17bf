import Yvex.Foundation.Checked
import Yvex.Foundation.TwoPhase

namespace Yvex.Runtime.Coordination

open TwoPhase List Function Prod

/-! # Coordinated finish of a session

An execution ends for all state owners of a session at once: target attention, draft attention and
recurrent state, together with the participants that the caller adds. -/

def participantCap : Nat := 8

/-! ## State owners -/

/-- What is read of `yvex_graph_attention_state_summary`. -/
structure StateSummary where
  transactionActive : Bool
  candidateActive : Bool
  stagedLayerCount : Nat
  invalidated : Bool

/-- What is read of `yvex_sequence_state_summary`. -/
structure SequenceSummary where
  transactionActive : Bool
  stagedLayers : Nat
  bindingCount : Nat
  invalidated : Bool
deriving DecidableEq

/-- `yvex_attention_state_provider`; the call of the summary can fail. -/
structure StateProvider (σ : Type) where
  summary : σ → StateSummary
  summaryFailure : σ → Option Rejection
  prepareCommit : σ → Except Rejection Unit × σ
  publishCommit : σ → σ
  cancelCommit : σ → σ
  abort : σ → Except Rejection Unit × σ

structure StateResidency (σ : Type) where
  prepareCommit : σ → Except Rejection Unit × σ
  publishCommit : σ → σ
  abort : σ → σ

structure StateOwner (σ : Type) where
  provider : StateProvider σ
  residency : Option (StateResidency σ)

/-- `yvex_sequence_state`. -/
structure SequenceState (σ : Type) where
  summary : σ → SequenceSummary
  summaryFailure : σ → Option Rejection
  participant : Participant Rejection σ

def answer (failure : Option Rejection) (summary : α) : Except Rejection α :=
  match failure with
  | some failure => .error failure
  | none => .ok summary

structure Owners (σ : Type) where
  attention : Option (StateOwner σ)
  draft : Option (StateOwner σ)
  sequence : Option (SequenceState σ)

inductive Party where
  | attention
  | draft
  | sequence
  | extra (index : Nat)
deriving DecidableEq

/-- The state with the `provider_prepared` flags of the call. -/
structure Marked (σ : Type) where
  state : σ
  prepared : Party → Bool

variable {σ γ : Type}

namespace StateOwner

variable (owner : StateOwner σ)

def prepare (state : σ) : Except Rejection Unit × σ :=
  match owner.residency with
  | none => owner.provider.prepareCommit state
  | some residency =>
    match residency.prepareCommit state with
    | (.ok (), next) => owner.provider.prepareCommit next
    | (.error failure, next) => (.error failure, next)

def publish (state : σ) : σ :=
  owner.provider.publishCommit ((owner.residency.map StateResidency.publishCommit).getD id state)

def abortTwice (provider : StateProvider σ) (state : σ) : Except Rejection Unit × σ :=
  match provider.abort state with
  | (.ok (), next) => (.ok (), next)
  | (.error first, next) =>
    match provider.abort next with
    | (.ok (), last) => (.error first, last)
    | (.error retry, last) => (.error retry, last)

def abort (owner : StateOwner σ) (prepared : Bool) (state : σ) : Except Rejection Unit × σ :=
  abortTwice owner.provider ((owner.residency.map StateResidency.abort).getD id
    (if prepared then owner.provider.cancelCommit state else state))

def participant (party : Party) : Participant Rejection (Marked σ) where
  prepare marked :=
    let (outcome, state) := owner.prepare marked.state
    (outcome, ⟨state, update marked.prepared party outcome.isOk⟩)
  publish marked :=
    if marked.prepared party then
      ⟨owner.publish marked.state, update marked.prepared party false⟩
    else marked
  abort marked :=
    let (outcome, state) := owner.abort (marked.prepared party) marked.state
    (outcome, ⟨state, update marked.prepared party false⟩)

end StateOwner

def unmarked (participant : Participant Rejection σ) : Participant Rejection (Marked σ) where
  prepare marked :=
    let (outcome, state) := participant.prepare marked.state
    (outcome, { marked with state })
  publish marked := { marked with state := participant.publish marked.state }
  abort marked :=
    let (outcome, state) := participant.abort marked.state
    (outcome, { marked with state })

/-! ## Collecting the participants -/

abbrev Entry (σ : Type) := Party × Participant Rejection (Marked σ)

/-- `cleanup_rc` with the text of `cleanup`. -/
structure Cleanup where
  status : Status := .ok
  reason : Option String := none

def Cleanup.note (cleanup : Cleanup) (failure : Rejection) : Cleanup :=
  if cleanup.status = .ok then ⟨failure.status, some failure.reason⟩ else cleanup

def Cleanup.check (cleanup : Cleanup) (condition : Bool) (status : Status) (reason : String) :
    Cleanup :=
  if condition then cleanup else cleanup.note ⟨status, reason⟩

def Cleanup.outcome (cleanup : Cleanup) : Except Rejection Unit :=
  if cleanup.status = .ok then .ok ()
  else .error ⟨cleanup.status, cleanup.reason.getD "transaction failed before publication"⟩

section

variable (party : Party) (owner : Option (StateOwner σ))

def stateEntries (state : σ) : List (Entry σ) :=
  match owner with
  | none => []
  | some owner =>
    match answer (owner.provider.summaryFailure state) (owner.provider.summary state) with
    | .ok summary => if summary.transactionActive then [(party, owner.participant party)] else []
    | .error _ => []

def stateCheck (successful : Bool) (state : σ) (cleanup : Cleanup) : Cleanup :=
  match owner with
  | none => cleanup
  | some owner =>
    -- The summary is given `cleanup` for its error, and clears it when it succeeds.
    match answer (owner.provider.summaryFailure state) (owner.provider.summary state) with
    | .ok summary =>
      { cleanup with reason := none }.check (!successful || (summary.transactionActive &&
        !summary.candidateActive && summary.stagedLayerCount != 0 && !summary.invalidated)) .state
        "one coordinated state participant is incomplete"
    | .error failure => { cleanup.note failure with reason := some failure.reason }

end

def sequenceParticipant (sequence : SequenceState σ) (state : σ) :
    Except Rejection (Participant Rejection σ) := do
  require (!(sequence.summary state).invalidated && (sequence.summary state).transactionActive)
    .state "an active recurrent state transaction is required"
  return sequence.participant

section

variable (sequence : Option (SequenceState σ))

def sequenceEntries (state : σ) : Except Rejection (List (Entry σ)) :=
  match sequence with
  | none => .ok []
  | some sequence => do
    let summary ← answer (sequence.summaryFailure state) (sequence.summary state)
    if summary.transactionActive then
      let participant ← sequenceParticipant sequence state
      return [(.sequence, unmarked participant)]
    else return []

def sequenceCheck (successful : Bool) (state : σ) (cleanup : Cleanup) : Cleanup :=
  match sequence with
  | none => cleanup
  | some sequence =>
    match sequenceEntries (some sequence) state with
    | .error failure => cleanup.note failure
    | .ok _ =>
      let summary := sequence.summary state
      cleanup.check (!successful || (summary.transactionActive &&
        summary.stagedLayers == summary.bindingCount && !summary.invalidated)) .state
        "coordinated recurrent state participant is incomplete"

/-- `runtime_sequence_state_summary_record`. -/
def sequenceRecord (state : σ) (record : Option SequenceSummary) : Option SequenceSummary :=
  match sequence with
  | none => record
  | some sequence =>
    match answer (sequence.summaryFailure state) (sequence.summary state) with
    | .ok summary => some summary
    | .error _ => record

end

section

variable (owners : Owners σ)

def ownerEntries (state : σ) : List (Entry σ) :=
  stateEntries .attention owners.attention state ++ (stateEntries .draft owners.draft state ++
    (sequenceEntries owners.sequence state).toOption.getD [])

/-- The complete ones of the caller's participants. A participant without all its callbacks is
`none`. -/
def extraEntries (extras : List (Option (Participant Rejection σ))) : List (Entry σ) :=
  extras.zipIdx.filterMap fun (participant, index) =>
    participant.map fun participant => (.extra index, unmarked participant)

/-! ## Sessions -/

/-- What `yvex_runtime_session_finish_coordinated` reads and writes of a session. -/
structure Session where
  isOpen : Bool
  busy : Bool
  executionOwnerReady : Bool
  executionOwner : Nat
  closing : Bool
  invalidationPending : Bool
  invalidated : Bool
  executionCount : Nat
  cancellationCount : Nat
  failureCount : Nat
  sequence : Option SequenceSummary
deriving DecidableEq

section

variable (session : Session)

def Session.ownedBy (thread : Nat) : Bool :=
  session.executionOwnerReady && session.executionOwner == thread

def cleanup (thread : Nat) (successful : Bool) (extras : List (Option (Participant Rejection σ)))
    (state : σ) : Cleanup :=
  let cleanup := ({} : Cleanup).check (session.isOpen && session.busy && session.ownedBy thread &&
    !session.closing && !session.invalidationPending) .state "session state is not commit-ready"
  let cleanup := stateCheck owners.attention successful state cleanup
  let cleanup := stateCheck owners.draft successful state cleanup
  let cleanup := sequenceCheck owners.sequence successful state cleanup
  let cleanup := cleanup.check
    (decide ((ownerEntries owners state).length + extras.length ≤ participantCap)) .bounds
    "transaction participant capacity was exceeded"
  let cleanup := cleanup.check (extras.all Option.isSome) .invalidArgument
    "transaction participant is incomplete"
  let cleanup := cleanup.check (!successful || !(ownerEntries owners state).isEmpty) .state
    "coordinated execution has no active state participant"
  cleanup.check (!successful || (u64Add session.executionCount 1).isSome) .bounds
    "runtime session execution counter overflowed"

def counted (counter : Nat) : Nat := (u64Add counter 1).getD counter

def Session.finished (sequence : Option SequenceSummary) (outcome : Except Rejection Unit)
    (boundary : Bool) : Session :=
  let released := { session with
    executionOwnerReady := false
    busy := false
    sequence := sequence }
  match outcome with
  | .ok () => { released with executionCount := counted session.executionCount }
  | .error failure =>
    if failure.status = .cancelled then
      { released with cancellationCount := counted session.cancellationCount }
    else
      { released with
        failureCount := counted session.failureCount
        invalidated := session.invalidated || boundary }

end

structure Finish (σ : Type) where
  session : Session
  resolution : Resolution Rejection (Marked σ) Party

def finishCoordinated (session : Session) (thread : Nat) (status : Except Rejection Unit)
    (extras : List (Option (Participant Rejection σ))) (state : σ) :
    Finish σ :=
  if participantCap - 3 < extras.length then
    ⟨session, ⟨.error ⟨.state, "busy session and bounded transaction participants are required"⟩,
      false, ⟨state, fun _ => false⟩, []⟩⟩
  else
    let checked := (cleanup owners session thread status.isOk extras state).outcome
    let record := sequenceRecord owners.sequence state session.sequence
    let resolution := resolve (ownerEntries owners state ++ extraEntries extras)
      (firstFailure status checked) ⟨state, fun _ => false⟩
    let boundary := !checked.isOk || resolution.abortFailed ||
      (status.isOk && !resolution.outcome.isOk)
    ⟨session.finished (sequenceRecord owners.sequence resolution.world.state record)
      resolution.outcome boundary, resolution⟩

end

/-! ## Contracts -/

/-- The committed content of an attention owner changes when it is published or aborted only. -/
structure ProviderHonours (content : Party → σ → γ) (staged base : Party → γ) (party : Party)
    (provider : StateProvider σ) : Prop where
  prepare_content : ∀ state other, content other (provider.prepareCommit state).2 =
    content other state
  cancel_content : ∀ state other, content other (provider.cancelCommit state) = content other state
  publish_content : ∀ state, content party (provider.publishCommit state) = staged party
  publish_others : ∀ state other, other ≠ party →
    content other (provider.publishCommit state) = content other state
  abort_content : ∀ state, content party (provider.abort state).2 = base party
  abort_others : ∀ state other, other ≠ party →
    content other (provider.abort state).2 = content other state

structure ResidencyHonours (content : Party → σ → γ) (residency : StateResidency σ) : Prop where
  prepare_content : ∀ state other, content other (residency.prepareCommit state).2 =
    content other state
  publish_content : ∀ state other, content other (residency.publishCommit state) =
    content other state
  abort_content : ∀ state other, content other (residency.abort state) = content other state

structure OwnerHonours (content : Party → σ → γ) (staged base : Party → γ) (party : Party)
    (owner : StateOwner σ) : Prop where
  provider : ProviderHonours content staged base party owner.provider
  residency : ∀ residency ∈ owner.residency, ResidencyHonours content residency

def Ready (party : Party) (marked : Marked σ) : Prop :=
  (party = .attention ∨ party = .draft) → marked.prepared party = true

section Owner

variable {content : Party → σ → γ} {staged base : Party → γ} {party : Party} {owner : StateOwner σ}

theorem OwnerHonours.prepare_content (honours : OwnerHonours content staged base party owner)
    (state : σ) (other : Party) : content other (owner.prepare state).2 = content other state := by
  rw [StateOwner.prepare]
  cases present : owner.residency with
  | none => exact honours.provider.prepare_content state other
  | some residency => ?_
  have keeps := (honours.residency residency present).prepare_content state other
  simp only
  split
  · rename_i step
    rw [honours.provider.prepare_content, ← keeps, step]
  · rename_i step
    rw [← keeps, step]

theorem OwnerHonours.publish_residency (honours : OwnerHonours content staged base party owner)
    (state : σ) (other : Party) :
    content other ((owner.residency.map StateResidency.publishCommit).getD id state) =
      content other state := by
  cases present : owner.residency with
  | none => rfl
  | some residency => exact (honours.residency residency present).publish_content state other

theorem ProviderHonours.abortTwice_content
    (honours : ProviderHonours content staged base party provider) (state : σ) :
    content party (StateOwner.abortTwice provider state).2 = base party ∧ ∀ other, other ≠ party →
        content other (StateOwner.abortTwice provider state).2 = content other state := by
  have first := honours.abort_content state
  have others := honours.abort_others state
  rw [StateOwner.abortTwice]
  split
  · rename_i step
    rw [step] at first others
    exact ⟨first, others⟩
  rename_i next step
  rw [step] at others
  have second := honours.abort_content next
  have others' := honours.abort_others next
  split <;>
  · grind

theorem OwnerHonours.abort_content (honours : OwnerHonours content staged base party owner)
    (prepared : Bool) (state : σ) :
    content party (owner.abort prepared state).2 = base party ∧ ∀ other, other ≠ party →
      content other (owner.abort prepared state).2 = content other state := by
  obtain ⟨restored, others⟩ := honours.provider.abortTwice_content
    ((owner.residency.map StateResidency.abort).getD id
      (if prepared then owner.provider.cancelCommit state else state))
  refine ⟨restored, fun other differs => (others other differs).trans ?_⟩
  have cancelled : content other (if prepared then owner.provider.cancelCommit state else state) =
      content other state := by
    split
    · exact honours.provider.cancel_content state other
    · rfl
  cases present : owner.residency with
  | none => exact cancelled
  | some residency =>
    exact ((honours.residency residency present).abort_content _ other).trans cancelled

theorem OwnerHonours.participant (honours : OwnerHonours content staged base party owner)
    (flagged : party = .attention ∨ party = .draft) :
    Honours (fun party marked => content party marked.state) staged base Ready party
      (owner.participant party) where
  prepare_content marked other := honours.prepare_content marked.state other
  prepare_ready marked prepared _ := by
    have outcome : (owner.prepare marked.state).1 = .ok () := prepared
    simp only [StateOwner.participant, outcome, update_self]
    rfl
  prepare_others marked other differs ready mine := by
    simp only [StateOwner.participant, update_of_ne differs]
    exact ready mine
  publish_content marked ready := by
    simp only [StateOwner.participant, if_pos (ready flagged)]
    exact honours.provider.publish_content _
  publish_others marked other differs := by
    simp only [StateOwner.participant]
    split
    · refine ⟨(honours.provider.publish_others _ other differs).trans
        (honours.publish_residency marked.state other), fun ready mine => ?_⟩
      simp only [update_of_ne differs]
      exact ready mine
    · exact ⟨rfl, id⟩
  abort_content marked := (honours.abort_content _ marked.state).1
  abort_others marked := (honours.abort_content _ marked.state).2

theorem unmarked_honours (honours : Honours content staged base (fun _ _ => True) party participant)
    (plain : ¬ (party = .attention ∨ party = .draft)) :
    Honours (fun party marked => content party marked.state) staged base Ready party
      (unmarked participant) where
  prepare_content marked := honours.prepare_content marked.state
  prepare_ready _ _ flagged := absurd flagged plain
  prepare_others _ _ _ ready := ready
  publish_content marked _ := honours.publish_content marked.state trivial
  publish_others marked other differs := ⟨(honours.publish_others marked.state other differs).1, id⟩
  abort_content marked := honours.abort_content marked.state
  abort_others marked := honours.abort_others marked.state

end Owner

/-- Owners and participants that keep their contracts; the caller's are complete. -/
structure Contract (content : Party → σ → γ) (staged base : Party → γ) (owners : Owners σ)
    (extras : List (Option (Participant Rejection σ))) : Prop where
  attention : ∀ owner ∈ owners.attention, OwnerHonours content staged base .attention owner
  draft : ∀ owner ∈ owners.draft, OwnerHonours content staged base .draft owner
  sequence : ∀ sequence ∈ owners.sequence,
    Honours content staged base (fun _ _ => True) .sequence sequence.participant
  complete : ∀ index participant, extras[index]? = some participant → ∃ complete,
    participant = some complete ∧
      Honours content staged base (fun _ _ => True) (.extra index) complete

/-! ## Who takes part -/

/-- The owners among the three. -/
def three (attention draft sequence : Bool) : List Party :=
  (if attention then [.attention] else []) ++
    ((if draft then [.draft] else []) ++ if sequence then [.sequence] else [])

def StateOwner.active (owner : StateOwner σ) (state : σ) : Bool :=
  (owner.provider.summary state).transactionActive

def SequenceState.active (sequence : SequenceState σ) (state : σ) : Bool :=
  (sequence.summary state).transactionActive

/-- The owners with an open transaction. -/
def Owners.active (owners : Owners σ) (state : σ) : List Party :=
  three (owners.attention.any (·.active state)) (owners.draft.any (·.active state))
    (owners.sequence.any (·.active state))

def StateOwner.collected (owner : StateOwner σ) (state : σ) : Bool :=
  owner.active state && (owner.provider.summaryFailure state).isNone

def SequenceState.collected (sequence : SequenceState σ) (state : σ) : Bool :=
  sequence.active state && (sequence.summaryFailure state).isNone &&
    !(sequence.summary state).invalidated

/-- Those of them whose summary can be read, a recurrent state that is not invalidated. -/
def Owners.collected (owners : Owners σ) (state : σ) : List Party :=
  three (owners.attention.any (·.collected state)) (owners.draft.any (·.collected state))
    (owners.sequence.any (·.collected state))

def parties (owners : Owners σ) (extras : List (Option (Participant Rejection σ))) (state : σ) :
    List Party :=
  owners.active state ++ (List.range extras.length).map .extra

section Parties

variable {owners : Owners σ} {extras : List (Option (Participant Rejection σ))} {state : σ}
  {content : Party → σ → γ} {staged base : Party → γ}

theorem stateEntries_eq (party : Party) (owner : StateOwner σ) :
    stateEntries party (some owner) state =
      if owner.collected state then [(party, owner.participant party)] else [] := by
  rw [stateEntries, StateOwner.collected, StateOwner.active]
  cases owner.provider.summaryFailure state <;> simp [answer]

theorem sequenceEntries_eq (sequence : SequenceState σ) :
    (sequenceEntries (some sequence) state).toOption.getD [] =
      if sequence.collected state then [(.sequence, unmarked sequence.participant)] else [] := by
  rw [sequenceEntries, SequenceState.collected, SequenceState.active]
  cases sequence.summaryFailure state with
  | some failure => simp [answer, bind, Except.bind, Except.toOption]
  | none =>
    cases active : (sequence.summary state).transactionActive <;>
      cases invalid : (sequence.summary state).invalidated <;>
      simp [answer, sequenceParticipant, require, active, invalid, bind, Except.bind, pure,
        Except.pure, Except.toOption]

theorem stateEntries_names (party : Party) (owner : Option (StateOwner σ)) :
    (stateEntries party owner state).map fst =
      if owner.any (·.collected state) then [party] else [] := by
  cases owner with
  | none => rfl
  | some owner =>
    rw [stateEntries_eq, Option.any_some]
    split <;> rfl

theorem ownerEntries_names : (ownerEntries owners state).map fst = owners.collected state := by
  rw [ownerEntries, map_append, map_append, stateEntries_names, stateEntries_names,
    Owners.collected, three]
  congr 2
  cases owners.sequence with
  | none => rfl
  | some sequence =>
    rw [sequenceEntries_eq, Option.any_some]
    split <;> rfl

theorem extraEntries_names (contract : Contract content staged base owners extras) :
    (extraEntries extras).map fst = (List.range extras.length).map Party.extra := by
  have each : ∀ entry ∈ extras.zipIdx, (entry.1.map fun participant =>
      (Party.extra entry.2, unmarked participant)).map fst = some (Party.extra entry.2) := by
    grind [cases Contract]
  have places : extras.zipIdx.map (fun entry => Party.extra entry.2) =
      (extras.zipIdx.map snd).map Party.extra := map_map.symm
  rw [extraEntries, map_filterMap, filterMap_congr each, filterMap_eq_map', places,
    zipIdx_map_snd, range_eq_range']

theorem names_eq (contract : Contract content staged base owners extras) :
    (ownerEntries owners state ++ extraEntries extras).map fst =
      owners.collected state ++ (List.range extras.length).map .extra := by
  rw [map_append, ownerEntries_names, extraEntries_names contract]

theorem not_extra_of_three {attention draft sequence : Bool}
    (member : party ∈ three attention draft sequence) : ∀ index, party ≠ .extra index := by
  revert member
  cases attention <;> cases draft <;> cases sequence <;> simp [three] <;> grind

theorem names_nodup :
    (owners.collected state ++ (List.range extras.length).map Party.extra).Nodup := by
  have few : ∀ attention draft sequence, (three attention draft sequence).Nodup := by decide
  rw [nodup_append]
  refine ⟨few _ _ _, nodup_range.map fun _ _ => Party.extra.inj, ?_⟩
  intro party member other inside same
  obtain ⟨index, -, rfl⟩ := mem_map.mp inside
  exact not_extra_of_three member index same

theorem entries_honour (contract : Contract content staged base owners extras) :
    ∀ entry ∈ ownerEntries owners state ++ extraEntries extras,
      Honours (fun party marked => content party marked.state) staged base Ready entry.1
        entry.2 := by
  have attention : ∀ party owner, (∀ owner' ∈ owner, OwnerHonours content staged base party owner') →
      (party = .attention ∨ party = .draft) → ∀ entry ∈ stateEntries party owner state,
        Honours (fun party marked => content party marked.state) staged base Ready
          entry.1 entry.2 := by
    intro party owner honours flagged entry member
    cases owner with
    | none => cases member
    | some owner => ?_
    rw [stateEntries_eq] at member
    split at member
    · cases mem_singleton.mp member
      exact (honours owner rfl).participant flagged
    · cases member
  intro entry member
  rcases mem_append.mp member with owner | extra
  · rcases mem_append.mp owner with target | owner
    · exact attention .attention owners.attention contract.attention (.inl rfl) entry target
    rcases mem_append.mp owner with draft | recurrent
    · exact attention .draft owners.draft contract.draft (.inr rfl) entry draft
    cases present : owners.sequence with
    | none =>
      rw [present] at recurrent
      cases recurrent
    | some sequence => ?_
    rw [present, sequenceEntries_eq] at recurrent
    split at recurrent
    · cases mem_singleton.mp recurrent
      exact unmarked_honours (contract.sequence sequence present) (by simp)
    · cases recurrent
  · obtain ⟨⟨participant, index⟩, inside, made⟩ := mem_filterMap.mp extra
    obtain ⟨complete, equal, honours⟩ :=
      contract.complete index participant (mem_zipIdx_iff_getElem?.mp inside)
    cases equal
    cases made
    exact unmarked_honours honours (by simp)

end Parties

/-! ## The finish -/

/-- A finish that is all or nothing for the owner of a busy session, and nothing at all for anyone
else. -/
def Coordinated (content : Party → σ → γ) (staged base : Party → γ) (owners : Owners σ)
    (session : Session) (thread : Nat) (extras : List (Option (Participant Rejection σ))) (state : σ)
    (finish : Finish σ) : Prop :=
  if session.busy = true ∧ session.ownedBy thread = true then
    Committed (fun party marked => content party marked.state) staged
        (parties owners extras state) finish.resolution ∨
      RolledBack (fun party marked => content party marked.state) base
        (parties owners extras state) finish.resolution
  else
    (∃ failure, finish.resolution.outcome = .error failure) ∧ finish.session = session ∧
      finish.resolution.world.state = state ∧ finish.resolution.calls = []

section Finish

variable {content : Party → σ → γ} {staged base : Party → γ} {owners : Owners σ}
  {session : Session} {thread : Nat} {status : Except Rejection Unit}
  {extras : List (Option (Participant Rejection σ))} {state : σ}

theorem Session.finished_ne {sequence : Option SequenceSummary}
    (room : session.executionCount < u64Max ∧
      session.cancellationCount < u64Max ∧ session.failureCount < u64Max) :
    session.finished sequence outcome boundary ≠ session := by
  have grows : ∀ counter < u64Max, counted counter = counter + 1 := by
    intro counter below
    rw [counted, u64Add, if_pos (Nat.succ_le_of_lt below)]
    rfl
  intro same
  cases outcome with
  | ok _ =>
    have count : counted session.executionCount = session.executionCount :=
      congrArg Session.executionCount same
    rw [grows _ room.1] at count
    omega
  | error failure => ?_
  rw [Session.finished.eq_def] at same
  dsimp only at same
  split at same
  · grind
  have count : counted session.failureCount = session.failureCount :=
    congrArg Session.failureCount same
  rw [grows _ room.2.2] at count
  omega

/-! ### Numbers as states -/

def cellParticipant (party : Party) : Participant Rejection (Party → Nat) where
  prepare state := (.ok (), state)
  publish state := update state party 1
  abort state := (.ok (), update state party 0)

def cellOwner (party : Party) : StateOwner (Party → Nat) where
  provider :=
    { summary := fun _ => ⟨true, false, 2, false⟩
      summaryFailure := fun _ => none
      prepareCommit := (cellParticipant party).prepare
      publishCommit := (cellParticipant party).publish
      cancelCommit := id
      abort := (cellParticipant party).abort }
  residency := some ⟨fun state => (.ok (), state), id, id⟩

def cellOwners : Owners (Party → Nat) where
  attention := some (cellOwner .attention)
  draft := some (cellOwner .draft)
  sequence := some ⟨fun _ => ⟨true, 3, 3, false⟩, fun _ => none, cellParticipant .sequence⟩

def firstThreadSession : Session := ⟨true, true, true, 1, false, false, false, 0, 0, 0, none⟩

theorem cellOwners_contract : Contract (fun party state => state party) (fun _ => 1) (fun _ => 0)
    cellOwners [some (cellParticipant (.extra 0))] := by
  have participant (party : Party) : Honours (fun party (state : Party → Nat) => state party)
      (fun _ => 1) (fun _ => 0) (fun _ _ => True) party (cellParticipant party) := by
    constructor <;> simp +contextual [cellParticipant]
  have owner (party : Party) : OwnerHonours (fun party (state : Party → Nat) => state party)
      (fun _ => 1) (fun _ => 0) party (cellOwner party) := by
    constructor
    · constructor <;> simp +contextual [cellOwner, cellParticipant]
    · intro residency present
      cases present
      constructor <;> simp
  refine ⟨?_, ?_, ?_, ?_⟩
  · rintro _ ⟨⟩
    exact owner .attention
  · rintro _ ⟨⟩
    exact owner .draft
  · rintro _ ⟨⟩
    exact participant .sequence
  · grind

/-- A finish with few enough participants is coordinated when the session is busy with an execution
of the calling thread and every owner with a transaction is collected, and one with too many when
the session is not. As long as its counters can count, it is not coordinated otherwise. -/
theorem finishCoordinated_coordinated (contract : Contract content staged base owners extras)
    (before : ∀ party, content party state = base party) :
    let owned := session.busy = true ∧ session.ownedBy thread = true
    let condition := (extras.length ≤ participantCap - 3 ↔ owned) ∧
      (owned → ∀ party ∈ owners.active state, party ∈ owners.collected state)
    (condition →
        Coordinated content staged base owners session thread extras state
          (finishCoordinated owners session thread status extras state)) ∧
      ((session.executionCount < u64Max ∧ session.cancellationCount < u64Max ∧
          session.failureCount < u64Max) →
        Coordinated content staged base owners session thread extras state
          (finishCoordinated owners session thread status extras state) → condition) := by
  intro owned condition
  by_cases bounded : extras.length ≤ participantCap - 3
  · rw [finishCoordinated, if_neg (not_lt.mpr bounded)]
    by_cases mine : owned
    · rw [Coordinated, if_pos mine]
      constructor
      · intro holds
        have inside : parties owners extras state ⊆
            (ownerEntries owners state ++ extraEntries extras).map fst := by
          rw [names_eq contract]
          exact append_subset.mpr ⟨fun party active => mem_append_left _ (holds.2 mine party active),
            subset_append_right _ _⟩
        exact (resolve_all_or_nothing (entries_honour contract)
          (by rw [names_eq contract]; exact names_nodup) before).imp
            (·.mono inside) (·.mono inside)
      · refine fun _ finished => ⟨iff_of_true bounded mine, fun _ party active => ?_⟩
        have member : party ∈ parties owners extras state := mem_append_left _ active
        have called : party ∈ (ownerEntries owners state ++ extraEntries extras).map fst := by
          rcases finished with committed | rolledBack
          · have once := committed.published party member
            exact mem_names_of_called (count_pos_iff.mp (once ▸ Nat.one_pos)) (.inl rfl)
          · have once := rolledBack.aborted party member
            exact mem_names_of_called (count_pos_iff.mp (once ▸ Nat.one_pos)) (.inr rfl)
        rw [names_eq contract, mem_append] at called
        exact called.resolve_right fun extra => by
          obtain ⟨index, -, rfl⟩ := mem_map.mp extra
          exact not_extra_of_three active index rfl
    · refine ⟨fun holds => absurd (holds.1.mp bounded) mine, fun room coordinated => ?_⟩
      rw [Coordinated, if_neg mine] at coordinated
      exact absurd coordinated.2.1 (Session.finished_ne room)
  rw [finishCoordinated, if_pos (lt_of_not_ge bounded)]
  by_cases mine : owned
  · refine ⟨fun holds => absurd (holds.1.mpr mine) bounded, fun _ coordinated => ?_⟩
    rw [Coordinated, if_pos mine] at coordinated
    rcases coordinated with committed | rolledBack
    · cases committed.outcome
    have first : Party.extra 0 ∈ parties owners extras state := by
      apply mem_append_right
      exact mem_map_of_mem (mem_range.mpr (by omega))
    cases rolledBack.aborted _ first
  · rw [Coordinated, if_neg mine]
    exact ⟨fun _ => ⟨⟨_, rfl⟩, rfl, rfl, rfl⟩,
      fun _ _ => ⟨iff_of_false bounded mine, fun held => absurd held mine⟩⟩

/-- The owner's successful finish is coordinated, and it publishes everyone. -/
theorem finishCoordinated_coordinated_owner :
    let extras := [some (cellParticipant (.extra 0))]
    let finish := finishCoordinated cellOwners firstThreadSession 1 (.ok ()) extras fun _ => 0
    Coordinated (fun party state => state party) (fun _ => 1) (fun _ => 0) cellOwners
        firstThreadSession 1 extras (fun _ => 0) finish ∧
      finish.resolution.calls = [.prepare .attention, .prepare .draft, .prepare .sequence,
        .prepare (.extra 0), .publish .attention, .publish .draft, .publish .sequence,
        .publish (.extra 0)] :=
  ⟨(finishCoordinated_coordinated cellOwners_contract fun _ => rfl).1 (by decide), by decide⟩

/-- Another thread ends the transactions of the owner: its finish returns an error, and still
aborts, releases and invalidates. -/
theorem finishCoordinated_foreign_thread :
    let finish := finishCoordinated cellOwners firstThreadSession 2 (.ok ()) [] fun _ => 0
    ¬ Coordinated (fun party state => state party) (fun _ => 1) (fun _ => 0) cellOwners
        firstThreadSession 2 [] (fun _ => 0) finish ∧
      finish.resolution.outcome = .error ⟨.state, "transaction failed before publication"⟩ ∧
      finish.resolution.calls = [.abort .sequence, .abort .draft, .abort .attention] ∧
      finish.session =
        ⟨true, false, false, 1, false, false, true, 0, 0, 1, some ⟨true, 3, 3, false⟩⟩ := by
  refine ⟨?_, by decide, by decide, by decide⟩
  intro coordinated
  exact absurd coordinated.2.1 (by decide)

end Finish

end Yvex.Runtime.Coordination
