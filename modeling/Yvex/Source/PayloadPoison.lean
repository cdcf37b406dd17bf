import Yvex.Source.PayloadRanges
import Yvex.Source.PayloadStream

namespace Yvex.Source

open Interleaving
open Provider (Sha256Hex)

/-! # Poisoned sessions

A session that saw its files drift is poisoned. Calls write the state of the session in several
sections, with long stretches between them; the modes below say which of them can still do so. -/

/-! ## Modes -/

/-- A call does not hold the session, streams from it, verifies it, or has poisoned it while
verifying. -/
inductive Mode where
  | idle
  | streaming
  | verifying
  | doomed
deriving DecidableEq

def Mode.Fits : Mode → Session → Prop
  | .idle, _ => True
  | .streaming, session => session.state = .ready ∨ session.state = .poisoned
  | .verifying, session => session.state = .verifying
  | .doomed, session => session.state = .poisoned

inductive Mode.Moves : Mode → Section → Session → Session → Mode → Prop where
  | same (mode : Mode) {label : Section} {before after : Session} (kept : after.state = before.state)
      (inside : label ≠ .enter) : Moves mode label before after mode
  | leave (mode : Mode) {label : Section} {before after : Session}
      (kept : after.state = before.state) (inside : label ≠ .enter) (settled : mode ≠ .verifying) :
      Moves mode label before after .idle
  | probe {before after : Session} (poisoned : after.state = .poisoned)
      (waited : before.state ≠ .verifying) : Moves .idle .probeAcquire before after .idle
  | refused {before after : Session} (kept : after.state = before.state) :
      Moves .idle .enter before after .idle
  | stream {before after : Session} (kept : after.state = .ready) (ready : before.state = .ready) :
      Moves .idle .enter before after .streaming
  | verify {before after : Session} (begun : after.state = .verifying)
      (untrusted : before.state = .untrusted) : Moves .idle .enter before after .verifying
  | drift {label : Section} {before after : Session} (poisoned : after.state = .poisoned)
      (inside : label ≠ .enter) : Moves .streaming label before after .streaming
  | doom {label : Section} {before after : Session} (poisoned : after.state = .poisoned)
      (inside : label ≠ .enter) : Moves .verifying label before after .doomed
  | trust {label : Section} {before after : Session} (ready : after.state = .ready)
      (inside : label ≠ .enter) : Moves .verifying label before after .streaming
  | fail {label : Section} {before after : Session} (untrusted : after.state = .untrusted)
      (inside : label ≠ .enter) : Moves .verifying label before after .idle

def Mode.Asks (mode : Mode) (query : Query) : Prop :=
  (∃ result, query = .sinkCommit result) → mode = .streaming

variable {mode : Mode} {label : Section} {before after : Session}

theorem Mode.Moves.fits (moves : Mode.Moves mode label before after next)
    (fits : mode.Fits before) : next.Fits after := by
  cases moves with
  | same mode kept inside =>
    cases mode <;> simp_all [Mode.Fits]
  | leave | probe | refused | fail => trivial
  | stream kept _ => exact .inl kept
  | verify begun _ => exact begun
  | drift poisoned _ => exact .inr poisoned
  | doom poisoned _ => exact poisoned
  | trust ready _ => exact .inl ready

theorem Mode.Fits.of_same (fits : mode.Fits before) (kept : after.state = before.state) :
    mode.Fits after := by
  cases mode <;> simp_all [Mode.Fits]

/-- Two calls never verify at the same time. -/
def Mode.Compatible (mode other : Mode) : Prop := mode ≠ .verifying ∨ other ≠ .verifying

theorem Mode.Moves.others (moves : Mode.Moves mode label before after next)
    (fits : mode.Fits before) (otherFits : other.Fits before) (compatible : mode.Compatible other) :
    other.Fits after ∧ next.Compatible other := by
  cases moves with
  | same mode kept inside => exact ⟨otherFits.of_same kept, compatible⟩
  | leave mode kept inside settled => exact ⟨otherFits.of_same kept, .inl nofun⟩
  | refused kept => exact ⟨otherFits.of_same kept, .inl nofun⟩
  | probe poisoned waited =>
    refine ⟨?_, .inl nofun⟩
    cases other <;> simp_all [Mode.Fits]
  | stream kept ready => exact ⟨otherFits.of_same (kept.trans ready.symm), .inl nofun⟩
  | verify begun untrusted =>
    cases other <;> simp_all [Mode.Fits, Mode.Compatible]
  | drift poisoned inside =>
    refine ⟨?_, .inl nofun⟩
    cases other <;> simp_all [Mode.Fits]
  | doom | trust | fail =>
    -- the state is verifying, so nobody else holds the session
    cases other <;> simp_all [Mode.Fits, Mode.Compatible]

/-- A probe that asks for advice about the page cache waits for the end of a verification. -/
def coldProbesWait (label : Section) (session : Session) : Prop :=
  label = .probeAcquire → session.state ≠ .verifying

def payloadDiscipline : Discipline Session payloadInterface Mode where
  rest := .idle
  fits := Mode.Fits
  compatible := Mode.Compatible
  allowed := coldProbesWait
  moves := Mode.Moves
  asks := Mode.Asks
  rest_fits _ := trivial
  rest_compatible _ := .inl nofun
  symmetric _ _ := Or.symm
  moves_fits _ _ _ _ _ := Mode.Moves.fits
  moves_others _ _ _ _ _ _ := Mode.Moves.others

/-- Nothing leads out of the poisoned state, and nobody takes hold of the session in it. -/
theorem poisoned_trap :
    Trap payloadDiscipline (fun session => session.state = .poisoned) .enter where
  kept mode label before after next moves fits poisoned := by
    cases moves <;> simp_all [payloadDiscipline, Mode.Fits]
  resting label before after next moves poisoned := by
    cases moves <;> simp_all [payloadDiscipline]
  entering mode before after next moves := by
    cases moves <;> simp_all [payloadDiscipline]

/-! ## Rules for calls -/

def Keeps (mode : Mode) (call : Call α) (ended : α → Mode → Prop) (failed : Mode → Prop) : Prop :=
  Interleaving.Follows payloadDiscipline (fun result later => match result with
    | .ok value => ended value later
    | .error _ => failed later) mode call.run

variable {mode : Mode} {call : Call α}

theorem Keeps.bind (keeps : Keeps mode call ended failed)
    (after : ∀ value later, ended value later → Keeps later (continuation value) finished failed) :
    Keeps mode (call >>= continuation) finished failed := by
  apply Interleaving.Follows.bind keeps
  intro result later reached
  cases result with
  | ok value => exact after value later reached
  | error failure => exact reached

theorem Keeps.pure {value : α} (reached : ended value mode) :
    Keeps mode (pure value) ended failed := reached

theorem Keeps.lift (reached : ∀ result, ended result mode)
    (refused : failed mode) : Keeps mode (Call.lift value) ended failed := by
  cases value with
  | ok result => exact reached result
  | error failure => exact refused

theorem Keeps.ask {query : Query} {ended : query.Answer → Mode → Prop}
    (asks : mode.Asks query) (reached : ∀ answer, ended answer mode) :
    Keeps mode (Call.ask query) ended failed := ⟨asks, reached⟩

theorem Keeps.outcome (keeps : Keeps mode call (fun value later => ended (.ok value) later)
      fun later => ∀ failure, ended (.error failure) later) :
    Keeps mode call.outcome ended failed := by
  apply Interleaving.Follows.bind keeps
  intro result later reached
  cases result with
  | ok value => exact reached
  | error failure => exact reached failure

theorem Keeps.mono (keeps : Keeps mode call ended failed)
    (more : ∀ value later, ended value later → weaker value later)
    (also : ∀ later, failed later → looser later) : Keeps mode call weaker looser := by
  apply Interleaving.Follows.mono keeps
  intro result later reached
  cases result with
  | ok value => exact more value later reached
  | error failure => exact also later reached

variable {body : Session → Except Failure α × Session}

theorem Keeps.locked (moves : ∀ session, mode.Fits session → coldProbesWait label session → ∃ later,
      Mode.Moves mode label session (body session).2 later ∧
        match (body session).1 with
        | .ok value => ended value later
        | .error _ => failed later) :
    Keeps mode (Call.locked label body) ended failed := moves

theorem Keeps.update {body : Session → Session} {ended : Unit → Mode → Prop}
    (kept : ∀ session, (body session).state = session.state) (reached : ended () mode) :
    Keeps mode (Call.update body) ended failed :=
  .locked fun session _ _ => ⟨mode, .same mode (kept session) nofun, reached⟩

/-! ## Work on a held session -/

def Mode.broken : Mode → Mode
  | .verifying => .doomed
  | mode => mode

def Works (mode : Mode) (call : Call α) : Prop :=
  Keeps mode call (fun _ later => later = mode) fun later => later = mode ∨ later = mode.broken

def Poisons (body : Session → Except Failure α × Session) : Prop :=
  ∀ session, (body session).2.state = session.state ∨
    (body session).2.state = .poisoned ∧ ∃ failure, (body session).1 = .error failure

theorem Works.bind (works : Works mode call) (after : ∀ value, Works mode (continuation value)) :
    Works mode (call >>= continuation) := by
  apply Keeps.bind works
  intro value later same
  rw [same]
  exact after value

theorem Works.pure (value : α) : Works mode (pure value) := Keeps.pure rfl

theorem Works.lift (value : Except Failure α) : Works mode (Call.lift value) :=
  Keeps.lift (fun _ => rfl) (.inl rfl)

theorem Works.fail (failure : Failure) : Works mode (Call.fail failure : Call α) :=
  Works.lift (.error failure)

theorem Works.ask {query : Query} (silent : ∀ result, query ≠ .sinkCommit result) :
    Works mode (Call.ask query) :=
  Keeps.ask (fun ⟨result, commits⟩ => absurd commits (silent result)) fun _ => rfl

theorem Works.update {body : Session → Session}
    (kept : ∀ session, (body session).state = session.state) : Works mode (Call.update body) :=
  Keeps.update kept rfl

theorem Works.kept (kept : ∀ session, (body session).2.state = session.state)
    (inside : label ≠ .enter) : Works mode (Call.locked label body) := by
  apply Keeps.locked
  intro session _ _
  refine ⟨mode, .same mode (kept session) inside, ?_⟩
  split
  · rfl
  · exact .inl rfl

theorem Works.locked (poisons : Poisons body) (holds : mode = .streaming ∨ mode = .verifying)
    (inside : label ≠ .enter) : Works mode (Call.locked label body) := by
  apply Keeps.locked
  intro session fits _
  rcases poisons session with kept | ⟨poisoned, failure, failed⟩
  · refine ⟨mode, .same mode kept inside, ?_⟩
    split
    · rfl
    · exact .inl rfl
  rw [failed]
  rcases holds with streams | verifies
  · subst streams
    exact ⟨.streaming, .drift poisoned inside, .inl rfl⟩
  · subst verifies
    exact ⟨.doomed, .doom poisoned inside, .inr rfl⟩

section

variable (shardIndex : Nat)

theorem drifted_poisons (message : String) :
    Poisons (drifted shardIndex message) := fun _ => .inr ⟨rfl, _, rfl⟩

theorem acquire_poisons (view : ShardView) : Poisons (Session.acquire shardIndex view) := by
  intro session
  rw [Session.acquire]
  split
  · exact .inl rfl
  split
  · rw [Session.reuse]
    split
    · split
      · exact .inl rfl
      · exact drifted_poisons _ _ session
    · exact drifted_poisons _ _ session
  split
  · exact .inl rfl
  split
  · exact .inl rfl
  rw [Session.reopen]
  split
  · exact .inl rfl
  split
  · split
    · exact .inl rfl
    · exact .inr ⟨rfl, _, rfl⟩
  · exact .inl rfl

theorem Works.outcome (works : Works mode call) :
    Keeps mode call.outcome (fun result later => later = mode ∨
      later = mode.broken ∧ ∃ failure, result = .error failure) failed := by
  apply Keeps.outcome
  apply Keeps.mono works
  · intro value later same
    exact .inl same
  · grind

theorem handleRelease_state (session : Session) :
    (session.releaseHandle shardIndex).state = session.state := by
  rw [Session.releaseHandle]
  split <;> rfl

theorem handleRelease_keeps :
    Keeps mode (handleRelease shardIndex) (fun _ later => later = mode) failed :=
  Keeps.update (handleRelease_state shardIndex) rfl

theorem orRelease_works (works : Works mode call) : Works mode (orRelease shardIndex call) := by
  apply Keeps.bind works.outcome
  intro result later reached
  cases result with
  | error failure =>
    apply Keeps.bind (handleRelease_keeps shardIndex)
    rintro _ _ rfl
    rcases reached with rfl | ⟨rfl, _⟩
    · exact .inl rfl
    · exact .inr rfl
  | ok value =>
    rcases reached with rfl | ⟨_, _, ⟨⟩⟩
    exact Works.pure value

theorem withRelease_works (works : Works mode call) : Works mode (withRelease shardIndex call) := by
  apply Keeps.bind works.outcome
  intro result later reached
  apply Keeps.bind (handleRelease_keeps shardIndex)
  rintro _ _ rfl
  rcases reached with rfl | ⟨rfl, failure, rfl⟩
  · exact Works.lift result
  · exact .inr rfl

end

theorem checkCancelled_works (failure : Failure) : Works mode (checkCancelled failure) :=
  Works.kept (fun _ => rfl) (by decide)

theorem exactReadLoop_works (shardIndex offset length fuel : Nat) (completed : Bytes)
    (result : StreamResult) :
    Works mode (exactReadLoop shardIndex offset length fuel completed result) := by
  induction fuel generalizing completed result with
  | zero => exact Works.pure _
  | succ fuel induction => ?_
  rw [exactReadLoop]
  split
  · exact Works.pure _
  apply Works.bind (checkCancelled_works _)
  intro _
  apply Works.bind (Works.lift _)
  intro _
  apply Works.bind (Works.ask (by nofun))
  intro got
  apply Works.bind (Works.lift _)
  intro bytes
  apply Works.bind (Works.lift _)
  intro _
  apply Works.bind (Works.lift _)
  intro physical
  exact induction _ _

theorem exactRead_works (shardIndex offset length : Nat) (result : StreamResult) :
    Works mode (exactRead shardIndex offset length result) := by
  apply Works.bind (Works.lift _)
  intro _
  exact exactReadLoop_works ..

theorem deliver_works (chunk : Chunk) (bytes : Bytes) (result : StreamResult) :
    Works mode (deliver chunk bytes result) := by
  apply Works.bind (Works.ask (by nofun))
  intro accepted
  apply Works.bind (Works.lift _)
  intro _
  apply Works.bind (Works.lift _)
  intro delivered
  apply Works.bind (checkCancelled_works _)
  intro _
  exact Works.pure _

section Held

variable (holds : mode = .streaming ∨ mode = .verifying)

include holds

theorem handleAcquire_works (shardIndex : Nat) : Works mode (handleAcquire .acquire shardIndex) := by
  apply Works.bind (Works.ask (by nofun))
  intro view
  exact Works.locked (acquire_poisons shardIndex view) holds (by decide)

theorem validateAfter_works (shardIndex : Nat) : Works mode (validateAfter shardIndex) := by
  apply Works.bind (Works.ask (by nofun))
  rintro ⟨descriptor, path⟩
  apply Works.bind (Works.lift _)
  intro descriptor
  apply Works.locked _ holds (by decide)
  intro session
  dsimp only
  split
  · exact .inl rfl
  · exact drifted_poisons _ _ session

variable (pinned : Option Nat)

theorem unpin_works : Works mode (unpin pinned) := by
  cases pinned with
  | none => exact Works.pure ()
  | some shardIndex => exact withRelease_works shardIndex (validateAfter_works holds shardIndex)

theorem pin_works (shardIndex : Nat) : Works mode (pin pinned shardIndex) := by
  rw [pin]
  split
  · exact Works.pure ()
  apply Works.bind (unpin_works holds pinned)
  intro _
  exact handleAcquire_works holds shardIndex

theorem streamChunks_works (chunks : List Chunk) (result : StreamResult) :
    Works mode (streamChunks pinned chunks result) := by
  induction chunks generalizing pinned result with
  | nil =>
    apply Works.bind (unpin_works holds pinned)
    intro _
    exact Works.pure result
  | cons chunk rest induction => ?_
  apply Works.bind (pin_works holds pinned chunk.shardIndex)
  intro _
  apply Works.bind
  · apply orRelease_works
    apply Works.bind (exactRead_works ..)
    rintro ⟨bytes, result⟩
    exact deliver_works chunk bytes result
  · intro result
    exact induction _ result

theorem streamBody_works (plan : Plan) : Works mode (streamBody plan) := by
  apply Works.bind (Works.ask (by nofun))
  intro accepted
  apply Works.bind (Works.lift _)
  intro _
  apply Works.bind (streamChunks_works holds none plan.chunks _)
  intro result
  apply Works.bind (Works.lift _)
  intro _
  exact Works.pure result

end Held

theorem verifyHashSpan_works (shardIndex bufferBytes fuel offset finish : Nat) (hash : Bytes)
    (result : StreamResult) :
    Works mode (verifyHashSpan shardIndex bufferBytes fuel offset finish hash result) := by
  induction fuel generalizing offset hash result with
  | zero => exact Works.pure _
  | succ fuel induction => ?_
  rw [verifyHashSpan]
  split
  · exact Works.pure _
  apply Works.bind (exactRead_works ..)
  rintro ⟨bytes, result⟩
  exact induction _ _ result

theorem verifyChunks_works (shardIndex bufferBytes : Nat) (chunks : List Chunk) (cursor : Nat)
    (hash : Bytes) (result : StreamResult) :
    Works mode (verifyChunks shardIndex bufferBytes chunks cursor hash result) := by
  induction chunks generalizing cursor hash result with
  | nil => exact Works.pure _
  | cons chunk rest induction => ?_
  rw [verifyChunks]
  split
  · exact Works.pure _
  apply Works.bind (Works.lift _)
  intro _
  apply Works.bind (verifyHashSpan_works ..)
  rintro ⟨hash, result⟩
  apply Works.bind (exactRead_works ..)
  rintro ⟨bytes, result⟩
  apply Works.bind (deliver_works ..)
  intro result
  exact induction _ _ result

theorem verifyBegin_works (plan : Option Plan) : Works mode (verifyBegin plan) := by
  cases plan with
  | none => exact Works.pure ()
  | some plan => ?_
  apply Works.bind (Works.ask (by nofun))
  intro accepted
  exact Works.lift _

theorem trust_keeps :
    Keeps .verifying (Call.locked .ready fun session => (.ok (), { session with state := .ready }))
      (fun _ later => later = .streaming) failed :=
  Keeps.locked fun _ _ _ => ⟨.streaming, .trust rfl (by decide), rfl⟩

section Verification

variable [Sha256Hex]

theorem sealShard_poisons (shardIndex : Nat) (hash : Bytes) :
    Poisons (Session.sealShard shardIndex hash) := by
  intro session
  rw [Session.sealShard]
  split
  · exact .inl rfl
  dsimp only
  split
  · exact .inr ⟨rfl, _, rfl⟩
  · exact .inl rfl

theorem identityCompute_poisons : Poisons identityCompute := by
  intro session
  rw [identityCompute]
  split
  · exact .inl rfl
  split
  · exact .inl rfl
  dsimp only
  split
  · exact .inr ⟨rfl, _, rfl⟩
  · exact .inl rfl

theorem verifyShard_works (bufferBytes shardIndex fileBytes : Nat) (chunks : List Chunk)
    (result : StreamResult) :
    Works .verifying (verifyShard bufferBytes shardIndex fileBytes chunks result) := by
  apply Works.bind (handleAcquire_works (.inr rfl) shardIndex)
  intro _
  apply Works.bind
  · apply withRelease_works
    apply Works.bind (verifyChunks_works ..)
    rintro ⟨rest, cursor, hash, result⟩
    apply Works.bind (verifyHashSpan_works ..)
    rintro ⟨hash, result⟩
    apply Works.bind (validateAfter_works (.inr rfl) shardIndex)
    intro _
    exact Works.pure _
  · rintro ⟨rest, hash, result⟩
    apply Works.bind (Works.locked (sealShard_poisons shardIndex hash) (.inr rfl) (by decide))
    intro _
    exact Works.pure _

theorem verifyShards_works (bufferBytes : Nat) (shards : List Shard) (shardIndex : Nat)
    (chunks : List Chunk) (result : StreamResult) :
    Works .verifying (verifyShards bufferBytes shards shardIndex chunks result) := by
  induction shards generalizing shardIndex chunks result with
  | nil => exact Works.pure _
  | cons shard rest induction => ?_
  apply Works.bind (verifyShard_works ..)
  rintro ⟨chunks, result⟩
  exact induction _ chunks result

theorem verifyBody_keeps (plan : Option Plan) (bufferBytes : Nat) (shards : List Shard) :
    Keeps .verifying (verifyBody plan bufferBytes shards) (fun _ later => later = .streaming)
      fun later => later = .verifying ∨ later = .doomed := by
  apply Keeps.bind (verifyBegin_works plan)
  rintro _ _ rfl
  apply Keeps.bind (verifyShards_works ..)
  rintro ⟨left, result⟩ _ rfl
  apply Keeps.bind (Works.lift _)
  rintro _ _ rfl
  apply Keeps.bind (Works.locked identityCompute_poisons (.inr rfl) (by decide))
  rintro _ _ rfl
  apply Keeps.bind (Works.ask (by nofun))
  rintro published _ rfl
  apply Keeps.bind (Works.lift _)
  rintro _ _ rfl
  apply Keeps.bind trust_keeps
  rintro _ _ rfl
  exact Keeps.pure rfl

end Verification

/-! ## Whole calls -/

def Settles (call : Call α) : Prop :=
  Keeps .idle call (fun _ later => later = .idle) fun later => later = .idle

theorem Settles.bind (settles : Settles call) (after : ∀ value, Settles (continuation value)) :
    Settles (call >>= continuation) := by
  apply Keeps.bind settles
  rintro value _ rfl
  exact after value

theorem Works.settles (works : Works .idle call) : Settles call := by
  apply Keeps.mono works fun _ _ => id
  rintro later (same | broken)
  · exact same
  · exact broken

theorem leave_keeps (bytes : Nat) (settled : mode ≠ .verifying) :
    Keeps mode (Call.update (Session.leave bytes)) (fun _ later => later = .idle) failed :=
  Keeps.locked fun _ _ _ => ⟨.idle, .leave mode rfl (by decide) settled, rfl⟩

theorem bufferRelease_keeps (slot : Option Nat) :
    Keeps mode (bufferRelease slot) (fun _ later => later = mode) failed := by
  cases slot with
  | none => exact Keeps.pure rfl
  | some slot => exact Keeps.update (fun _ => rfl) rfl

theorem abort_keeps (began : Bool) (failure : Failure) :
    Keeps mode (abort began failure) (fun _ later => later = mode) failed := by
  cases began with
  | false => exact Keeps.pure rfl
  | true => exact Keeps.ask nofun fun _ => rfl

theorem abandon_keeps (began : Bool) (slot : Option Nat) (bytes : Nat) (failure : Failure)
    (settled : mode ≠ .verifying) :
    Keeps mode (abandon began slot bytes failure) ended fun later => later = .idle := by
  apply Keeps.bind (abort_keeps began failure)
  rintro _ _ rfl
  apply Keeps.bind (bufferRelease_keeps slot)
  rintro _ _ rfl
  apply Keeps.bind (leave_keeps bytes settled)
  rintro _ _ rfl
  exact (rfl : Mode.idle = .idle)

theorem commit_keeps (slot bytes : Nat) (result : StreamResult) (message : String) :
    Keeps .streaming (commit slot bytes result message) (fun _ later => later = .idle)
      fun later => later = .idle := by
  apply Keeps.bind (Keeps.ask (fun _ => rfl) fun _ => (rfl : Mode.streaming = .streaming))
  rintro (accepted : Bool) _ rfl
  cases accepted with
  | false => exact abandon_keeps _ _ _ _ (by decide)
  | true => ?_
  apply Keeps.bind (bufferRelease_keeps _)
  rintro _ _ rfl
  apply Keeps.bind (leave_keeps bytes (by decide))
  rintro _ _ rfl
  exact Keeps.pure rfl

theorem enter_cases (bytes : Nat) (required transition : SessionState) (session : Session) :
    (∃ failure, session.enter bytes required transition = (.error failure, session)) ∨
      session.state = required ∧ ∃ entered, session.enter bytes required transition =
        (.ok (), entered) ∧ entered.state = transition := by
  rw [Session.enter]
  split
  · exact .inl ⟨_, rfl⟩
  rename_i admissible
  split
  · exact .inl ⟨_, rfl⟩
  · exact .inr ⟨by simpa using (not_or.mp admissible).1, _, rfl, rfl⟩

theorem enter_keeps (moves : ∀ before after, before.state = required → after.state = transition →
      Mode.Moves .idle .enter before after holding) :
    Keeps .idle (Call.locked .enter (Session.enter bytes required transition))
      (fun _ later => later = holding) fun later => later = .idle := by
  apply Keeps.locked
  intro session _ _
  rcases enter_cases bytes required transition session with ⟨failure, refused⟩ |
    ⟨held, after, entered, state⟩
  · rw [refused]
    exact ⟨.idle, .refused rfl, rfl⟩
  · rw [entered]
    exact ⟨holding, moves _ _ held state, rfl⟩

theorem acquireBuffer_works (bytes : Nat) :
    Works mode (Call.locked .other (Session.acquireBuffer bytes)) := by
  apply Works.kept _ (by decide)
  intro session
  rw [Session.acquireBuffer]
  split
  · rfl
  · dsimp only
    split <;> rfl

theorem sessionStream_settles (plan : Plan) : Settles (sessionStream plan) := by
  apply Keeps.bind (enter_keeps fun _ _ ready kept => .stream kept ready)
  rintro _ _ rfl
  apply Keeps.bind (acquireBuffer_works _).outcome
  rintro acquired later reached
  have streams : later = .streaming := by
    rcases reached with same | ⟨same, _⟩ <;> exact same
  subst streams
  cases acquired with
  | error failure => exact abandon_keeps _ _ _ _ (by decide)
  | ok slot => ?_
  apply Keeps.bind (streamBody_works (.inl rfl) plan).outcome
  rintro outcome later reached
  have streams : later = .streaming := by
    rcases reached with same | ⟨same, _⟩ <;> exact same
  subst streams
  cases outcome with
  | error failure => exact abandon_keeps _ _ _ _ (by decide)
  | ok result => exact commit_keeps ..

theorem failVerify_state (session : Session) : session.failVerify.state =
    if session.state = .verifying then .untrusted else session.state := by
  by_cases verifying : session.state = .verifying
  · rw [Session.failVerify, if_pos verifying, if_pos verifying]
    rfl
  · rw [Session.failVerify, if_neg verifying]
    split <;> rfl

theorem failVerify_keeps (holds : mode = .verifying ∨ mode = .doomed) :
    Keeps mode (Call.update Session.failVerify) (fun _ later => later = .idle) failed := by
  apply Keeps.locked
  intro session fits _
  have state := failVerify_state session
  rcases holds with rfl | rfl
  · have verifying : session.state = .verifying := fits
    rw [if_pos verifying] at state
    exact ⟨.idle, .fail state (by decide), rfl⟩
  · have poisoned : session.state = .poisoned := fits
    rw [if_neg (by rw [poisoned]; decide)] at state
    exact ⟨.idle, .leave _ state (by decide) (by decide), rfl⟩

theorem abandonVerify_keeps (began : Bool) (slot : Option Nat) (bytes : Nat) (failure : Failure)
    (holds : mode = .verifying ∨ mode = .doomed) :
    Keeps mode (do
      Call.update Session.failVerify
      abandon began slot bytes failure) ended fun later => later = .idle := by
  apply Keeps.bind (failVerify_keeps holds)
  rintro _ _ rfl
  exact abandon_keeps _ _ _ _ (by decide)

theorem verifyBody_outcome [Sha256Hex] (plan : Option Plan) (bufferBytes : Nat)
    (shards : List Shard) :
    Keeps .verifying (verifyBody plan bufferBytes shards).outcome (fun result later =>
      match result with
      | .ok _ => later = .streaming
      | .error _ => later = .verifying ∨ later = .doomed) failed :=
  Keeps.outcome ((verifyBody_keeps plan bufferBytes shards).mono (fun _ _ => id) fun _ held _ =>
    held)

theorem sessionVerify_settles [Sha256Hex] (plan : Option Plan) : Settles (sessionVerify plan) := by
  apply Settles.bind (Works.settles (Works.kept (fun _ => rfl) (by decide)))
  intro session
  apply Keeps.bind (enter_keeps fun _ _ untrusted begun => .verify begun untrusted)
  rintro _ _ rfl
  apply Keeps.bind (acquireBuffer_works _).outcome
  rintro acquired later reached
  cases acquired with
  | error failure =>
    apply abandonVerify_keeps
    rcases reached with same | ⟨broken, _⟩
    · exact .inl same
    · exact .inr broken
  | ok slot => ?_
  rcases reached with rfl | ⟨_, _, ⟨⟩⟩
  apply Keeps.bind (verifyBody_outcome plan _ _)
  rintro outcome later reached
  cases outcome with
  | error failure => exact abandonVerify_keeps _ _ _ _ reached
  | ok result => ?_
  cases reached
  dsimp only
  split
  · exact commit_keeps ..
  apply Keeps.bind (bufferRelease_keeps _)
  rintro _ _ rfl
  apply Keeps.bind (leave_keeps _ (by decide))
  rintro _ _ rfl
  exact Keeps.pure rfl

theorem planClose_settles : Settles planClose := Works.settles (Works.update fun _ => rfl)

theorem selectRanges_works (tensorIndices : List Nat) :
    Works mode (Call.locked .other (Session.selectRanges tensorIndices)) := by
  apply Works.kept _ (by decide)
  intro session
  rw [Session.selectRanges]
  split
  · rfl
  · split <;> rfl

theorem planBuild_settles (selection : Option (List Nat)) (chunkBytes pageBytes : Nat) :
    Settles (planBuild selection chunkBytes pageBytes) := by
  apply Settles.bind (Works.settles (Works.kept (fun _ => rfl) (by decide)))
  intro session
  apply Settles.bind (Works.settles (Works.lift _))
  intro _
  apply Settles.bind (Works.settles (Works.lift _))
  intro _
  apply Settles.bind (Works.settles (selectRanges_works _))
  intro ranges
  split
  · apply Settles.bind planClose_settles
    intro _
    exact Works.settles (Works.fail _)
  · exact Works.settles (Works.pure _)

theorem probeAcquire_settles (shardIndex : Nat) :
    Settles (handleAcquire .probeAcquire shardIndex) := by
  apply Settles.bind (Works.settles (Works.ask (by nofun)))
  intro view
  apply Keeps.locked
  intro session _ waits
  rcases acquire_poisons shardIndex view session with kept | ⟨poisoned, failure, failed⟩
  · refine ⟨.idle, .same .idle kept (by decide), ?_⟩
    split <;> rfl
  · rw [failed]
    exact ⟨.idle, .probe poisoned (waits rfl), rfl⟩

theorem probeAdvice_settles (ranges : List NumberedRange) : Settles (probeAdvice ranges) := by
  induction ranges with
  | nil => exact Works.settles (Works.pure ())
  | cons range rest induction => ?_
  apply Settles.bind (probeAcquire_settles range.shardIndex)
  intro _
  apply Settles.bind (handleRelease_keeps range.shardIndex)
  intro _
  exact induction

theorem Settles.outcome (settles : Settles call) : Settles call.outcome :=
  Keeps.outcome (settles.mono (fun _ _ => id) fun _ settled _ => settled)

theorem probeStages_settles (summary : PlanSummary) (ranges : List NumberedRange) :
    Settles (probeStages summary ranges) := by
  induction ranges with
  | nil => exact Works.settles (Works.pure ())
  | cons range rest induction => ?_
  apply Settles.bind (planBuild_settles _ _ _)
  intro stage
  apply Settles.bind (sessionStream_settles stage).outcome
  intro outcome
  apply Settles.bind planClose_settles
  intro _
  apply Settles.bind (Works.settles (Works.lift _))
  intro _
  exact induction

theorem probeRounds_settles (plan : Plan) (mode : ProbeMode) (repetitions : Nat) :
    Settles (probeRounds plan mode repetitions) := by
  induction repetitions with
  | zero => exact Works.settles (Works.pure ())
  | succ repetitions induction => ?_
  apply Settles.bind _ fun _ => induction
  rw [probeRound]
  split
  · exact probeStages_settles ..
  apply Settles.bind (sessionStream_settles plan)
  intro _
  exact Works.settles (Works.pure ())

theorem sessionProbe_settles (plan : Plan) (mode : ProbeMode) (repetitions : Nat) :
    Settles (sessionProbe plan mode repetitions) := by
  apply Settles.bind (Works.settles (Works.lift _))
  intro _
  apply Settles.bind (probeAdvice_settles _)
  intro _
  exact probeRounds_settles ..

theorem sessionCancel_settles : Settles sessionCancel := by
  apply Works.settles
  apply Works.kept _ (by decide)
  intro session
  split <;> rfl

theorem sessionResetCancel_settles : Settles sessionResetCancel := by
  apply Works.settles
  apply Works.kept _ (by decide)
  intro session
  split <;> rfl

/-! ## All calls -/

theorem Settles.forget (settles : Settles call) :
    Interleaving.Follows payloadDiscipline (fun _ _ => True) .idle call.forget := by
  apply Interleaving.Follows.bind settles
  intro _ _ _
  trivial

section Calls

variable [Sha256Hex]

theorem program_follows (call : PayloadCall) :
    Interleaving.Follows payloadDiscipline (fun _ _ => True) payloadDiscipline.rest
      call.program := by
  cases call with
  | verify plan => exact (sessionVerify_settles plan).forget
  | stream plan => exact (sessionStream_settles plan).forget
  | probe plan mode repetitions => exact (sessionProbe_settles plan mode repetitions).forget
  | planBuild selection chunkBytes pageBytes =>
    exact (planBuild_settles selection chunkBytes pageBytes).forget
  | planClose => exact planClose_settles.forget
  | cancel => exact sessionCancel_settles.forget
  | resetCancel => exact sessionResetCancel_settles.forget

abbrev PayloadMove := Move Session payloadInterface PayloadCall

def probeWaits (move : PayloadMove) : Bool :=
  match move.event with
  | .locked .probeAcquire => move.before.state != .verifying
  | _ => true

omit [Sha256Hex] in
theorem allowed_of_probeWaits (waits : probeWaits move = true) :
    move.Allowed payloadDiscipline := by
  rintro _ event rfl
  rw [probeWaits, event] at waits
  simpa using waits

/-- In a run whose cold probes wait for the verification, a poisoned session stays poisoned, and no
stream or verification that enters afterwards commits. -/
theorem poisoned_permanent (session : Session)
    {prior later : List (Action payloadInterface PayloadCall)}
    {middle last : Pool Session payloadInterface} {before after : List PayloadMove}
    (started : Pool.play PayloadCall.program ⟨session, []⟩ prior = some (middle, before))
    (poisoned : middle.shared.state = .poisoned)
    (continued : middle.play PayloadCall.program later = some (last, after))
    (waits : ∀ move ∈ before ++ after, probeWaits move = true) :
    last.shared.state = .poisoned ∧ ∀ earlier rest thread result found,
      after = earlier ++ ⟨thread, .asked (.sinkCommit result), found⟩ :: rest →
      ∀ entered, ⟨thread, .locked .enter, entered⟩ ∉ earlier := by
  have allowed : ∀ move ∈ before ++ after, move.Allowed payloadDiscipline :=
    fun move member => allowed_of_probeWaits (waits move member)
  obtain ⟨modes, governs⟩ := (governs_empty payloadDiscipline session).play program_follows started
    fun move member => allowed move (List.mem_append_left _ member)
  obtain ⟨still, asking⟩ := governs.play_trapped poisoned_trap program_follows continued
    (fun move member => allowed move (List.mem_append_right _ member)) poisoned
    (fun _ => False) nofun
  refine ⟨still, ?_⟩
  intro earlier rest thread result found split entered member
  have resting := asking earlier rest thread _ found split (.inr ⟨entered, member⟩)
  cases resting ⟨result, rfl⟩

end Calls

/-! ## A verification and a probe -/

def calm : ∀ query : Query, query.Answer
  | .inspect _ => ⟨some pairStat, some pairStat, .opened (some pairStat) true, true⟩
  | .validate _ => (some pairStat, some pairStat)
  | .pread _ _ length => some ⟨List.replicate length 0, by simp⟩
  | .sinkBegin _ | .sinkChunk _ _ | .sinkCommit _ => true
  | .sinkAbort _ => ()
  | .publishManifest => .ok ()

def replaced : ∀ query : Query, query.Answer
  | .inspect _ => ⟨some pairStat, none, .opened (some pairStat) true, true⟩
  | query => calm query

def secondPlan (session : Session) : Plan :=
  match planOf session.budget ((numbered session.ranges).drop 1) 4096 4096 with
  | .ok plan => plan
  | .error _ => ⟨[], [], ⟨0, 0, 0, 0, 0, 0⟩⟩

def coldProbe (thread : Nat) : List (Action payloadInterface PayloadCall) :=
  [.start (.probe (secondPlan pairSession) .coldAdvisory 1), .resume thread replaced,
    .resume thread replaced]

def playPair (pool : Pool Session payloadInterface)
    (schedule : List (Action payloadInterface PayloadCall)) :
    Option (Pool Session payloadInterface × List PayloadMove) :=
  pool.play (@PayloadCall.program Provider.zeroDigest) schedule

/-- A verification that was about to end trusts a session that a probe has just poisoned. -/
theorem poisoned_then_ready :
    (do
      let (middle, _) ← playPair ⟨pairSession, []⟩
        (.start (.verify none) :: List.replicate 13 (.resume 0 calm) ++ coldProbe 1)
      let (last, _) ← playPair middle [.resume 0 calm]
      return (middle.shared.state, last.shared.state)) = some (.poisoned, .ready) := by
  decide +kernel

/-- A verification behind a probe that found a drift. -/
theorem poisoned_permanent_probe : ∃ middle before last after,
    playPair ⟨pairSession, []⟩ (coldProbe 0) = some (middle, before) ∧
      playPair middle [.start (.verify none), .resume 1 calm, .resume 1 calm] =
        some (last, after) ∧ last.shared.state = .poisoned := by
  have states : (do
      let (middle, before) ← playPair ⟨pairSession, []⟩ (coldProbe 0)
      let (_, after) ← playPair middle [.start (.verify none), .resume 1 calm, .resume 1 calm]
      return (middle.shared.state, (before ++ after).all probeWaits)) = some (.poisoned, true) := by
    decide +kernel
  obtain ⟨⟨middle, before⟩, started, states⟩ := Option.bind_eq_some_iff.mp states
  obtain ⟨⟨last, after⟩, continued, states⟩ := Option.bind_eq_some_iff.mp states
  obtain ⟨poisoned, waits⟩ := Prod.ext_iff.mp (Option.some.inj states)
  refine ⟨middle, before, last, after, started, continued, ?_⟩
  exact (@poisoned_permanent Provider.zeroDigest pairSession _ _ _ _ _ _ started poisoned continued
    (List.all_eq_true.mp waits)).1

end Yvex.Source
