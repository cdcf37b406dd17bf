import Yvex.Runtime.Transaction

namespace Yvex.Runtime

open List

/-! # Runs of a transaction

Every call keeps an invariant that ties the state tag to what has been called back. From it
follows that a transaction publishes at most once, after all its quanta, and that closing it
leaves it published or discarded. -/

/-! ## Traces -/

def Event.execution : Event → Option (Nat × Bool)
  | .executed ordinal succeeded => some (ordinal, succeeded)
  | _ => none

def completedExecutions (quanta : Nat) : List (Nat × Bool) :=
  (List.range quanta).map fun ordinal => (ordinal, true)

theorem completedExecutions_succ (quanta : Nat) :
    completedExecutions (quanta + 1) = completedExecutions quanta ++ [(quanta, true)] := by
  simp [completedExecutions, range_succ]

structure Underway (completed : Nat) (trace : List Event) : Prop where
  executions : trace.filterMap Event.execution = completedExecutions completed
  uncancelled : Event.cancelled ∉ trace
  unpublished : ∀ succeeded, Event.published succeeded ∉ trace
  undiscarded : Event.discarded ∉ trace

/-- The trace up to a publication is that of all quanta, and there is no other publication. -/
def Orderly (quanta : Nat) (trace : List Event) : Prop :=
  ∀ earlier later succeeded, trace = earlier ++ .published succeeded :: later →
    earlier.filterMap Event.execution = completedExecutions quanta ∧
      Event.cancelled ∉ earlier ∧ ∀ other, Event.published other ∉ earlier ++ later

structure Published (trace : List Event) : Prop where
  published : Event.published true ∈ trace
  undiscarded : Event.discarded ∉ trace

structure Discarded (trace : List Event) : Prop where
  unpublished : Event.published true ∉ trace
  once : trace.count .discarded = 1

def Resolved (trace : List Event) : Prop := Published trace ∨ Discarded trace

variable {completed : Nat} {trace : List Event}

theorem underway_nil : Underway 0 [] := ⟨rfl, nofun, nofun, nofun⟩

theorem Underway.executed (underway : Underway completed trace) :
    Underway (completed + 1) (trace ++ [.executed completed true]) where
  executions := by
    rw [filterMap_append, underway.executions, completedExecutions_succ]
    rfl
  uncancelled := by simp [underway.uncancelled]
  unpublished succeeded := by simp [underway.unpublished]
  undiscarded := by simp [underway.undiscarded]

theorem Underway.orderly (underway : Underway completed trace) : Orderly quanta trace := by
  intro earlier later succeeded split
  refine absurd ?_ (underway.unpublished succeeded)
  rw [split]
  simp

theorem Orderly.append (orderly : Orderly quanta trace)
    (other : ∀ succeeded, event ≠ .published succeeded) : Orderly quanta (trace ++ [event]) := by
  intro earlier later succeeded split
  rcases eq_nil_or_concat later with rfl | ⟨rest, last, rfl⟩
  · have ends := append_inj' split rfl
    exact absurd (singleton_inj.mp ends.2) (other succeeded)
  rw [concat_eq_append, ← cons_append, ← append_assoc] at split
  have ends := append_inj' split rfl
  rcases orderly earlier rest succeeded ends.1 with ⟨executions, uncancelled, unpublished⟩
  refine ⟨executions, uncancelled, fun again member => ?_⟩
  rw [concat_eq_append, ← append_assoc, mem_append] at member
  rcases member with earlierMember | lastMember
  · exact unpublished again earlierMember
  · rw [← ends.2, mem_singleton] at lastMember
    exact other again lastMember.symm

theorem Underway.published (underway : Underway quanta trace) (succeeded : Bool) :
    Orderly quanta (trace ++ [.published succeeded]) := by
  intro earlier later again split
  rcases eq_nil_or_concat later with rfl | ⟨rest, last, rfl⟩
  · have ends := append_inj' split rfl
    rw [← ends.1, append_nil]
    exact ⟨underway.executions, underway.uncancelled, underway.unpublished⟩
  rw [concat_eq_append, ← cons_append, ← append_assoc] at split
  have ends := append_inj' split rfl
  refine absurd ?_ (underway.unpublished again)
  rw [ends.1]
  simp

/-! ## The invariant of a session -/

namespace Session

structure Pending (quanta completed : Nat) (session : Session) : Prop where
  admitted : session.transaction.summary.admittedQuanta = quanta
  counted : session.transaction.summary.completedQuanta = completed
  underway : Underway completed session.trace
  kept : session.transaction.discarded = false
  unpublished : session.transaction.summary.publications = 0

structure Sound (quanta : Nat) (session : Session) : Prop where
  orderly : Orderly quanta session.trace
  tagged : match session.state with
    | .prepared => ∃ completed < quanta, session.Pending quanta completed
    | .safe => ∃ completed < quanta, session.Pending quanta completed
    | .yielded => ∃ completed < quanta, session.Pending quanta completed
    | .readyToCommit => session.Pending quanta quanta
    | .executing => False
    | .committed => Published session.trace
    | .aborted => Discarded session.trace

variable {session : Session}

theorem transactionStopQuantum_trace (finish : Option Timespec) (session : Session) :
    (transactionStopQuantum finish session).trace = session.trace := by
  unfold transactionStopQuantum
  dsimp only
  split <;> rfl

theorem Pending.stopQuantum (pending : session.Pending quanta completed)
    (finish : Option Timespec) :
    (transactionStopQuantum finish session).Pending quanta completed := by
  unfold transactionStopQuantum
  dsimp only
  split
  · exact { pending with }
  · exact pending

theorem sound_discard (orderly : Orderly quanta session.trace)
    (unpublished : Event.published true ∉ session.trace)
    (undiscarded : Event.discarded ∉ session.trace) (kept : session.transaction.discarded = false)
    (publications : session.transaction.summary.publications = 0) :
    ((transactionDiscard session).setState .aborted).Sound quanta := by
  have discards : transactionDiscard session =
      { transaction := { session.transaction with
          discarded := true
          summary := { session.transaction.summary with
            discards := session.transaction.summary.discards + 1 } }
        trace := session.trace ++ [.discarded] } := by
    simp [transactionDiscard, kept, publications]
  rw [discards]
  refine ⟨orderly.append nofun, ?_, ?_⟩
  · simp [setState, setSummary, unpublished]
  · change (session.trace ++ [Event.discarded]).count .discarded = 1
    rw [count_append, count_eq_zero.mpr undiscarded]
    rfl

section

variable (pending : session.Pending quanta completed)

include pending

theorem Pending.discard : ((transactionDiscard session).setState .aborted).Sound quanta :=
  sound_discard pending.underway.orderly (pending.underway.unpublished true)
    pending.underway.undiscarded pending.kept pending.unpublished

theorem Pending.discard_after (orderly : Orderly quanta (session.trace ++ [event]))
    (unpublished : event ≠ .published true) (undiscarded : event ≠ .discarded) :
    ((transactionDiscard (session.record event)).setState .aborted).Sound quanta := by
  apply sound_discard orderly
  · simp [record, pending.underway.unpublished, Ne.symm unpublished]
  · simp [record, pending.underway.undiscarded, Ne.symm undiscarded]
  · exact pending.kept
  · exact pending.unpublished

theorem Pending.cancel (finish : Option Timespec) :
    (transactionCancel finish session).Sound quanta := by
  have stopped := pending.stopQuantum finish
  have counted : ((transactionStopQuantum finish session).setSummary
      { (transactionStopQuantum finish session).transaction.summary with
        cancellations := (transactionStopQuantum finish
          session).transaction.summary.cancellations + 1 }).Pending quanta completed :=
          { stopped with }
  exact counted.discard_after (counted.underway.orderly.append nofun) nofun nofun

end

theorem Sound.retimed (sound : session.Sound quanta) (nanoseconds : Nat) :
    (session.setSummary { session.transaction.summary with
      safePointNanoseconds := nanoseconds }).Sound quanta := by
  have tagged := sound.tagged
  have retime {completed : Nat} (pending : session.Pending quanta completed) :
      (session.setSummary { session.transaction.summary with
        safePointNanoseconds := nanoseconds }).Pending quanta completed := { pending with }
  refine ⟨sound.orderly, ?_⟩
  change match session.state with
    | .prepared => _ | .safe => _ | .yielded => _ | .readyToCommit => _ | .executing => _
    | .committed => _ | .aborted => _
  cases state : session.state <;> rw [state] at tagged
  case prepared | safe | yielded =>
    rcases tagged with ⟨completed, inside, pending⟩
    exact ⟨completed, inside, retime pending⟩
  case readyToCommit => exact retime tagged
  all_goals exact tagged

theorem Pending.safePoint (pending : session.Pending quanta completed)
    (bounded : completed ≤ quanta) (replies : Replies) :
    (safePointOutcome replies session).2.Sound quanta := by
  unfold safePointOutcome
  dsimp only
  split
  · have counted : (session.setSummary { session.transaction.summary with
        cancellations := session.transaction.summary.cancellations + 1 }).Pending quanta
          completed := { pending with }
    exact counted.discard_after (counted.underway.orderly.append nofun) nofun nofun
  split
  · rename_i all
    rw [pending.counted, pending.admitted] at all
    subst all
    exact ⟨pending.underway.orderly, { pending with }⟩
  rename_i more
  rw [pending.counted, pending.admitted] at more
  have inside : completed < quanta := by omega
  split
  · exact ⟨pending.underway.orderly, completed, inside, { pending with }⟩
  · exact ⟨pending.underway.orderly, completed, inside, { pending with }⟩

section

variable (sound : session.Sound quanta)

include sound

theorem Sound.pending
    (between : session.state = .prepared ∨ session.state = .safe ∨ session.state = .yielded) :
    ∃ completed < quanta, session.Pending quanta completed := by
  grind [cases Session.Sound]

theorem Sound.ready (state : session.state = .readyToCommit) : session.Pending quanta quanta := by
  have tagged := sound.tagged
  rw [state] at tagged
  exact tagged

theorem Sound.unresolved (uncommitted : session.state ≠ .committed)
    (live : session.state ≠ .aborted) : ∃ completed, session.Pending quanta completed := by
  grind [cases Session.Sound]

variable (replies : Replies)

theorem Sound.resume :
    (Attempt.final (executionTransactionResume replies session)).Sound quanta := by
  unfold executionTransactionResume
  dsimp only
  split
  · exact sound
  rename_i yielded
  have state : session.state = .yielded := not_not.mp yielded
  rcases sound.pending (.inr (.inr state)) with ⟨completed, inside, pending⟩
  split
  · exact pending.cancel _
  · exact ⟨sound.orderly, completed, inside, { pending with }⟩

theorem Sound.commit :
    (Attempt.final (executionTransactionCommit replies session)).Sound quanta := by
  unfold executionTransactionCommit
  dsimp only
  split
  · exact sound
  rename_i ready
  have pending := sound.ready (not_not.mp ready)
  split
  · exact pending.cancel _
  split
  · exact pending.discard_after (pending.underway.published false) (by simp) nofun
  refine ⟨pending.underway.published true, ?_, ?_⟩
  · change Event.published true ∈ session.trace ++ [_]
    simp
  · change Event.discarded ∉ session.trace ++ [_]
    simp [pending.underway.undiscarded]

theorem Sound.abort : (Attempt.final (executionTransactionAbort replies session)).Sound quanta := by
  unfold executionTransactionAbort
  split
  · exact sound
  rename_i uncommitted
  split
  · exact sound
  rename_i live
  rcases sound.unresolved uncommitted live with ⟨completed, pending⟩
  exact (pending.stopQuantum _).discard

theorem Sound.resolved (resolved : session.state = .committed ∨ session.state = .aborted) :
    Resolved session.trace := by
  have tagged := sound.tagged
  rcases resolved with state | state <;> rw [state] at tagged
  · exact .inl tagged
  · exact .inr tagged

end

theorem Sound.released (sound : session.Sound quanta)
    (resolved : session.state = .committed ∨ session.state = .aborted) (succeeded retained : Bool) :
    ({ session with transaction := { session.transaction with
      resourceRetained := retained } }.record (.released succeeded)).Sound quanta := by
  have tagged := sound.tagged
  refine ⟨sound.orderly.append nofun, ?_⟩
  change match session.state with
    | .prepared => _ | .safe => _ | .yielded => _ | .readyToCommit => _ | .executing => _
    | .committed => _ | .aborted => _
  rcases resolved with state | state <;> rw [state] at tagged ⊢
  · exact ⟨by simp [record, tagged.published], by simp [record, tagged.undiscarded]⟩
  refine ⟨by simp [record, tagged.unpublished], ?_⟩
  change (session.trace ++ [Event.released succeeded]).count .discarded = 1
  rw [count_append, tagged.once]
  rfl

theorem Sound.resolve (sound : session.Sound quanta) (finish : Option Timespec) :
    (transactionResolve finish session).Sound quanta ∧
      ((transactionResolve finish session).state = .committed ∨
        (transactionResolve finish session).state = .aborted) := by
  unfold transactionResolve
  split
  · rename_i open'
    simp only [decide_not, Bool.and_eq_true, Bool.not_eq_eq_eq_not, Bool.not_true,
      decide_eq_false_iff_not] at open'
    rcases sound.unresolved open'.1 open'.2 with ⟨completed, pending⟩
    exact ⟨(pending.stopQuantum finish).discard, .inr rfl⟩
  rename_i done
  refine ⟨sound, ?_⟩
  by_contra neither
  rw [not_or] at neither
  exact done (by simp [neither.1, neither.2])

theorem Sound.close (sound : session.Sound quanta) (replies : Replies) :
    (Attempt.final (executionTransactionClose replies session)).Sound quanta ∧
      Resolved (Attempt.final (executionTransactionClose replies session)).trace := by
  rcases sound.resolve replies.quantumFinish with ⟨resolved, state⟩
  unfold executionTransactionClose transactionRelease
  split
  · split
    · have kept := resolved.released state false
        (transactionResolve replies.quantumFinish session).transaction.resourceRetained
      exact ⟨kept, kept.resolved state⟩
    · have kept := resolved.released state true false
      exact ⟨kept, kept.resolved state⟩
  · exact ⟨resolved, resolved.resolved state⟩

section

variable (pending : session.Pending quanta completed)

include pending

theorem Pending.completeQuantum (finish : Option Timespec) :
    (completeQuantum finish (session.record (.executed completed true))).Pending quanta
      (completed + 1) := by
  have underway := pending.underway.executed
  unfold Runtime.completeQuantum transactionStopQuantum
  dsimp only
  split
  · exact { pending with counted := congrArg (· + 1) pending.counted, underway }
  · exact { pending with counted := congrArg (· + 1) pending.counted, underway }

theorem Pending.executed
    (inside : completed < quanta) (state : session.state = .executing) (replies : Replies) :
    (Attempt.final (transactionSafePoint replies
      (session.record (.executed completed true)))).Sound quanta := by
  have executing : ¬(session.record (.executed completed true)).state ≠ .executing :=
    not_not.mpr state
  unfold transactionSafePoint
  rw [if_neg executing]
  exact ((pending.completeQuantum _).safePoint inside replies).retimed _

theorem Pending.failed (state : session.state = .executing) (replies : Replies) :
    (Attempt.final (executionTransactionAbort replies
      (session.record (.executed completed false)))).Sound quanta := by
  have trace := transactionStopQuantum_trace replies.quantumFinish
    (session.record (.executed completed false))
  have executing : (session.record (.executed completed false)).state = .executing := state
  unfold executionTransactionAbort
  rw [executing]
  apply sound_discard
  · rw [trace]
    exact pending.underway.orderly.append nofun
  · rw [trace]
    simp [record, pending.underway.unpublished]
  · rw [trace]
    simp [record, pending.underway.undiscarded]
  · unfold transactionStopQuantum
    dsimp only
    split <;> exact pending.kept
  · unfold transactionStopQuantum
    dsimp only
    split <;> exact pending.unpublished

end

theorem Sound.quantumBegin (sound : session.Sound quanta) (replies : Replies) :
    (∃ rejection refused, transactionQuantumBegin session.transaction.summary.completedQuanta
        replies session = .error rejection refused ∧ refused.Sound quanta) ∨
      ∃ begun completed, transactionQuantumBegin session.transaction.summary.completedQuanta
          replies session = .ok () begun ∧
        begun.Pending quanta completed ∧ completed < quanta ∧ begun.state = .executing ∧
        session.transaction.summary.completedQuanta = completed := by
  unfold transactionQuantumBegin
  dsimp only
  split
  · exact .inl ⟨_, _, rfl, sound⟩
  rename_i admitted
  simp only [Bool.not_eq_eq_eq_not, Bool.not_true, Bool.and_eq_false_iff,
    Bool.or_eq_false_iff, decide_eq_false_iff_not, not_or, not_and_or, not_not] at admitted
  have between : session.state = .prepared ∨ session.state = .safe := admitted.1.1
  rcases sound.pending (between.imp_right .inl) with ⟨completed, inside, pending⟩
  split
  · exact .inl ⟨_, _, rfl, pending.cancel _⟩
  refine .inr ⟨_, completed, rfl, ?_, inside, rfl, pending.counted⟩
  exact { pending with }

theorem Sound.executeQuantum (sound : session.Sound quanta) (replies : Replies) :
    (Attempt.final (executionTransactionExecuteQuantum replies session)).Sound quanta := by
  unfold executionTransactionExecuteQuantum
  dsimp only
  rcases sound.quantumBegin replies with ⟨rejection, refused, begins, refusedSound⟩ |
    ⟨begun, completed, begins, pending, inside, state, same⟩
  · rw [begins]
    exact refusedSound
  · rw [begins, same]
    cases replies.execute with
    | error failure => exact pending.failed state replies
    | ok value => exact pending.executed inside state replies

end Session

/-! ## The invariant of a run -/

structure Driven.Sound (quanta : Nat) (driven : Driven) : Prop where
  orderly : Orderly quanta driven.trace
  held : ∀ transaction, driven.transaction = some transaction →
    driven.begun = true ∧ Session.Sound quanta ⟨transaction, driven.trace⟩
  closed : driven.transaction = none → driven.begun = true → Resolved driven.trace
  unopened : driven.begun = false → driven.transaction = none ∧ driven.trace = []

namespace Driven

variable {driven : Driven}

theorem prepared_retain
    (retained : (ExecutionTransaction.fresh options).retain replies = .ok held) :
    held.summary.state = .prepared ∧ Session.Pending options.quantumCount 0 ⟨held, []⟩ := by
  unfold ExecutionTransaction.retain at retained
  split at retained
  · cases retained
    exact ⟨rfl, rfl, rfl, underway_nil, rfl, rfl⟩
  split at retained
  · cases retained
  · cases retained
    exact ⟨rfl, rfl, rfl, underway_nil, rfl, rfl⟩

variable (options : TransactionOptions)

theorem Sound.opened (replies : Replies) :
    (Driven.opened options replies).Sound options.quantumCount := by
  unfold Driven.opened
  cases opening : executionTransactionOpen options replies with
  | error rejection =>
    refine ⟨underway_nil.orderly, ?_, ?_, fun _ => ⟨rfl, rfl⟩⟩
    · intro transaction held
      cases held
    · intro _ begun
      cases begun
  | ok transaction =>
    refine ⟨underway_nil.orderly, ?_, ?_, ?_⟩
    rotate_left
    · intro absent
      cases absent
    · intro never
      cases never
    intro held same
    cases same
    rcases Except.bind_eq_ok.mp opening with ⟨_, admissible, rest⟩
    rcases Except.bind_eq_ok.mp rest with ⟨_, _, rest⟩
    rcases Except.bind_eq_ok.mp rest with ⟨held, retained, rest⟩
    have positive : 0 < options.quantumCount := by
      rw [require_eq_ok] at admissible
      simp only [TransactionOptions.admissible, Bool.and_eq_true, bne_iff_ne] at admissible
      omega
    rcases prepared_retain retained with ⟨state, pending⟩
    cases rest
    refine ⟨rfl, underway_nil.orderly, ?_⟩
    change match held.summary.state with
      | .prepared => _ | .safe => _ | .yielded => _ | .readyToCommit => _ | .executing => _
      | .committed => _ | .aborted => _
    rw [state]
    exact ⟨0, positive, { pending with }⟩

theorem Sound.after (begun : driven.begun = true)
    (kept : (Attempt.final result).Sound quanta) : (driven.after result).Sound quanta where
  orderly := kept.orderly
  held transaction same := by
    cases same
    exact ⟨begun, kept⟩
  closed absent := by
    cases absent
  unopened never := by
    change driven.begun = false at never
    rw [begun] at never
    cases never

theorem Sound.perform (sound : driven.Sound quanta) (call : Call) :
    (call.perform driven).Sound quanta := by
  unfold Call.perform
  cases handle : driven.transaction with
  | none => exact sound
  | some transaction => ?_
  rcases sound.held transaction handle with ⟨begun, session⟩
  cases call with
  | executeQuantum replies => exact Sound.after begun (session.executeQuantum replies)
  | resume replies => exact Sound.after begun (session.resume replies)
  | commit replies => exact Sound.after begun (session.commit replies)
  | abort replies => exact Sound.after begun (session.abort replies)
  | close replies => ?_
  have closes := session.close replies
  dsimp only
  cases ran : executionTransactionClose replies ⟨transaction, driven.trace⟩ with
  | error rejection kept =>
    rw [ran] at closes
    exact Sound.after begun closes.1
  | ok value closed => ?_
  rw [ran] at closes
  refine ⟨closes.1.orderly, ?_, fun _ _ => closes.2, fun never => ?_⟩
  · intro transaction held
    cases held
  rw [begun] at never
  cases never

theorem Sound.drive (opening : Replies) (calls : List Call) :
    (drive options opening calls).Sound options.quantumCount := by
  have kept (driven : Driven) (sound : driven.Sound options.quantumCount) :
      (calls.foldl (fun driven call => call.perform driven) driven).Sound
        options.quantumCount := by
    induction calls generalizing driven with
    | nil => exact sound
    | cons call calls induction => exact induction _ (sound.perform call)
  exact kept _ (Sound.opened options opening)

theorem Sound.discards (sound : driven.Sound quanta) : driven.trace.count .discarded ≤ 1 ∧
      (Event.published true ∈ driven.trace → Event.discarded ∉ driven.trace) := by
  have resolved (trace : List Event) (outcome : Resolved trace) : trace.count .discarded ≤ 1 ∧
        (Event.published true ∈ trace → Event.discarded ∉ trace) := by
    rcases outcome with published | discarded
    · exact ⟨by simp [count_eq_zero.mpr published.undiscarded], fun _ => published.undiscarded⟩
    · exact ⟨le_of_eq discarded.once, fun published => absurd published discarded.unpublished⟩
  cases handle : driven.transaction with
  | none =>
    grind [cases Driven.Sound]
  | some transaction =>
    have session := (sound.held transaction handle).2
    by_cases done : transaction.summary.state = .committed ∨ transaction.summary.state = .aborted
    · exact resolved _ (session.resolved done)
    rw [not_or] at done
    rcases session.unresolved done.1 done.2 with ⟨completed, pending⟩
    exact ⟨by simp [count_eq_zero.mpr pending.underway.undiscarded],
      fun published => absurd published (pending.underway.unpublished true)⟩

theorem Sound.performClose (sound : driven.Sound quanta) (replies : Replies) :
    ((Call.close replies).perform driven).begun = true →
      Resolved ((Call.close replies).perform driven).trace := by
  unfold Call.perform
  cases handle : driven.transaction with
  | none => exact sound.closed handle
  | some transaction => ?_
  have closes := (sound.held transaction handle).2.close replies
  dsimp only
  cases ran : executionTransactionClose replies ⟨transaction, driven.trace⟩ with
  | error rejection kept =>
    rw [ran] at closes
    exact fun _ => closes.2
  | ok value closed =>
    rw [ran] at closes
    exact fun _ => closes.2

end Driven

def ExactlyOne (first second third : Prop) : Prop :=
  first ∧ ¬second ∧ ¬third ∨ ¬first ∧ second ∧ ¬third ∨ ¬first ∧ ¬second ∧ third

theorem exactlyOne_of_resolved {driven : Driven} (sound : driven.Sound quanta)
    (resolved : driven.begun = true → Resolved driven.trace) :
    ExactlyOne (Event.published true ∈ driven.trace) (Event.discarded ∈ driven.trace)
      (driven.begun = false) := by
  cases begun : driven.begun with
  | false =>
    rw [(sound.unopened begun).2]
    exact .inr (.inr ⟨nofun, nofun, rfl⟩)
  | true => ?_
  rcases resolved begun with published | discarded
  · exact .inl ⟨published.published, published.undiscarded, nofun⟩
  have member : Event.discarded ∈ driven.trace := by
    apply count_pos_iff.mp
    rw [discarded.once]
    exact Nat.one_pos
  exact .inr (.inl ⟨discarded.unpublished, member, nofun⟩)

/-- Whatever calls are made and however the participants reply: a publication comes after all
quanta have been executed in order and after no cancellation, there is at most one, there is
at most one discard and none after a successful publication, and once a close has returned
the transaction was published, or discarded, or never begun. -/
theorem transaction_publishes_once_and_resolves (options : TransactionOptions)
    (opening : Replies) (calls : List Call) :
    let driven := drive options opening calls
    (∀ earlier later succeeded, driven.trace = earlier ++ .published succeeded :: later →
      earlier.filterMap Event.execution =
          (List.range options.quantumCount).map (fun ordinal => (ordinal, true)) ∧
        Event.cancelled ∉ earlier ∧ ∀ other, Event.published other ∉ earlier ++ later) ∧
    driven.trace.count .discarded ≤ 1 ∧
    (∀ earlier later, driven.trace = earlier ++ .published true :: later →
      Event.discarded ∉ later) ∧
    (∀ replies, calls.getLast? = some (.close replies) →
      ExactlyOne (Event.published true ∈ driven.trace) (Event.discarded ∈ driven.trace)
        (driven.begun = false)) := by
  have sound := Driven.Sound.drive options opening calls
  refine ⟨sound.orderly, sound.discards.1, ?_, ?_⟩
  · intro earlier later split discarded
    apply sound.discards.2
    · rw [split]
      simp
    · rw [split]
      simp [discarded]
  intro replies last
  rcases getLast?_eq_some_iff.mp last with ⟨before, rfl⟩
  apply exactlyOne_of_resolved sound
  unfold drive
  rw [foldl_append]
  exact (Driven.Sound.drive options opening before).performClose replies

end Yvex.Runtime
