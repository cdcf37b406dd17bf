import Yvex.Foundation.Attempt
import Yvex.Foundation.Checked
import Yvex.Foundation.Digest

namespace Yvex.Runtime

/-! # Execution transactions

A transaction executes a fixed number of quanta and then publishes their result, or discards
it. One caller thread drives it; the participants it calls back are free to succeed or fail,
so that every call carries the replies they give. The trace records what was called back. -/

structure Timespec where
  seconds : Int
  nanoseconds : Int

/-- Seconds and nanoseconds as one count that stops at `ULLONG_MAX`. -/
def nanosecondTotal (seconds nanoseconds : Nat) : Nat :=
  if (u64Max - nanoseconds) / 1000000000 < seconds then u64Max
  else seconds * 1000000000 + nanoseconds

def transactionElapsed (start finish : Timespec) : Nat :=
  let seconds := (finish.seconds - start.seconds).toNat
  if finish.seconds < start.seconds ∨
      finish.seconds = start.seconds ∧ finish.nanoseconds < start.nanoseconds then 0
  else if start.nanoseconds ≤ finish.nanoseconds then
    nanosecondTotal seconds (finish.nanoseconds - start.nanoseconds).toNat
  else if seconds = 0 then 0
  else nanosecondTotal (seconds - 1)
    (1000000000 + finish.nanoseconds - start.nanoseconds).toNat

def transactionAdd (total value : Nat) : Nat :=
  if u64Max - total < value then u64Max else total + value

def measured (start finish : Option Timespec) : Nat :=
  match start, finish with
  | some start, some finish => transactionElapsed start finish
  | _, _ => 0

inductive TransactionState where
  | prepared
  | executing
  | safe
  | yielded
  | readyToCommit
  | committed
  | aborted
deriving DecidableEq

inductive SafePointAction where
  | continue
  | yield
  | cancel
  | commit

/-- `yvex_execution_resource_lease`; a flag says whether a pointer is given. -/
structure ResourceLease where
  identity : Option Text
  context : Bool
  retain : Bool
  release : Bool

/-- `yvex_execution_transaction_options`; a flag says whether a callback is given. -/
structure TransactionOptions where
  requestIdentity : Option Text
  quantumCount : Nat
  resource : Option ResourceLease
  execute : Bool
  cancelRequested : Bool
  yieldRequested : Bool
  publish : Bool

structure TransactionSummary where
  state : TransactionState
  admittedQuanta : Nat
  startedQuanta : Nat
  completedQuanta : Nat
  safePoints : Nat
  yields : Nat
  resumes : Nat
  cancellations : Nat
  publications : Nat
  discards : Nat
  retainedResources : Nat
  setupNanoseconds : Nat
  quantumWallNanoseconds : Nat
  safePointNanoseconds : Nat
  requestIdentity : Text
  resourceIdentity : Text

structure ExecutionTransaction where
  options : TransactionOptions
  summary : TransactionSummary
  quantumStarted : Timespec
  resourceRetained : Bool
  discarded : Bool

structure ParticipantFailure where
  status : Status
  reason : Option String

def ParticipantFailure.rejection (failure : ParticipantFailure) (otherwise : String) : Rejection :=
  ⟨failure.status, failure.reason.getD otherwise⟩

structure Replies where
  allocated : Bool
  cancelBefore : Bool
  cancelAfter : Bool
  yieldRequested : Bool
  execute : Except ParticipantFailure Unit
  publish : Except ParticipantFailure Unit
  retain : Except ParticipantFailure Unit
  release : Except ParticipantFailure Unit
  quantumStart : Option Timespec
  quantumFinish : Option Timespec
  safePointStart : Option Timespec
  safePointFinish : Option Timespec

/-- What was called back. An absent publish callback counts as one that succeeds, an absent
discard callback as one that returns. -/
inductive Event where
  | executed (ordinal : Nat) (succeeded : Bool)
  | cancelled
  | published (succeeded : Bool)
  | discarded
  | released (succeeded : Bool)
deriving DecidableEq

structure Session where
  transaction : ExecutionTransaction
  trace : List Event

abbrev SessionAttempt := Attempt Rejection Session

namespace Session

def state (session : Session) : TransactionState := session.transaction.summary.state

variable (session : Session)

def record (event : Event) : Session :=
  { session with trace := session.trace ++ [event] }

def setSummary (summary : TransactionSummary) : Session :=
  { session with transaction := { session.transaction with summary } }

def setState (state : TransactionState) : Session :=
  session.setSummary { session.transaction.summary with state }

end Session

def transactionDiscard (session : Session) : Session :=
  let transaction := session.transaction
  if transaction.discarded || transaction.summary.publications != 0 then session
  else
    { transaction := { transaction with
        discarded := true
        summary := { transaction.summary with discards := transaction.summary.discards + 1 } }
      trace := session.trace ++ [.discarded] }

variable (finish : Option Timespec)

section

variable (session : Session)

def transactionStopQuantum : Session :=
  let summary := session.transaction.summary
  if summary.state = .executing then
    session.setSummary { summary with
      quantumWallNanoseconds := transactionAdd summary.quantumWallNanoseconds
        (measured (some session.transaction.quantumStarted) finish) }
  else session

def transactionCancel : Session :=
  let stopped := transactionStopQuantum finish session
  let summary := stopped.transaction.summary
  (transactionDiscard ((stopped.setSummary
    { summary with cancellations := summary.cancellations + 1 }).record .cancelled)).setState
      .aborted

def transactionCancelRequested (reply : Bool) : Bool :=
  session.transaction.options.cancelRequested && reply

end

def transactionQuantumBegin (ordinal : Nat) (replies : Replies) : SessionAttempt Unit :=
  fun session =>
    let summary := session.transaction.summary
    if !((summary.state = .prepared || summary.state = .safe) &&
        ordinal = summary.completedQuanta && ordinal < summary.admittedQuanta) then
      .error ⟨.state, "the next admitted execution quantum is required"⟩ session
    else if transactionCancelRequested session replies.cancelBefore then
      .error ⟨.cancelled, "execution was cancelled before the next quantum"⟩
        (transactionCancel replies.quantumFinish session)
    else
      .ok () { session with
        transaction := { session.transaction with
          summary := { summary with
            state := .executing
            startedQuanta := summary.startedQuanta + 1 }
          quantumStarted := replies.quantumStart.getD ⟨0, 0⟩ } }

variable (replies : Replies)

def safePointOutcome (session : Session) : SafePointAction × Session :=
  let summary := session.transaction.summary
  if transactionCancelRequested session replies.cancelAfter then
    (.cancel, (transactionDiscard ((session.setSummary
      { summary with cancellations := summary.cancellations + 1 }).record
        .cancelled)).setState .aborted)
  else if summary.completedQuanta = summary.admittedQuanta then
    (.commit, session.setState .readyToCommit)
  else if session.transaction.options.yieldRequested && replies.yieldRequested then
    (.yield, session.setSummary
      { summary with yields := summary.yields + 1, state := .yielded })
  else (.continue, session.setState .safe)

def completeQuantum (session : Session) : Session :=
  let stopped := transactionStopQuantum finish session
  let summary := stopped.transaction.summary
  stopped.setSummary { summary with
    completedQuanta := summary.completedQuanta + 1
    safePoints := summary.safePoints + 1 }

def transactionSafePoint : SessionAttempt SafePointAction :=
  fun session =>
    if session.state ≠ .executing then
      .error ⟨.state, "one completed execution quantum is required"⟩ session
    else
      let (action, reached) := safePointOutcome replies
        (completeQuantum replies.quantumFinish session)
      let summary := reached.transaction.summary
      .ok action (reached.setSummary { summary with
        safePointNanoseconds := transactionAdd summary.safePointNanoseconds
          (measured replies.safePointStart replies.safePointFinish) })

def executionTransactionAbort : SessionAttempt Unit := fun session =>
  if session.state = .committed then
    .error ⟨.state, "a committed execution transaction cannot be aborted"⟩ session
  else if session.state = .aborted then .ok () session
  else .ok () ((transactionDiscard
    (transactionStopQuantum replies.quantumFinish session)).setState .aborted)

def executionTransactionExecuteQuantum : SessionAttempt SafePointAction := fun session =>
  let ordinal := session.transaction.summary.completedQuanta
  match transactionQuantumBegin ordinal replies session with
  | .error rejection session => .error rejection session
  | .ok () session =>
    match replies.execute with
    | .error failure =>
      .error (failure.rejection "execution quantum failed without an error")
        (Attempt.final (executionTransactionAbort replies
          (session.record (.executed ordinal false))))
    | .ok () => transactionSafePoint replies (session.record (.executed ordinal true))

def executionTransactionResume : SessionAttempt Unit := fun session =>
  let summary := session.transaction.summary
  if summary.state ≠ .yielded then
    .error ⟨.state, "a yielded execution transaction is required"⟩ session
  else if transactionCancelRequested session replies.cancelBefore then
    .error ⟨.cancelled, "yielded execution was cancelled before resumption"⟩
      (transactionCancel replies.quantumFinish session)
  else .ok () (session.setSummary
    { summary with state := .safe, resumes := summary.resumes + 1 })

def executionTransactionCommit : SessionAttempt Unit := fun session =>
  let summary := session.transaction.summary
  if summary.state ≠ .readyToCommit then
    .error ⟨.state, "a fully executed transaction is required for publication"⟩ session
  else if transactionCancelRequested session replies.cancelBefore then
    .error ⟨.cancelled, "execution was cancelled before publication"⟩
      (transactionCancel replies.quantumFinish session)
  else
    match if session.transaction.options.publish then replies.publish else .ok () with
    | .error failure =>
      .error (failure.rejection "transaction publication failed without an error")
        ((transactionDiscard (session.record (.published false))).setState .aborted)
    | .ok () => .ok () ((session.record (.published true)).setSummary
        { summary with publications := summary.publications + 1, state := .committed })

def transactionResolve (session : Session) : Session :=
  if session.state ≠ .committed && session.state ≠ .aborted then
    (transactionDiscard (transactionStopQuantum finish session)).setState .aborted
  else session

def transactionRelease : SessionAttempt Unit := fun session =>
  if session.transaction.resourceRetained then
    match replies.release with
    | .error failure => .error (failure.rejection "") (session.record (.released false))
    | .ok () =>
      .ok () ({ session with transaction := { session.transaction with
        resourceRetained := false } }.record (.released true))
  else .ok () session

/-- `yvex_runtime_execution_transaction_close`; the transaction is freed when it succeeds. -/
def executionTransactionClose : SessionAttempt Unit := fun session =>
  transactionRelease replies (transactionResolve replies.quantumFinish session)

variable (options : TransactionOptions)

/-- The argument check of `yvex_runtime_execution_transaction_open`. -/
def TransactionOptions.admissible : Bool :=
  options.requestIdentity.any hexValid && options.quantumCount != 0 && options.execute &&
    options.resource.all fun resource =>
      resource.identity.any hexValid && resource.context && resource.retain && resource.release

def ExecutionTransaction.fresh : ExecutionTransaction where
  options := options
  summary :=
    { state := .prepared, admittedQuanta := options.quantumCount, startedQuanta := 0,
      completedQuanta := 0, safePoints := 0, yields := 0, resumes := 0, cancellations := 0,
      publications := 0, discards := 0, retainedResources := 0, setupNanoseconds := 0,
      quantumWallNanoseconds := 0, safePointNanoseconds := 0,
      requestIdentity := options.requestIdentity.getD [], resourceIdentity := [] }
  quantumStarted := ⟨0, 0⟩
  resourceRetained := false
  discarded := false

def ExecutionTransaction.retaining (transaction : ExecutionTransaction) (lease : ResourceLease) :
    ExecutionTransaction :=
  { transaction with
    resourceRetained := true
    summary := { transaction.summary with
      retainedResources := 1
      resourceIdentity := lease.identity.getD [] } }

def ExecutionTransaction.retain (transaction : ExecutionTransaction) (replies : Replies) :
    Except Rejection ExecutionTransaction :=
  match transaction.options.resource with
  | none => .ok transaction
  | some lease =>
    match replies.retain with
    | .error failure => .error (failure.rejection "")
    | .ok () => .ok (transaction.retaining lease)

def executionTransactionOpen (replies : Replies) : Except Rejection ExecutionTransaction := do
  require options.admissible .invalidArgument
    "one bounded identity-bound execution request is required"
  require replies.allocated .noMemory "execution transaction allocation failed"
  let transaction ← (ExecutionTransaction.fresh options).retain replies
  pure { transaction with summary := { transaction.summary with
    setupNanoseconds := measured replies.quantumStart replies.quantumFinish } }

inductive Call where
  | executeQuantum (replies : Replies)
  | resume (replies : Replies)
  | commit (replies : Replies)
  | abort (replies : Replies)
  | close (replies : Replies)

structure Driven where
  transaction : Option ExecutionTransaction
  begun : Bool
  trace : List Event

def Driven.after (driven : Driven) (result : EStateM.Result Rejection Session α) : Driven :=
  let session := Attempt.final result
  { driven with transaction := some session.transaction, trace := session.trace }

/-- A call without a transaction is refused, or has nothing to close. -/
def Call.perform (call : Call) (driven : Driven) : Driven :=
  match driven.transaction with
  | none => driven
  | some transaction =>
    let session : Session := ⟨transaction, driven.trace⟩
    match call with
    | .executeQuantum replies => driven.after (executionTransactionExecuteQuantum replies session)
    | .resume replies => driven.after (executionTransactionResume replies session)
    | .commit replies => driven.after (executionTransactionCommit replies session)
    | .abort replies => driven.after (executionTransactionAbort replies session)
    | .close replies =>
      match executionTransactionClose replies session with
      | .ok () closed => { driven with transaction := none, trace := closed.trace }
      | .error rejection kept => driven.after (.error rejection kept : EStateM.Result _ _ Unit)

def Driven.opened (replies : Replies) : Driven :=
  match executionTransactionOpen options replies with
  | .ok transaction => { transaction := some transaction, begun := true, trace := [] }
  | .error _ => { transaction := none, begun := false, trace := [] }

def drive (opening : Replies) (calls : List Call) : Driven :=
  calls.foldl (fun driven call => call.perform driven) (.opened options opening)

end Yvex.Runtime
