import Yvex.Foundation.Slots
import Yvex.Runtime.Generation

namespace Yvex.Runtime

/-! # The cooperative progress scheduler

Sequence work enters a bounded table of slots and waits there until it is granted one of a
bounded number of active places, oldest first and one at a time for each sequence. A lease with
the generation of the slot names the work to its owner, who may yield, move on to another kind
of work, or leave. The observations of the summary, which no operation reads, are left out. -/

inductive ProgressKind where
  | prefill
  | decode
  | draft
  | verify
  | correction
  | publication
  | component

/-- `runtime_engine_progress_work` of a slot in use. The serial counts the admissions before
this one and is not in the source. -/
structure ProgressWork where
  generation : Nat
  submissionOrdinal : Nat := 0
  engineGeneration : Nat
  sequenceHandle : Nat
  kind : ProgressKind
  /-- A cancellation callback is given. -/
  cancellable : Bool
  queued : Bool := false
  active : Bool := false
  status : Status := .ok
  serial : Nat

/-- `yvex_runtime_execution_lease`; a cleared lease names no scheduler. -/
structure ProgressLease where
  scheduler : Bool
  slot : Nat
  generation : Nat

/-- The progress part of `runtime_engine_scheduler`. -/
structure ProgressScheduler where
  slots : List (Option ProgressWork)
  inUseCount : Nat := 0
  activeLimit : Nat
  readyCount : Nat := 0
  activeCount : Nat := 0
  nextGeneration : Nat := 0
  nextOrdinal : Nat := 0
  stopping : Bool := false

/-- `yvex_runtime_execution_coordinator_open`, where the host has the memory. -/
def executionCoordinatorOpen (queueCapacity cooperativeWidth : Nat) :
    Except Rejection ProgressScheduler := do
  require (queueCapacity != 0 && decide (queueCapacity ≤ 64) && cooperativeWidth != 0 &&
    decide (cooperativeWidth ≤ queueCapacity)) .invalidArgument
    "bounded engine scheduler capacity is required"
  pure { slots := List.replicate queueCapacity none, activeLimit := cooperativeWidth }

namespace ProgressScheduler

variable (scheduler : ProgressScheduler)

section

variable (index : Nat)

def put (work : Option ProgressWork) : ProgressScheduler :=
  { scheduler with slots := scheduler.slots.set index work }

def progressSlot (lease : ProgressLease) : Option ProgressWork :=
  if lease.scheduler = false ∨ scheduler.slots.length ≤ lease.slot then none
  else
    match scheduler.slots[lease.slot]? with
    | some (some work) => if work.generation = lease.generation then some work else none
    | _ => none

def sameSequence (left right : ProgressWork) : Bool :=
  left.engineGeneration == right.engineGeneration && left.sequenceHandle == right.sequenceHandle

def activeConflict (candidate : ProgressWork) : Bool :=
  (List.range scheduler.slots.length).any fun other =>
    match scheduler.slots[other]? with
    | some (some work) => other != index && work.active && sameSequence work candidate
    | _ => false

def cancelReady (work : ProgressWork) : ProgressScheduler :=
  if work.queued then
    { scheduler.put index (some { work with queued := false, status := .cancelled }) with
      readyCount := u64Pred scheduler.readyCount }
  else scheduler

variable (cancels : Nat → Bool)

/-- One candidate of `progress_next_ready_locked`, with the answers of the callbacks. -/
def considerReady (state : Option (Nat × ProgressWork) × ProgressScheduler) (index : Nat) :
    Option (Nat × ProgressWork) × ProgressScheduler :=
  match state.2.slots[index]? with
  | some (some candidate) =>
    if !candidate.queued then state
    else if candidate.cancellable && cancels index then
      (state.1, state.2.cancelReady index candidate)
    else if state.2.activeConflict index candidate then state
    else
      match state.1 with
      | some (_, selected) =>
        if candidate.submissionOrdinal < selected.submissionOrdinal then
          (some (index, candidate), state.2)
        else state
      | none => (some (index, candidate), state.2)
  | _ => state

def nextReady (scheduler : ProgressScheduler) : Option (Nat × ProgressWork) × ProgressScheduler :=
  (List.range scheduler.slots.length).foldl (considerReady cancels) (none, scheduler)

def activate (work : ProgressWork) : ProgressScheduler :=
  { scheduler.put index (some { work with queued := false, active := true }) with
    readyCount := u64Pred scheduler.readyCount
    activeCount := u64Succ scheduler.activeCount }

end

/-- The loop of `progress_grant_locked`; each round asks the callbacks anew. -/
def grantRounds (cancels : Nat → Nat → Bool) : Nat → Nat → ProgressScheduler → ProgressScheduler
  | 0, _, scheduler => scheduler
  | places + 1, round, scheduler =>
    if scheduler.stopping then scheduler
    else
      match nextReady (cancels round) scheduler with
      | (none, scanned) => scanned
      | (some (index, candidate), scanned) =>
        grantRounds cancels places (round + 1) (scanned.activate index candidate)

variable (cancels : Nat → Nat → Bool)

/-- `progress_grant_locked`: a round for each place that is free. -/
def progressGrant (scheduler : ProgressScheduler) : ProgressScheduler :=
  grantRounds cancels (scheduler.activeLimit - scheduler.activeCount) 0 scheduler

def progressEnqueue (scheduler : ProgressScheduler) (index : Nat) (work : ProgressWork) :
    ProgressScheduler :=
  let ordinal := generationAfter scheduler.nextOrdinal
  progressGrant cancels
    { scheduler.put index (some { work with
        submissionOrdinal := ordinal, queued := true, active := false, status := .ok }) with
      nextOrdinal := ordinal
      readyCount := u64Succ scheduler.readyCount }

/-- The loop of `progress_wait_locked` ends with an answer, or the caller waits on. The slot is
read through the pointer taken before the wait. -/
def progressWait (index : Nat) : Option (Except Rejection Unit) :=
  match scheduler.slots[index]? with
  | some (some work) =>
    if work.queued && !scheduler.stopping then none
    else if work.active then some (.ok ())
    else if work.status = .cancelled then
      some (.error ⟨.cancelled, "ready sequence work was cancelled before admission"⟩)
    else some (.error ⟨.state, "engine scheduler stopped before sequence work admission"⟩)
  | _ => some (.error ⟨.state, "engine scheduler stopped before sequence work admission"⟩)

def activeRemove (index : Nat) (work : ProgressWork) : ProgressScheduler :=
  if work.active then
    { scheduler.put index (some { work with active := false }) with
      activeCount := u64Pred scheduler.activeCount }
  else scheduler

def progressRelease (index : Nat) : ProgressScheduler :=
  match scheduler.slots[index]? with
  | some (some work) =>
    { scheduler.put index none with
      readyCount := if work.queued then u64Pred scheduler.readyCount else scheduler.readyCount
      activeCount := if work.active then u64Pred scheduler.activeCount
        else scheduler.activeCount
      inUseCount := u64Pred scheduler.inUseCount }
  | _ => scheduler

section

variable (scheduler : ProgressScheduler)

/-- `yvex_runtime_execution_enter` up to its wait. -/
def executionEnter (engineGeneration sequenceHandle : Nat) (kind : ProgressKind)
    (cancellable : Bool) (serial : Nat) : Except Rejection (ProgressLease × ProgressScheduler) := do
  require (engineGeneration != 0 && sequenceHandle != 0) .invalidArgument
    "bounded engine-generation work identity is required"
  require (!scheduler.stopping) .state "draining engine scheduler cannot admit sequence work"
  let index ← orReject (scheduler.slots.findIdx? Option.isNone) .bounds
    "engine ready-work capacity is exhausted"
  let generation := generationAfter scheduler.nextGeneration
  pure (⟨true, index, generation⟩, progressEnqueue cancels
    { scheduler with
      nextGeneration := generation
      inUseCount := u64Succ scheduler.inUseCount }
    index
    { generation := generation
      engineGeneration := engineGeneration
      sequenceHandle := sequenceHandle
      kind := kind
      cancellable := cancellable
      serial := serial })

variable (lease : ProgressLease)

def progressRequeue (change : ProgressWork → ProgressWork) (missing stale draining : String) :
    Option Rejection × ProgressScheduler :=
  if lease.scheduler = false then (some ⟨.invalidArgument, missing⟩, scheduler)
  else
    match scheduler.progressSlot lease with
    | none => (some ⟨.state, stale⟩, scheduler)
    | some work =>
      if !work.active then (some ⟨.state, stale⟩, scheduler)
      else
        let idle := scheduler.activeRemove lease.slot work
        if scheduler.stopping then
          (some ⟨.state, draining⟩, idle.progressRelease lease.slot)
        else (none, progressEnqueue cancels idle lease.slot (change work))

/-- `yvex_runtime_execution_yield_resume` up to its wait. -/
def executionYieldResume : Option Rejection × ProgressScheduler :=
  progressRequeue cancels scheduler lease id "active execution lease is required for yield"
    "execution yield has a stale active lease" "draining scheduler rejected execution yield"

/-- `yvex_runtime_private_engine_progress_transition` up to its wait. -/
def engineProgressTransition (kind : ProgressKind) : Option Rejection × ProgressScheduler :=
  progressRequeue cancels scheduler lease (fun work => { work with kind := kind })
    "active engine sequence work and next kind are required"
    "engine progress transition has a stale sequence lease"
    "draining engine scheduler rejected a phase transition"

/-- The answer of `yvex_runtime_execution_leave` where it finds no work: the status of the
caller, unless that was a success. -/
def leaveRefusal (status : Status) (rejection : Rejection) : Except Rejection Status :=
  if status = .ok then .error rejection else .ok status

def executionLeave (status : Status) : Except Rejection Status × ProgressScheduler :=
  if lease.scheduler = false then
    (leaveRefusal status ⟨.invalidArgument, "engine progress lease is required"⟩, scheduler)
  else
    match scheduler.progressSlot lease with
    | none => (leaveRefusal status ⟨.state, "engine progress lease is stale"⟩, scheduler)
    | some work =>
      (.ok status, progressGrant cancels
        ((scheduler.activeRemove lease.slot work).progressRelease lease.slot))

end

def executionYieldRequested (lease : ProgressLease) : Bool :=
  match scheduler.progressSlot lease with
  | some work => work.active && (scheduler.stopping || scheduler.readyCount != 0)
  | none => false

def cancelSlot (index : Nat) : ProgressScheduler :=
  match scheduler.slots[index]? with
  | some (some work) => scheduler.cancelReady index work
  | _ => scheduler

/-- The first critical section of `yvex_runtime_execution_coordinator_close`. -/
def executionCoordinatorStop : ProgressScheduler :=
  (List.range scheduler.slots.length).foldl cancelSlot { scheduler with stopping := true }

end ProgressScheduler

/-! ## Threads

Each step is one stretch of a call under the mutex: up to the first wait, or from one wake-up to
the next. -/

inductive ProgressActivity where
  | idle
  /-- In `progress_wait_locked`, with the lease of the call; the serial is that of the work the
  call was made for. -/
  | waiting (lease : ProgressLease) (serial : Nat)
  /-- In the close, until no slot is in use. -/
  | closing

/-- The scheduler, until it is freed, with its threads and the leases given out so far. -/
structure ProgressWorld where
  scheduler : Option ProgressScheduler
  threads : Nat → ProgressActivity := fun _ => .idle
  issued : List ProgressLease := []

inductive ProgressStep where
  | enter (thread engineGeneration sequenceHandle : Nat) (kind : ProgressKind)
      (cancellable : Bool) (cancels : Nat → Nat → Bool)
  | yieldResume (thread : Nat) (lease : ProgressLease) (cancels : Nat → Nat → Bool)
  | transition (thread : Nat) (lease : ProgressLease) (kind : ProgressKind)
      (cancels : Nat → Nat → Bool)
  | wake (thread : Nat) (cancels : Nat → Nat → Bool)
  | leave (thread : Nat) (lease : ProgressLease) (status : Status) (cancels : Nat → Nat → Bool)
  /-- The worker of the batches cannot start. -/
  | stop
  | close (thread : Nat)
  | free (thread : Nat)

namespace ProgressWorld

variable (world : ProgressWorld)

def setThread (thread : Nat) (activity : ProgressActivity) : ProgressWorld :=
  { world with threads := Function.update world.threads thread activity }

def await (scheduler : ProgressScheduler) (thread : Nat) (lease : ProgressLease) (serial : Nat) :
    ProgressWorld :=
  match scheduler.progressWait lease.slot with
  | none => { world.setThread thread (.waiting lease serial) with scheduler := some scheduler }
  | some (.ok _) => { world.setThread thread .idle with scheduler := some scheduler }
  | some (.error _) =>
    { world.setThread thread .idle with
      scheduler := some (scheduler.progressRelease lease.slot) }

def requeued (before : ProgressScheduler) (thread : Nat) (lease : ProgressLease)
    (outcome : Option Rejection × ProgressScheduler) : ProgressWorld :=
  match outcome with
  | (some _, after) => { world with scheduler := some after }
  | (none, after) =>
    match before.progressSlot lease with
    | some work => world.await after thread lease work.serial
    | none => world

def step (world : ProgressWorld) (step : ProgressStep) : ProgressWorld :=
  match world.scheduler with
  | none => world
  | some scheduler =>
    match step with
    | .enter thread engineGeneration sequenceHandle kind cancellable cancels =>
      match world.threads thread with
      | .idle =>
        match scheduler.executionEnter cancels engineGeneration sequenceHandle kind
            cancellable world.issued.length with
        | .ok (lease, entered) =>
          ({ world with issued := world.issued ++ [lease] }).await entered thread lease
            world.issued.length
        | .error _ => world
      | _ => world
    | .yieldResume thread lease cancels =>
      match world.threads thread with
      | .idle => world.requeued scheduler thread lease
          (scheduler.executionYieldResume cancels lease)
      | _ => world
    | .transition thread lease kind cancels =>
      match world.threads thread with
      | .idle => world.requeued scheduler thread lease
          (scheduler.engineProgressTransition cancels lease kind)
      | _ => world
    | .wake thread cancels =>
      match world.threads thread with
      | .waiting lease serial => world.await (scheduler.progressGrant cancels) thread lease serial
      | _ => world
    | .leave thread lease status cancels =>
      match world.threads thread with
      | .idle => { world with
          scheduler := some (scheduler.executionLeave cancels lease status).2 }
      | _ => world
    | .stop => { world with scheduler := some { scheduler with stopping := true } }
    | .close thread =>
      match world.threads thread with
      | .idle => { world.setThread thread .closing with
          scheduler := some scheduler.executionCoordinatorStop }
      | _ => world
    | .free thread =>
      match world.threads thread with
      | .closing =>
        if scheduler.inUseCount = 0 then
          { world.setThread thread .idle with scheduler := none }
        else world
      | _ => world

def run (steps : List ProgressStep) : ProgressWorld := steps.foldl ProgressWorld.step world

/-- The world after `yvex_runtime_execution_coordinator_open`. -/
def opened (queueCapacity cooperativeWidth : Nat) : ProgressWorld where
  scheduler := (executionCoordinatorOpen queueCapacity cooperativeWidth).toOption

end ProgressWorld

end Yvex.Runtime
