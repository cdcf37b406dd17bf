import Yvex.Runtime.Generation

namespace Yvex.Runtime

/-! # The batch scheduler

Submitters put tickets of their own on a bounded queue and wait. One worker takes the oldest
ticket together with all compatible ones that fit its width, executes them as one batch while the
mutex is free, and marks each of them done. A close lets the worker drain the queue and wakes the
submitters. The observations of the summary, which no operation reads, and the clock of the
coalescing wait are left out. -/

inductive ExecutionPhase where
  | prefill
  | decode
  | draft
  | verify
  | correction
  | reset
  | mixed
deriving DecidableEq

inductive CompatibilityOperation where
  | moe
  | transformerStep
  | outputHead
deriving DecidableEq

structure CompatibilityKey where
  schemaVersion : Nat
  phase : ExecutionPhase
  operation : CompatibilityOperation
  backendKind : Nat
  tensorScope : Nat
  executionClass : Nat
  engineGeneration : Nat
  layerOrdinal : Nat
  rowWidth : Nat
  admittedWidth : Nat

def CompatibilityKey.valid (key : CompatibilityKey) : Bool :=
  key.schemaVersion == 3 && key.engineGeneration != 0 && key.rowWidth != 0 &&
    key.admittedWidth != 0 &&
    !(decide (64 ≤ key.admittedWidth) &&
      (key.phase != .prefill || decide (2048 < key.admittedWidth)))

def CompatibilityKey.matches (left right : CompatibilityKey) : Bool :=
  left.valid && right.valid && left.phase == right.phase && left.operation == right.operation &&
    left.backendKind == right.backendKind && left.tensorScope == right.tensorScope &&
    left.executionClass == right.executionClass &&
    left.engineGeneration == right.engineGeneration && left.layerOrdinal == right.layerOrdinal &&
    left.rowWidth == right.rowWidth && left.admittedWidth == right.admittedWidth

/-- What a submitter asks for in `runtime_engine_work`. -/
structure BatchRequest where
  key : CompatibilityKey
  rowCount : Nat
  /-- The execution and the cancellation callback are given. -/
  executable : Bool
  cancellable : Bool

/-- `runtime_engine_work` once it is submitted. -/
structure BatchTicket where
  request : BatchRequest
  actualWidth : Nat := 0
  groupSize : Nat := 0
  status : Status := .ok
  done : Bool := false
  failure : Option Rejection := none

def markAll (tickets : List BatchTicket) (serials : List Nat)
    (change : BatchTicket → BatchTicket) : List BatchTicket :=
  tickets.mapIdx fun serial ticket => if serial ∈ serials then change ticket else ticket

/-- The change of `scheduler_complete_cancelled`. -/
def BatchTicket.cancel (ticket : BatchTicket) : BatchTicket :=
  { ticket with
    status := .cancelled
    done := true
    failure := some ⟨.cancelled, "compatible execution was cancelled before dispatch"⟩ }

/-- The change of `scheduler_finish_locked`; a failed execution is given an error. -/
def BatchTicket.finish (status : Status) (failure : Option Rejection) (ticket : BatchTicket) :
    BatchTicket :=
  { ticket with
    status := status
    failure := if status = .ok then ticket.failure
      else some (failure.getD ⟨status, "compatible physical execution failed"⟩)
    done := true }

/-- What `scheduler_select_locked` makes of the queue. -/
structure BatchSelection where
  taken : List Nat
  cancelled : List Nat
  kept : List Nat
  rows : Nat
deriving DecidableEq

/-- `ticket_cancelled`, with the answers of the callbacks. -/
def BatchTicket.cancelled (ticket : BatchTicket) (answer : Bool) : Bool :=
  ticket.request.cancellable && answer

def dropCancelled (tickets : List BatchTicket) (cancels : Nat → Bool) :
    List Nat → List Nat × List Nat
  | [] => ([], [])
  | serial :: queue =>
    match tickets[serial]? with
    | some ticket =>
      if ticket.cancelled (cancels serial) then
        (serial :: (dropCancelled tickets cancels queue).1, (dropCancelled tickets cancels queue).2)
      else ([], serial :: queue)
    | none => ([], serial :: queue)

def selectCompatible (tickets : List BatchTicket) (cancels : Nat → Bool)
    (key : CompatibilityKey) : Nat → List Nat → BatchSelection
  | rows, [] => ⟨[], [], [], rows⟩
  | rows, serial :: queue =>
    match tickets[serial]? with
    | some ticket =>
      if ticket.cancelled (cancels serial) then
        let rest := selectCompatible tickets cancels key rows queue
        { rest with cancelled := serial :: rest.cancelled }
      else if key.matches ticket.request.key &&
          decide (ticket.request.rowCount ≤ u64Sub key.admittedWidth rows) then
        let rest := selectCompatible tickets cancels key (rows + ticket.request.rowCount) queue
        { rest with taken := serial :: rest.taken }
      else
        let rest := selectCompatible tickets cancels key rows queue
        { rest with kept := serial :: rest.kept }
    | none =>
      let rest := selectCompatible tickets cancels key rows queue
      { rest with kept := serial :: rest.kept }

def schedulerSelect (tickets : List BatchTicket) (cancels : Nat → Bool) (queue : List Nat) :
    BatchSelection :=
  let (dropped, rest) := dropCancelled tickets cancels queue
  match rest with
  | [] => ⟨[], dropped, [], 0⟩
  | first :: queue =>
    match tickets[first]? with
    | some ticket =>
      let scanned := selectCompatible tickets cancels ticket.request.key
        ticket.request.rowCount queue
      { scanned with
        taken := first :: scanned.taken
        cancelled := dropped ++ scanned.cancelled }
    | none => ⟨[], dropped, first :: queue, 0⟩

/-- The batch part of `runtime_engine_scheduler`, with the tickets its pointers reach. -/
structure BatchScheduler where
  queueCapacity : Nat
  queue : List Nat := []
  tickets : List BatchTicket := []
  producerCount : Nat := 0
  producerArrivalFloor : Nat := 0
  stopping : Bool := false

namespace BatchScheduler

variable (scheduler : BatchScheduler)

/-- `yvex_runtime_private_engine_scheduler_submit` up to its wait, with the serial of the
ticket. -/
def submit (request : BatchRequest) : Except Rejection (Nat × BatchScheduler) := do
  require (request.executable && request.rowCount != 0 && request.key.valid &&
    decide (request.rowCount ≤ request.key.admittedWidth)) .invalidArgument
    "one admitted executable work item is required"
  require (scheduler.queue.length != scheduler.queueCapacity) .bounds
    "engine scheduler queue is full"
  require (!scheduler.stopping) .state "engine scheduler is stopping"
  let serial := scheduler.tickets.length
  pure (serial, { scheduler with
    queue := scheduler.queue ++ [serial]
    tickets := scheduler.tickets ++ [{ request := request }] })

def submitReturn (serial : Nat) : Option (Status × Option Rejection) :=
  match scheduler.tickets[serial]? with
  | some ticket =>
    if !ticket.done && !scheduler.stopping then none
    else
      let status := if ticket.done then ticket.status else .state
      if status = .ok then some (status, none)
      else if ticket.done && ticket.failure.isSome then some (status, ticket.failure)
      else some (status, some ⟨.state, "scheduled work stopped before completion"⟩)
  | none => none

def setProducers (producers : Nat) : Except Rejection BatchScheduler := do
  require (decide (producers ≤ scheduler.queueCapacity)) .invalidArgument
    "bounded producer population is required"
  pure { scheduler with
    producerArrivalFloor :=
      if scheduler.producerCount = 0 ∧ producers = 1 ∧ 2 ≤ scheduler.queueCapacity then 2
      else if producers = 0 then 0
      else scheduler.producerArrivalFloor
    producerCount := producers }

/-- One ticket of `scheduler_compatible_count_locked`, with the count and the rows so far. -/
def countCompatible (tickets : List BatchTicket) (key : CompatibilityKey) (state : Nat × Nat)
    (serial : Nat) : Nat × Nat :=
  match tickets[serial]? with
  | some ticket =>
    if !key.matches ticket.request.key ||
        decide (u64Sub key.admittedWidth state.2 < ticket.request.rowCount) then state
    else (state.1 + 1, state.2 + ticket.request.rowCount)
  | none => state

def compatibleCount : Nat :=
  match scheduler.queue.head?.bind (scheduler.tickets[·]?) with
  | some first =>
    (scheduler.queue.foldl (countCompatible scheduler.tickets first.request.key) (0, 0)).1
  | none => 0

def possibleCompatibleCount (expected : Nat) : Nat :=
  let potential := max scheduler.producerCount expected
  let available := potential - scheduler.queue.length
  if u64Max - available < scheduler.compatibleCount then u64Max
  else scheduler.compatibleCount + available

/-- The producers whose tickets `scheduler_coalesce_locked` waits for. -/
def expectedProducers : Nat := max scheduler.producerCount scheduler.producerArrivalFloor

def awaitsMore (expected : Nat) : Bool :=
  !scheduler.stopping && decide (scheduler.compatibleCount < expected) &&
    decide (expected ≤ scheduler.possibleCompatibleCount expected)

end BatchScheduler

/-! ## Threads

The worker and the contexts share the mutex of the scheduler; each step is one stretch under it or
under the lifecycle mutex of the model engine that owns the scheduler. A generation context holds a
reference for its life and is a producer during its turns, and only a producer submits. The final
release gives the scheduler up, closes it and frees it; a later acquire opens another one. -/

inductive WorkerActivity where
  /-- Created, and about to allocate its batch. -/
  | opening
  /-- Waiting for work. -/
  | ready
  /-- Waiting for more compatible tickets. -/
  | coalescing (expected : Nat)
  /-- Executing the selected tickets. -/
  | executing (selected : List Nat)
  | exited
deriving DecidableEq

def WorkerActivity.selected : WorkerActivity → List Nat
  | .executing selected => selected
  | _ => []

inductive BatchActivity where
  | idle
  /-- Between two turns. -/
  | holding
  /-- In a turn. -/
  | producing
  /-- In the wait of a submit. -/
  | submitted (serial : Nat)
  /-- Behind the final release, before the close. -/
  | detached
  /-- In the close, until the worker has ended. -/
  | closing

def BatchActivity.producer : BatchActivity → Bool
  | .producing | .submitted _ => true
  | _ => false

def BatchActivity.closer : BatchActivity → Bool
  | .detached | .closing => true
  | _ => false

inductive Completion where
  | executed (serials : List Nat) (status : Status)
  | cancelled (serials : List Nat)

/-- The scheduler with its worker, the model engine that owns it and the contexts that use it; the
answers of the submits, the completions and a use of freed memory are a record of the run. -/
structure BatchWorld where
  scheduler : BatchScheduler
  worker : WorkerActivity := .opening
  sequenceCapacity : Nat
  attached : Bool := true
  references : Nat := 1
  producers : Nat := 0
  threads : Nat → BatchActivity
  returned : List (Nat × Status) := []
  completions : List Completion := []
  freed : Bool := false
  faulted : Bool := false

inductive BatchStep where
  | acquire (thread : Nat)
  | enter (thread : Nat)
  | submit (thread : Nat) (request : BatchRequest)
  | wake (thread : Nat)
  | leave (thread : Nat)
  | release (thread : Nat)
  | close (thread : Nat)
  | free (thread : Nat)
  | allocate (allocated : Bool)
  | look (clock : Bool) (cancels : Nat → Bool)
  | coalesce (timedOut : Bool) (cancels : Nat → Bool)
  | finish (status : Status) (failure : Option Rejection)

namespace BatchWorld

variable (world : BatchWorld)

def setThread (thread : Nat) (activity : BatchActivity) : BatchWorld :=
  { world with threads := Function.update world.threads thread activity }

/-- `yvex_runtime_private_engine_scheduler_set_producers`, with the count of the model engine. -/
def setProducers (producers thread : Nat) (activity : BatchActivity) : BatchWorld :=
  match world.scheduler.setProducers producers with
  | .ok scheduler => { world.setThread thread activity with scheduler, producers }
  | .error _ => world

def select (cancels : Nat → Bool) : BatchWorld :=
  let scheduler := world.scheduler
  let selection := schedulerSelect scheduler.tickets cancels scheduler.queue
  let group := fun (ticket : BatchTicket) => { ticket with
    actualWidth := selection.rows, groupSize := selection.taken.length }
  { world with
    scheduler := { scheduler with
      queue := selection.kept
      tickets := markAll (markAll scheduler.tickets selection.cancelled BatchTicket.cancel)
        selection.taken group }
    worker := if selection.taken = [] then .ready else .executing selection.taken
    completions := world.completions ++ [.cancelled selection.cancelled] }

def gather (clock : Bool) (cancels : Nat → Bool) : BatchWorld :=
  let scheduler := world.scheduler
  let expected := scheduler.expectedProducers
  if scheduler.stopping then world.select cancels
  else if decide (2 ≤ expected) && scheduler.awaitsMore expected && clock then
    { world with worker := .coalescing expected }
  else
    ({ world with scheduler := { scheduler with producerArrivalFloor := 0 } } :
      BatchWorld).select cancels

def workerStep : BatchStep → BatchWorld
  | .allocate allocated =>
    match world.worker with
    | .opening =>
      if allocated then { world with worker := .ready }
      else
        { world with
          scheduler := { world.scheduler with
            stopping := true
            queue := []
            tickets := markAll world.scheduler.tickets world.scheduler.queue BatchTicket.cancel }
          worker := .exited
          completions := world.completions ++ [.cancelled world.scheduler.queue] }
    | _ => world
  | .look clock cancels =>
    match world.worker with
    | .ready =>
      if world.scheduler.queue = [] then
        if world.scheduler.stopping then { world with worker := .exited } else world
      else world.gather clock cancels
    | _ => world
  | .coalesce timedOut cancels =>
    match world.worker with
    | .coalescing expected =>
      if world.scheduler.awaitsMore expected && !timedOut then world
      else
        ({ world with scheduler := { world.scheduler with producerArrivalFloor := 0 } } :
          BatchWorld).select cancels
    | _ => world
  | .finish status failure =>
    match world.worker with
    | .executing selected =>
      { world with
        scheduler := { world.scheduler with
          tickets := markAll world.scheduler.tickets selected (BatchTicket.finish status failure) }
        worker := .ready
        completions := world.completions ++ [.executed selected status] }
    | _ => world
  | _ => world

/-- The step of a context, in the place where its thread is. -/
def threadStep (thread : Nat) : BatchActivity → BatchStep → BatchWorld
  | .idle, .acquire _ =>
    -- `yvex_runtime_private_model_scheduler_acquire`
    if world.attached && world.references != u64Max then
      { world.setThread thread .holding with references := world.references + 1 }
    else world
  | .holding, .enter _ =>
    -- `yvex_runtime_private_model_scheduler_producer_enter`
    if world.attached && world.references != 0 && world.producers < world.sequenceCapacity then
      world.setProducers (world.producers + 1) thread .producing
    else world
  | .producing, .submit _ request =>
    match world.scheduler.submit request with
    | .ok (serial, scheduler) => { world.setThread thread (.submitted serial) with scheduler }
    | .error _ => world
  | .submitted serial, .wake _ =>
    match world.scheduler.submitReturn serial with
    | some (status, _) =>
      { world.setThread thread .producing with returned := world.returned ++ [(serial, status)] }
    | none => world
  | .producing, .leave _ =>
    -- `yvex_runtime_private_model_scheduler_producer_leave`
    if world.attached && world.producers != 0 then
      world.setProducers (world.producers - 1) thread .holding
    else world
  | .holding, .release _ =>
    -- `yvex_runtime_private_model_scheduler_release`
    if !world.attached || world.references == 0 || world.references == 1 && world.producers != 0 then
      world
    else if world.references = 1 then
      { world.setThread thread .detached with references := 0, attached := false }
    else { world.setThread thread .idle with references := world.references - 1 }
  | .detached, .close _ =>
    { world.setThread thread .closing with
      scheduler := { world.scheduler with stopping := true } }
  | .closing, .free _ =>
    if world.worker = .exited then { world.setThread thread .idle with freed := true } else world
  | _, _ => world

end BatchWorld

/-- The thread that takes a step, none for the worker. -/
def BatchStep.thread : BatchStep → Option Nat
  | .acquire thread | .enter thread | .submit thread _ | .wake thread | .leave thread
  | .release thread | .close thread | .free thread => some thread
  | _ => none

namespace BatchWorld

variable (world : BatchWorld)

/-- Whether a step goes into the scheduler: the worker's and those inside a call on it. -/
def touches (step : BatchStep) : Bool :=
  match step.thread with
  | some thread => (world.threads thread).producer || (world.threads thread).closer
  | none => world.worker != .exited

def step (step : BatchStep) : BatchWorld :=
  if world.freed && world.touches step then { world with faulted := true }
  else match step.thread with
    | some thread => world.threadStep thread (world.threads thread) step
    | none => world.workerStep step

def run (steps : List BatchStep) : BatchWorld := steps.foldl BatchWorld.step world

/-- The scheduler that the first acquire has opened and started. -/
def opened (queueCapacity sequenceCapacity thread : Nat) : BatchWorld where
  scheduler := { queueCapacity := queueCapacity }
  sequenceCapacity := sequenceCapacity
  threads := Function.update (fun _ => .idle) thread .holding

end BatchWorld

end Yvex.Runtime
