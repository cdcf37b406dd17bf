import Yvex.Foundation.Checked
import Yvex.Foundation.Digest

namespace Yvex.Server

/-! # The request queue

Submitters append work under a serialization key; workers take the first entry whose key no
other worker is busy with, run its callback without the lock and give the key back. Each
critical section is one step; what runs between them is the state of a thread. Submissions are
numbered, and the queue's history is kept beside it: what was accepted and refused, whose
callback was begun and whose has returned. -/

def requestQueueKeyCap : Nat := 224

/-- `request_queue_entry` with the number of the submission that made it. -/
structure QueueEntry where
  serial : Nat
  work : Nat
  key : Text
deriving DecidableEq

inductive Worker where
  /-- About to take the lock at the top of the loop. -/
  | awake
  /-- In `pthread_cond_wait`. -/
  | waiting
  /-- In the callback of an entry. -/
  | running (entry : QueueEntry)
  /-- Returned from `request_queue_worker`. -/
  | exited
deriving DecidableEq

/-- Where `yvex_server_request_queue_start` stands. -/
inductive StartPhase where
  | idle
  | creating
  | succeeded
  /-- A worker could not be created; the ones that were are joined. -/
  | joining
  | failed
deriving DecidableEq

/-- Where `yvex_server_request_queue_finish` stands. -/
inductive FinishPhase where
  | idle
  | joining
  | returned
deriving DecidableEq

/-- `server_request_queue`, its threads and its history. -/
structure RequestQueue where
  queueCapacity : Nat
  workerCount : Nat
  queue : List QueueEntry
  active : List Text
  workers : List Worker
  started : Bool
  stopping : Bool
  finished : Bool
  starting : StartPhase
  finishing : FinishPhase
  submissions : Nat
  accepted : List QueueEntry
  refused : List Nat
  begun : List QueueEntry
  completed : List QueueEntry
deriving DecidableEq

/-- The bytes of a `request_queue_entry`, a `pthread_t` and a `request_queue_active`. -/
def queueEntryBytes : Nat := 232

def workerBytes : Nat := 8

def activeBytes : Nat := 224

def requestQueueOpen (queueCapacity workerCount : Nat) : Except Rejection RequestQueue := do
  require (queueCapacity != 0 && workerCount != 0 &&
      queueCapacity ≤ u64Max / queueEntryBytes && workerCount ≤ u64Max / workerBytes &&
      workerCount ≤ u64Max / activeBytes)
    .invalidArgument "bounded queue, workers, execution callback, and output are required"
  return { queueCapacity, workerCount, queue := [], active := [], workers := [],
           started := false, stopping := false, finished := false, starting := .idle,
           finishing := .idle, submissions := 0, accepted := [], refused := [], begun := [],
           completed := [] }

def Worker.wake : Worker → Worker
  | .waiting => .awake
  | worker => worker

namespace RequestQueue

variable (owner : RequestQueue)

def broadcast : RequestQueue :=
  { owner with workers := owner.workers.map Worker.wake }

def keyActive (key : Text) : Bool := owner.active.contains key

/-- `request_queue_select_locked`: the first entry whose key is not active leaves the queue. -/
def selectLocked : Option (QueueEntry × RequestQueue) :=
  let index := owner.queue.findIdx fun entry => !owner.keyActive entry.key
  owner.queue[index]?.map fun entry =>
    (entry, { owner with
      queue := owner.queue.eraseIdx index
      active := owner.active ++ [entry.key] })

/-- `request_queue_release_locked`: the first active key equal to the given one is removed. -/
def releaseLocked (key : Text) : RequestQueue :=
  { owner with active := owner.active.erase key }

variable (index : Nat)

def setWorker (worker : Worker) : RequestQueue :=
  { owner with workers := owner.workers.set index worker }

/-- The critical section of `request_queue_worker` in front of the callback: exit, wait or take
an entry. -/
def work : RequestQueue :=
  if owner.workers[index]? = some .awake then
    if owner.stopping && owner.queue.isEmpty then owner.setWorker index .exited
    else if owner.queue.isEmpty then owner.setWorker index .waiting
    else
      match owner.selectLocked with
      | none => owner.setWorker index .waiting
      | some (entry, selected) =>
        { selected.setWorker index (.running entry) with begun := owner.begun ++ [entry] }
  else owner

/-- `pthread_cond_wait` may return without a broadcast. -/
def spuriousWake : RequestQueue :=
  if owner.workers[index]? = some .waiting then owner.setWorker index .awake else owner

def callbackReturn : RequestQueue :=
  match owner.workers[index]? with
  | some (.running entry) =>
    { (((owner.setWorker index .awake).releaseLocked entry.key).broadcast) with
      completed := owner.completed ++ [entry] }
  | _ => owner

def submit (work : Nat) (serializationKey : Text) : RequestQueue × Except Rejection Nat :=
  let serial := owner.submissions
  let refuse (status : Status) (reason : String) : RequestQueue × Except Rejection Nat :=
    ({ owner with submissions := serial + 1, refused := owner.refused ++ [serial] },
      .error ⟨status, reason⟩)
  if work = 0 || requestQueueKeyCap ≤ serializationKey.length then
    refuse .invalidArgument "request queue work and bounded key are required"
  else if !owner.started || owner.stopping || owner.queue.length == owner.queueCapacity then
    if owner.queue.length = owner.queueCapacity then
      refuse .bounds "bounded request queue is full"
    else refuse .state "request queue is not accepting work"
  else
    let entry : QueueEntry := ⟨serial, work, serializationKey⟩
    ({ owner with
        queue := owner.queue ++ [entry]
        submissions := serial + 1
        accepted := owner.accepted ++ [entry] }.broadcast,
      .ok (owner.queue.length + 1))

def requestStop : RequestQueue :=
  { owner with stopping := true }.broadcast

/-- The critical section of `yvex_server_request_queue_start`. -/
def start : RequestQueue :=
  if owner.started || owner.stopping then owner
  else { owner with started := true, starting := .creating }

/-- `pthread_create` in `yvex_server_request_queue_start`, which returns behind the last
worker. -/
def createWorker : RequestQueue :=
  if owner.starting = .creating then
    let workers := owner.workers ++ [.awake]
    { owner with
      workers
      starting := if workers.length = owner.workerCount then .succeeded else .creating }
  else owner

/-- `pthread_create` fails: `start` stops the queue and joins the workers it has. -/
def createFailure : RequestQueue :=
  if owner.starting = .creating then { owner.requestStop with starting := .joining } else owner

/-- `yvex_server_request_queue_finish` behind a `start` that returned: the queue is stopped,
then its workers are joined. -/
def finish : RequestQueue :=
  if owner.starting = .succeeded then
    { owner.requestStop with
      finishing := if owner.finished then .returned else .joining }
  else owner

/-- The last `pthread_join` returns. -/
def joinWorkers : RequestQueue :=
  if owner.workers.all (· = .exited) then
    if owner.starting = .joining then { owner with finished := true, starting := .failed }
    else if owner.finishing = .joining then
      { owner with finished := true, finishing := .returned }
    else owner
  else owner

end RequestQueue

inductive QueueAction where
  | submit (work : Nat) (serializationKey : Text)
  | start
  | createWorker
  | createFailure
  | work (index : Nat)
  | spuriousWake (index : Nat)
  | callbackReturn (index : Nat)
  | requestStop
  | finish
  | joinWorkers

namespace RequestQueue

variable (owner : RequestQueue)

def step : QueueAction → RequestQueue
  | .submit work serializationKey => (owner.submit work serializationKey).1
  | .start => owner.start
  | .createWorker => owner.createWorker
  | .createFailure => owner.createFailure
  | .work index => owner.work index
  | .spuriousWake index => owner.spuriousWake index
  | .callbackReturn index => owner.callbackReturn index
  | .requestStop => owner.requestStop
  | .finish => owner.finish
  | .joinWorkers => owner.joinWorkers

/-- Any interleaving of the threads' steps. A step that its thread cannot take changes
nothing. -/
def run (actions : List QueueAction) : RequestQueue := actions.foldl step owner

end RequestQueue

end Yvex.Server
