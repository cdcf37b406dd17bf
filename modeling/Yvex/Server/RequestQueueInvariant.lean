import Yvex.Foundation.Dispatch
import Yvex.Server.RequestQueue

namespace Yvex.Server

open List

/-! # What the request queue keeps

`Accounts` relates the queue, the active keys and the workers to the history: every accepted
entry is queued, running or completed, once. `Rested` says that a worker sleeps only where
there is nothing for it to do, so no wakeup is lost. Both hold across every step of every
thread. -/

def Worker.entry : Worker → Option QueueEntry
  | .running entry => some entry
  | _ => none

namespace RequestQueue

section

variable (owner : RequestQueue)

def running : List QueueEntry := owner.workers.filterMap Worker.entry

structure Accounts (owner : RequestQueue) : Prop where
  capacity : owner.queue.length ≤ owner.queueCapacity
  crew : owner.workers.length ≤ owner.workerCount
  active : owner.active.Perm (owner.running.map (·.key))
  distinct : owner.active.Nodup
  ordered : (owner.begun ++ owner.queue).Pairwise
    fun first second => first.key = second.key → first.serial < second.serial
  accepted : owner.accepted.Perm (owner.begun ++ owner.queue)
  begun : owner.begun.Perm (owner.completed ++ owner.running)
  serials : (owner.accepted.map (·.serial) ++ owner.refused).Nodup
  numbered : ∀ serial ∈ owner.accepted.map (·.serial) ++ owner.refused, serial < owner.submissions

/-- A waiting worker has nothing to take and nothing to exit for; a worker exits only from a
stopped queue that is empty and stays so. -/
structure Rested (owner : RequestQueue) : Prop where
  asleep : .waiting ∈ owner.workers → (∀ entry ∈ owner.queue, entry.key ∈ owner.active) ∧
      ¬ (owner.stopping = true ∧ owner.queue = [])
  gone : .exited ∈ owner.workers → owner.stopping = true ∧ owner.queue = []

/-- The workers there are at each phase of `start` and `finish`. -/
structure Phased (owner : RequestQueue) : Prop where
  positive : 0 < owner.workerCount
  idle : owner.started = false → owner.starting = .idle ∧ owner.workers = []
  creating : owner.starting = .creating → owner.workers.length < owner.workerCount
  succeeded : owner.starting = .succeeded → owner.workers.length = owner.workerCount
  joined : owner.finished = true →
    (owner.starting = .succeeded ∨ owner.starting = .failed) ∧ ∀ worker ∈ owner.workers,
      worker = .exited
  finishes : owner.finishing ≠ .idle → owner.starting = .succeeded
  returned : owner.finishing = .returned → owner.finished = true

/-! ## Steps of the parts -/

theorem entry_wake (worker : Worker) : worker.wake.entry = worker.entry := by
  cases worker <;> rfl

@[simp] theorem running_broadcast : owner.broadcast.running = owner.running := by
  rw [running, broadcast, filterMap_map]
  exact congrArg (filterMap · _) (funext entry_wake)

@[simp] theorem length_workers_broadcast :
    owner.broadcast.workers.length = owner.workers.length := by
  simp [broadcast]

theorem waiting_not_mem_broadcast : .waiting ∉ owner.broadcast.workers := by
  simp only [broadcast, mem_map, not_exists, not_and]
  intro worker _
  cases worker <;> simp [Worker.wake]

end

variable {owner : RequestQueue}

theorem exited_mem_broadcast : .exited ∈ owner.broadcast.workers ↔ .exited ∈ owner.workers := by
  simp only [broadcast, mem_map]
  constructor
  · rintro ⟨worker, member, equal⟩
    cases worker <;> simp_all [Worker.wake]
  · exact fun member => ⟨.exited, member, rfl⟩

theorem selectLocked_eq_some (chosen : owner.selectLocked = some (entry, selected)) :
    ∃ front rest, owner.queue = front ++ entry :: rest ∧
      (∀ other ∈ front, other.key ∈ owner.active) ∧ entry.key ∉ owner.active ∧
      selected = { owner with
        queue := front ++ rest
        active := owner.active ++ [entry.key] } := by
  simp only [selectLocked, Option.map_eq_some_iff] at chosen
  rcases chosen with ⟨found, present, rfl, rfl⟩
  rcases split_findIdx present with ⟨front, rest, equal, before, here, erased⟩
  refine ⟨front, rest, equal, ?_, by simpa [keyActive] using here, by rw [erased]⟩
  intro other member
  simpa [keyActive] using before other member

theorem selectLocked_eq_none (blocked : owner.selectLocked = none) :
    ∀ entry ∈ owner.queue, entry.key ∈ owner.active := by
  simp only [selectLocked, Option.map_eq_none_iff] at blocked
  intro entry member
  simpa [keyActive] using forall_of_findIdx_none blocked entry member

inductive Worked (owner : RequestQueue) (index : Nat) : RequestQueue → Prop
  | elsewhere (busy : owner.workers[index]? ≠ some .awake) : Worked owner index owner
  | exits (awake : owner.workers[index]? = some .awake) (stopping : owner.stopping = true)
      (empty : owner.queue = []) : Worked owner index (owner.setWorker index .exited)
  | waits (awake : owner.workers[index]? = some .awake)
      (blocked : ∀ entry ∈ owner.queue, entry.key ∈ owner.active)
      (stays : ¬ (owner.stopping = true ∧ owner.queue = [])) :
      Worked owner index (owner.setWorker index .waiting)
  | takes (awake : owner.workers[index]? = some .awake) (entry : QueueEntry)
      (front rest : List QueueEntry) (equal : owner.queue = front ++ entry :: rest)
      (overtaken : ∀ other ∈ front, other.key ∈ owner.active)
      (free : entry.key ∉ owner.active) :
      Worked owner index { owner with
        queue := front ++ rest
        active := owner.active ++ [entry.key]
        workers := owner.workers.set index (.running entry)
        begun := owner.begun ++ [entry] }

theorem work_worked (owner : RequestQueue) (index : Nat) :
    Worked owner index (owner.work index) := by
  unfold work
  split
  · rename_i awake
    cases empty : owner.queue with
    | nil =>
      cases stopping : owner.stopping with
      | true => exact .exits awake stopping empty
      | false => exact .waits awake (by simp [empty]) (by simp [stopping])
    | cons first rest => ?_
    simp only [isEmpty_cons, Bool.and_false]
    cases chosen : owner.selectLocked with
    | none => exact .waits awake (selectLocked_eq_none chosen) (by simp [empty])
    | some pair => ?_
    rcases pair with ⟨entry, selected⟩
    rcases selectLocked_eq_some chosen with ⟨front, behind, equal, overtaken, free, rfl⟩
    exact .takes awake entry front behind equal overtaken free
  · rename_i busy
    exact .elsewhere busy

/-! ## Accounts -/

theorem Accounts.setWorker (accounts : owner.Accounts)
    (present : owner.workers[index]? = some old) (idle : old.entry = none)
    (stays : new.entry = none) : (owner.setWorker index new).Accounts := by
  have same : (owner.setWorker index new).running.Perm owner.running := by
    have changed := filterMap_set_perm Worker.entry present new
    rw [idle, stays] at changed
    exact changed
  exact { accounts with
    crew := by simpa [RequestQueue.setWorker] using accounts.crew
    active := accounts.active.trans (same.symm.map _)
    begun := accounts.begun.trans (same.symm.append_left _) }

theorem Accounts.broadcast (accounts : owner.Accounts) : owner.broadcast.Accounts :=
  { accounts with
    crew := by rw [length_workers_broadcast]; exact accounts.crew
    active := by rw [running_broadcast]; exact accounts.active
    begun := by rw [running_broadcast]; exact accounts.begun }

variable {after : RequestQueue}

section

variable (accounts : owner.Accounts)

include accounts

theorem Accounts.worked (worked : Worked owner index after) : after.Accounts := by
  cases worked with
  | elsewhere => exact accounts
  | exits awake => exact accounts.setWorker awake rfl rfl
  | waits awake => exact accounts.setWorker awake rfl rfl
  | takes awake entry front rest equal overtaken free => ?_
  have capacity := accounts.capacity
  have active := accounts.active
  have ordered := accounts.ordered
  have accepted := accounts.accepted
  rw [equal] at capacity ordered accepted
  have runs : ((owner.workers.set index (.running entry)).filterMap Worker.entry).Perm
      (entry :: owner.running) := by
    simpa [Worker.entry, running] using
      filterMap_set_perm Worker.entry awake (.running entry)
  refine ⟨?_, by simpa using accounts.crew, ?_, ?_, ?_, ?_, ?_, accounts.serials, accounts.numbered⟩
  · simp only [length_append, length_cons] at capacity ⊢
    omega
  · refine List.Perm.trans ?_ (runs.map _).symm
    exact (perm_append_singleton _ _).trans (active.cons _)
  · grind [cases RequestQueue.Accounts]
  · refine pairwise_take ordered fun other member same => ?_
    exact absurd (same ▸ overtaken other member) free
  · apply accepted.trans
    rw [append_assoc]
    apply List.Perm.append_left _
    exact perm_middle
  · apply (perm_append_singleton _ _).trans
    apply (accounts.begun.cons entry).trans
    exact perm_middle.symm.trans (runs.symm.append_left _)

theorem Accounts.callbackReturn (index : Nat) : (owner.callbackReturn index).Accounts := by
  unfold RequestQueue.callbackReturn
  split
  · rename_i entry present
    have runs : (entry :: (owner.workers.set index .awake).filterMap Worker.entry).Perm
        owner.running := by
      simpa [Worker.entry, running] using filterMap_set_perm Worker.entry present .awake
    have released : (((owner.setWorker index .awake).releaseLocked entry.key).broadcast).running =
        (owner.workers.set index .awake).filterMap Worker.entry :=
      running_broadcast _
    refine ⟨accounts.capacity, ?_, ?_, accounts.distinct.erase _, accounts.ordered,
      accounts.accepted, ?_, accounts.serials, accounts.numbered⟩
    · have length : (((owner.setWorker index .awake).releaseLocked
          entry.key).broadcast).workers.length = owner.workers.length :=
        (length_workers_broadcast _).trans (length_set ..)
      exact le_trans (le_of_eq length) accounts.crew
    · have named := (accounts.active.trans (runs.symm.map _)).erase entry.key
      rw [map_cons, erase_cons_head] at named
      change (owner.active.erase entry.key).Perm (List.map _
        (((owner.setWorker index .awake).releaseLocked entry.key).broadcast).running)
      rw [released]
      exact named
    · change owner.begun.Perm (owner.completed ++ [entry] ++
        (((owner.setWorker index .awake).releaseLocked entry.key).broadcast).running)
      rw [released, append_assoc]
      exact accounts.begun.trans (runs.symm.append_left _)
  · exact accounts

theorem Accounts.submit (work : Nat) (key : Text) : (owner.submit work key).1.Accounts := by
  have numbered := accounts.numbered
  have fresh : owner.submissions ∉ owner.accepted.map (·.serial) ++ owner.refused :=
    fun member => lt_irrefl _ (numbered _ member)
  have refusing : ({ owner with
      submissions := owner.submissions + 1
      refused := owner.refused ++ [owner.submissions] } : RequestQueue).Accounts := by
    refine { accounts with serials := ?_, numbered := ?_ }
    · grind [cases RequestQueue.Accounts]
    · grind
  simp only [RequestQueue.submit]
  split
  · exact refusing
  split
  · split
    · exact refusing
    · exact refusing
  rename_i accepting
  simp only [Bool.or_eq_true, beq_iff_eq] at accepting
  refine Accounts.broadcast ⟨?_, accounts.crew, accounts.active, accounts.distinct, ?_, ?_,
    accounts.begun, ?_, ?_⟩
  · have capacity := accounts.capacity
    simp only [length_append, length_singleton]
    omega
  · grind [cases RequestQueue.Accounts]
  · rw [← append_assoc]
    exact accounts.accepted.append_right _
  · rw [map_append, append_assoc]
    have moved : (owner.accepted.map (·.serial) ++ ([owner.submissions] ++ owner.refused)).Perm
        (owner.submissions :: (owner.accepted.map (·.serial) ++ owner.refused)) :=
      perm_middle
    exact moved.nodup_iff.mpr (nodup_cons.mpr ⟨fresh, accounts.serials⟩)
  · intro serial member
    simp only [map_append, map_cons, map_nil, mem_append,
      mem_singleton] at member
    rcases member with (member | rfl) | member
    · exact Nat.lt_succ_of_lt (numbered serial (mem_append_left _ member))
    · exact Nat.lt_succ_self _
    · exact Nat.lt_succ_of_lt (numbered serial (mem_append_right _ member))

theorem Accounts.spuriousWake (index : Nat) : (owner.spuriousWake index).Accounts := by
  unfold RequestQueue.spuriousWake
  split
  · rename_i present
    exact accounts.setWorker present rfl rfl
  · exact accounts

theorem Accounts.requestStop : owner.requestStop.Accounts := Accounts.broadcast { accounts with }

theorem Accounts.createWorker (phased : owner.Phased) : owner.createWorker.Accounts := by
  unfold RequestQueue.createWorker
  split
  · rename_i creating
    have room := phased.creating creating
    have same : (owner.workers ++ [Worker.awake]).filterMap Worker.entry = owner.running := by
      simp [running, Worker.entry]
    refine { accounts with crew := ?_, active := ?_, begun := ?_ }
    · simp only [length_append, length_singleton]
      omega
    · change owner.active.Perm (List.map _ ((owner.workers ++ [Worker.awake]).filterMap _))
      rw [same]
      exact accounts.active
    · change owner.begun.Perm (owner.completed ++ ((owner.workers ++ [Worker.awake]).filterMap _))
      rw [same]
      exact accounts.begun
  · exact accounts

theorem Accounts.flagged (started stopping finished : Bool)
    (starting : StartPhase) (finishing : FinishPhase) :
    { owner with started, stopping, finished, starting, finishing }.Accounts :=
  { accounts with }

theorem Accounts.step (phased : owner.Phased) (action : QueueAction) :
    (owner.step action).Accounts := by
  cases action with
  | submit work key => exact accounts.submit work key
  | start =>
    simp only [RequestQueue.step, RequestQueue.start]
    split
    · exact accounts
    · exact accounts.flagged _ _ _ _ _
  | createWorker => exact accounts.createWorker phased
  | createFailure =>
    simp only [RequestQueue.step, RequestQueue.createFailure]
    split
    · exact accounts.requestStop.flagged _ _ _ _ _
    · exact accounts
  | work index => exact accounts.worked (work_worked owner index)
  | spuriousWake index => exact accounts.spuriousWake index
  | callbackReturn index => exact accounts.callbackReturn index
  | requestStop => exact accounts.requestStop
  | finish =>
    simp only [RequestQueue.step, RequestQueue.finish]
    split
    · exact accounts.requestStop.flagged _ _ _ _ _
    · exact accounts
  | joinWorkers =>
    simp only [RequestQueue.step, RequestQueue.joinWorkers]
    split
    · split
      · exact accounts.flagged _ _ _ _ _
      split
      · exact accounts.flagged _ _ _ _ _
      · exact accounts
    · exact accounts

end

/-! ## No lost wakeup -/

theorem Rested.of_broadcast
    (gone : .exited ∈ owner.workers → owner.stopping = true ∧ owner.queue = []) :
    owner.broadcast.Rested :=
  ⟨fun waiting => absurd waiting (waiting_not_mem_broadcast owner),
    fun member => gone (exited_mem_broadcast.mp member)⟩

section

variable (rested : owner.Rested)

include rested

theorem Rested.worked (worked : Worked owner index after) : after.Rested := by
  cases worked with
  | elsewhere => exact rested
  | exits awake stopping empty =>
    refine ⟨fun waiting => rested.asleep ?_, fun _ => ⟨stopping, empty⟩⟩
    rcases mem_or_eq_of_mem_set waiting with member | same
    · exact member
    · contradiction
  | waits awake blocked stays =>
    refine ⟨fun _ => ⟨blocked, stays⟩, fun exited => rested.gone ?_⟩
    rcases mem_or_eq_of_mem_set exited with member | same
    · exact member
    · contradiction
  | takes awake entry front rest equal overtaken free =>
    refine ⟨fun waiting => ?_, fun exited => ?_⟩
    · grind [cases RequestQueue.Rested]
    rcases mem_or_eq_of_mem_set exited with member | same
    · have empty := (rested.gone member).2
      simp [equal] at empty
    · contradiction

theorem Rested.spuriousWake (index : Nat) : (owner.spuriousWake index).Rested := by
  unfold RequestQueue.spuriousWake
  split
  · refine ⟨fun waiting => rested.asleep ?_, fun exited => rested.gone ?_⟩
    · rcases mem_or_eq_of_mem_set waiting with member | same
      · exact member
      · contradiction
    · rcases mem_or_eq_of_mem_set exited with member | same
      · exact member
      · contradiction
  · exact rested

theorem Rested.callbackReturn (index : Nat) : (owner.callbackReturn index).Rested := by
  unfold RequestQueue.callbackReturn
  split
  · rename_i entry present
    have woken : (((owner.setWorker index .awake).releaseLocked entry.key).broadcast).Rested := by
      refine Rested.of_broadcast fun exited => ?_
      rcases mem_or_eq_of_mem_set exited with member | same
      · exact rested.gone member
      · contradiction
    exact ⟨woken.asleep, woken.gone⟩
  · exact rested

theorem Rested.submit (work : Nat) (key : Text) : (owner.submit work key).1.Rested := by
  simp only [RequestQueue.submit]
  split
  · exact ⟨rested.asleep, rested.gone⟩
  split
  · split
    · exact ⟨rested.asleep, rested.gone⟩
    · exact ⟨rested.asleep, rested.gone⟩
  rename_i accepting
  simp only [Bool.or_eq_true, not_or] at accepting
  refine Rested.of_broadcast fun exited => ?_
  exact absurd (rested.gone exited).1 accepting.1.2

theorem Rested.requestStop : owner.requestStop.Rested :=
  Rested.of_broadcast fun exited => ⟨rfl, (rested.gone exited).2⟩

theorem Rested.createWorker : owner.createWorker.Rested := by
  unfold RequestQueue.createWorker
  split
  · refine ⟨fun waiting => rested.asleep ?_, fun exited => rested.gone ?_⟩
    · simpa using waiting
    · simpa using exited
  · exact rested

theorem Rested.step (action : QueueAction) : (owner.step action).Rested := by
  cases action with
  | submit work key => exact rested.submit work key
  | start =>
    simp only [RequestQueue.step, RequestQueue.start]
    split
    · exact rested
    · exact ⟨rested.asleep, rested.gone⟩
  | createWorker => exact rested.createWorker
  | createFailure =>
    simp only [RequestQueue.step, RequestQueue.createFailure]
    split
    · exact ⟨rested.requestStop.asleep, rested.requestStop.gone⟩
    · exact rested
  | work index => exact rested.worked (work_worked owner index)
  | spuriousWake index => exact rested.spuriousWake index
  | callbackReturn index => exact rested.callbackReturn index
  | requestStop => exact rested.requestStop
  | finish =>
    simp only [RequestQueue.step, RequestQueue.finish]
    split
    · exact ⟨rested.requestStop.asleep, rested.requestStop.gone⟩
    · exact rested
  | joinWorkers =>
    simp only [RequestQueue.step, RequestQueue.joinWorkers]
    split
    · split
      · exact ⟨rested.asleep, rested.gone⟩
      split
      · exact ⟨rested.asleep, rested.gone⟩
      · exact rested
    · exact rested

end

/-! ## Phases -/

theorem Phased.of_workers (phased : owner.Phased) (count : after.workerCount = owner.workerCount)
    (length : after.workers.length = owner.workers.length)
    (starting : after.starting = owner.starting) (started : after.started = owner.started)
    (finishing : after.finishing = owner.finishing) (finished : after.finished = owner.finished)
    (kept : (∀ worker ∈ owner.workers, worker = .exited) →
      ∀ worker ∈ after.workers, worker = .exited) : after.Phased := by
  refine ⟨by rw [count]; exact phased.positive, ?_, ?_, ?_, ?_, ?_, ?_⟩
  · grind [cases RequestQueue.Phased]
  · rw [starting, length, count]
    exact phased.creating
  · rw [starting, length, count]
    exact phased.succeeded
  · rw [finished, starting]
    exact fun done => ⟨(phased.joined done).1, kept (phased.joined done).2⟩
  · rw [finishing, starting]
    exact phased.finishes
  · rw [finishing, finished]
    exact phased.returned

theorem Phased.finishing_idle (phased : owner.Phased) (other : owner.starting ≠ .succeeded) :
    owner.finishing = .idle := by
  by_contra active
  exact other (phased.finishes active)

theorem exited_broadcast (all : ∀ worker ∈ owner.workers, worker = .exited) :
    ∀ worker ∈ owner.broadcast.workers, worker = .exited := by
  intro worker member
  simp only [broadcast, mem_map] at member
  rcases member with ⟨old, member, rfl⟩
  rw [all old member]
  rfl

section

variable (phased : owner.Phased)

include phased

theorem Phased.broadcast : owner.broadcast.Phased :=
  phased.of_workers rfl (length_workers_broadcast owner) rfl rfl rfl rfl exited_broadcast

theorem Phased.setWorker {old : Worker}
    (present : owner.workers[index]? = some old) (alive : old ≠ .exited) (new : Worker) :
    (owner.setWorker index new).Phased :=
  phased.of_workers rfl (by simp [RequestQueue.setWorker]) rfl rfl rfl rfl
    fun all => absurd (all old (mem_of_getElem? present)) alive

theorem Phased.worked (worked : Worked owner index after) : after.Phased := by
  cases worked with
  | elsewhere => exact phased
  | exits awake => exact phased.setWorker awake (by simp) _
  | waits awake => exact phased.setWorker awake (by simp) _
  | takes awake entry =>
    exact phased.of_workers rfl (by simp) rfl rfl rfl rfl
      fun all => absurd (all _ (mem_of_getElem? awake)) (by simp)

theorem Phased.callbackReturn (index : Nat) : (owner.callbackReturn index).Phased := by
  unfold RequestQueue.callbackReturn
  split
  · rename_i entry present
    refine phased.of_workers rfl ?_ rfl rfl rfl rfl
      fun all => absurd (all _ (mem_of_getElem? present)) (by simp)
    exact (length_workers_broadcast _).trans (length_set ..)
  · exact phased

theorem Phased.requestStop : owner.requestStop.Phased :=
  Phased.broadcast (phased.of_workers rfl rfl rfl rfl rfl rfl id)

theorem Phased.submit (work : Nat) (key : Text) : (owner.submit work key).1.Phased := by
  simp only [RequestQueue.submit]
  split
  · exact phased.of_workers rfl rfl rfl rfl rfl rfl id
  split
  · split
    · exact phased.of_workers rfl rfl rfl rfl rfl rfl id
    · exact phased.of_workers rfl rfl rfl rfl rfl rfl id
  · exact Phased.broadcast (phased.of_workers rfl rfl rfl rfl rfl rfl id)

theorem Phased.createWorker : owner.createWorker.Phased := by
  unfold RequestQueue.createWorker
  split
  · rename_i creating
    have room := phased.creating creating
    have idle := phased.finishing_idle (by simp [creating])
    have unfinished : owner.finished ≠ true := fun done => by
      have ended := (phased.joined done).1
      simp [creating] at ended
    have started : owner.started ≠ false := fun unstarted => by
      have fresh := (phased.idle unstarted).1
      rw [creating] at fresh
      contradiction
    by_cases full : (owner.workers ++ [Worker.awake]).length = owner.workerCount
    · simp only [full]
      exact ⟨phased.positive, fun unstarted => absurd unstarted started, by simp,
        fun _ => full, fun done => absurd done unfinished, fun _ => rfl, by simp [idle]⟩
    simp only [length_append, length_singleton] at full
    exact ⟨phased.positive, fun unstarted => absurd unstarted started,
      fun _ => by simp; omega, by simp, fun done => absurd done unfinished, by simp [idle],
      by simp [idle]⟩
  · exact phased

theorem Phased.start : owner.start.Phased := by
  unfold RequestQueue.start
  split
  · exact phased
  rename_i fresh
  simp only [Bool.or_eq_true, not_or, Bool.not_eq_true] at fresh
  have none := phased.idle fresh.1
  have idle := phased.finishing_idle (by simp [none.1])
  refine ⟨phased.positive, by simp, fun _ => by simpa [none.2] using phased.positive, by simp,
    fun done => ?_, by simp [idle], by simp [idle]⟩
  have ended := (phased.joined done).1
  simp [none.1] at ended

theorem Phased.createFailure : owner.createFailure.Phased := by
  unfold RequestQueue.createFailure
  split
  · rename_i creating
    have idle := phased.finishing_idle (by simp [creating])
    refine ⟨phased.positive, fun unstarted => ?_, by simp, by simp, fun done => ?_,
      fun active => absurd idle active, fun returned => ?_⟩
    · have fresh := (phased.idle unstarted).1
      rw [creating] at fresh
      contradiction
    · have ended := (phased.joined done).1
      simp [creating] at ended
    · have ended : owner.finishing = .returned := returned
      rw [idle] at ended
      contradiction
  · exact phased

theorem Phased.finish : owner.finish.Phased := by
  unfold RequestQueue.finish
  split
  · rename_i succeeded
    have stopped := phased.requestStop
    refine { stopped with finishes := fun _ => succeeded, returned := fun returned => ?_ }
    change owner.finished = true
    by_contra unfinished
    simp [unfinished] at returned
  · exact phased

theorem Phased.joinWorkers : owner.joinWorkers.Phased := by
  unfold RequestQueue.joinWorkers
  split
  · rename_i exited
    have all : ∀ worker ∈ owner.workers, worker = .exited := by simpa using exited
    split
    · rename_i joining
      have idle := phased.finishing_idle (by simp [joining])
      refine ⟨phased.positive, fun unstarted => ?_, by simp, by simp, fun _ => ⟨.inr rfl, all⟩,
        by simp [idle], by simp⟩
      have fresh := (phased.idle unstarted).1
      rw [joining] at fresh
      contradiction
    · split
      · rename_i joining
        have succeeded := phased.finishes (by simp [joining])
        exact { phased with
          joined := fun _ => ⟨.inl succeeded, all⟩
          finishes := fun _ => succeeded
          returned := fun _ => rfl }
      · exact phased
  · exact phased

theorem Phased.step (action : QueueAction) : (owner.step action).Phased := by
  cases action with
  | submit work key => exact phased.submit work key
  | start => exact phased.start
  | createWorker => exact phased.createWorker
  | createFailure => exact phased.createFailure
  | work index => exact phased.worked (work_worked owner index)
  | spuriousWake index =>
    simp only [RequestQueue.step, RequestQueue.spuriousWake]
    split
    · rename_i present
      exact phased.setWorker present (by simp) _
    · exact phased
  | callbackReturn index => exact phased.callbackReturn index
  | requestStop => exact phased.requestStop
  | finish => exact phased.finish
  | joinWorkers => exact phased.joinWorkers

end

end RequestQueue

end Yvex.Server
