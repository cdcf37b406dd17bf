import Yvex.Runtime.Batches

namespace Yvex.Runtime

open List Option Yvex.Except

/-! # Runs of the batch scheduler

Every submitted ticket is in exactly one place: on the queue, in the batch of the worker, or among
the completed ones. The references and producers of the model engine keep the scheduler open while
a submit is in progress, so a submit returns with its ticket completed and nothing uses the
scheduler after it is freed. -/

/-! ## Marked tickets -/

theorem getElem?_markAll (tickets : List BatchTicket) (serials : List Nat)
    (change : BatchTicket → BatchTicket) (serial : Nat) :
    (markAll tickets serials change)[serial]? =
      tickets[serial]?.map fun ticket => if serial ∈ serials then change ticket else ticket := by
  unfold markAll
  rw [getElem?_mapIdx]

@[simp] theorem length_markAll (tickets : List BatchTicket) (serials : List Nat)
    (change : BatchTicket → BatchTicket) :
    (markAll tickets serials change).length = tickets.length := by
  simp [markAll]

/-! ## Selection -/

def Divides (selection : BatchSelection) (queue : List Nat) : Prop :=
  ∀ serial, queue.count serial = selection.taken.count serial +
    selection.cancelled.count serial + selection.kept.count serial

section

variable (tickets : List BatchTicket) (cancels : Nat → Bool)

include tickets cancels

theorem count_dropCancelled (queue : List Nat) (serial : Nat) :
    queue.count serial = (dropCancelled tickets cancels queue).1.count serial +
      (dropCancelled tickets cancels queue).2.count serial := by
  induction queue with
  | nil => rfl
  | cons head queue induction => ?_
  unfold dropCancelled
  split
  · split
    · simp only [count_cons]
      omega
    · simp
  · simp

theorem divides_selectCompatible (key : CompatibilityKey) (rows : Nat) (queue : List Nat) :
    Divides (selectCompatible tickets cancels key rows queue) queue := by
  intro serial
  induction queue generalizing rows with
  | nil => rfl
  | cons head queue induction => ?_
  unfold selectCompatible
  split
  · grind
  · simp only [count_cons, induction rows]
    omega

theorem divides_schedulerSelect (queue : List Nat) : Divides
    (schedulerSelect tickets cancels queue) queue := by
  intro serial
  have dropped := count_dropCancelled tickets cancels queue serial
  unfold schedulerSelect
  dsimp only
  split
  · rename_i rest
    rw [rest] at dropped
    simpa using dropped
  rename_i first behind rest
  rw [rest] at dropped
  split
  · rename_i ticket _
    have scanned := divides_selectCompatible tickets cancels ticket.request.key
      ticket.request.rowCount behind serial
    simp only [count_cons, count_append] at dropped ⊢
    omega
  · simpa using dropped

end

/-! ## Completions -/

def Completion.count (serial : Nat) : Completion → Nat
  | .executed serials _ => serials.count serial
  | .cancelled serials => serials.count serial

section

variable (completions : List Completion)

def completed (serial : Nat) : Nat := total (Completion.count serial) completions

def Succeeded (serial : Nat) : Prop :=
  ∃ serials, .executed serials .ok ∈ completions ∧ serial ∈ serials

theorem completed_append (event : Completion) (serial : Nat) :
    completed (completions ++ [event]) serial = completed completions serial + event.count serial :=
  total_append _ _ _

end

theorem Succeeded.append (succeeded : Succeeded completions serial) (event : Completion) :
    Succeeded (completions ++ [event]) serial := by
  rcases succeeded with ⟨serials, member, inside⟩
  exact ⟨serials, mem_append_left _ member, inside⟩

/-! ## The invariant -/

namespace BatchWorld

/-- The model engine counts the producers and gives the scheduler up only without one. -/
structure Sound (world : BatchWorld) : Prop where
  placed : ∀ serial, world.scheduler.queue.count serial + world.worker.selected.count serial +
    completed world.completions serial =
      if serial < world.scheduler.tickets.length then 1 else 0
  done : ∀ {serial : Nat} {ticket}, world.scheduler.tickets[serial]? = some ticket →
    (ticket.done = true ↔ completed world.completions serial = 1)
  executed : ∀ {serial : Nat} {ticket}, world.scheduler.tickets[serial]? = some ticket →
    ticket.done = true → ticket.status = .ok → Succeeded world.completions serial
  returned : ∀ {serial status}, (serial, status) ∈ world.returned →
    completed world.completions serial = 1 ∧ (status = .ok → Succeeded world.completions serial)
  producers : ∃ producers : List Nat, producers.Nodup ∧ producers.length = world.producers ∧
    ∀ thread, thread ∈ producers ↔ (world.threads thread).producer = true
  waiting : ∀ {serial}, serial ∈ world.scheduler.queue ∨ serial ∈ world.worker.selected →
    ∃ thread, world.threads thread = .submitted serial
  detached : world.attached = false → world.producers = 0
  closer : ∀ thread, (world.threads thread).closer = true →
    world.attached = false ∧ world.freed = false ∧
      ∀ other, (world.threads other).closer = true → other = thread
  stopped : world.scheduler.stopping = true →
    world.scheduler.queue = [] ∧ world.worker.selected = []
  freed : world.freed = true → world.attached = false ∧ world.worker = .exited
  faultless : world.faulted = false

theorem sound_opened (queueCapacity sequenceCapacity thread : Nat) :
    (opened queueCapacity sequenceCapacity thread).Sound := by
  refine ⟨fun _ => rfl, nofun, nofun, nofun, ⟨[], nodup_nil, rfl, ?_⟩, ?_, nofun, ?_, nofun, nofun,
    rfl⟩ <;> simp only [opened, Function.update_apply, WorkerActivity.selected] <;>
    grind [BatchActivity.producer, BatchActivity.closer]

section

variable {world : BatchWorld} (sound : world.Sound)

include sound

theorem Sound.gone (once : completed world.completions serial = 1) :
    serial ∉ world.scheduler.queue ∧ serial ∉ world.worker.selected := by
  have placed := sound.placed serial
  simp only [← count_eq_zero]
  split at placed <;> omega

/-- Behind the final release no context is in a turn. -/
theorem Sound.idle (detached : world.attached = false) (thread : Nat) :
    (world.threads thread).producer = false := by
  grind [cases BatchWorld.Sound]

theorem Sound.empty (detached : world.attached = false) :
    world.scheduler.queue = [] ∧ world.worker.selected = [] := by
  have none : ∀ serial, ¬(serial ∈ world.scheduler.queue ∨ serial ∈ world.worker.selected) := by
    intro serial member
    obtain ⟨thread, submitted⟩ := sound.waiting member
    have idle := sound.idle detached thread
    rw [submitted] at idle
    cases idle
  simp only [not_or] at none
  exact ⟨eq_nil_iff_forall_not_mem.mpr fun serial => (none serial).1,
    eq_nil_iff_forall_not_mem.mpr fun serial => (none serial).2⟩

/-! ### The worker -/

section

variable (live : world.freed = false)

include live

theorem Sound.complete (serials : List Nat) (change : BatchTicket → BatchTicket)
    {scheduler : BatchScheduler} {worker : WorkerActivity} {event : Completion}
    (divided : ∀ serial, world.scheduler.queue.count serial + world.worker.selected.count serial =
      serials.count serial + scheduler.queue.count serial + worker.selected.count serial)
    (counts : ∀ serial, event.count serial = serials.count serial)
    (done : ∀ ticket, (change ticket).done = true)
    (status : ∀ ticket, (change ticket).status = .ok → event = .executed serials .ok)
    (marked : scheduler.tickets.map (fun ticket => (ticket.done, ticket.status)) =
      (markAll world.scheduler.tickets serials change).map
        fun ticket => (ticket.done, ticket.status))
    (stopping : scheduler.stopping = true → world.scheduler.stopping = true ∨
      scheduler.queue = [] ∧ worker.selected = []) :
    Sound { world with scheduler, worker, completions := world.completions ++ [event] } := by
  have before : ∀ {serial : Nat} {ticket}, scheduler.tickets[serial]? = some ticket →
      ∃ old, world.scheduler.tickets[serial]? = some old ∧
        ticket.done = (if serial ∈ serials then change old else old).done ∧
        ticket.status = (if serial ∈ serials then change old else old).status := by
    intro serial ticket present
    have same := congrArg (·[serial]?) marked
    simp only [getElem?_map, getElem?_markAll, present] at same
    rcases old : world.scheduler.tickets[serial]? with _ | ticket'
    · rw [old] at same
      cases same
    · grind
  have length : scheduler.tickets.length = world.scheduler.tickets.length := by
    simpa using congrArg List.length marked
  have once : ∀ {serial}, completed world.completions serial = 1 →
      completed (world.completions ++ [event]) serial = 1 := by
    intro serial once
    have placed := sound.placed serial
    have parts := divided serial
    rw [completed_append, counts]
    split at placed <;> omega
  refine { sound with
    placed := fun serial => ?_
    done := fun {serial ticket} present => ?_
    executed := fun {serial ticket} present isDone isOk => ?_
    returned := fun member => ⟨once (sound.returned member).1,
      fun isOk => ((sound.returned member).2 isOk).append event⟩
    waiting := fun {serial} member => ?_
    stopped := fun stops => ?_
    freed := fun freed => absurd (live.symm.trans freed) Bool.false_ne_true }
  · have placed := sound.placed serial
    have parts := divided serial
    simp only [completed_append, counts, length]
    omega
  · rcases before present with ⟨old, held, isDone, _⟩
    have bound : serial < world.scheduler.tickets.length := index_lt held
    have placed := sound.placed serial
    have parts := divided serial
    rw [if_pos bound] at placed
    rw [isDone, completed_append, counts]
    by_cases member : serial ∈ serials
    · grind
    · rw [if_neg member, sound.done held, count_eq_zero.mpr member]
      rfl
  · rcases before present with ⟨old, held, done', status'⟩
    by_cases member : serial ∈ serials
    · rw [status', if_pos member] at isOk
      exact ⟨serials, by rw [status old isOk]; simp, member⟩
    · rw [done', if_neg member] at isDone
      rw [status', if_neg member] at isOk
      exact (sound.executed held isDone isOk).append event
  · refine sound.waiting ?_
    have parts := divided serial
    simp only [← count_pos_iff] at member ⊢
    omega
  · rcases stopping stops with stopped | empty
    · have empty := sound.stopped stopped
      have none : ∀ serial, scheduler.queue.count serial = 0 ∧ worker.selected.count serial = 0 := by
        grind
      simp only [count_eq_zero] at none
      exact ⟨eq_nil_iff_forall_not_mem.mpr fun serial => (none serial).1,
        eq_nil_iff_forall_not_mem.mpr fun serial => (none serial).2⟩
    · exact empty

variable (free : world.worker.selected = [])

include free

theorem Sound.select (cancels : Nat → Bool) : (world.select cancels).Sound := by
  have divided := divides_schedulerSelect world.scheduler.tickets cancels world.scheduler.queue
  refine sound.complete live
    (schedulerSelect world.scheduler.tickets cancels world.scheduler.queue).cancelled
    BatchTicket.cancel ?_ (fun _ => rfl) (fun _ => rfl) (fun _ isOk => by cases isOk) ?_ .inl
  · intro serial
    rw [free, divided serial]
    split
    · rename_i none
      simp only [none, WorkerActivity.selected, count_nil]
      omega
    · simp only [WorkerActivity.selected, count_nil]
      omega
  · refine ext_getElem? fun serial => ?_
    rw [getElem?_map, getElem?_markAll, getElem?_map, Option.map_map]
    refine congrFun (congrArg Option.map ?_) _
    funext ticket
    simp only [Function.comp_apply]
    split <;> rfl

theorem Sound.rest (worker : WorkerActivity) (idle : worker.selected = []) :
    Sound { world with worker } := by
  have same : worker.selected = world.worker.selected := idle.trans free.symm
  exact { sound with
    placed := same ▸ sound.placed
    waiting := same ▸ sound.waiting
    stopped := same ▸ sound.stopped
    freed := fun freed => absurd (live.symm.trans freed) Bool.false_ne_true }

omit live free in
theorem Sound.settled :
    Sound { world with scheduler := { world.scheduler with producerArrivalFloor := 0 } } :=
  { sound with }

theorem Sound.gather (clock : Bool) (cancels : Nat → Bool) :
    (world.gather clock cancels).Sound := by
  unfold BatchWorld.gather
  dsimp only
  split
  · exact sound.select live free cancels
  split
  · exact sound.rest live free _ rfl
  · exact sound.settled.select live free cancels

omit free in
theorem Sound.workerStep (step : BatchStep) : (world.workerStep step).Sound := by
  unfold BatchWorld.workerStep
  split
  · split
    · rename_i opening
      have free : world.worker.selected = [] := by
        rw [opening]
        rfl
      split
      · exact sound.rest live free _ rfl
      · exact sound.complete live world.scheduler.queue BatchTicket.cancel
          (fun serial => by rw [free]; rfl) (fun _ => rfl) (fun _ => rfl)
          (fun _ isOk => by cases isOk) rfl fun _ => .inr ⟨rfl, rfl⟩
    · exact sound
  · split
    · rename_i ready
      have free : world.worker.selected = [] := by
        rw [ready]
        rfl
      split
      · split
        · exact sound.rest live free _ rfl
        · exact sound
      · exact sound.gather live free _ _
    · exact sound
  · split
    · rename_i coalescing
      split
      · exact sound
      refine sound.settled.select live ?_ _
      rw [coalescing]
      rfl
    · exact sound
  · split
    · rename_i status failure _ selected executing
      refine sound.complete live selected (BatchTicket.finish status failure) ?_ (fun _ => rfl)
        (fun _ => rfl) (fun _ isOk => congrArg (Completion.executed selected) isOk) rfl .inl
      intro serial
      rw [executing]
      simp only [WorkerActivity.selected, count_nil]
      omega
    · exact sound
  · exact sound

end

/-! ### The contexts -/

section

variable (thread : Nat) (activity : BatchActivity)

/-- A thread that is in a turn before and after, or in none. -/
theorem Sound.move (attached : world.attached = true)
    (producer : activity.producer = (world.threads thread).producer)
    (closer : activity.closer = false)
    (waits : ∀ serial, world.threads thread = .submitted serial →
      serial ∉ world.scheduler.queue ∧ serial ∉ world.worker.selected) :
    (world.setThread thread activity).Sound := by
  obtain ⟨_, _, _, _, producers, waiting, _, closers, _, _, _⟩ := id sound
  refine { sound with producers := ?_, waiting := ?_, closer := ?_ } <;>
    simp only [setThread, Function.update_apply] <;> grind

theorem Sound.setProducers (count : Nat) (attached : world.attached = true)
    (closer : activity.closer = false)
    (waits : ∀ serial, world.threads thread ≠ .submitted serial)
    (producer : activity.producer = !(world.threads thread).producer)
    (counted : count = if activity.producer then world.producers + 1 else world.producers - 1) :
    (world.setProducers count thread activity).Sound := by
  unfold BatchWorld.setProducers
  split
  · rename_i changed ran
    unfold BatchScheduler.setProducers at ran
    simp only [bind_eq_ok] at ran
    rcases ran with ⟨_, _, made⟩
    cases made
    obtain ⟨_, _, _, _, ⟨producers, nodup, length, member⟩, waiting, _, closers, _, _, _⟩ := id sound
    refine { sound with producers := ?_, waiting := ?_, detached := ?_, closer := ?_ }
    · cases enters : activity.producer with
      | true =>
        refine ⟨thread :: producers, ?_, ?_, ?_⟩ <;> simp [setThread, Function.update_apply] <;>
          grind
      | false =>
        refine ⟨producers.erase thread, nodup.erase _, ?_, fun other => ?_⟩
        · rw [length_erase_of_mem ((member thread).mpr (by grind)), length, counted, enters]
          rfl
        · rw [nodup.mem_erase_iff, member]
          simp only [setThread, Function.update_apply]
          grind
    all_goals simp only [setThread, Function.update_apply]; grind
  · exact sound

end

variable {thread : Nat}

theorem Sound.submit (producing : world.threads thread = .producing)
    (ran : world.scheduler.submit request = .ok (serial, queued)) :
    Sound { world.setThread thread (.submitted serial) with scheduler := queued } := by
  unfold BatchScheduler.submit at ran
  simp only [bind_eq_ok, require_eq_ok, Bool.not_eq_true'] at ran
  rcases ran with ⟨_, _, _, _, _, working, made⟩
  cases made
  have fresh := sound.placed world.scheduler.tickets.length
  rw [if_neg (lt_irrefl _)] at fresh
  have present : ∀ {place : Nat} {ticket},
      (world.scheduler.tickets ++ [{ request := request }])[place]? = some ticket →
        world.scheduler.tickets[place]? = some ticket ∨
          place = world.scheduler.tickets.length ∧ ticket = { request := request } := by
    grind
  obtain ⟨_, _, _, _, producers, waiting, _, closers, _, _, _⟩ := id sound
  refine { sound with
    placed := fun place => ?_
    done := fun held => ?_
    executed := fun held isDone => ?_
    producers := ?_
    waiting := ?_
    closer := ?_
    stopped := fun stopping => absurd (working.symm.trans stopping) Bool.false_ne_true }
  · have placed := sound.placed place
    simp only [setThread, count_append, count_singleton, length_append, length_singleton]
    grind
  · rcases present held with old | ⟨rfl, rfl⟩
    · exact sound.done old
    · simp only [Bool.false_eq_true, false_iff]
      change ¬completed world.completions _ = 1
      omega
  · rcases present held with old | ⟨_, rfl⟩
    · exact sound.executed old isDone
    · cases isDone
  all_goals
    simp only [setThread, Function.update_apply, mem_append, mem_singleton]
    grind [BatchActivity.producer, BatchActivity.closer]

/-- A return leaves a completed ticket: one that is done, or any once the scheduler stops. -/
theorem Sound.answer {status : Status} {failure : Option Rejection}
    (ended : world.scheduler.submitReturn serial = some (status, failure)) :
    completed world.completions serial = 1 ∧
      (status = .ok → Succeeded world.completions serial) := by
  unfold BatchScheduler.submitReturn at ended
  split at ended
  · rename_i ticket held
    split at ended
    · cases ended
    rename_i waits
    by_cases isDone : ticket.done = true
    · refine ⟨(sound.done held).mp isDone, fun isOk => sound.executed held isDone ?_⟩
      grind
    have stopping : world.scheduler.stopping = true := by
      by_contra working
      exact waits (by simp [isDone, working])
    rcases sound.stopped stopping with ⟨queue, selected⟩
    have placed := sound.placed serial
    rw [queue, selected, if_pos (index_lt held)] at placed
    exact ⟨by simpa using placed, by grind⟩
  · cases ended

theorem Sound.wake {status : Status} {failure : Option Rejection}
    (submitted : world.threads thread = .submitted serial)
    (ended : world.scheduler.submitReturn serial = some (status, failure)) :
    Sound { world.setThread thread .producing with
      returned := world.returned ++ [(serial, status)] } := by
  have answer := sound.answer ended
  have attached : world.attached = true := by
    by_contra detached
    have idle := sound.idle (Bool.not_eq_true _ ▸ detached) thread
    rw [submitted] at idle
    cases idle
  have moved := sound.move thread .producing attached (by rw [submitted]; rfl) rfl fun other same => by
    rw [submitted] at same
    cases same
    exact sound.gone answer.1
  refine { moved with returned := fun member => ?_ }
  rcases mem_append.mp member with earlier | last
  · exact sound.returned earlier
  · cases mem_singleton.mp last
    exact answer

theorem Sound.threadStep (step : BatchStep) :
    (world.threadStep thread (world.threads thread) step).Sound := by
  generalize held : world.threads thread = activity
  unfold BatchWorld.threadStep
  split
  · split
    · rename_i attached
      simp only [Bool.and_eq_true] at attached
      exact { sound.move thread .holding attached.1 (by rw [held]; rfl) rfl (by simp [held]) with }
    · exact sound
  · split
    · rename_i attached
      simp only [Bool.and_eq_true] at attached
      exact sound.setProducers thread .producing _ attached.1.1 rfl (by simp [held])
        (by rw [held]; rfl) rfl
    · exact sound
  · split
    · rename_i ran
      exact sound.submit held ran
    · exact sound
  · split
    · rename_i ended
      exact sound.wake held ended
    · exact sound
  · split
    · rename_i attached
      simp only [Bool.and_eq_true] at attached
      exact sound.setProducers thread .holding _ attached.1 rfl (by simp [held])
        (by rw [held]; rfl) rfl
    · exact sound
  · split
    · exact sound
    rename_i admitted
    simp only [Bool.or_eq_true, not_or, Bool.not_eq_true', Bool.not_eq_false] at admitted
    split
    · have quiet : world.producers = 0 := by grind
      obtain ⟨_, _, _, _, producers, waiting, _, closers, _, freed, _⟩ := id sound
      refine { sound with
        producers := ?_
        waiting := ?_
        detached := fun _ => quiet
        closer := ?_
        freed := ?_ } <;>
        simp only [setThread, Function.update_apply] <;>
        grind [BatchActivity.producer, BatchActivity.closer]
    · exact { sound.move thread .idle admitted.1.1 (by rw [held]; rfl) rfl (by simp [held]) with }
  · have closer := sound.closer thread (by rw [held]; rfl)
    obtain ⟨_, _, _, _, producers, waiting, _, closers, _, _, _⟩ := id sound
    refine { sound with
      producers := ?_
      waiting := ?_
      closer := ?_
      stopped := fun _ => sound.empty closer.1 } <;>
      simp only [setThread, Function.update_apply] <;>
      grind [BatchActivity.producer, BatchActivity.closer]
  · split
    · have closer := sound.closer thread (by rw [held]; rfl)
      obtain ⟨_, _, _, _, producers, waiting, _, closers, _, _, _⟩ := id sound
      refine { sound with producers := ?_, waiting := ?_, closer := ?_, freed := ?_ } <;>
        simp only [setThread, Function.update_apply] <;>
        grind [BatchActivity.producer, BatchActivity.closer]
    · exact sound
  · exact sound

/-- Nothing goes into a freed scheduler. -/
theorem Sound.untouched (freed : world.freed = true) (step : BatchStep) :
    world.touches step = false := by
  obtain ⟨detached, exited⟩ := sound.freed freed
  unfold touches
  split
  · grind [cases BatchWorld.Sound]
  · rw [exited]
    rfl

theorem Sound.step (step : BatchStep) : (world.step step).Sound := by
  unfold BatchWorld.step
  split
  · rename_i used
    rw [Bool.and_eq_true] at used
    rw [sound.untouched used.1] at used
    cases used.2
  split
  · exact sound.threadStep step
  cases freed : world.freed with
  | true =>
    have same : world.workerStep step = world := by
      unfold BatchWorld.workerStep
      rw [(sound.freed freed).2]
      split <;> rfl
    rwa [same]
  | false => exact sound.workerStep freed step

end

theorem sound_run (queueCapacity sequenceCapacity thread : Nat) (steps : List BatchStep) :
    ((opened queueCapacity sequenceCapacity thread).run steps).Sound :=
  foldlRecOn steps BatchWorld.step (sound_opened ..) fun _ sound step _ => sound.step step

end BatchWorld

/-! ## The contract of a submit -/

def plainBatchRequest : BatchRequest where
  key := ⟨3, .decode, .moe, 0, 0, 0, 1, 0, 1, 1⟩
  rowCount := 1
  executable := true
  cancellable := false

/-- Two contexts: the last reference is kept while its turn is under way. -/
example :
    let world := (BatchWorld.opened 2 2 0).run [.allocate true, .acquire 1, .enter 1,
      .submit 1 plainBatchRequest, .release 0, .release 1, .look false fun _ => false,
      .finish .ok none, .wake 1, .leave 1, .release 1, .close 1, .look true fun _ => false, .free 1]
    world.returned = [(0, .ok)] ∧ world.freed = true ∧ world.faulted = false :=
  ⟨rfl, rfl, rfl⟩

end Yvex.Runtime
