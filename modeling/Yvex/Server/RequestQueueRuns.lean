import Yvex.Server.RequestQueueInvariant

namespace Yvex.Server

open List

/-! # Runs of the request queue

What holds of the request queue after any interleaving of its threads, how long its workers can
go on without a new submission, and what they leave when they have come to rest. -/

namespace RequestQueue

structure Sound (owner : RequestQueue) : Prop where
  accounts : owner.Accounts
  rested : owner.Rested
  phased : owner.Phased

variable {owner : RequestQueue}

theorem Sound.opened {queueCapacity workerCount : Nat}
    (opens : requestQueueOpen queueCapacity workerCount = .ok owner) : owner.Sound := by
  simp only [requestQueueOpen, Except.bind_eq_ok, require_eq_ok, Bool.and_eq_true, bne_iff_ne,
    pure_eq_ok] at opens
  rcases opens with ⟨_, ⟨⟨⟨⟨_, positive⟩, _⟩, _⟩, _⟩, rfl⟩
  exact ⟨by constructor <;> simp [running], by constructor <;> simp,
    ⟨Nat.pos_of_ne_zero positive, by simp, by simp, by simp, by simp, by simp, by simp⟩⟩

theorem Sound.step (sound : owner.Sound) (action : QueueAction) : (owner.step action).Sound :=
  ⟨sound.accounts.step sound.phased action, sound.rested.step action, sound.phased.step action⟩

theorem Sound.run (sound : owner.Sound) (actions : List QueueAction) :
    (owner.run actions).Sound := by
  induction actions generalizing owner with
  | nil => exact sound
  | cons action actions induction => exact induction (sound.step action)

def Quiet (owner : RequestQueue) : Prop :=
  owner.workers ≠ [] ∧ ∀ worker ∈ owner.workers, worker = .waiting ∨ worker = .exited

theorem running_eq_nil (idle : ∀ worker ∈ owner.workers, worker = .waiting ∨ worker = .exited) :
    owner.running = [] := by
  rw [running, filterMap_eq_nil_iff]
  intro worker member
  rcases idle worker member with rfl | rfl <;> rfl

theorem Sound.queue_eq_nil (sound : owner.Sound) (quiet : owner.Quiet) : owner.queue = [] := by
  have idle := running_eq_nil quiet.2
  have active : owner.active = [] := by
    have same := sound.accounts.active
    rw [idle] at same
    exact same.eq_nil
  rcases exists_mem_of_ne_nil _ quiet.1 with ⟨worker, member⟩
  rcases quiet.2 worker member with rfl | rfl
  · by_contra nonempty
    rcases exists_mem_of_ne_nil _ nonempty with ⟨entry, queued⟩
    have blocked := (sound.rested.asleep member).1 entry queued
    simp [active] at blocked
  · exact (sound.rested.gone member).2

theorem Sound.accepted_perm (sound : owner.Sound) :
    owner.accepted.Perm (owner.completed ++ owner.running ++ owner.queue) :=
  sound.accounts.accepted.trans (sound.accounts.begun.append_right _)

theorem Sound.completed_perm (sound : owner.Sound) (quiet : owner.Quiet) :
    owner.completed.Perm owner.accepted := by
  have accepted := sound.accepted_perm
  rw [running_eq_nil quiet.2, sound.queue_eq_nil quiet, append_nil, append_nil]
    at accepted
  exact accepted.symm

theorem Sound.quiet_of_returned (sound : owner.Sound) (returned : owner.finishing = .returned) :
    owner.Quiet := by
  have phased := sound.phased
  have length := phased.succeeded (phased.finishes (by simp [returned]))
  have all := (phased.joined (phased.returned returned)).2
  refine ⟨fun empty => ?_, fun worker member => .inr (all worker member)⟩
  have positive := phased.positive
  rw [empty, length_nil] at length
  omega

def effort (crew : Nat) : Worker → Nat
  | .awake => 1
  | .waiting => 0
  | .running _ => crew + 2
  | .exited => 0

def toil (owner : RequestQueue) : Nat := owner.queue.length * (2 * owner.workers.length + 4) +
    total (effort owner.workers.length) owner.workers

theorem total_wake_le (crew : Nat) (workers : List Worker) :
    total (effort crew) (workers.map Worker.wake) ≤
      total (effort crew) workers + workers.length := by
  induction workers with
  | nil => exact le_rfl
  | cons worker workers induction => ?_
  have one : effort crew worker.wake ≤ effort crew worker + 1 := by
    cases worker <;> simp [effort, Worker.wake]
  rw [map_cons, total_cons, total_cons, length_cons]
  omega

theorem toil_lt_of_worked {after : RequestQueue} (worked : Worked owner index after)
    (awake : owner.workers[index]? = some .awake) : after.toil < owner.toil := by
  have changed := total_set (effort owner.workers.length) owner.workers awake
  cases worked with
  | elsewhere busy => exact absurd awake busy
  | exits =>
    have exits := changed .exited
    simp only [effort, toil, setWorker, length_set] at exits ⊢
    omega
  | waits =>
    have waits := changed .waiting
    simp only [effort, toil, setWorker, length_set] at waits ⊢
    omega
  | takes _ entry front rest equal =>
    have takes := changed (.running entry)
    simp only [effort, toil, length_set, equal, length_append, length_cons] at takes ⊢
    have weight : (front.length + (rest.length + 1)) * (2 * owner.workers.length + 4) =
        (front.length + rest.length) * (2 * owner.workers.length + 4) +
          (2 * owner.workers.length + 4) := by
      rw [← add_assoc, Nat.add_one_mul]
    omega

theorem toil_callbackReturn_lt (present : owner.workers[index]? = some (.running entry)) :
    (owner.callbackReturn index).toil < owner.toil := by
  have changed := total_set (effort owner.workers.length) owner.workers present .awake
  have woken := total_wake_le owner.workers.length (owner.workers.set index .awake)
  simp only [callbackReturn, present, toil, broadcast, releaseLocked, setWorker, length_map,
    length_set, effort] at changed woken ⊢
  omega

inductive Moves (owner : RequestQueue) : QueueAction → Prop
  | work {index : Nat} (awake : owner.workers[index]? = some .awake) : Moves owner (.work index)
  | callbackReturn {index : Nat} {entry : QueueEntry}
      (present : owner.workers[index]? = some (.running entry)) :
      Moves owner (.callbackReturn index)

theorem toil_step_lt (moves : owner.Moves action) : (owner.step action).toil < owner.toil := by
  cases moves with
  | work awake => exact toil_lt_of_worked (work_worked _ _) awake
  | callbackReturn present => exact toil_callbackReturn_lt present

def Driven : RequestQueue → List QueueAction → Prop
  | _, [] => True
  | owner, action :: actions => owner.Moves action ∧ Driven (owner.step action) actions

theorem length_le_toil (driven : owner.Driven actions) : actions.length ≤ owner.toil := by
  induction actions generalizing owner with
  | nil => exact Nat.zero_le _
  | cons action actions induction => ?_
  have less := toil_step_lt driven.1
  have rest := induction driven.2
  rw [length_cons]
  omega

theorem quiet_of_stuck (crew : owner.workers ≠ []) (stuck : ∀ action, ¬ owner.Moves action) :
    owner.Quiet := by
  refine ⟨crew, fun worker member => ?_⟩
  rcases mem_iff_getElem?.mp member with ⟨index, present⟩
  cases worker with
  | awake => exact absurd (.work present) (stuck _)
  | waiting => exact .inl rfl
  | running entry => exact absurd (.callbackReturn present) (stuck _)
  | exited => exact .inr rfl

theorem Sound.running_keys (sound : owner.Sound) {first second : Nat}
    (apart : first ≠ second) (runs : owner.workers[first]? = some (.running entry))
    (also : owner.workers[second]? = some (.running other)) : entry.key ≠ other.key := by
  have distinct : (owner.running.map (·.key)).Nodup :=
    sound.accounts.active.nodup_iff.mp sound.accounts.distinct
  rw [running, List.Nodup, pairwise_map, pairwise_filterMap, pairwise_iff_getElem] at distinct
  rcases List.getElem?_eq_some_iff.mp runs with ⟨firstBound, firstEqual⟩
  rcases List.getElem?_eq_some_iff.mp also with ⟨secondBound, secondEqual⟩
  rcases Nat.lt_or_gt_of_ne apart with before | behind
  · exact distinct first second firstBound secondBound before entry (by rw [firstEqual]; rfl)
      other (by rw [secondEqual]; rfl)
  · exact (distinct second first secondBound firstBound behind other (by rw [secondEqual]; rfl)
      entry (by rw [firstEqual]; rfl)).symm

theorem Sound.begun_serials (sound : owner.Sound) : (owner.begun.map (·.serial)).Nodup ∧
      (∀ entry ∈ owner.begun, entry ∈ owner.accepted ∧ entry.serial ∉ owner.refused) := by
  grind [cases RequestQueue.Sound, cases RequestQueue.Accounts]

theorem Sound.active_le (sound : owner.Sound) : owner.active.length ≤ owner.workerCount := by
  have length := sound.accounts.active.length_eq
  have fewer := length_filterMap_le Worker.entry owner.workers
  have crew := sound.accounts.crew
  rw [length_map, running] at length
  omega

theorem step_bounds (owner : RequestQueue) (action : QueueAction) :
    (owner.step action).queueCapacity = owner.queueCapacity ∧
      (owner.step action).workerCount = owner.workerCount := by
  cases action with
  | submit work key =>
    simp only [step, submit]
    split
    · exact ⟨rfl, rfl⟩
    split
    · split <;> exact ⟨rfl, rfl⟩
    · exact ⟨rfl, rfl⟩
  | start =>
    simp only [step, start]
    split <;> exact ⟨rfl, rfl⟩
  | createWorker =>
    simp only [step, createWorker]
    split <;> exact ⟨rfl, rfl⟩
  | createFailure =>
    simp only [step, createFailure]
    split <;> exact ⟨rfl, rfl⟩
  | work index =>
    have worked := work_worked owner index
    simp only [step]
    generalize owner.work index = after at worked
    cases worked <;> exact ⟨rfl, rfl⟩
  | spuriousWake index =>
    simp only [step, spuriousWake]
    split <;> exact ⟨rfl, rfl⟩
  | callbackReturn index =>
    simp only [step, callbackReturn]
    split <;> exact ⟨rfl, rfl⟩
  | requestStop => exact ⟨rfl, rfl⟩
  | finish =>
    simp only [step, finish]
    split <;> exact ⟨rfl, rfl⟩
  | joinWorkers =>
    simp only [step, joinWorkers]
    split
    · split
      · exact ⟨rfl, rfl⟩
      · split <;> exact ⟨rfl, rfl⟩
    · exact ⟨rfl, rfl⟩

theorem run_bounds {queueCapacity workerCount : Nat} {opened : RequestQueue}
    (opens : requestQueueOpen queueCapacity workerCount = .ok opened) (actions : List QueueAction) :
    (opened.run actions).queueCapacity = queueCapacity ∧
      (opened.run actions).workerCount = workerCount := by
  have kept (owner : RequestQueue) : (owner.run actions).queueCapacity = owner.queueCapacity ∧
      (owner.run actions).workerCount = owner.workerCount := by
    induction actions generalizing owner with
    | nil => exact ⟨rfl, rfl⟩
    | cons action actions induction => ?_
    have later := induction (owner.step action)
    have now := step_bounds owner action
    exact ⟨later.1.trans now.1, later.2.trans now.2⟩
  simp only [requestQueueOpen, Except.bind_eq_ok, pure_eq_ok] at opens
  rcases opens with ⟨_, _, rfl⟩
  exact kept _

/-- Across every interleaving of submitters, workers, start, stop and finish: no two callbacks
run for equal keys, entries of one key are begun in the order of their submission, nothing but
an accepted entry is begun and none twice, the queue and the active keys stay within their
bounds, and every accepted entry is queued, running or completed. The workers come to rest on
their own with every accepted entry completed, and so they are found when finish returns. -/
theorem run_serializes {queueCapacity workerCount : Nat} {opened : RequestQueue}
    (opens : requestQueueOpen queueCapacity workerCount = .ok opened) (actions : List QueueAction) :
    (∀ (first second : Nat) (entry other : QueueEntry), first ≠ second →
        (opened.run actions).workers[first]? = some (.running entry) →
        (opened.run actions).workers[second]? = some (.running other) → entry.key ≠ other.key) ∧
      ((opened.run actions).begun.Pairwise fun first second =>
        first.key = second.key → first.serial < second.serial) ∧
      ((opened.run actions).begun.map (·.serial)).Nodup ∧
      (∀ entry ∈ (opened.run actions).begun, entry ∈ (opened.run actions).accepted ∧
        entry.serial ∉ (opened.run actions).refused) ∧
      (opened.run actions).accepted.Perm ((opened.run actions).completed ++
        (opened.run actions).running ++ (opened.run actions).queue) ∧
      (opened.run actions).queue.length ≤ queueCapacity ∧
      (opened.run actions).active.length ≤ workerCount ∧ (opened.run actions).active.Nodup ∧
      (∀ more, (opened.run actions).Driven more → more.length ≤ (opened.run actions).toil) ∧
      ((opened.run actions).workers ≠ [] → (∀ action, ¬ (opened.run actions).Moves action) →
        (opened.run actions).queue = [] ∧
          (opened.run actions).completed.Perm (opened.run actions).accepted) ∧
      ((opened.run actions).finishing = .returned → (opened.run actions).queue = [] ∧
          (opened.run actions).completed.Perm (opened.run actions).accepted) := by
  have sound := (Sound.opened opens).run actions
  have bounds := run_bounds opens actions
  have serials := sound.begun_serials
  refine ⟨fun _ _ _ _ apart runs also => sound.running_keys apart runs also,
    (pairwise_append.mp sound.accounts.ordered).1, serials.1, serials.2,
    sound.accepted_perm, bounds.1 ▸ sound.accounts.capacity, bounds.2 ▸ sound.active_le,
    sound.accounts.distinct,
    fun _ driven => length_le_toil driven, fun crew stuck => ?_, fun returned => ?_⟩
  · have quiet := quiet_of_stuck crew stuck
    exact ⟨sound.queue_eq_nil quiet, sound.completed_perm quiet⟩
  · have quiet := sound.quiet_of_returned returned
    exact ⟨sound.queue_eq_nil quiet, sound.completed_perm quiet⟩

/-- Two entries of one key, taken by two workers one after the other while the queue is being
stopped. -/
theorem run_serializes_two_workers : ∃ opened, requestQueueOpen 2 2 = .ok opened ∧
      (opened.run [.start, .createWorker, .createWorker, .submit 7 ['a'], .submit 8 ['a'],
        .work 0, .work 1, .finish, .work 1, .callbackReturn 0, .work 1, .work 0,
        .callbackReturn 1, .work 0, .work 1, .joinWorkers]).finishing = .returned ∧
      (opened.run [.start, .createWorker, .createWorker, .submit 7 ['a'], .submit 8 ['a'],
        .work 0, .work 1, .finish, .work 1, .callbackReturn 0, .work 1, .work 0,
        .callbackReturn 1, .work 0, .work 1, .joinWorkers]).queue = [] :=
  have opens : requestQueueOpen 2 2 = .ok
      { queueCapacity := 2, workerCount := 2, queue := [], active := [], workers := [],
        started := false, stopping := false, finished := false, starting := .idle,
        finishing := .idle, submissions := 0, accepted := [], refused := [], begun := [],
        completed := [] } := by decide
  ⟨_, opens, by decide, ((run_serializes opens _).2.2.2.2.2.2.2.2.2.2 (by decide)).1⟩

end RequestQueue

end Yvex.Server
