import Yvex.Runtime.ProgressInvariant

namespace Yvex.Runtime

open Function List

/-! # Steps of the progress scheduler

Every step of every thread keeps the invariant of the scheduler and leaves no work waiting that
could run. -/

namespace ProgressScheduler

section

variable {scheduler after : ProgressScheduler} {issued : List ProgressLease}
  {lease : ProgressLease} {work : ProgressWork} {cancels : Nat → Nat → Bool}

structure Settled (scheduler : ProgressScheduler) (issued : List ProgressLease) : Prop where
  sound : scheduler.Sound issued
  satisfied : scheduler.Satisfied

theorem progressSlot_eq_some (found : scheduler.progressSlot lease = some work) :
    Occupies scheduler.slots lease.slot work ∧ work.generation = lease.generation := by
  unfold progressSlot at found
  split at found
  · cases found
  split at found
  · rename_i taken
    split at found
    · rename_i same
      cases found
      exact ⟨taken, same⟩
    · cases found
  · cases found

theorem Sound.stale (sound : scheduler.Sound issued) (given : issued[serial]? = some lease)
    (found : scheduler.progressSlot lease = some work) :
    work.serial = serial ∨ serial + u64Max ≤ work.serial := by
  rcases progressSlot_eq_some found with ⟨taken, same⟩
  have recorded : (issued.map ProgressLease.slot)[serial]? = some lease.slot := by
    rw [getElem?_map, given]
    rfl
  have ordered := sound.tagged.latest taken.serialAt serial recorded
  rw [sound.generation taken, (sound.leases serial lease given).1] at same
  exact eq_or_turn_of_generationOf ordered same.symm

structure Entered (scheduler : ProgressScheduler) (issued : List ProgressLease)
    (lease : ProgressLease) (after : ProgressScheduler) : Prop where
  settled : after.Settled (issued ++ [lease])
  free : scheduler.serials lease.slot = none
  serials : after.serials = update scheduler.serials lease.slot (some issued.length)

theorem Sound.executionEnter (sound : scheduler.Sound issued)
    (ran : executionEnter cancels scheduler engineGeneration sequenceHandle kind cancellable
      issued.length = .ok (lease, after)) : Entered scheduler issued lease after := by
  unfold ProgressScheduler.executionEnter at ran
  simp only [Except.bind_eq_ok, orReject_eq_ok, require_eq_ok] at ran
  rcases ran with ⟨_, _, _, _, index, vacant, made⟩
  cases made
  have free : scheduler.slots[index]? = some none := by
    rcases findIdx?_eq_some_iff_getElem.mp vacant with ⟨bound, none, _⟩
    rw [Option.isNone_iff_eq_none] at none
    rw [getElem?_eq_getElem bound, none]
  have ready : u64Succ scheduler.readyCount = scheduler.readyCount + 1 :=
    u64Succ_of_le (le_trans sound.readyCount_le (by decide))
  have inUse : u64Succ scheduler.inUseCount = scheduler.inUseCount + 1 :=
    u64Succ_of_le (le_trans sound.inUseCount_le (by decide))
  unfold ProgressScheduler.progressEnqueue
  dsimp only
  have occupied := @Sound.occupy scheduler
    { slots := scheduler.slots.set index (some {
        generation := generationAfter scheduler.nextGeneration
        submissionOrdinal := generationAfter scheduler.nextOrdinal
        engineGeneration := engineGeneration, sequenceHandle := sequenceHandle, kind := kind
        cancellable := cancellable, queued := true, serial := issued.length })
      inUseCount := u64Succ scheduler.inUseCount, activeLimit := scheduler.activeLimit
      readyCount := u64Succ scheduler.readyCount, activeCount := scheduler.activeCount
      nextGeneration := generationAfter scheduler.nextGeneration
      nextOrdinal := generationAfter scheduler.nextOrdinal, stopping := scheduler.stopping }
    issued index _ sound free rfl sound.next rfl rfl rfl ready rfl inUse rfl sound.next
    ⟨true, index, generationAfter scheduler.nextGeneration⟩ rfl ⟨sound.next, rfl⟩
  have granted := occupied.progressGrant cancels
  refine ⟨⟨granted.sound, granted.satisfied⟩, ?_, ?_⟩
  · unfold serials serialAt
    rw [free]
    rfl
  · apply granted.regranted.serials.trans
    exact serialAt_set (index_lt free) _

/-- What a call that puts work back on the queue does: nothing, a release while the scheduler
drains, or a new grant. -/
inductive Requeued (scheduler : ProgressScheduler) (issued : List ProgressLease)
    (lease : ProgressLease) : Option Rejection × ProgressScheduler → Prop
  | refused (rejection : Rejection) : Requeued scheduler issued lease (some rejection, scheduler)
  | drained (rejection : Rejection) (work : ProgressWork) (after : ProgressScheduler)
      (found : scheduler.progressSlot lease = some work) (settled : after.Settled issued)
      (serials : after.serials = update scheduler.serials lease.slot none) :
      Requeued scheduler issued lease (some rejection, after)
  | waits (work : ProgressWork) (after : ProgressScheduler)
      (found : scheduler.progressSlot lease = some work)
      (granted : Granted scheduler issued after) :
      Requeued scheduler issued lease (none, after)

theorem Sound.progressRequeue (sound : scheduler.Sound issued)
    (serial : ∀ work, (change work).serial = work.serial)
    (generation : ∀ work, (change work).generation = work.generation)
    (missing stale draining : String) : Requeued scheduler issued lease
      (progressRequeue cancels scheduler lease change missing stale draining) := by
  unfold ProgressScheduler.progressRequeue
  split
  · exact .refused _
  split
  · exact .refused _
  rename_i work found
  rcases progressSlot_eq_some found with ⟨taken, _⟩
  split
  · exact .refused _
  rename_i running
  rw [Bool.not_eq_true', Bool.not_eq_false] at running
  have waits : work.queued = false := by
    rw [← Bool.not_eq_true]
    exact fun queued => sound.apart taken ⟨queued, running⟩
  rcases sound.activeRemove taken with ⟨idle, regranted, there⟩
  split
  · rename_i stopping
    refine .drained _ work _ found ⟨idle.progressRelease _, ?_⟩ ?_
    · apply Satisfied.progressRelease (.inl (regranted.stopping.trans stopping))
      intro second held
      rw [held.unique there]
    · rw [serials_progressRelease, regranted.serials]
  · have granted := idle.progressEnqueue there (serial work) (generation work) waits rfl cancels
    exact .waits work _ found
      ⟨granted.sound, regranted.trans granted.regranted, granted.satisfied⟩

theorem Sound.executionYieldResume (sound : scheduler.Sound issued) :
    Requeued scheduler issued lease (executionYieldResume cancels scheduler lease) :=
  sound.progressRequeue (fun _ => rfl) (fun _ => rfl) _ _ _

theorem Sound.engineProgressTransition (sound : scheduler.Sound issued) (kind : ProgressKind) :
    Requeued scheduler issued lease (engineProgressTransition cancels scheduler lease kind) := by
  refine sound.progressRequeue ?_ ?_ _ _ _ <;> exact fun _ => rfl

inductive Left (scheduler : ProgressScheduler) (issued : List ProgressLease)
    (lease : ProgressLease) (after : ProgressScheduler) : Prop
  | refused (unchanged : after = scheduler)
  | released (work : ProgressWork) (found : scheduler.progressSlot lease = some work)
      (settled : after.Settled issued)
      (serials : after.serials = update scheduler.serials lease.slot none)

section

variable (sound : scheduler.Sound issued)

include sound

theorem Sound.executionLeave (status : Status) :
    Left scheduler issued lease (executionLeave cancels scheduler lease status).2 := by
  unfold ProgressScheduler.executionLeave
  split
  · exact .refused rfl
  split
  · exact .refused rfl
  rename_i work found
  rcases progressSlot_eq_some found with ⟨taken, _⟩
  rcases sound.activeRemove taken with ⟨idle, regranted, _⟩
  have granted := (idle.progressRelease lease.slot).progressGrant cancels
  refine .released work found ⟨granted.sound, granted.satisfied⟩ ?_
  rw [granted.regranted.serials, serials_progressRelease, regranted.serials]

theorem Sound.cancelSlots (indices : List Nat) : (indices.foldl cancelSlot scheduler).Sound issued ∧
      Regranted scheduler (indices.foldl cancelSlot scheduler) := by
  induction indices generalizing scheduler with
  | nil => exact ⟨sound, Regranted.refl _⟩
  | cons index indices induction => ?_
  have one : (scheduler.cancelSlot index).Sound issued ∧
      Regranted scheduler (scheduler.cancelSlot index) := by
    unfold cancelSlot
    split
    · rename_i work taken
      by_cases queued : work.queued = true
      · exact sound.cancelReady taken queued
      unfold ProgressScheduler.cancelReady
      rw [if_neg queued]
      exact ⟨sound, Regranted.refl _⟩
    · exact ⟨sound, Regranted.refl _⟩
  rcases induction one.1 with ⟨rest, regranted⟩
  exact ⟨rest, one.2.trans regranted⟩

theorem Sound.stop : Sound { scheduler with stopping := true } issued :=
  { sound with }

theorem Sound.executionCoordinatorStop : scheduler.executionCoordinatorStop.Settled issued ∧
      scheduler.executionCoordinatorStop.serials = scheduler.serials := by
  rcases sound.stop.cancelSlots (range scheduler.slots.length) with ⟨stopped, regranted⟩
  exact ⟨⟨stopped, .inl regranted.stopping⟩, regranted.serials⟩

end

end

end ProgressScheduler

namespace ProgressWorld

def Sound (world : ProgressWorld) : Prop :=
  ∀ scheduler, world.scheduler = some scheduler → scheduler.Settled world.issued

section

variable {world : ProgressWorld} {scheduler after : ProgressScheduler} {lease : ProgressLease}

theorem await_eq (world : ProgressWorld) (after : ProgressScheduler) (thread : Nat)
    (lease : ProgressLease) (serial : Nat) :
    world.await after thread lease serial =
        { world.setThread thread (.waiting lease serial) with scheduler := some after } ∨
      world.await after thread lease serial =
        { world.setThread thread .idle with scheduler := some after } ∨
      world.await after thread lease serial =
          { world.setThread thread .idle with
            scheduler := some (after.progressRelease lease.slot) } ∧
        ∀ {work}, Occupies after.slots lease.slot work → work.active = false := by
  unfold await
  split
  · exact .inl rfl
  · exact .inr (.inl rfl)
  rename_i refused
  refine .inr (.inr ⟨rfl, ?_⟩)
  intro work taken
  unfold ProgressScheduler.progressWait at refused
  rw [taken] at refused
  dsimp only at refused
  split at refused
  · cases refused
  split at refused
  · cases refused
  · rename_i idle
    rwa [Bool.not_eq_true] at idle

theorem sound_await (settled : after.Settled world.issued) (serial : Nat) :
    (world.await after thread lease serial).Sound := by
  rcases await_eq world after thread lease serial with waits | runs | ⟨fails, idle⟩
  · rw [waits]
    intro scheduler same
    cases same
    exact settled
  · rw [runs]
    intro scheduler same
    cases same
    exact settled
  rw [fails]
  intro scheduler same
  cases same
  exact ⟨settled.sound.progressRelease _, settled.satisfied.progressRelease idle⟩

theorem sound_requeued (sound : world.Sound) (opened : world.scheduler = some scheduler)
    (requeued : scheduler.Requeued world.issued lease outcome) :
    (world.requeued scheduler thread lease outcome).Sound := by
  unfold ProgressWorld.requeued
  cases requeued with
  | refused rejection =>
    intro after same
    cases same
    exact sound scheduler opened
  | drained rejection work after found settled serials =>
    intro after same
    cases same
    exact settled
  | waits work after found granted =>
    rw [found]
    exact sound_await ⟨granted.sound, granted.satisfied⟩ _

theorem Sound.step (sound : world.Sound) (step : ProgressStep) : (world.step step).Sound := by
  unfold ProgressWorld.step
  split
  · exact sound
  rename_i scheduler opened
  have settled := sound scheduler opened
  cases step with
  | enter thread engineGeneration sequenceHandle kind cancellable cancels =>
    dsimp only
    split
    · split
      · rename_i lease after ran
        have entered := settled.sound.executionEnter ran
        exact sound_await entered.settled _
      · exact sound
    · exact sound
  | yieldResume thread lease cancels =>
    dsimp only
    split
    · exact sound_requeued sound opened settled.sound.executionYieldResume
    · exact sound
  | transition thread lease kind cancels =>
    dsimp only
    split
    · exact sound_requeued sound opened (settled.sound.engineProgressTransition kind)
    · exact sound
  | wake thread cancels =>
    dsimp only
    split
    · have granted := settled.sound.progressGrant cancels
      exact sound_await ⟨granted.sound, granted.satisfied⟩ _
    · exact sound
  | leave thread lease status cancels =>
    dsimp only
    split
    · intro after same
      cases same
      cases @ProgressScheduler.Sound.executionLeave _ _ lease cancels settled.sound status with
      | refused unchanged =>
        rw [unchanged]
        exact settled
      | released work found left serials => exact left
    · exact sound
  | stop =>
    intro after same
    cases same
    exact ⟨settled.sound.stop, .inl rfl⟩
  | close thread =>
    dsimp only
    split
    · intro after same
      cases same
      exact settled.sound.executionCoordinatorStop.1
    · exact sound
  | free thread =>
    dsimp only
    split
    · split
      · intro after same
        cases same
      · exact sound
    · exact sound

theorem Sound.run (sound : world.Sound) (steps : List ProgressStep) : (world.run steps).Sound := by
  induction steps generalizing world with
  | nil => exact sound
  | cons step steps induction => exact induction (sound.step step)

theorem sound_opened (queueCapacity cooperativeWidth : Nat) :
    (opened queueCapacity cooperativeWidth).Sound := by
  intro scheduler held
  rcases ran : executionCoordinatorOpen queueCapacity cooperativeWidth with _ | open'
  · rw [opened, ran] at held
    cases held
  rw [opened, ran] at held
  cases held
  unfold executionCoordinatorOpen at ran
  simp only [Except.bind_eq_ok, require_eq_ok, Bool.and_eq_true, decide_eq_true_eq] at ran
  rcases ran with ⟨_, ⟨⟨⟨_, small⟩, _⟩, _⟩, made⟩
  cases made
  have vacant : ∀ {index : Nat} {work : ProgressWork},
      ¬ Occupies (replicate queueCapacity none) index work := by
    intro index work taken
    unfold Occupies at taken
    rw [getElem?_replicate] at taken
    split at taken <;> cases taken
  have untagged : ∀ {index value : Nat},
      serialAt ProgressWork.serial (replicate queueCapacity none) index ≠ some value := by
    intro index value present
    rcases serialAt_eq_some.mp present with ⟨_, taken, _⟩
    exact vacant taken
  refine ⟨⟨?_, (slotSum_replicate _ _).symm, (slotSum_replicate _ _).symm,
    (slotSum_replicate _ _).symm, fun taken => absurd taken vacant, Nat.zero_le _,
    fun taken => absurd taken vacant, fun taken => absurd taken vacant,
    ⟨fun present => absurd present untagged, fun present => absurd present untagged⟩, ?_, rfl⟩,
    .inr (.inr fun _ _ taken => absurd taken vacant)⟩
  · rw [length_replicate]
    exact small
  · intro serial lease given
    cases given

end

end ProgressWorld

end Yvex.Runtime
