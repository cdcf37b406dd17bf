import Yvex.Runtime.ProgressSteps

namespace Yvex.Runtime

open List Option Function

/-! # Runs of the progress scheduler

A call with a lease whose work is gone changes nothing, and where a lease is used by one thread
at a time a waiting call waits for its own work. -/

namespace ProgressWorld

def leaseOf : ProgressStep → Option ProgressLease
  | .yieldResume _ lease _ => some lease
  | .transition _ lease _ _ => some lease
  | .leave _ lease _ _ => some lease
  | _ => none

section

variable {world : ProgressWorld} {scheduler after : ProgressScheduler}

theorem requeued_unchanged (missing : scheduler.progressSlot lease = none)
    (requeued : scheduler.Requeued world.issued lease outcome) :
    (world.requeued scheduler thread lease outcome).scheduler = some scheduler := by
  cases requeued with
  | refused rejection => rfl
  | drained rejection work after found settled serials =>
    rw [missing] at found
    cases found
  | waits work after found granted =>
    rw [missing] at found
    cases found

theorem step_unchanged (sound : world.Sound) (opened : world.scheduler = some scheduler)
    (missing : scheduler.progressSlot lease = none) {step : ProgressStep}
    (called : leaseOf step = some lease) : (world.step step).scheduler = some scheduler := by
  have settled := sound scheduler opened
  unfold ProgressWorld.step
  rw [opened]
  cases step with
  | yieldResume thread given cancels =>
    cases called
    dsimp only
    split
    · exact requeued_unchanged missing settled.sound.executionYieldResume
    · exact opened
  | transition thread given kind cancels =>
    cases called
    dsimp only
    split
    · exact requeued_unchanged missing (settled.sound.engineProgressTransition kind)
    · exact opened
  | leave thread given status cancels =>
    cases called
    dsimp only
    split
    · cases @ProgressScheduler.Sound.executionLeave _ _ lease cancels settled.sound status with
      | refused unchanged => rw [unchanged]
      | released work found left serials =>
        rw [missing] at found
        cases found
    · exact opened
  | enter => cases called
  | wake => cases called
  | stop => cases called
  | close => cases called
  | free => cases called

/-- A lease whose work has gone changes nothing, until the generations have turned. -/
theorem Sound.step_stale (sound : world.Sound) (opened : world.scheduler = some scheduler)
    (given : world.issued[serial]? = some lease)
    (gone : ∀ work, Occupies scheduler.slots lease.slot work → work.serial ≠ serial)
    {step : ProgressStep} (called : leaseOf step = some lease) :
    (world.step step).scheduler = some scheduler ∨
      ∃ work, Occupies scheduler.slots lease.slot work ∧ serial + u64Max ≤ work.serial := by
  rcases found : scheduler.progressSlot lease with _ | work
  · exact .inl (step_unchanged sound opened found called)
  have taken := (ProgressScheduler.progressSlot_eq_some found).1
  rcases (sound scheduler opened).sound.stale given found with same | turned
  · exact absurd same (gone work taken)
  · exact .inr ⟨work, taken, turned⟩

def Confined (world : ProgressWorld) (step : ProgressStep) : Prop :=
  ∀ lease, leaseOf step = some lease → ∀ thread serial, world.threads thread ≠ .waiting lease serial

/-- Along the run, a lease is used by one thread at a time. -/
def ConfinedRun : ProgressWorld → List ProgressStep → Prop
  | _, [] => True
  | world, step :: steps => world.Confined step ∧ ConfinedRun (world.step step) steps

structure Waits (world : ProgressWorld) (serials : Nat → Option Nat) : Prop where
  own : ∀ {thread lease serial}, world.threads thread = .waiting lease serial →
    world.issued[serial]? = some lease ∧ serials lease.slot = some serial
  apart : ∀ {thread other lease lease' serial}, world.threads thread = .waiting lease serial →
    world.threads other = .waiting lease' serial → thread = other

variable {issued : List ProgressLease}

theorem Waits.move (waits : Waits world serials)
    (grows : ∀ {serial : Nat} {lease}, world.issued[serial]? = some lease →
      issued[serial]? = some lease) (kept : ∀ {other lease serial}, other ≠ thread →
      world.threads other = .waiting lease serial → changed lease.slot = some serial)
    (mine : ∀ {lease serial}, activity = .waiting lease serial →
      issued[serial]? = some lease ∧ changed lease.slot = some serial ∧
        ∀ {other lease'}, other ≠ thread → world.threads other ≠ .waiting lease' serial)
    (next : Option ProgressScheduler) :
    Waits { world.setThread thread activity with issued := issued, scheduler := next } changed := by
  have self : (world.setThread thread activity).threads thread = activity := update_self ..
  have others : ∀ {other}, other ≠ thread →
      (world.setThread thread activity).threads other = world.threads other :=
    fun apart => update_of_ne apart ..
  constructor
  · grind [cases ProgressWorld.Waits]
  intro first second lease lease' serial one two
  by_cases here : first = thread <;> by_cases there : second = thread
  · exact here.trans there.symm
  · grind
  · grind
  · rw [others here] at one
    rw [others there] at two
    exact waits.apart one two

def Waiting (world : ProgressWorld) : Prop :=
  ∀ scheduler, world.scheduler = some scheduler → world.Waits scheduler.serials

theorem waiting_await (waits : Waits world serials)
    (grows : ∀ {serial : Nat} {lease}, world.issued[serial]? = some lease →
      issued[serial]? = some lease) (given : issued[serial]? = some lease)
    (own : after.serials lease.slot = some serial) (kept : ∀ {other lease serial}, other ≠ thread →
      world.threads other = .waiting lease serial → after.serials lease.slot = some serial)
    (sole : ∀ {other lease'}, other ≠ thread → world.threads other ≠ .waiting lease' serial) :
    (({ world with issued := issued } : ProgressWorld).await after thread lease serial).Waiting := by
  rcases await_eq { world with issued := issued } after thread lease serial with
    waiting | runs | ⟨fails, _⟩
  · rw [waiting]
    intro scheduler same
    cases same
    refine waits.move grows kept ?_ _
    intro lease' serial' mine
    cases mine
    exact ⟨given, own, sole⟩
  · rw [runs]
    intro scheduler same
    cases same
    exact waits.move grows kept (fun mine => by cases mine) _
  · rw [fails]
    intro scheduler same
    cases same
    refine waits.move grows ?_ (fun mine => by cases mine) _
    intro other lease' serial' apart waiting
    have held := kept apart waiting
    have away : lease'.slot ≠ lease.slot := by
      intro same
      rw [same, own, some.injEq] at held
      subst serial'
      exact sole apart waiting
    rw [ProgressScheduler.serials_progressRelease, update_of_ne away]
    exact held

section

variable {step : ProgressStep} (confined : world.Confined step) (called : leaseOf step = some lease)
  (sound : scheduler.Sound world.issued)

include sound

section

variable (found : scheduler.progressSlot lease = some work) (waits : Waits world scheduler.serials)

include found

theorem issued_of_found : world.issued[work.serial]? = some lease := by
  rcases ProgressScheduler.progressSlot_eq_some found with ⟨taken, tag⟩
  have bound : lease.scheduler = true := by
    unfold ProgressScheduler.progressSlot at found
    split at found
    · cases found
    rename_i valid
    rw [not_or, Bool.not_eq_false] at valid
    exact valid.1
  have recorded := sound.tagged.issuedAt taken.serialAt
  rw [getElem?_map, map_eq_some_iff] at recorded
  rcases recorded with ⟨given, present, slot⟩
  rcases sound.leases _ given present with ⟨generation, named⟩
  rw [sound.generation taken] at tag
  have equal : given = lease := by
    rcases lease with ⟨_, _, _⟩
    rcases given with ⟨_, _, _⟩
    simp only [ProgressLease.mk.injEq] at *
    exact ⟨named.trans bound.symm, slot, generation.trans tag⟩
  rw [← equal]
  exact present

include confined called waits

theorem Confined.elsewhere
    (waiting : world.threads other = .waiting lease' serial) : lease'.slot ≠ lease.slot := by
  intro same
  rcases waits.own waiting with ⟨given, held⟩
  have taken := (ProgressScheduler.progressSlot_eq_some found).1
  rw [same, ProgressScheduler.serials, taken.serialAt, some.injEq] at held
  rw [← held, issued_of_found sound found, some.injEq] at given
  rw [← given] at waiting
  exact confined lease called other serial waiting

theorem Waits.released
    (serials : after.serials = update scheduler.serials lease.slot none) :
    Waits { world with scheduler := some after } after.serials := by
  refine ⟨fun waiting => ⟨(waits.own waiting).1, ?_⟩, waits.apart⟩
  rw [serials, update_of_ne (confined.elsewhere called sound found waits waiting)]
  exact (waits.own waiting).2

end

include confined called

theorem Waiting.requeued (waiting : world.Waiting) (opened : world.scheduler = some scheduler)
    (requeued : scheduler.Requeued world.issued lease outcome) :
    (world.requeued scheduler thread lease outcome).Waiting := by
  have waits := waiting scheduler opened
  unfold ProgressWorld.requeued
  cases requeued with
  | refused rejection =>
    intro after same
    cases same
    exact ⟨waits.own, waits.apart⟩
  | drained rejection work after found settled serials =>
    intro after same
    cases same
    exact waits.released confined called sound found serials
  | waits work after found granted =>
    rw [found]
    have serials := granted.regranted.serials
    have taken := (ProgressScheduler.progressSlot_eq_some found).1
    apply waiting_await waits id (issued_of_found sound found)
    · rw [serials]
      exact taken.serialAt
    · intro other lease' serial _ held
      rw [serials]
      exact (waits.own held).2
    · intro other lease' _ held
      apply confined.elsewhere called sound found waits held
      exact sound.tagged.unique (waits.own held).2 taken.serialAt

end

theorem Waiting.step (waiting : world.Waiting) (sound : world.Sound) {step : ProgressStep}
    (confined : world.Confined step) : (world.step step).Waiting := by
  unfold ProgressWorld.step
  split
  · exact waiting
  rename_i scheduler opened
  have settled := sound scheduler opened
  have waits := waiting scheduler opened
  cases step with
  | enter thread engineGeneration sequenceHandle kind cancellable cancels =>
    dsimp only
    split
    · split
      · rename_i lease after ran
        have entered := settled.sound.executionEnter ran
        have earlier : ∀ {other : Nat} {lease' serial}, world.threads other =
            .waiting lease' serial → serial < world.issued.length :=
          fun held => (List.getElem?_eq_some_iff.mp (waits.own held).1).1
        apply waiting_await waits
        · grind
        · rw [getElem?_append_right le_rfl, Nat.sub_self]
          rfl
        · rw [entered.serials, update_self]
        · intro other lease' serial _ held
          have away : lease'.slot ≠ lease.slot := by
            intro same
            have taken := (waits.own held).2
            rw [same, entered.free] at taken
            cases taken
          rw [entered.serials, update_of_ne away]
          exact (waits.own held).2
        · intro other lease' _ held
          exact lt_irrefl _ (earlier held)
      · exact waiting
    · exact waiting
  | yieldResume thread lease cancels =>
    dsimp only
    split
    · exact waiting.requeued confined rfl settled.sound opened
        settled.sound.executionYieldResume
    · exact waiting
  | transition thread lease kind cancels =>
    dsimp only
    split
    · exact waiting.requeued confined rfl settled.sound opened
        (settled.sound.engineProgressTransition kind)
    · exact waiting
  | wake thread cancels =>
    dsimp only
    split
    · rename_i lease serial mine
      have serials := (settled.sound.progressGrant cancels).regranted.serials
      rcases waits.own mine with ⟨given, own⟩
      apply waiting_await waits id given
      · rw [serials]
        exact own
      · intro other lease' serial' _ held
        rw [serials]
        exact (waits.own held).2
      · intro other lease' apart held
        exact apart (waits.apart held mine)
    · exact waiting
  | leave thread lease status cancels =>
    dsimp only
    split
    · intro after same
      cases same
      cases @ProgressScheduler.Sound.executionLeave _ _ lease cancels settled.sound status with
      | refused unchanged =>
        rw [unchanged]
        exact ⟨waits.own, waits.apart⟩
      | released work found left serials =>
        exact waits.released confined rfl settled.sound found serials
    · exact waiting
  | stop =>
    intro after same
    cases same
    exact ⟨waits.own, waits.apart⟩
  | close thread =>
    dsimp only
    split
    · intro after same
      cases same
      refine waits.move id ?_ (fun mine => by cases mine) _
      intro other lease serial _ held
      rw [settled.sound.executionCoordinatorStop.2]
      exact (waits.own held).2
    · exact waiting
  | free thread =>
    dsimp only
    split
    · split
      · intro after same
        cases same
      · exact waiting
    · exact waiting

theorem Waiting.run (waiting : world.Waiting) (sound : world.Sound)
    (confined : ConfinedRun world steps) : (world.run steps).Waiting := by
  induction steps generalizing world with
  | nil => exact waiting
  | cons step steps induction =>
    exact induction (waiting.step sound confined.1) (sound.step step) confined.2

theorem waiting_opened (queueCapacity cooperativeWidth : Nat) :
    (opened queueCapacity cooperativeWidth).Waiting := by
  intro scheduler _
  constructor
  · intro thread lease serial waiting
    cases waiting
  · intro thread other lease lease' serial waiting
    cases waiting

end

end ProgressWorld

/-- Whatever the threads do, the counts of the scheduler are those of its slots, active work is
bounded and of different sequences, and work waits only while it must. A call with a lease whose
work is gone changes nothing until the generations have turned, and where each lease is used by
one thread at a time a waiting call still has its own work. -/
theorem progressScheduler_contract (queueCapacity cooperativeWidth : Nat)
    (steps : List ProgressStep) :
    let world := (ProgressWorld.opened queueCapacity cooperativeWidth).run steps
    ∀ scheduler, world.scheduler = some scheduler →
      scheduler.readyCount = slotSum (fun work => work.queued.toNat) scheduler.slots ∧
      scheduler.activeCount = slotSum (fun work => work.active.toNat) scheduler.slots ∧
      (∀ index work, Occupies scheduler.slots index work →
        ¬ (work.queued = true ∧ work.active = true)) ∧
      scheduler.activeCount ≤ scheduler.activeLimit ∧
      (∀ index other work second, Occupies scheduler.slots index work →
        Occupies scheduler.slots other second → work.active = true → second.active = true →
        work.engineGeneration = second.engineGeneration →
        work.sequenceHandle = second.sequenceHandle → index = other) ∧
      (scheduler.stopping = false → scheduler.activeCount < scheduler.activeLimit →
        ∀ index work, Occupies scheduler.slots index work → work.queued = true →
          ∃ other second, other ≠ index ∧ Occupies scheduler.slots other second ∧
            second.active = true ∧ second.engineGeneration = work.engineGeneration ∧
            second.sequenceHandle = work.sequenceHandle) ∧
      (∀ serial lease, world.issued[serial]? = some lease →
        (∀ work, Occupies scheduler.slots lease.slot work → work.serial ≠ serial) →
        ∀ step, ProgressWorld.leaseOf step = some lease →
          (world.step step).scheduler = some scheduler ∨
            ∃ work, Occupies scheduler.slots lease.slot work ∧ serial + u64Max ≤ work.serial) ∧
      (ProgressWorld.ConfinedRun (ProgressWorld.opened queueCapacity cooperativeWidth) steps →
        ∀ thread lease serial, world.threads thread = .waiting lease serial →
          ∃ work, Occupies scheduler.slots lease.slot work ∧ work.serial = serial) := by
  intro world scheduler opened
  have start := ProgressWorld.sound_opened queueCapacity cooperativeWidth
  have all : world.Sound := start.run steps
  have sound := (all scheduler opened).sound
  refine ⟨sound.ready, sound.active, fun _ _ => sound.apart, sound.limit, ?_, ?_, ?_, ?_⟩
  · intro index other work second one two running also engine sequence
    apply sound.exclusive one two running also
    simp [ProgressScheduler.sameSequence, engine, sequence]
  · intro working place index work taken waiting
    rcases (all scheduler opened).satisfied with stopping | full | kept
    · rw [working] at stopping
      cases stopping
    · exact absurd place (not_lt.mpr full)
    · rcases kept index work taken waiting with ⟨other, second, found, apart, running, same⟩
      simp only [ProgressScheduler.sameSequence, Bool.and_eq_true, beq_iff_eq] at same
      exact ⟨other, second, apart, found, running, same.1, same.2⟩
  · intro serial lease given gone step called
    exact all.step_stale opened given gone called
  · intro confined thread lease serial waiting
    have waits := (ProgressWorld.waiting_opened queueCapacity cooperativeWidth).run start confined
    exact serialAt_eq_some.mp ((waits scheduler opened).own waiting).2

def never : Nat → Nat → Bool := fun _ _ => false

def visit (serial : Nat) : List ProgressStep :=
  [.enter 0 1 1 .decode false never, .leave 0 ⟨true, 0, generationOf serial⟩ .ok never]

def visits (count : Nat) : List ProgressStep := (List.range count).flatMap visit

structure Unvisited (world : ProgressWorld) (count : Nat) : Prop where
  idle : world.threads 0 = .idle
  issued : world.issued.length = count
  scheduler : ∃ generation ordinal, generationAfter generation = generationOf count ∧
    world.scheduler = some
      { slots := [none], activeLimit := 1, nextGeneration := generation, nextOrdinal := ordinal }

structure Visited (world : ProgressWorld) (serial : Nat) : Prop where
  idle : world.threads 0 = .idle
  issued : world.issued.length = serial + 1
  scheduler : ∃ ordinal, world.scheduler = some
    { slots := [some { generation := generationOf serial, submissionOrdinal := ordinal
                       engineGeneration := 1, sequenceHandle := 1, kind := .decode
                       cancellable := false, active := true, serial := serial }]
      inUseCount := 1, activeLimit := 1, activeCount := 1, nextGeneration := generationOf serial
      nextOrdinal := ordinal }

section

variable {world : ProgressWorld} {count : Nat}

theorem Unvisited.enter (unvisited : Unvisited world count) :
    Visited (world.step (.enter 0 1 1 .decode false never)) count := by
  rcases unvisited.scheduler with ⟨generation, ordinal, next, opened⟩
  have entered : ProgressScheduler.executionEnter never
      { slots := [none], activeLimit := 1, nextGeneration := generation, nextOrdinal := ordinal }
      1 1 .decode false count = .ok (⟨true, 0, generationOf count⟩,
        { slots := [some { generation := generationOf count
                           submissionOrdinal := generationAfter ordinal
                           engineGeneration := 1, sequenceHandle := 1, kind := .decode
                           cancellable := false, active := true, serial := count }]
          inUseCount := 1, activeLimit := 1, activeCount := 1
          nextGeneration := generationOf count, nextOrdinal := generationAfter ordinal }) := by
    rw [← next]
    rfl
  unfold ProgressWorld.step
  rw [opened, unvisited.issued]
  dsimp only
  rw [unvisited.idle]
  rw [entered]
  exact ⟨rfl, by
    change (world.issued ++ [_]).length = _
    rw [length_append, unvisited.issued]
    rfl, _, rfl⟩

theorem Visited.leave (visited : Visited world count) :
    Unvisited (world.step (.leave 0 ⟨true, 0, generationOf count⟩ .ok never)) (count + 1) := by
  rcases visited.scheduler with ⟨ordinal, opened⟩
  unfold ProgressWorld.step
  rw [opened]
  dsimp only
  rw [visited.idle]
  refine ⟨visited.idle, visited.issued, generationOf count, ordinal,
    generationAfter_generationOf count, ?_⟩
  have found (work : ProgressWork) (tag : work.generation = generationOf count)
      (held : ProgressScheduler) (slots : held.slots = [some work]) :
      held.progressSlot ⟨true, 0, generationOf count⟩ = some work := by
    simp [ProgressScheduler.progressSlot, slots, tag]
  unfold ProgressScheduler.executionLeave
  rw [found _ rfl _ rfl]
  rfl

theorem unvisited_visits (count : Nat) :
    Unvisited ((ProgressWorld.opened 1 1).run (visits count)) count := by
  induction count with
  | zero => exact ⟨rfl, rfl, 0, 0, rfl, rfl⟩
  | succ count induction => ?_
  have next := induction.enter.leave
  unfold ProgressWorld.run at ⊢
  rw [visits, range_succ, flatMap_append, foldl_append]
  exact next

theorem visited_visits (count : Nat) : Visited ((ProgressWorld.opened 1 1).run
      (visits count ++ [.enter 0 1 1 .decode false never])) count := by
  have next := (unvisited_visits count).enter
  unfold ProgressWorld.run at ⊢
  rw [foldl_append]
  exact next

end

/-- A lease that has been shared: another thread leaves with it while its yield waits, and the
slot goes to new work. -/
def sharedLease : List ProgressStep :=
  [.enter 0 1 1 .decode false never, .enter 1 1 2 .decode false never,
    .yieldResume 0 ⟨true, 0, 1⟩ never, .leave 2 ⟨true, 0, 1⟩ .ok never,
    .enter 3 1 3 .decode true never, .wake 1 never,
    .leave 1 ⟨true, 1, 2⟩ .ok fun _ slot => slot == 0]

/-- A yield that waits with a shared lease gives up the slot of other work, and after a full turn
of the generations the first lease does. -/
theorem progressScheduler_again :
    let shared := (ProgressWorld.opened 2 1).run sharedLease
    let turned := (ProgressWorld.opened 1 1).run
      (visits u64Max ++ [.enter 0 1 1 .decode false never])
    (shared.threads 0 = .waiting ⟨true, 0, 1⟩ 0 ∧
      shared.scheduler.map (fun scheduler => scheduler.slots.map (Option.map ProgressWork.serial)) =
        some [some 2, none] ∧
      (shared.step (.wake 0 never)).scheduler.map (fun scheduler => scheduler.slots) =
        some [none, none]) ∧
    ∃ before, turned.scheduler = some before ∧ before.serials 0 = some u64Max ∧
      (turned.step (.leave 0 ⟨true, 0, 1⟩ .ok never)).scheduler ≠ some before := by
  refine ⟨⟨rfl, rfl, rfl⟩, ?_⟩
  have visited := visited_visits u64Max
  have left := visited.leave
  have again : generationOf u64Max = 1 := by
    unfold generationOf
    rw [Nat.mod_self]
  rw [again] at left
  rcases visited.scheduler with ⟨ordinal, opened⟩
  rcases left.scheduler with ⟨_, _, _, released⟩
  refine ⟨_, opened, rfl, ?_⟩
  rw [released]
  intro same
  cases same

end Yvex.Runtime
