import Yvex.Runtime.Progress

namespace Yvex.Runtime

open List Option Bool

/-! # What holds of the progress scheduler whenever its mutex is free

Counts agree with the slots, active work is bounded and of different sequences, and each slot
carries the generation of its admission. A grant also leaves no work waiting that could run. -/

namespace ProgressScheduler

section

variable (scheduler : ProgressScheduler)

def serials : Nat → Option Nat := serialAt ProgressWork.serial scheduler.slots

def Conflicts (index : Nat) (candidate : ProgressWork) : Prop :=
  ∃ other work, Occupies scheduler.slots other work ∧ other ≠ index ∧ work.active = true ∧
    sameSequence work candidate = true

structure Sound (scheduler : ProgressScheduler) (issued : List ProgressLease) : Prop where
  small : scheduler.slots.length ≤ 64
  ready : scheduler.readyCount = slotSum (fun work => work.queued.toNat) scheduler.slots
  active : scheduler.activeCount = slotSum (fun work => work.active.toNat) scheduler.slots
  inUse : scheduler.inUseCount = slotSum (fun _ => 1) scheduler.slots
  apart : ∀ {index work}, Occupies scheduler.slots index work →
    ¬ (work.queued = true ∧ work.active = true)
  limit : scheduler.activeCount ≤ scheduler.activeLimit
  exclusive : ∀ {index other work second}, Occupies scheduler.slots index work →
    Occupies scheduler.slots other second → work.active = true → second.active = true →
    sameSequence work second = true → index = other
  generation : ∀ {index work}, Occupies scheduler.slots index work →
    work.generation = generationOf work.serial
  tagged : Tagged scheduler.serials (issued.map ProgressLease.slot)
  leases : ∀ (serial : Nat) (lease : ProgressLease), issued[serial]? = some lease →
    lease.generation = generationOf serial ∧ lease.scheduler = true
  next : generationAfter scheduler.nextGeneration = generationOf issued.length

def Satisfied : Prop := scheduler.stopping = true ∨ scheduler.activeLimit ≤ scheduler.activeCount ∨
    ∀ index work, Occupies scheduler.slots index work → work.queued = true →
      scheduler.Conflicts index work

structure Regranted (before after : ProgressScheduler) : Prop where
  serials : after.serials = before.serials
  length : after.slots.length = before.slots.length
  stopping : after.stopping = before.stopping
  limit : after.activeLimit = before.activeLimit

theorem Regranted.refl : Regranted scheduler scheduler := ⟨rfl, rfl, rfl, rfl⟩

end

theorem Regranted.trans (left : Regranted first second)
    (right : Regranted second third) : Regranted first third :=
  ⟨right.serials.trans left.serials, right.length.trans left.length,
    right.stopping.trans left.stopping, right.limit.trans left.limit⟩

theorem sameSequence_comm (left right : ProgressWork) :
    sameSequence left right = sameSequence right left := by
  unfold sameSequence
  rw [beq_comm, beq_comm (a := left.sequenceHandle)]

section

variable {scheduler changed : ProgressScheduler} {issued : List ProgressLease} {index other : Nat}
  {work new : ProgressWork}

theorem activeConflict_iff :
    scheduler.activeConflict index work = true ↔ scheduler.Conflicts index work := by
  unfold activeConflict Conflicts
  rw [List.any_eq_true]
  constructor
  · rintro ⟨other, _, found⟩
    split at found
    · rename_i second taken
      simp only [and_eq_true, bne_iff_ne] at found
      exact ⟨other, second, taken, found.1.1, found.1.2, found.2⟩
    · cases found
  · rintro ⟨other, second, taken, apart, active, same⟩
    refine ⟨other, mem_range.mpr taken.lt, ?_⟩
    rw [taken]
    simp [apart, active, same]

/-! ## A change within a slot -/

section

variable (sound : scheduler.Sound issued)

include sound

theorem Sound.readyCount_le : scheduler.readyCount ≤ 64 := by
  rw [sound.ready]
  exact le_trans (slotSum_le_length (fun work : ProgressWork => toNat_le work.queued) _)
    sound.small

theorem Sound.activeCount_le : scheduler.activeCount ≤ 64 := by
  rw [sound.active]
  exact le_trans (slotSum_le_length (fun work : ProgressWork => toNat_le work.active) _)
    sound.small

theorem Sound.inUseCount_le : scheduler.inUseCount ≤ 64 := by
  rw [sound.inUse]
  exact le_trans (slotSum_le_length (fun _ => Nat.le_refl 1) _) sound.small

section

variable (taken : Occupies scheduler.slots index work)

include taken

theorem Sound.readyCount_pos (queued : work.queued = true) : 0 < scheduler.readyCount := by
  have counted := measure_le_slotSum (fun work : ProgressWork => work.queued.toNat) taken
  rw [← sound.ready, queued] at counted
  exact counted

theorem Sound.activeCount_pos (active : work.active = true) : 0 < scheduler.activeCount := by
  have counted := measure_le_slotSum (fun work : ProgressWork => work.active.toNat) taken
  rw [← sound.active, active] at counted
  exact counted

theorem Sound.inUseCount_pos : 0 < scheduler.inUseCount := by
  have counted := measure_le_slotSum (fun _ : ProgressWork => 1) taken
  rw [← sound.inUse] at counted
  exact counted

theorem Sound.put (slots : changed.slots = scheduler.slots.set index (some new))
    (serial : new.serial = work.serial) (generation : new.generation = work.generation)
    (apart : ¬ (new.queued = true ∧ new.active = true))
    (lone : new.active = true → ∀ {other second}, other ≠ index →
      Occupies scheduler.slots other second → second.active = true →
      sameSequence second new = false)
    (ready : changed.readyCount + work.queued.toNat = scheduler.readyCount + new.queued.toNat)
    (active : changed.activeCount + work.active.toNat = scheduler.activeCount + new.active.toNat)
    (inUse : changed.inUseCount = scheduler.inUseCount)
    (limit : changed.activeCount ≤ changed.activeLimit)
    (next : changed.nextGeneration = scheduler.nextGeneration) : changed.Sound issued := by
  have cases_of : ∀ {place second}, Occupies changed.slots place second →
      place = index ∧ new = second ∨ place ≠ index ∧ Occupies scheduler.slots place second := by
    intro place second there
    rw [slots, occupies_set taken.lt, Option.some.injEq] at there
    exact there
  refine ⟨?_, ?_, ?_, ?_, ?_, limit, ?_, ?_, ?_, sound.leases, ?_⟩
  · rw [slots, length_set]
    exact sound.small
  · rw [slots]
    exact total_of_set taken sound.ready ready
  · rw [slots]
    exact total_of_set taken sound.active active
  · rw [slots]
    exact total_of_set taken sound.inUse (congrArg (· + 1) inUse)
  · grind [cases ProgressScheduler.Sound]
  · intro first second one two here there running also same
    rcases cases_of here with ⟨rfl, rfl⟩ | ⟨away, held⟩ <;>
      rcases cases_of there with ⟨rfl, rfl⟩ | ⟨away', held'⟩
    · rfl
    · rw [sameSequence_comm, lone running away' held' also] at same
      cases same
    · rw [lone also away held running] at same
      cases same
    · exact sound.exclusive held held' running also same
  · grind [cases ProgressScheduler.Sound]
  · rw [serials, slots, serialAt_set_same taken serial]
    exact sound.tagged
  · rw [next]
    exact sound.next

theorem Sound.vacate (slots : changed.slots = scheduler.slots.set index none)
    (ready : changed.readyCount + work.queued.toNat = scheduler.readyCount)
    (active : changed.activeCount + work.active.toNat = scheduler.activeCount)
    (inUse : changed.inUseCount + 1 = scheduler.inUseCount)
    (limit : changed.activeLimit = scheduler.activeLimit)
    (next : changed.nextGeneration = scheduler.nextGeneration) : changed.Sound issued := by
  have held_of : ∀ {place second}, Occupies changed.slots place second →
      Occupies scheduler.slots place second := by
    intro place second there
    rw [slots, occupies_set taken.lt] at there
    rcases there with ⟨_, none⟩ | ⟨_, held⟩
    · cases none
    · exact held
  refine ⟨?_, ?_, ?_, ?_, fun there => sound.apart (held_of there), ?_,
    fun one two => sound.exclusive (held_of one) (held_of two),
    fun there => sound.generation (held_of there), ?_, sound.leases, ?_⟩
  · rw [slots, length_set]
    exact sound.small
  · rw [slots]
    exact total_of_set taken sound.ready ready
  · rw [slots]
    exact total_of_set taken sound.active active
  · rw [slots]
    exact total_of_set taken sound.inUse inUse
  · have before := sound.limit
    omega
  · rw [serials, slots, serialAt_set taken.lt]
    exact sound.tagged.vacate index
  · rw [next]
    exact sound.next

end

end

theorem Sound.occupy (sound : scheduler.Sound issued)
    (free : scheduler.slots[index]? = some none) (serial : new.serial = issued.length)
    (generation : new.generation = generationOf issued.length) (queued : new.queued = true)
    (idle : new.active = false) (slots : changed.slots = scheduler.slots.set index (some new))
    (ready : changed.readyCount = scheduler.readyCount + 1)
    (active : changed.activeCount = scheduler.activeCount)
    (inUse : changed.inUseCount = scheduler.inUseCount + 1)
    (limit : changed.activeLimit = scheduler.activeLimit)
    (next : changed.nextGeneration = generationOf issued.length) {lease : ProgressLease}
    (slot : lease.slot = index)
    (tag : lease.generation = generationOf issued.length ∧ lease.scheduler = true) :
    changed.Sound (issued ++ [lease]) := by
  have bound : index < scheduler.slots.length := index_lt free
  have cases_of : ∀ {place second}, Occupies changed.slots place second →
      place = index ∧ new = second ∨ place ≠ index ∧ Occupies scheduler.slots place second := by
    intro place second there
    rw [slots, occupies_set bound, Option.some.injEq] at there
    exact there
  constructor
  · rw [slots, length_set]
    exact sound.small
  · rw [slots]
    exact total_of_set free sound.ready (by simpa [queued] using ready)
  · rw [slots]
    exact total_of_set free sound.active (by simpa [idle] using active)
  · rw [slots]
    exact total_of_set free sound.inUse inUse
  · grind [cases ProgressScheduler.Sound]
  · have before := sound.limit
    omega
  · grind [cases ProgressScheduler.Sound]
  · grind [cases ProgressScheduler.Sound]
  · have tagged := sound.tagged.occupy index
    rw [length_map] at tagged
    rw [serials, slots, serialAt_set bound, map_some, serial, map_append, map_singleton, slot]
    exact tagged
  · grind [cases ProgressScheduler.Sound]
  · rw [next, generationAfter_generationOf, length_append]
    rfl

/-! ## Granting -/

theorem regranted_set (taken : Occupies scheduler.slots index work)
    (slots : changed.slots = scheduler.slots.set index (some new))
    (serial : new.serial = work.serial) (stopping : changed.stopping = scheduler.stopping)
    (limit : changed.activeLimit = scheduler.activeLimit) : Regranted scheduler changed := by
  refine ⟨?_, ?_, stopping, limit⟩
  · rw [serials, slots, serialAt_set_same taken serial]
    rfl
  · rw [slots, length_set]

section

variable (sound : scheduler.Sound issued) (taken : Occupies scheduler.slots index work)
  (queued : work.queued = true)

include sound taken queued

theorem Sound.cancelReady : (scheduler.cancelReady index work).Sound issued ∧
      Regranted scheduler (scheduler.cancelReady index work) := by
  have positive := sound.readyCount_pos taken queued
  unfold ProgressScheduler.cancelReady
  rw [if_pos queued]
  refine ⟨sound.put taken rfl rfl rfl (fun both => false_ne_true both.1) ?_ ?_ rfl rfl
    sound.limit rfl, regranted_set taken rfl rfl rfl rfl⟩
  · intro running
    exact absurd ⟨queued, running⟩ (sound.apart taken)
  · dsimp only
    rw [u64Pred_of_pos positive, queued, toNat_true, toNat_false]
    omega

theorem conflicts_cancelReady : (scheduler.cancelReady index work).Conflicts place candidate ↔
      scheduler.Conflicts place candidate := by
  have idle : work.active ≠ true := fun running => sound.apart taken ⟨queued, running⟩
  unfold ProgressScheduler.cancelReady Conflicts
  rw [if_pos queued]
  refine exists_congr fun other => exists_congr fun second => ?_
  refine ⟨?_, ?_⟩
  · rintro ⟨there, apart, running, same⟩
    rcases (occupies_set taken.lt).mp there with ⟨_, made⟩ | ⟨_, held⟩
    · cases made
      exact absurd running idle
    · exact ⟨held, apart, running, same⟩
  rintro ⟨held, apart, running, same⟩
  have away : other ≠ index := by
    rintro rfl
    rw [held.unique taken] at running
    exact idle running
  exact ⟨(occupies_set taken.lt).mpr (.inr ⟨away, held⟩), apart, running, same⟩

end

/-- A scan up to a slot: what it has selected could run, and if nothing is selected all that
waits below the slot is kept by a conflict. -/
structure Scanned (before : ProgressScheduler) (issued : List ProgressLease) (upto : Nat)
    (selected : Option (Nat × ProgressWork)) (now : ProgressScheduler) : Prop where
  sound : now.Sound issued
  regranted : Regranted before now
  activeCount : now.activeCount = before.activeCount
  chosen : ∀ {index work}, selected = some (index, work) →
    index < upto ∧ Occupies now.slots index work ∧ work.queued = true ∧ ¬ now.Conflicts index work
  kept : selected = none → ∀ {index work}, index < upto → Occupies now.slots index work →
    work.queued = true → now.Conflicts index work

section

variable (scanned : Scanned scheduler issued upto selected now)

include scanned

theorem Scanned.lift (same : selected = some (index, work)) : index < upto + 1 ∧
      Occupies now.slots index work ∧ work.queued = true ∧ ¬ now.Conflicts index work := by
  rcases scanned.chosen same with ⟨below, rest⟩
  exact ⟨Nat.lt_succ_of_lt below, rest⟩

/-- The scan passes a slot whose work, if any, is not queued or conflicts. -/
theorem Scanned.pass
    (passed : ∀ {work}, Occupies now.slots upto work → work.queued = true →
      now.Conflicts upto work) : Scanned scheduler issued (upto + 1) selected now := by
  refine { scanned with chosen := scanned.lift, kept := ?_ }
  intro empty index work below there waiting
  rcases Nat.lt_succ_iff_lt_or_eq.mp below with less | rfl
  · exact scanned.kept empty less there waiting
  · exact passed there waiting

theorem Scanned.consider (cancels : Nat → Bool) :
    Scanned scheduler issued (upto + 1) (considerReady cancels (selected, now) upto).1
      (considerReady cancels (selected, now) upto).2 := by
  unfold considerReady
  dsimp only
  split
  · rename_i candidate taken
    split
    · rename_i idle
      rw [not_eq_true'] at idle
      refine scanned.pass fun there waiting => ?_
      rw [Occupies.unique there taken, idle] at waiting
      cases waiting
    rename_i queued
    rw [not_eq_true', not_eq_false] at queued
    split
    · rcases scanned.sound.cancelReady taken queued with ⟨sound, regranted⟩
      have conflicts {place : Nat} {work : ProgressWork} :=
        @conflicts_cancelReady now issued upto candidate scanned.sound taken queued place work
      have slots : (now.cancelReady upto candidate).slots = now.slots.set upto
          (some { candidate with queued := false, status := .cancelled }) := by
        unfold ProgressScheduler.cancelReady
        rw [if_pos queued]
        rfl
      refine ⟨sound, scanned.regranted.trans regranted, ?_, ?_, ?_⟩
      · rw [← scanned.activeCount]
        unfold ProgressScheduler.cancelReady
        rw [if_pos queued]
        rfl
      · intro index work same
        rcases scanned.chosen same with ⟨below, there, waiting, free⟩
        refine ⟨Nat.lt_succ_of_lt below, ?_, waiting, fun conflict => free (conflicts.mp conflict)⟩
        rw [slots, occupies_set (Occupies.lt taken)]
        exact .inr ⟨ne_of_lt below, there⟩
      intro empty index work below there waiting
      rw [slots, occupies_set (Occupies.lt taken)] at there
      rcases there with ⟨_, made⟩ | ⟨away, held⟩
      · cases made
        cases waiting
      · exact conflicts.mpr (scanned.kept empty (by omega) held waiting)
    · split
      · rename_i conflict
        refine scanned.pass fun there _ => ?_
        rw [Occupies.unique there taken]
        exact activeConflict_iff.mp conflict
      rename_i free
      have found : ∀ {index work}, some (upto, candidate) = some (index, work) →
          index < upto + 1 ∧ Occupies now.slots index work ∧ work.queued = true ∧
            ¬ now.Conflicts index work := by
        intro index work same
        cases same
        exact ⟨Nat.lt_succ_self _, taken, queued,
          fun conflict => free (activeConflict_iff.mpr conflict)⟩
      split
      · split
        · exact { scanned with chosen := found, kept := fun empty => by cases empty }
        · exact { scanned with chosen := scanned.lift, kept := fun empty => by cases empty }
      · exact { scanned with chosen := found, kept := fun empty => by cases empty }
  · rename_i vacant
    exact scanned.pass fun there _ => absurd there (vacant _)

end

theorem scanned_range (sound : scheduler.Sound issued) (cancels : Nat → Bool) (upto : Nat) :
    Scanned scheduler issued upto
      ((List.range upto).foldl (considerReady cancels) (none, scheduler)).1
      ((List.range upto).foldl (considerReady cancels) (none, scheduler)).2 := by
  induction upto with
  | zero =>
    refine ⟨sound, Regranted.refl _, rfl, ?_, ?_⟩
    · intro index work selected
      cases selected
    · intro _ index work below
      exact absurd below (Nat.not_lt_zero _)
  | succ upto induction =>
    rw [range_succ, foldl_append]
    exact induction.consider cancels

theorem Sound.nextReady (sound : scheduler.Sound issued) (cancels : Nat → Bool) :
    Scanned scheduler issued scheduler.slots.length (nextReady cancels scheduler).1
      (nextReady cancels scheduler).2 :=
  scanned_range sound cancels _

theorem Sound.activate (sound : scheduler.Sound issued)
    (taken : Occupies scheduler.slots index work) (queued : work.queued = true)
    (free : ¬ scheduler.Conflicts index work)
    (place : scheduler.activeCount < scheduler.activeLimit) :
    (scheduler.activate index work).Sound issued ∧
      Regranted scheduler (scheduler.activate index work) ∧
      (scheduler.activate index work).activeCount = scheduler.activeCount + 1 := by
  have positive := sound.readyCount_pos taken queued
  have idle : work.active = false := by
    rw [← not_eq_true]
    exact fun running => sound.apart taken ⟨queued, running⟩
  have stepped : (scheduler.activate index work).activeCount = scheduler.activeCount + 1 :=
    u64Succ_of_le (le_trans sound.activeCount_le (by decide))
  refine ⟨sound.put taken rfl rfl rfl (fun both => false_ne_true both.1) ?_ ?_ ?_ rfl ?_ rfl,
    regranted_set taken rfl rfl rfl rfl, stepped⟩
  · intro _ other second away there running
    rw [← not_eq_true]
    exact fun same => free ⟨other, second, there, away, running, same⟩
  · unfold ProgressScheduler.activate
    dsimp only
    rw [u64Pred_of_pos positive, queued, toNat_true, toNat_false]
    omega
  · rw [stepped, idle]
    rfl
  · rw [stepped]
    exact place

structure Granted (before : ProgressScheduler) (issued : List ProgressLease)
    (after : ProgressScheduler) : Prop where
  sound : after.Sound issued
  regranted : Regranted before after
  satisfied : after.Satisfied

theorem Sound.grantRounds (cancels : Nat → Nat → Bool) (places round : Nat)
    (sound : scheduler.Sound issued)
    (rest : scheduler.activeCount + places = scheduler.activeLimit) :
    Granted scheduler issued (grantRounds cancels places round scheduler) := by
  induction places generalizing scheduler round with
  | zero => exact ⟨sound, Regranted.refl _, .inr (.inl (le_of_eq rest.symm))⟩
  | succ places induction => ?_
  unfold ProgressScheduler.grantRounds
  split
  · rename_i stopping
    exact ⟨sound, Regranted.refl _, .inl stopping⟩
  have scanned := sound.nextReady (cancels round)
  split
  · rename_i now result
    rw [result] at scanned
    refine ⟨scanned.sound, scanned.regranted, .inr (.inr ?_)⟩
    intro index work there waiting
    have below := there.lt
    rw [scanned.regranted.length] at below
    exact scanned.kept rfl below there waiting
  rename_i index candidate now result
  rw [result] at scanned
  rcases scanned.chosen rfl with ⟨_, taken, queued, free⟩
  have count := scanned.activeCount
  have limit := scanned.regranted.limit
  dsimp only at taken free count limit
  rcases scanned.sound.activate taken queued free (by dsimp only; omega) with
    ⟨active, regranted, stepped⟩
  have onward := induction (round + 1) active (by
    rw [stepped, regranted.limit]
    dsimp only
    omega)
  exact ⟨onward.sound, (scanned.regranted.trans regranted).trans onward.regranted, onward.satisfied⟩

theorem Sound.progressGrant (sound : scheduler.Sound issued) (cancels : Nat → Nat → Bool) :
    Granted scheduler issued (progressGrant cancels scheduler) := by
  have limit := sound.limit
  exact sound.grantRounds cancels _ 0 (by omega)

/-! ## Operations -/

theorem Sound.progressEnqueue (sound : scheduler.Sound issued)
    (taken : Occupies scheduler.slots index work) (serial : new.serial = work.serial)
    (generation : new.generation = work.generation) (waits : work.queued = false)
    (idle : work.active = false) (cancels : Nat → Nat → Bool) :
    Granted scheduler issued (progressEnqueue cancels scheduler index new) := by
  have stepped : u64Succ scheduler.readyCount = scheduler.readyCount + 1 :=
    u64Succ_of_le (le_trans sound.readyCount_le (by decide))
  have queued : Sound { scheduler.put index (some { new with
        submissionOrdinal := generationAfter scheduler.nextOrdinal
        queued := true, active := false, status := .ok }) with
      nextOrdinal := generationAfter scheduler.nextOrdinal
      readyCount := u64Succ scheduler.readyCount } issued := by
    refine sound.put taken rfl serial generation (fun both => false_ne_true both.2) ?_ ?_ ?_ rfl
      sound.limit rfl
    · intro running
      cases running
    · dsimp only
      rw [stepped, waits]
      rfl
    · dsimp only
      rw [idle]
      rfl
  have granted := queued.progressGrant cancels
  refine ⟨granted.sound, Regranted.trans ?_ granted.regranted, granted.satisfied⟩
  exact regranted_set taken rfl serial rfl rfl

theorem Sound.activeRemove (sound : scheduler.Sound issued)
    (taken : Occupies scheduler.slots index work) :
    (scheduler.activeRemove index work).Sound issued ∧
      Regranted scheduler (scheduler.activeRemove index work) ∧
      Occupies (scheduler.activeRemove index work).slots index { work with active := false } := by
  unfold ProgressScheduler.activeRemove
  split
  · rename_i running
    have positive := sound.activeCount_pos taken running
    have limit := sound.limit
    refine ⟨sound.put taken rfl rfl rfl (fun both => false_ne_true both.2) ?_ rfl ?_ rfl ?_ rfl,
      regranted_set taken rfl rfl rfl rfl, (occupies_set taken.lt).mpr (.inl ⟨rfl, rfl⟩)⟩
    · intro still
      cases still
    · dsimp only
      rw [u64Pred_of_pos positive, running, toNat_true, toNat_false]
      omega
    · rw [u64Pred_of_pos positive]
      exact le_trans (Nat.sub_le _ _) limit
  · rename_i idle
    rw [not_eq_true] at idle
    refine ⟨sound, Regranted.refl _, ?_⟩
    have same : { work with active := false } = work := by rw [← idle]
    rw [same]
    exact taken

theorem Sound.progressRelease (sound : scheduler.Sound issued) (index : Nat) :
    (scheduler.progressRelease index).Sound issued := by
  unfold ProgressScheduler.progressRelease
  split
  · rename_i work taken
    have inUse := sound.inUseCount_pos taken
    refine sound.vacate taken rfl ?_ ?_ ?_ rfl rfl
    · dsimp only
      split
      · rename_i queued
        have positive := sound.readyCount_pos taken queued
        rw [u64Pred_of_pos positive, queued, toNat_true]
        omega
      rename_i idle
      rw [not_eq_true] at idle
      rw [idle]
      rfl
    · dsimp only
      split
      · rename_i running
        have positive := sound.activeCount_pos taken running
        rw [u64Pred_of_pos positive, running, toNat_true]
        omega
      rename_i idle
      rw [not_eq_true] at idle
      rw [idle]
      rfl
    · dsimp only
      rw [u64Pred_of_pos inUse]
      omega
  · exact sound

theorem serials_progressRelease (scheduler : ProgressScheduler) (index : Nat) :
    (scheduler.progressRelease index).serials = Function.update scheduler.serials index none := by
  unfold ProgressScheduler.progressRelease
  split
  · rename_i work taken
    exact serialAt_set (Occupies.lt taken) none
  rename_i vacant
  have free : scheduler.serials index = none := by
    rcases present : scheduler.serials index with _ | serial
    · rfl
    · rcases serialAt_eq_some.mp present with ⟨work, taken, _⟩
      exact absurd taken (vacant work)
  rw [← free, Function.update_eq_self]

theorem Satisfied.progressRelease (satisfied : scheduler.Satisfied)
    (idle : ∀ {work}, Occupies scheduler.slots index work → work.active = false) :
    (scheduler.progressRelease index).Satisfied := by
  unfold ProgressScheduler.progressRelease
  split
  · rename_i work taken
    have still := idle taken
    rcases satisfied with stopping | full | kept
    · exact .inl stopping
    · right
      left
      rw [still]
      exact full
    right
    right
    intro place second there waiting
    rcases (occupies_set (Occupies.lt taken)).mp there with ⟨_, made⟩ | ⟨away, held⟩
    · cases made
    rcases kept place second held waiting with ⟨other, third, found, apart, running, same⟩
    have elsewhere : other ≠ index := by
      rintro rfl
      rw [idle found] at running
      cases running
    exact ⟨other, third, (occupies_set (Occupies.lt taken)).mpr (.inr ⟨elsewhere, found⟩),
      apart, running, same⟩
  · exact satisfied

end

end ProgressScheduler

end Yvex.Runtime
