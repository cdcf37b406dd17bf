import Yvex.Runtime.ResourceSteps

namespace Yvex.Runtime

open List Bool

/-! # Threads of the resource catalog

The invariant of a run relates the catalog to the threads that release its resources and to the
callbacks seen so far. Every step keeps it, whichever thread takes it. -/

/-! ## Events -/

section

variable (events : List ReleaseEvent) (serial : Nat)

def calls : Nat := events.count (.called serial)

def refusals : Nat := events.count (.refused serial)

def successes : Nat := events.count (.succeeded serial)

end

section

variable (events : List ReleaseEvent) (serial other : Nat)

@[simp] theorem tally_called : calls (events ++ [.called serial]) other =
        calls events other + (if serial = other then 1 else 0) ∧
      refusals (events ++ [.called serial]) other = refusals events other ∧
      successes (events ++ [.called serial]) other = successes events other := by
  simp [calls, refusals, successes, count_append, count_singleton]

@[simp] theorem tally_refused : calls (events ++ [.refused serial]) other = calls events other ∧
      refusals (events ++ [.refused serial]) other =
        refusals events other + (if serial = other then 1 else 0) ∧
      successes (events ++ [.refused serial]) other = successes events other := by
  simp [calls, refusals, successes, count_append, count_singleton]

@[simp] theorem tally_succeeded : calls (events ++ [.succeeded serial]) other = calls events other ∧
      refusals (events ++ [.succeeded serial]) other = refusals events other ∧
      successes (events ++ [.succeeded serial]) other =
        successes events other + if serial = other then 1 else 0 := by
  simp [calls, refusals, successes, count_append, count_singleton]

end

/-- Every call is answered once, and called again only after a failure. -/
def Balanced (events : List ReleaseEvent) : Prop :=
  ∀ serial, successes events serial + refusals events serial ≤ calls events serial ∧
    calls events serial ≤ refusals events serial + 1

/-! ## The invariant -/

def Activity.task : Activity → Option (ResourceHandle × Resource × Bool)
  | .releasing handle resource _ _ invoked => some (handle, resource, invoked)
  | _ => none

structure Inside (world : CatalogWorld) (catalog : ResourceCatalog) : Prop where
  sound : catalog.Sound world.issued
  balanced : Balanced world.events
  marked : ∀ {thread handle resource invoked},
    (world.threads thread).task = some (handle, resource, invoked) →
    ∃ index held, catalog.Holds index held ∧ held.entry.handle = handle ∧
      held.entry.state = .releasing ∧ held.serial = resource.serial
  exclusive : ∀ {thread handle resource invoked other handle' resource' invoked'},
    (world.threads thread).task = some (handle, resource, invoked) →
    (world.threads other).task = some (handle', resource', invoked') →
    resource.serial = resource'.serial → thread = other
  asked : ∀ {thread handle resource invoked},
    (world.threads thread).task = some (handle, resource, invoked) →
    calls world.events resource.serial = refusals world.events resource.serial + invoked.toNat ∧
      successes world.events resource.serial = 0
  answered : ∀ {index resource}, catalog.Holds index resource → resource.entry.state ≠ .releasing →
    calls world.events resource.serial = refusals world.events resource.serial ∧
      successes world.events resource.serial = 0
  fresh : ∀ {index resource}, catalog.Holds index resource →
    resource.entry.state ≠ .releasing → resource.entry.state ≠ .failed →
    calls world.events resource.serial = 0
  unseen : ∀ {serial}, world.issued.length ≤ serial → calls world.events serial = 0 ∧
    refusals world.events serial = 0 ∧ successes world.events serial = 0

structure CatalogWorld.Sound (world : CatalogWorld) : Prop where
  balanced : Balanced world.events
  inside : ∀ {catalog}, world.catalog = some catalog → Inside world catalog

def Kept (catalog : ResourceCatalog) (after : CatalogWorld) : Prop :=
  ∀ index resource, catalog.Holds index resource →
    resource.entry.consumerCount ≠ 0 ∨ resource.entry.dependentCount ≠ 0 →
    ∃ changed new, after.catalog = some changed ∧ changed.Holds index new ∧
      new.serial = resource.serial

section

variable {world : CatalogWorld} {catalog changed : ResourceCatalog} {thread other index : Nat}
  {handle : ResourceHandle} {resource : Resource} {activity : Activity}

theorem Inside.worldSound (inside : Inside world catalog) (opened : world.catalog = some catalog) :
    world.Sound where
  balanced := inside.balanced
  inside := by
    intro held same
    rw [opened] at same
    cases same
    exact inside

theorem kept_refl (opened : world.catalog = some catalog) : Kept catalog world :=
  fun _ _ holds _ => ⟨catalog, _, opened, holds, rfl⟩

theorem setThread_self : (world.setThread thread activity).threads thread = activity :=
  Function.update_self ..

theorem setThread_of_ne (apart : other ≠ thread) :
    (world.setThread thread activity).threads other = world.threads other :=
  Function.update_of_ne apart ..

theorem task_setThread
    (running : ((world.setThread thread activity).threads other).task = some task) :
    other = thread ∧ activity.task = some task ∨
      other ≠ thread ∧ (world.threads other).task = some task := by
  by_cases here : other = thread
  · subst other
    rw [setThread_self] at running
    exact .inl ⟨rfl, running⟩
  · rw [setThread_of_ne here] at running
    exact .inr ⟨here, running⟩

theorem task_setThread_of_none (none : activity.task = none)
    (running : ((world.setThread thread activity).threads other).task = some task) :
    other ≠ thread ∧ (world.threads other).task = some task := by
  rcases task_setThread running with ⟨_, own⟩ | others
  · rw [none] at own
    cases own
  · exact others

section

variable (inside : Inside world catalog)
  (own : (world.threads thread).task = some (handle, resource, invoked))

include inside own

theorem Inside.serial_ne (there : catalog.Holds index new)
    (waiting : new.entry.state ≠ .releasing) : resource.serial ≠ new.serial := by
  intro same
  rcases inside.marked own with ⟨place, held, holds, _, releasing, serial⟩
  have here := inside.sound.placed.serial_unique holds there (serial.trans same)
  subst place
  rw [holds.unique there] at releasing
  exact waiting releasing

theorem Inside.serial_lt : resource.serial < world.issued.length := by
  rcases inside.marked own with ⟨_, _, holds, _, _, serial⟩
  have given := inside.sound.placed.issuedHandle holds
  rw [serial] at given
  exact index_lt given

end

/-! ## Steps -/

section

variable (inside : Inside world catalog)

include inside

theorem Inside.setThread (none : activity.task = none) :
    Inside (world.setThread thread activity) catalog :=
  { inside with
    marked := fun running => inside.marked (task_setThread_of_none none running).2
    exclusive := fun first second => inside.exclusive (task_setThread_of_none none first).2
      (task_setThread_of_none none second).2
    asked := fun running => inside.asked (task_setThread_of_none none running).2 }

theorem Inside.steady (sound : changed.Sound world.issued) (steady : Steady catalog changed) :
    Inside { world with catalog := some changed } changed ∧
      Kept catalog { world with catalog := some changed } := by
  refine ⟨⟨sound, inside.balanced, ?_, inside.exclusive, inside.asked, ?_, ?_, inside.unseen⟩, ?_⟩
  · intro thread handle resource invoked running
    rcases inside.marked running with ⟨index, held, holds, names, releasing, serial⟩
    rcases steady.kept holds with ⟨new, there, same, state, _⟩
    exact ⟨index, new, there, same.handle.trans names, state.mpr releasing,
      same.serial.trans serial⟩
  · intro index new there waiting
    rcases steady.old there with ⟨old, holds, same, state, _⟩
    rw [same.serial]
    exact inside.answered holds fun releasing => waiting (state.mpr releasing)
  · intro index new there waiting unfailed
    rcases steady.old there with ⟨old, holds, same, state, failed⟩
    rw [same.serial]
    exact inside.fresh holds (fun releasing => waiting (state.mpr releasing))
      fun fails => unfailed (failed.mpr fails)
  · intro index resource holds _
    rcases steady.kept holds with ⟨new, there, same, _⟩
    exact ⟨changed, new, rfl, there, same.serial⟩

theorem Inside.register
    (registration : Registration catalog request world.issued.length handle changed index
      dependency) :
    Inside { world with catalog := some changed, issued := world.issued ++ [handle] } changed ∧
      Kept catalog { world with catalog := some changed, issued := world.issued ++ [handle] } := by
  refine ⟨⟨inside.sound.register registration, inside.balanced, ?_, inside.exclusive,
    inside.asked, ?_, ?_, ?_⟩, ?_⟩
  · intro thread handle resource invoked running
    rcases inside.marked running with ⟨place, held, holds, names, releasing, serial⟩
    have same := sameResource_noted dependency place held
    exact ⟨place, _, registration.holds_iff.mpr (.inr ⟨held, holds, rfl⟩),
      same.handle.trans names, (noted_state ..).trans releasing, same.serial.trans serial⟩
  · intro place new there waiting
    rcases registration.holds_iff.mp there with ⟨_, rfl⟩ | ⟨old, holds, rfl⟩
    · rcases inside.unseen le_rfl with ⟨called, refused, succeeded⟩
      exact ⟨called.trans refused.symm, succeeded⟩
    · rw [noted_state] at waiting
      rw [(sameResource_noted ..).serial]
      exact inside.answered holds waiting
  · intro place new there waiting unfailed
    rcases registration.holds_iff.mp there with ⟨_, rfl⟩ | ⟨old, holds, rfl⟩
    · exact (inside.unseen le_rfl).1
    rw [noted_state] at waiting unfailed
    rw [(sameResource_noted ..).serial]
    exact inside.fresh holds waiting unfailed
  · intro serial later
    rw [length_append] at later
    exact inside.unseen (by omega)
  · intro place resource holds _
    exact ⟨changed, _, rfl, registration.holds_iff.mpr (.inr ⟨resource, holds, rfl⟩),
      (sameResource_noted ..).serial⟩

theorem Inside.begin (opened : world.catalog = some catalog) (evict inClose : Bool) :
    (world.begin catalog thread handle evict inClose).Sound ∧
      Kept catalog (world.begin catalog thread handle evict inClose) := by
  unfold CatalogWorld.begin
  split
  · rename_i resource changed ran
    rcases inside.sound.releaseBegin ran with ⟨sound, index, marked⟩
    -- A resource that some thread releases is in another slot.
    have apart : ∀ {place held}, catalog.Holds place held → held.entry.state = .releasing →
        place ≠ index := by
      rintro place held holds releasing rfl
      rw [holds.unique marked.holds] at releasing
      exact marked.unmarked releasing
    have unshared : ∀ {other handle resource' invoked},
        (world.threads other).task = some (handle, resource', invoked) →
        resource'.serial ≠ resource.serial := by
      intro other handle resource' invoked running same
      rcases inside.marked running with ⟨place, held, holds, _, releasing, serial⟩
      exact apart holds releasing
        (inside.sound.placed.serial_unique holds marked.holds (serial.trans same))
    refine ⟨@Inside.worldSound _ changed
      ⟨sound, inside.balanced, ?_, ?_, ?_, ?_, ?_, inside.unseen⟩ rfl, ?_⟩
    · intro other handle' resource' invoked now
      rcases task_setThread now with ⟨_, task⟩ | ⟨_, before⟩
      · cases task
        exact ⟨index, _, marked.holds_iff.mpr (.inl ⟨rfl, rfl⟩), marked.names, rfl, rfl⟩
      · rcases inside.marked before with ⟨place, held, holds, names, releasing, serial⟩
        exact ⟨place, held, marked.holds_iff.mpr (.inr ⟨apart holds releasing, holds⟩), names,
          releasing, serial⟩
    · intro first handle₁ resource₁ invoked₁ second handle₂ resource₂ invoked₂ one two same
      rcases task_setThread one with ⟨here, task⟩ | ⟨_, before⟩ <;>
        rcases task_setThread two with ⟨there, task'⟩ | ⟨_, before'⟩
      · exact here.trans there.symm
      · cases task
        exact absurd same.symm (unshared before')
      · cases task'
        exact absurd same (unshared before)
      · exact inside.exclusive before before' same
    · intro other handle' resource' invoked now
      rcases task_setThread now with ⟨_, task⟩ | ⟨_, before⟩
      · cases task
        exact inside.answered marked.holds marked.unmarked
      · exact inside.asked before
    · intro place new there waiting
      rcases marked.holds_iff.mp there with ⟨_, rfl⟩ | ⟨_, holds⟩
      · exact absurd rfl waiting
      · exact inside.answered holds waiting
    · intro place new there waiting unfailed
      rcases marked.holds_iff.mp there with ⟨_, rfl⟩ | ⟨_, holds⟩
      · exact absurd rfl waiting
      · exact inside.fresh holds waiting unfailed
    · intro place held holds _
      by_cases here : place = index
      · subst place
        rw [holds.unique marked.holds]
        exact ⟨changed, _, rfl, marked.holds_iff.mpr (.inl ⟨rfl, rfl⟩), rfl⟩
      · exact ⟨changed, held, rfl, marked.holds_iff.mpr (.inr ⟨here, holds⟩), rfl⟩
  · exact ⟨(inside.setThread rfl).worldSound opened, kept_refl opened⟩

theorem Inside.invoke (opened : world.catalog = some catalog)
    (waits : world.threads thread = .releasing handle resource evict inClose false) :
    ({ world.setThread thread (.releasing handle resource evict inClose true) with
        events := world.events ++ [.called resource.serial] } : CatalogWorld).Sound := by
  have own : (world.threads thread).task = some (handle, resource, false) := by
    rw [waits]
    rfl
  rcases inside.marked own with ⟨index, held, holds, names, releasing, serial⟩
  rcases inside.asked own with ⟨called, succeeded⟩
  have unshared : ∀ {other handle' resource' invoked}, other ≠ thread →
      (world.threads other).task = some (handle', resource', invoked) →
      resource.serial ≠ resource'.serial :=
    fun apart other same => apart (inside.exclusive own other same).symm
  refine @Inside.worldSound _ catalog ⟨inside.sound, ?_, ?_, ?_, ?_, ?_, ?_, ?_⟩ opened
  · intro other
    have before := inside.balanced other
    by_cases here : resource.serial = other
    · subst other
      simp only [tally_called, if_pos]
      simp only [toNat_false] at called
      omega
    · simp only [tally_called, if_neg here]
      omega
  · intro other handle' resource' invoked now
    rcases task_setThread now with ⟨_, task⟩ | ⟨_, before⟩
    · cases task
      exact ⟨index, held, holds, names, releasing, serial⟩
    · exact inside.marked before
  · intro first handle₁ resource₁ invoked₁ second handle₂ resource₂ invoked₂ one two same
    have back : ∀ {other handle' resource' invoked}, ((world.setThread thread
        (.releasing handle resource evict inClose true)).threads other).task =
          some (handle', resource', invoked) →
        ∃ before, (world.threads other).task = some (handle', resource', before) := by
      intro other handle' resource' invoked now
      rcases task_setThread now with ⟨rfl, task⟩ | ⟨_, before⟩
      · cases task
        exact ⟨false, own⟩
      · exact ⟨invoked, before⟩
    rcases back one with ⟨_, one⟩
    rcases back two with ⟨_, two⟩
    exact inside.exclusive one two same
  · intro other handle' resource' invoked now
    rcases task_setThread now with ⟨_, task⟩ | ⟨apart, before⟩
    · cases task
      simp only [tally_called, called, succeeded]
      exact ⟨rfl, trivial⟩
    · simp only [tally_called, if_neg (unshared apart before)]
      exact inside.asked before
  · intro place new there waiting
    simp only [tally_called, if_neg (inside.serial_ne own there waiting)]
    exact inside.answered there waiting
  · intro place new there waiting unfailed
    simp only [tally_called, if_neg (inside.serial_ne own there waiting)]
    exact inside.fresh there waiting unfailed
  · intro later unseen
    have apart : resource.serial ≠ later := ne_of_lt (lt_of_lt_of_le (inside.serial_lt own) unseen)
    simp only [tally_called, if_neg apart]
    exact inside.unseen unseen

/-- The second critical section: the resource is gone, or left as a failed one, and only its
callback has been answered. -/
theorem Inside.finished {invoked : Bool}
    (own : (world.threads thread).task = some (handle, resource, invoked))
    (none : activity.task = none) (sound : changed.Sound world.issued)
    {events : List ReleaseEvent} (balanced : Balanced events)
    (same : ∀ serial, resource.serial ≠ serial → calls events serial = calls world.events serial ∧
      refusals events serial = refusals world.events serial ∧
      successes events serial = successes world.events serial)
    (kept : ∀ {place old}, place ≠ index → catalog.Holds place old →
      ∃ new, changed.Holds place new ∧ SameResource old new ∧ new.entry.state = old.entry.state)
    (back : ∀ {place new}, changed.Holds place new →
      new.entry.state = .failed ∧ new.serial = resource.serial ∧
          calls events resource.serial = refusals events resource.serial ∧
          successes events resource.serial = 0 ∨
        place ≠ index ∧ ∃ old, catalog.Holds place old ∧ SameResource old new ∧
          new.entry.state = old.entry.state)
    (here : ∀ {held}, catalog.Holds index held → held.serial = resource.serial ∧
      held.entry.consumerCount = 0 ∧ held.entry.dependentCount = 0) :
    Inside { world.setThread thread activity with catalog := some changed, events := events }
        changed ∧
      Kept catalog
        { world.setThread thread activity with catalog := some changed, events := events } := by
  have others : ∀ {other handle' resource' invoked'},
      ((world.setThread thread activity).threads other).task = some (handle', resource', invoked') →
      (world.threads other).task = some (handle', resource', invoked') ∧
        resource.serial ≠ resource'.serial := by
    intro other handle' resource' invoked' running
    rcases task_setThread_of_none none running with ⟨apart, running⟩
    exact ⟨running, fun equal => apart (inside.exclusive own running equal).symm⟩
  refine ⟨⟨sound, balanced, ?_, ?_, ?_, ?_, ?_, ?_⟩, ?_⟩
  · grind [cases Inside, cases SameResource]
  · grind [cases Inside]
  · grind [cases Inside]
  · intro place new there waiting
    rcases back there with ⟨_, serial, counts⟩ | ⟨away, old, holds, alike, state⟩
    · rw [serial]
      exact counts
    rw [state] at waiting
    rcases same _ (inside.serial_ne own holds waiting) with ⟨called, refused, succeeded⟩
    rw [alike.serial, called, refused, succeeded]
    exact inside.answered holds waiting
  · intro place new there waiting unfailed
    rcases back there with ⟨failed, _⟩ | ⟨away, old, holds, alike, state⟩
    · exact absurd failed unfailed
    rw [state] at waiting unfailed
    rw [alike.serial, (same _ (inside.serial_ne own holds waiting)).1]
    exact inside.fresh holds waiting unfailed
  · intro later unseen
    have apart : resource.serial ≠ later := ne_of_lt (lt_of_lt_of_le (inside.serial_lt own) unseen)
    rcases same _ apart with ⟨called, refused, succeeded⟩
    rw [called, refused, succeeded]
    exact inside.unseen unseen
  · intro place old holds used
    have away : place ≠ index := by
      grind
    rcases kept away holds with ⟨new, there, alike, _⟩
    exact ⟨changed, new, rfl, there, alike.serial⟩

end

section

variable (inside : Inside world catalog)

include inside

theorem Inside.finishRemoved
    (waits : world.threads thread = .releasing handle resource evict inClose invoked)
    (matched : resource.release = invoked) :
    (world.finish catalog thread handle resource evict inClose true).Sound ∧
      Kept catalog (world.finish catalog thread handle resource evict inClose true) := by
  have own : (world.threads thread).task = some (handle, resource, invoked) := by
    rw [waits]
    rfl
  rcases inside.marked own with ⟨index, held, holds, names, releasing, serial⟩
  rcases inside.asked own with ⟨called, succeeded⟩
  have unused := inside.sound.unused index held holds (by rw [releasing]; nofun)
  have located := inside.sound.placed.slotLocked_eq_some.mpr ⟨holds, names⟩
  have ended : releaseEnd catalog handle evict true =
      .ok (resourceRemove catalog index held evict) := by
    rw [releaseEnd, located]
    rfl
  unfold CatalogWorld.finish
  rw [ended]
  have finished := @Inside.finished world catalog (resourceRemove catalog index held evict) thread
    index handle resource (if inClose && true then .rescanning else .idle) inside invoked own
    (by split <;> rfl) (inside.sound.remove holds releasing evict)
    (if resource.release then world.events ++ [.succeeded resource.serial] else world.events)
  refine (finished ?_ ?_ ?_ ?_ ?_).imp (fun inside => inside.worldSound rfl) id
  · intro other
    have before := inside.balanced other
    by_cases asked : resource.release = true
    · rw [if_pos asked]
      rw [← matched, asked, toNat_true] at called
      simp only [tally_succeeded]
      split
      · subst other
        omega
      · omega
    · rw [if_neg asked]
      exact before
  · intro other apart
    split
    · simp [apart]
    · exact ⟨rfl, rfl, rfl⟩
  · intro place old away there
    exact ⟨_, (holds_removed inside.sound holds).mpr ⟨away, old, there, rfl⟩,
      sameResource_unnoted held old, unnoted_state held old⟩
  · intro place new there
    rcases (holds_removed inside.sound holds).mp there with ⟨away, old, before, rfl⟩
    exact .inr ⟨away, old, before, sameResource_unnoted held old, unnoted_state held old⟩
  · intro found there
    rw [there.unique holds]
    exact ⟨serial, unused⟩

theorem Inside.finishRefused
    (waits : world.threads thread = .releasing handle resource evict inClose true)
    (asked : resource.release = true) :
    (world.finish catalog thread handle resource evict inClose false).Sound ∧
      Kept catalog (world.finish catalog thread handle resource evict inClose false) := by
  have own : (world.threads thread).task = some (handle, resource, true) := by
    rw [waits]
    rfl
  rcases inside.marked own with ⟨index, held, holds, rfl, releasing, serial⟩
  rcases inside.asked own with ⟨called, succeeded⟩
  rw [toNat_true] at called
  have unused := inside.sound.unused index held holds (by rw [releasing]; nofun)
  have located := inside.sound.placed.slotLocked_eq_some.mpr ⟨holds, rfl⟩
  rcases ended : releaseEnd catalog held.entry.handle evict false with _ | changed
  · rw [releaseEnd, located] at ended
    cases ended
  rcases inside.sound.releaseRefused holds releasing ended with ⟨sound, slots⟩
  have holds_iff : ∀ {place new}, changed.Holds place new ↔
      place = index ∧ held.withState .failed = new ∨ place ≠ index ∧ catalog.Holds place new := by
    intro place new
    have put := @holds_put catalog index place new (some (held.withState .failed)) holds.lt
    rw [Option.some.injEq] at put
    rw [← put]
    unfold ResourceCatalog.Holds
    rw [slots]
    exact Iff.rfl
  unfold CatalogWorld.finish
  rw [ended]
  have finished := @Inside.finished world catalog changed thread index held.entry.handle resource
    .idle inside true own rfl sound (world.events ++ [.refused resource.serial])
  simp only [asked, Bool.and_false]
  refine (finished ?_ ?_ ?_ ?_ ?_).imp (fun inside => inside.worldSound rfl) id
  · intro other
    have before := inside.balanced other
    simp only [tally_refused]
    split
    · subst other
      omega
    · exact before
  · intro other apart
    simp [apart]
  · intro place old away there
    exact ⟨old, holds_iff.mpr (.inr ⟨away, there⟩), SameResource.refl old, rfl⟩
  · intro place new there
    rcases holds_iff.mp there with ⟨_, rfl⟩ | ⟨away, before⟩
    · simp only [tally_refused]
      exact .inl ⟨rfl, serial, called, succeeded⟩
    · exact .inr ⟨away, new, before, SameResource.refl new, rfl⟩
  · intro found there
    rw [there.unique holds]
    exact ⟨serial, unused⟩

theorem Inside.scan :
    (world.scan catalog thread).Sound ∧ Kept catalog (world.scan catalog thread) := by
  have again := @Inside.steady world catalog catalog inside inside.sound
    ⟨fun holds => ⟨_, holds, SameResource.refl _, Iff.rfl, Iff.rfl⟩,
      fun holds => ⟨_, holds, SameResource.refl _, Iff.rfl, Iff.rfl⟩⟩
  unfold CatalogWorld.scan
  split
  · exact ⟨(again.1.setThread rfl).worldSound rfl, kept_refl rfl⟩
  split
  · exact ⟨(again.1.setThread rfl).worldSound rfl, kept_refl rfl⟩
  rename_i empty
  push Not at empty
  refine ⟨⟨inside.balanced, fun opened => by cases opened⟩, ?_⟩
  intro place resource holds _
  rw [inside.sound.counted.resources] at empty
  exact absurd (eq_zero_of_slotTotal empty holds) Nat.one_ne_zero

theorem Inside.replace (opened : world.catalog = some catalog)
    (accepted : ∀ {changed}, outcome = .ok changed →
      changed.Sound world.issued ∧ Steady catalog changed) :
    (world.replace outcome).Sound ∧ Kept catalog (world.replace outcome) := by
  cases outcome with
  | error => exact ⟨inside.worldSound opened, kept_refl opened⟩
  | ok changed => ?_
  rcases accepted rfl with ⟨sound, steady⟩
  rcases inside.steady sound steady with ⟨after, kept⟩
  exact ⟨after.worldSound rfl, kept⟩

theorem Inside.closing :
    Inside world { catalog with summary := { catalog.summary with closing := true } } :=
  { inside with
    sound := { inside.sound with
      placed := { inside.sound.placed with }
      counted := { inside.sound.counted with }
      linked := { inside.sound.linked with } } }

theorem Inside.step (opened : world.catalog = some catalog)
    (step : CatalogStep) : (world.step step).Sound ∧ Kept catalog (world.step step) := by
  have unchanged := And.intro (inside.worldSound opened) (kept_refl opened)
  have sound := inside.sound
  unfold CatalogWorld.step
  rw [opened]
  cases step with
  | register request =>
    dsimp only
    split
    · rename_i handle changed ran
      rcases runtimeResourceRegister_eq_ok sound.placed ran with ⟨_, _, registration⟩
      rcases inside.register registration with ⟨after, kept⟩
      exact ⟨after.worldSound rfl, kept⟩
    · exact unchanged
  | publishReady handle => exact inside.replace opened sound.publishReady
  | acquire handle =>
    refine inside.replace opened fun {changed} ran => ?_
    rcases acquired : runtimeResourceAcquire catalog handle with _ | ⟨value, borrowed⟩
    · rw [acquired] at ran
      cases ran
    · rw [acquired] at ran
      cases ran
      exact sound.acquire acquired
  | drop handle => exact inside.replace opened sound.drop
  | reserve host capacity maximumHostBytes =>
    refine inside.replace opened fun {changed} ran => ?_
    rcases reserved : runtimeResourceCatalogReserve host catalog capacity maximumHostBytes with
      _ | ⟨retained, grown⟩
    · rw [reserved] at ran
      cases ran
    · rw [reserved] at ran
      cases ran
      exact sound.reserve reserved
  | evict thread handle =>
    dsimp only
    split
    · exact inside.begin opened true false
    · exact unchanged
  | invoke thread =>
    dsimp only
    split
    · rename_i waits
      split
      · exact ⟨inside.invoke opened waits, kept_refl opened⟩
      · exact unchanged
    · exact unchanged
  | answer thread answered =>
    dsimp only
    split
    · rename_i handle resource evict inClose invoked waits
      split
      · rename_i matched
        by_cases ends : (answered || !resource.release) = true
        · rw [ends]
          exact inside.finishRemoved waits matched
        rw [not_eq_true] at ends
        rw [ends]
        rw [or_eq_false_iff, not_eq_false'] at ends
        rw [← matched, ends.2] at waits
        exact inside.finishRefused waits ends.2
      · exact unchanged
    · exact unchanged
  | close thread =>
    dsimp only
    split
    · exact inside.closing.scan
    · exact unchanged
  | closeRelease thread =>
    dsimp only
    split
    · exact inside.begin opened false true
    · exact unchanged
  | closeScan thread =>
    dsimp only
    split
    · exact inside.scan
    · exact unchanged

end

end

end Yvex.Runtime
