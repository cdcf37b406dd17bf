import Mathlib.Logic.Relation
import Yvex.Runtime.ResourceWorld

namespace Yvex.Runtime

/-! # Runs of the resource catalog -/

section

variable {world : CatalogWorld}

theorem CatalogWorld.Sound.step (sound : world.Sound) (step : CatalogStep) :
    (world.step step).Sound := by
  rcases opened : world.catalog with _ | catalog
  · rw [CatalogWorld.step, opened]
    exact sound
  · exact ((sound.inside opened).step opened step).1

theorem CatalogWorld.Sound.run (sound : world.Sound) (steps : List CatalogStep) :
    (world.run steps).Sound := by
  induction steps generalizing world with
  | nil => exact sound
  | cons step steps induction => exact induction (sound.step step)

theorem sound_empty (engineGeneration : Nat) (engineIdentity : Text) : ResourceCatalog.Sound
      ⟨[], { engineGeneration := engineGeneration, engineIdentity := engineIdentity }, 0⟩ [] where
  placed := by
    refine ⟨Nat.zero_le _, ?_, ?_, ?_, ?_, rfl⟩
    all_goals
      intro index resource holds
      cases holds
  counted := ⟨fun _ => rfl, rfl, fun _ => rfl, rfl, rfl⟩
  linked := by
    refine ⟨?_, ?_⟩ <;>
      · intro index resource holds
        cases holds
  unused := by
    intro index resource holds
    cases holds

theorem CatalogWorld.sound_opened (host : ReserveHost) (engineGeneration : Nat)
    (engineIdentity : Text) (capacity : Nat) :
    (opened host engineGeneration engineIdentity capacity).Sound := by
  have quiet : Balanced [] := fun _ => ⟨Nat.le_refl _, Nat.zero_le _⟩
  refine ⟨quiet, fun {catalog} open_ => ?_⟩
  rcases ran : runtimeResourceCatalogOpen host engineGeneration engineIdentity capacity with
    _ | held
  · rw [opened, ran] at open_
    cases open_
  rw [opened, ran] at open_
  cases open_
  unfold runtimeResourceCatalogOpen at ran
  simp only [Except.bind_eq_ok] at ran
  rcases ran with ⟨_, _, _, _, ⟨retained, changed⟩, reserved, made⟩
  cases made
  rcases (sound_empty engineGeneration engineIdentity).reserve reserved with ⟨sound, steady⟩
  have vacant : ∀ {index resource}, ¬ changed.Holds index resource := by
    intro index resource holds
    rcases steady.old holds with ⟨_, before, _⟩
    cases before
  refine ⟨sound, quiet, ?_, ?_, ?_, fun holds => absurd holds vacant,
    fun holds => absurd holds vacant, fun _ => ⟨rfl, rfl, rfl⟩⟩
  · intro thread handle resource invoked running
    cases running
  · intro thread handle resource invoked other handle' resource' invoked' running
    cases running
  · intro thread handle resource invoked running
    cases running

end

/-- The resource of the first handle names the second as its dependency, and both are in use. -/
def DependsOn (catalog : ResourceCatalog) (handle needed : ResourceHandle) : Prop :=
  ∃ index resource place other, catalog.Holds index resource ∧ resource.entry.handle = handle ∧
    catalog.Holds place other ∧ other.entry.handle = needed ∧ resource.entry.dependency = needed

section

variable {catalog : ResourceCatalog}

theorem serial_lt_of_dependsOn (sound : catalog.Sound issued)
    (path : Relation.TransGen (DependsOn catalog) handle needed)
    (holds : catalog.Holds index resource) (names : resource.entry.handle = handle)
    (there : catalog.Holds place other)
    (also : other.entry.handle = needed) : other.serial < resource.serial := by
  have unique : ∀ {first second : Nat} {one two : Resource}, catalog.Holds first one →
      catalog.Holds second two → one.entry.handle = two.entry.handle → one = two := by
    intro first second one two held again same
    have here := sound.placed.index_unique held again same
    subst second
    exact held.unique again
  have single : ∀ {handle needed : ResourceHandle}, DependsOn catalog handle needed →
      ∀ {index place : Nat} {resource other : Resource}, catalog.Holds index resource →
      resource.entry.handle = handle → catalog.Holds place other →
      other.entry.handle = needed → other.serial < resource.serial := by
    rintro handle needed ⟨_, one, _, two, held, rfl, found, rfl, dependency⟩
      index place resource other holds names there also
    have first := unique holds held names
    have second := unique there found also
    subst first second
    have present : resource.entry.dependency.present = true := by
      rw [dependency, sound.placed.handle found]
      simp [ResourceHandle.present]
    rcases sound.linked.dependency held present with ⟨_, needed, kept, same, earlier⟩
    rw [dependency] at same
    rw [← unique kept found same]
    exact earlier
  induction path generalizing place other with
  | single edge => exact single edge holds names there also
  | tail path edge induction => ?_
  rcases edge with ⟨middle, between, _, last, held, rfl, found, rfl, dependency⟩
  exact lt_trans
    (single ⟨middle, between, _, last, held, rfl, found, rfl, dependency⟩ held rfl there also)
    (induction held rfl)

theorem acyclic_dependsOn (sound : catalog.Sound issued) (handle : ResourceHandle) :
    ¬ Relation.TransGen (DependsOn catalog) handle handle := by
  intro path
  rcases Relation.TransGen.head'_iff.mp path with ⟨_, ⟨_, _, _, _, holds, names, _⟩, _⟩
  exact absurd (serial_lt_of_dependsOn sound path holds names holds names) (lt_irrefl _)

end

/-- Whatever the threads do, the catalog's totals and counts are those of its slots, the
dependents of a slot are those that name it, dependencies have no cycle, and a resource in use
stays. A callback is called only for a resource out of use, and called again only after it has
failed; a handle names one resource until the generations have turned. -/
theorem runtimeResourceCatalog_contract (host : ReserveHost) (engineGeneration : Nat)
    (engineIdentity : Text) (capacity : Nat) (steps : List CatalogStep) :
    let world := (CatalogWorld.opened host engineGeneration engineIdentity capacity).run steps
    (∀ serial, successes world.events serial + refusals world.events serial ≤
        calls world.events serial ∧
      calls world.events serial ≤ refusals world.events serial + 1) ∧
    ∀ catalog, world.catalog = some catalog → Counted catalog ∧
      (∀ index resource, catalog.Holds index resource → resource.entry.dependentCount =
        slotTotal (naming resource.entry.handle) catalog.slots) ∧
      (∀ handle, ¬ Relation.TransGen (DependsOn catalog) handle handle) ∧
      (∀ step, Kept catalog (world.step step)) ∧
      (∀ index resource, catalog.Holds index resource → calls world.events resource.serial ≠ 0 →
        resource.entry.consumerCount = 0 ∧ resource.entry.dependentCount = 0) ∧
      (∀ serial handle index resource, world.issued[serial]? = some handle →
        catalog.slotLocked handle = some (index, resource) →
        resource.serial = serial ∨ serial + u64Max ≤ resource.serial) := by
  intro world
  have sound : world.Sound := (CatalogWorld.sound_opened _ _ _ _).run steps
  refine ⟨sound.balanced, fun catalog opened => ?_⟩
  have inside := sound.inside opened
  refine ⟨inside.sound.counted, fun _ _ => inside.sound.linked.dependents,
    acyclic_dependsOn inside.sound, fun step => (inside.step opened step).2, ?_,
    fun _ _ _ _ => inside.sound.placed.stale⟩
  intro index resource holds called
  refine inside.sound.unused index resource holds fun ready => called ?_
  exact inside.fresh holds (by rw [ready]; nofun) (by rw [ready]; nofun)

def plainRequest : ResourceRequest where
  kind := .component
  owner := .engine
  lifetime := .engine
  numericClass := .none
  name := ['r']
  packageIdentity := List.replicate 64 '0'
  specializationIdentity := []
  admissionIdentity := []
  dependency := .absent
  bytes := fun _ => 0
  preparationNanoseconds := 0
  value := 0
  release := true
  ready := true
  evictable := true

def plainWorld : CatalogWorld := CatalogWorld.opened ⟨1, 1, true⟩ 1 (List.replicate 64 '0') 1

def plainHandle (serial : Nat) : ResourceHandle := ⟨1, 1, generationOf serial⟩

def turn (serial : Nat) : List CatalogStep :=
  [.register plainRequest, .evict 0 (plainHandle serial), .invoke 0, .answer 0 true]

def turns (count : Nat) : List CatalogStep := (List.range count).flatMap turn

structure Vacant (world : CatalogWorld) (count : Nat) : Prop where
  sound : world.Sound
  idle : world.threads 0 = .idle
  issued : world.issued.length = count
  catalog : ∃ summary next, world.catalog = some ⟨[none], summary, next⟩ ∧
    summary.closing = false ∧ summary.engineGeneration = 1 ∧
    summary.preparationNanoseconds = 0

structure Occupied (world : CatalogWorld) (serial : Nat) : Prop where
  idle : world.threads 0 = .idle
  issued : world.issued.length = serial + 1
  catalog : ∃ summary next, world.catalog =
      some ⟨[some (registered plainRequest (plainHandle serial) serial)], summary, next⟩ ∧
    summary.closing = false ∧ summary.engineGeneration = 1 ∧
    summary.preparationNanoseconds = 0

section

variable {world : CatalogWorld}

theorem Vacant.register (vacant : Vacant world count) :
    Occupied (world.step (.register plainRequest)) count := by
  rcases vacant.catalog with ⟨summary, next, opened, closing, engine, preparation⟩
  have sound := (vacant.sound.inside opened).sound
  have following := sound.placed.next
  rw [vacant.issued] at following
  have bytes : summary.bytes = fun _ => 0 := funext sound.counted.bytes
  have identity : plainRequest.valid = true := by decide
  have accepted : ∃ changed, runtimeResourceRegister ⟨[none], summary, next⟩ plainRequest count =
        .ok (plainHandle count,
          ⟨[some (registered plainRequest (plainHandle count) count)], changed,
            generationOf count⟩) ∧
      changed.closing = false ∧ changed.engineGeneration = 1 ∧
      changed.preparationNanoseconds = 0 := by
    unfold runtimeResourceRegister
    simp only [closing, engine, preparation, bytes, following]
    exact ⟨_, rfl, rfl, rfl, rfl⟩
  rcases accepted with ⟨changed, ran, rest⟩
  unfold CatalogWorld.step
  rw [opened, vacant.issued]
  dsimp only
  rw [ran]
  exact ⟨vacant.idle, by rw [List.length_append, vacant.issued]; rfl, changed, _, rfl, rest⟩

variable {resource : Resource}

theorem step_evict_invoke (opened : world.catalog = some catalog) (idle : world.threads 0 = .idle)
    (began : releaseBegin catalog handle true = .ok (resource, marked))
    (released : resource.release = true) :
    let after := (world.step (.evict 0 handle)).step (.invoke 0)
    after.catalog = some marked ∧ after.threads 0 = .releasing handle resource true false true ∧
      after.issued.length = world.issued.length := by
  have first : world.step (.evict 0 handle) =
      { world.setThread 0 (.releasing handle resource true false false) with
        catalog := some marked } := by
    unfold CatalogWorld.step
    rw [opened]
    dsimp only
    rw [idle]
    rw [CatalogWorld.begin, began]
  rw [first]
  unfold CatalogWorld.step
  dsimp only
  rw [setThread_self]
  dsimp only
  rw [if_pos released]
  exact ⟨rfl, rfl, rfl⟩

theorem step_answer (opened : world.catalog = some catalog)
    (waits : world.threads 0 = .releasing handle resource true false true)
    (ended : releaseEnd catalog handle true true = .ok changed)
    (released : resource.release = true) :
    let after := world.step (.answer 0 true)
    after.threads 0 = .idle ∧ after.issued.length = world.issued.length ∧
      after.catalog = some changed := by
  unfold CatalogWorld.step
  rw [opened]
  dsimp only
  rw [waits]
  dsimp only
  rw [if_pos released, Bool.true_or]
  unfold CatalogWorld.finish
  rw [ended]
  exact ⟨rfl, rfl, rfl⟩

theorem Occupied.evict (occupied : Occupied world count) (sound : world.Sound) :
    Vacant (world.run [.evict 0 (plainHandle count), .invoke 0, .answer 0 true]) (count + 1) := by
  rcases occupied.catalog with ⟨summary, next, opened, closing, engine, preparation⟩
  have positive : generationOf count ≠ 0 := generationOf_ne_zero count
  have located (resource : Resource) (changed : ResourceSummary)
      (names : resource.entry.handle = plainHandle count)
      (same : changed.engineGeneration = 1) :
      ResourceCatalog.slotLocked ⟨[some resource], changed, next⟩ (plainHandle count) =
        some (0, resource) := by
    simp [ResourceCatalog.slotLocked, plainHandle, same, names, positive]
  have present : (plainHandle count).present = true := by simp [plainHandle, ResourceHandle.present]
  have began : ∃ marked, releaseBegin
        ⟨[some (registered plainRequest (plainHandle count) count)], summary, next⟩
        (plainHandle count) true =
      .ok (registered plainRequest (plainHandle count) count,
        ⟨[some ((registered plainRequest (plainHandle count) count).withState .releasing)], marked,
          next⟩) ∧
      marked.closing = false ∧ marked.engineGeneration = 1 ∧
      marked.preparationNanoseconds = 0 := by
    unfold releaseBegin
    rw [located _ _ rfl engine]
    exact ⟨_, rfl, closing, engine, preparation⟩
  rcases began with ⟨marked, began, closing, engine, preparation⟩
  have ended : ∃ changed, releaseEnd
        ⟨[some ((registered plainRequest (plainHandle count) count).withState .releasing)], marked,
          next⟩ (plainHandle count) true true = .ok ⟨[none], changed, next⟩ ∧
      changed.closing = false ∧ changed.engineGeneration = 1 ∧
      changed.preparationNanoseconds = 0 := by
    unfold releaseEnd
    rw [located _ _ rfl engine]
    exact ⟨_, rfl, closing, engine, preparation⟩
  rcases ended with ⟨changed, ended, rest⟩
  have released : (registered plainRequest (plainHandle count) count).release = true := rfl
  have called := step_evict_invoke opened occupied.idle began released
  have answered := step_answer called.1 called.2.1 ended released
  exact ⟨sound.run _, answered.1, answered.2.1.trans (called.2.2.trans occupied.issued), changed,
    next,
    answered.2.2, rest⟩

theorem Vacant.turn (vacant : Vacant world count) : Vacant (world.run (turn count)) (count + 1) :=
  vacant.register.evict (vacant.sound.step _)

theorem vacant_plainWorld : Vacant plainWorld 0 :=
  ⟨CatalogWorld.sound_opened _ _ _ _, rfl, rfl, _, _, rfl, rfl, rfl, rfl⟩

theorem vacant_turns (count : Nat) : Vacant (plainWorld.run (turns count)) count := by
  induction count with
  | zero => exact vacant_plainWorld
  | succ count induction => ?_
  have next := induction.turn
  rw [turns, List.range_succ, List.flatMap_append]
  unfold CatalogWorld.run at ⊢
  rw [List.foldl_append]
  exact next

theorem occupied_turns (count : Nat) :
    Occupied (plainWorld.run (turns count ++ [.register plainRequest])) count := by
  have occupied := (vacant_turns count).register
  unfold CatalogWorld.run at ⊢
  rw [List.foldl_append]
  exact occupied

end

/-- A failed callback is called again, and after a full turn of the generations the first handle
names another resource. -/
theorem runtimeResourceCatalog_again :
    calls (plainWorld.run [.register plainRequest, .evict 0 (plainHandle 0), .invoke 0,
      .answer 0 false, .evict 0 (plainHandle 0), .invoke 0]).events 0 = 2 ∧ ∃ catalog resource,
      (plainWorld.run (turns u64Max ++ [.register plainRequest])).catalog = some catalog ∧
      catalog.slotLocked (plainHandle 0) = some (0, resource) ∧ resource.serial = u64Max := by
  refine ⟨by decide, ?_⟩
  rcases (occupied_turns u64Max).catalog with ⟨summary, next, opened, closing, engine, _⟩
  have again : plainHandle u64Max = plainHandle 0 := by
    unfold plainHandle generationOf
    rw [Nat.mod_self, Nat.zero_mod]
  rw [again] at opened
  refine ⟨_, registered plainRequest (plainHandle 0) u64Max, opened, ?_, rfl⟩
  simp [ResourceCatalog.slotLocked, plainHandle, engine, registered, generationOf_ne_zero]

end Yvex.Runtime
