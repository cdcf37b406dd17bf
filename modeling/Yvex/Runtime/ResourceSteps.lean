import Yvex.Runtime.ResourceInvariant

namespace Yvex.Runtime

open List Option

/-! # Registration and release keep the invariant

A registration fills a free slot and adds a dependent to the resource it names; a release marks
a resource and later removes it or records the failure of its callback. -/

section

variable {catalog changed : ResourceCatalog} {index other : Nat} {handle : ResourceHandle}
  {resource new old : Resource} {request : ResourceRequest} {dependency : Option (Nat × Resource)}

/-! ## Registration -/

structure Found (catalog : ResourceCatalog) (request : ResourceRequest)
    (dependency : Option (Nat × Resource)) : Prop where
  absent : dependency = none → request.dependency.present = false
  holds : ∀ {index needed}, dependency = some (index, needed) → catalog.Holds index needed ∧
    needed.entry.handle = request.dependency ∧ needed.entry.state = .ready

theorem requestDependency_eq_ok (placed : Placed catalog issued)
    (ran : requestDependency catalog request = .ok dependency) :
    Found catalog request dependency := by
  unfold requestDependency at ran
  split at ran
  · split at ran
    · rename_i present found located
      split at ran
      · rename_i ready
        cases ran
        rcases placed.slotLocked_eq_some.mp located with ⟨holds, named⟩
        refine ⟨nofun, ?_⟩
        rintro index needed ⟨⟩
        exact ⟨holds, named, ready⟩
      · cases ran
    · cases ran
  · rename_i absent
    cases ran
    exact ⟨fun _ => by simpa using absent, nofun⟩

section

variable (dependency : Option (Nat × Resource)) (index : Nat) (resource : Resource)

/-- A measure that does not see how many resources need one. -/
def Blind (measure : Resource → Nat) : Prop :=
  ∀ resource count, measure (resource.withDependents count) = measure resource

def noted : Resource :=
  if dependency.any (fun found => found.1 == index) then
    resource.withDependents (u64Succ resource.entry.dependentCount)
  else resource

theorem sameResource_noted : SameResource resource (noted dependency index resource) := by
  unfold noted
  split <;> exact ⟨rfl, rfl, rfl, rfl, rfl, rfl⟩

theorem noted_state : (noted dependency index resource).entry.state = resource.entry.state := by
  unfold noted
  split <;> rfl

end

section

variable (found : Found catalog request dependency) (free : catalog.slots[index]? = some none)

include found free

theorem holds_registered :
    (noteDependent (catalog.put index (some new)) dependency).Holds other resource ↔
      other = index ∧ new = resource ∨
        ∃ old, catalog.Holds other old ∧ resource = noted dependency other old := by
  have bound : index < catalog.slots.length := index_lt free
  have apart : ∀ {place held}, catalog.Holds place held → place ≠ index := by
    rintro place held holds rfl
    unfold ResourceCatalog.Holds at holds
    rw [free] at holds
    cases holds
  cases dependency with
  | none =>
    rw [noteDependent, holds_put bound]
    constructor
    · rintro (⟨rfl, made⟩ | ⟨_, held⟩)
      · cases made
        exact .inl ⟨rfl, rfl⟩
      · exact .inr ⟨resource, held, rfl⟩
    · rintro (⟨rfl, rfl⟩ | ⟨old, held, rfl⟩)
      · exact .inl ⟨rfl, rfl⟩
      · exact .inr ⟨apart held, held⟩
  | some pair =>
    rcases pair with ⟨place, needed⟩
    rcases found.holds rfl with ⟨there, _⟩
    have within : place < (catalog.put index (some new)).slots.length := by
      change place < (catalog.slots.set index (some new)).length
      rw [length_set]
      exact there.lt
    rw [noteDependent, holds_put within, holds_put bound]
    constructor
    · rintro (⟨rfl, made⟩ | ⟨away, ⟨rfl, made⟩ | ⟨_, held⟩⟩)
      · cases made
        exact .inr ⟨needed, there, by simp [noted]⟩
      · cases made
        exact .inl ⟨rfl, rfl⟩
      · exact .inr ⟨resource, held, by simp [noted, Ne.symm away]⟩
    rintro (⟨rfl, rfl⟩ | ⟨old, held, rfl⟩)
    · exact .inr ⟨(apart there).symm, .inl ⟨rfl, rfl⟩⟩
    by_cases here : other = place
    · subst other
      have same := held.unique there
      subst old
      exact .inl ⟨rfl, by simp [noted]⟩
    · exact .inr ⟨here, .inr ⟨apart held, by simpa [noted, Ne.symm here] using held⟩⟩

theorem slotTotal_registered {measure : Resource → Nat} (blind : Blind measure) :
    slotTotal measure (noteDependent (catalog.put index (some new)) dependency).slots =
      slotTotal measure catalog.slots + measure new := by
  have first := slotTotal_set measure free (some new)
  simp only [elim_some] at first
  cases dependency with
  | none => exact first
  | some pair => ?_
  rcases pair with ⟨place, needed⟩
  rcases found.holds rfl with ⟨there, _⟩
  have apart : index ≠ place := by
    rintro rfl
    unfold ResourceCatalog.Holds at there
    rw [free] at there
    cases there
  have held : (catalog.slots.set index (some new))[place]? = some (some needed) := by
    rw [getElem?_set_ne apart]
    exact there
  rw [← first]
  exact slotTotal_set_same held (blind needed _)

end

structure Registration (catalog : ResourceCatalog) (request : ResourceRequest) (serial : Nat)
    (handle : ResourceHandle) (changed : ResourceCatalog) (index : Nat)
    (dependency : Option (Nat × Resource)) : Prop where
  found : Found catalog request dependency
  free : catalog.slots[index]? = some none
  names : handle =
    ⟨catalog.summary.engineGeneration, index + 1, generationAfter catalog.nextGeneration⟩
  slots : changed.slots = (noteDependent (catalog.put index
    (some (registered request handle serial))) dependency).slots
  next : changed.nextGeneration = generationAfter catalog.nextGeneration
  engine : changed.summary.engineGeneration = catalog.summary.engineGeneration
  bytes : ∀ field, changed.summary.bytes field = catalog.summary.bytes field + request.bytes field
  resources : changed.summary.resourceCount = u64Succ catalog.summary.resourceCount
  kinds : ∀ kind, changed.summary.countByKind kind =
    if kind = request.kind then u64Succ (catalog.summary.countByKind kind)
    else catalog.summary.countByKind kind
  ready : changed.summary.readyCount =
    if request.ready then u64Succ catalog.summary.readyCount else catalog.summary.readyCount
  failed : changed.summary.failedCount = catalog.summary.failedCount

theorem runtimeResourceRegister_eq_ok (placed : Placed catalog issued)
    (ran : runtimeResourceRegister catalog request serial = .ok (handle, changed)) :
    ∃ index dependency, Registration catalog request serial handle changed index dependency := by
  unfold runtimeResourceRegister at ran
  simp only [Except.bind_eq_ok, orReject_eq_ok] at ran
  rcases ran with ⟨_, _, _, _, dependency, located, index, vacant, totals, added, _, _, made⟩
  cases made
  have found := requestDependency_eq_ok placed located
  have free : catalog.slots[index]? = some none := by
    rcases findIdx?_eq_some_iff_getElem.mp vacant with ⟨bound, none, _⟩
    rw [getElem?_eq_getElem bound, some.injEq]
    exact isNone_iff_eq_none.mp none
  refine ⟨index, dependency, found, free, rfl, rfl, rfl, rfl, ?_, rfl, fun _ => rfl, rfl, rfl⟩
  intro field
  unfold resourceBytesAdd at added
  split at added
  · cases added
    rfl
  · cases added

section

variable {serial : Nat}

section

variable (registration : Registration catalog request serial handle changed index dependency)

include registration

theorem Registration.holds_iff :
    changed.Holds other resource ↔ other = index ∧ registered request handle serial = resource ∨
      ∃ old, catalog.Holds other old ∧ resource = noted dependency other old := by
  rw [← holds_registered registration.found registration.free]
  unfold ResourceCatalog.Holds
  rw [registration.slots]

theorem Registration.slotTotal {measure : Resource → Nat} (blind : Blind measure) :
    slotTotal measure changed.slots =
      slotTotal measure catalog.slots + measure (registered request handle serial) := by
  rw [registration.slots]
  exact slotTotal_registered registration.found registration.free blind

theorem Registration.apart (holds : catalog.Holds other resource) : other ≠ index := by
  rintro rfl
  unfold ResourceCatalog.Holds at holds
  rw [registration.free] at holds
  cases holds

end

theorem Registration.placed
    (registration : Registration catalog request issued.length handle changed index dependency)
    (placed : Placed catalog issued) : Placed changed (issued ++ [handle]) := by
  have named : handle =
      ⟨catalog.summary.engineGeneration, index + 1, generationOf issued.length⟩ := by
    rw [registration.names, placed.next]
  have slots : changed.slots.length = catalog.slots.length := by
    rw [registration.slots]
    cases dependency <;> simp [noteDependent, ResourceCatalog.put]
  have last (serial : Nat) (given : ResourceHandle)
      (issuedAt : (issued ++ [handle])[serial]? = some given) :
      issued[serial]? = some given ∨ serial = issued.length ∧ given = handle := by
    grind
  refine ⟨by rw [slots]; exact placed.small, ?_, ?_, ?_, ?_, ?_⟩
  · intro other resource holds
    rw [registration.engine]
    rcases registration.holds_iff.mp holds with ⟨rfl, rfl⟩ | ⟨old, held, rfl⟩
    · exact named
    have same := sameResource_noted dependency other old
    rw [same.handle, same.serial]
    exact placed.handle held
  · intro other resource holds
    rcases registration.holds_iff.mp holds with ⟨rfl, rfl⟩ | ⟨old, held, rfl⟩
    · simp [registered]
    have same := sameResource_noted dependency other old
    rw [same.handle, same.serial]
    have given := placed.issuedHandle held
    rw [List.getElem?_append_left (index_lt given)]
    exact given
  · intro other resource holds serial given issuedAt slot
    rcases registration.holds_iff.mp holds with ⟨rfl, rfl⟩ | ⟨old, held, rfl⟩
    · rcases last serial given issuedAt with before | ⟨rfl, _⟩
      · exact le_of_lt (index_lt before)
      · exact le_rfl
    rw [(sameResource_noted dependency other old).serial]
    rcases last serial given issuedAt with before | ⟨_, rfl⟩
    · exact placed.latest held serial given before slot
    · rw [named] at slot
      exact absurd (by simpa using slot.symm) (registration.apart held)
  · grind [cases Placed]
  · rw [registration.next, placed.next, generationAfter_generationOf, length_append,
      length_singleton]

theorem Registration.counted
    (registration : Registration catalog request serial handle changed index dependency)
    (counted : Counted catalog) (small : catalog.slots.length ≤ 1024) : Counted changed := by
  have stepped {measure : Resource → Nat} (unit : ∀ resource, measure resource ≤ 1) :
      u64Succ (Runtime.slotTotal measure catalog.slots) =
        Runtime.slotTotal measure catalog.slots + 1 :=
    u64Succ_of_le (le_trans (slotTotal_le_length unit _) small)
  refine ⟨fun field => ?_, ?_, fun kind => ?_, ?_, ?_⟩
  · rw [registration.bytes, registration.slotTotal fun _ _ => rfl, counted.bytes]
    rfl
  · rw [registration.resources, registration.slotTotal fun _ _ => rfl, counted.resources]
    exact stepped fun _ => le_rfl
  · rw [registration.kinds, registration.slotTotal fun _ _ => rfl, counted.kinds]
    by_cases same : kind = request.kind
    · rw [stepped (ofKind_le kind)]
      simp [ofKind, registered, same]
    · rw [if_neg same]
      simp [ofKind, registered, Ne.symm same]
  · rw [registration.ready, registration.slotTotal fun _ _ => rfl, counted.ready]
    by_cases ready : request.ready = true
    · rw [stepped (inState_le _)]
      simp [inState, registered, ready]
    · simp [inState, registered, ready]
  · rw [registration.failed, registration.slotTotal fun _ _ => rfl, counted.failed]
    by_cases ready : request.ready = true <;> simp [inState, registered, ready]

theorem Placed.handle_ne (placed : Placed catalog issued) (holds : catalog.Holds other resource)
    {free : Nat} (apart : other ≠ free) {engine generation : Nat} :
    resource.entry.handle ≠ ⟨engine, free + 1, generation⟩ := by
  rw [placed.handle holds, Ne, ResourceHandle.mk.injEq]
  omega

theorem Registration.linked
    (registration : Registration catalog request issued.length handle changed index dependency)
    (sound : catalog.Sound issued) : Linked changed := by
  have placed := sound.placed
  have absent : ∀ {given : ResourceHandle}, given.present = false → given = .absent := by
    intro given none
    rcases given with ⟨engine, slot, generation⟩
    simpa [ResourceHandle.present, ResourceHandle.absent, and_assoc] using none
  -- No resource names the slot that was free.
  have unnamed : ∀ {place held}, catalog.Holds place held → held.entry.dependency ≠ handle := by
    intro place held holds same
    rw [registration.names] at same
    by_cases named : held.entry.dependency.present = true
    · rcases sound.linked.dependency holds named with ⟨target, needed, there, match_, _⟩
      rw [← match_] at same
      exact placed.handle_ne there (registration.apart there) same
    · rw [same] at named
      simp [ResourceHandle.present] at named
  -- The new resource names its dependency and no other.
  have naming_new : ∀ {place held}, catalog.Holds place held →
      naming held.entry.handle (registered request handle issued.length) =
        if dependency.any (fun found => found.1 == place) then 1 else 0 := by
    intro place held holds
    cases dependency with
    | none =>
      have none := absent (registration.found.absent rfl)
      have different : request.dependency ≠ held.entry.handle := by
        rw [none, placed.handle holds, ResourceHandle.absent, Ne, ResourceHandle.mk.injEq]
        omega
      simp [naming, registered, different]
    | some pair =>
      rcases pair with ⟨target, needed⟩
      rcases registration.found.holds rfl with ⟨there, names, _⟩
      simp only [naming, registered, ← names]
      by_cases here : target = place
      · subst target
        rw [there.unique holds]
        simp
      · grind [cases Placed]
  constructor
  · intro other resource holds
    rw [registration.slotTotal fun _ _ => rfl]
    rcases registration.holds_iff.mp holds with ⟨rfl, rfl⟩ | ⟨old, held, rfl⟩
    · have none : Runtime.slotTotal (naming handle) catalog.slots = 0 := by
        refine slotTotal_eq_zero fun place held holds => ?_
        simp [naming, unnamed holds]
      have self : naming handle (registered request handle issued.length) = 0 := by
        have different : request.dependency ≠ handle := by
          cases dependency with
          | none =>
            rw [absent (registration.found.absent rfl), registration.names,
              ResourceHandle.absent, Ne, ResourceHandle.mk.injEq]
            omega
          | some pair => ?_
          rcases pair with ⟨target, needed⟩
          rcases registration.found.holds rfl with ⟨there, names, _⟩
          rw [← names, registration.names]
          exact placed.handle_ne there (registration.apart there)
        simp [naming, registered, different]
      change 0 = Runtime.slotTotal (naming handle) catalog.slots + naming handle _
      rw [none, self]
    · rw [(sameResource_noted dependency other old).handle, naming_new held,
        ← sound.linked.dependents held]
      unfold noted
      split
      · have few : old.entry.dependentCount ≤ 1024 := by
          rw [sound.linked.dependents held]
          exact le_trans (slotTotal_le_length (naming_le _) _) placed.small
        exact u64Succ_of_le few
      · rfl
  · intro other resource holds named
    have still : ∀ {place needed}, catalog.Holds place needed →
        changed.Holds place (noted dependency place needed) := fun there =>
      registration.holds_iff.mpr (.inr ⟨_, there, rfl⟩)
    rcases registration.holds_iff.mp holds with ⟨rfl, rfl⟩ | ⟨old, held, rfl⟩
    · cases dependency with
      | none =>
        have none := registration.found.absent rfl
        change request.dependency.present = true at named
        rw [none] at named
        cases named
      | some pair => ?_
      rcases pair with ⟨target, needed⟩
      rcases registration.found.holds rfl with ⟨there, names, _⟩
      have same := sameResource_noted (some (target, needed)) target needed
      refine ⟨target, _, still there, ?_, ?_⟩
      · rw [same.handle, names]
        rfl
      · rw [same.serial]
        exact index_lt (placed.issuedHandle there)
    · exact sound.linked.carried held (sameResource_noted dependency other old)
        (fun there _ => ⟨_, still there, sameResource_noted dependency _ _⟩) named

theorem Registration.unused
    (registration : Registration catalog request serial handle changed index dependency)
    (unused : Unused catalog) : Unused changed := by
  intro other resource holds waiting
  rcases registration.holds_iff.mp holds with ⟨rfl, rfl⟩ | ⟨old, held, rfl⟩
  · exact ⟨rfl, rfl⟩
  rw [noted_state] at waiting
  have away : dependency.any (fun found => found.1 == other) = false := by
    cases dependency with
    | none => rfl
    | some pair => ?_
    rcases pair with ⟨target, needed⟩
    rcases registration.found.holds rfl with ⟨there, _, ready⟩
    by_contra here
    have same : target = other := by simpa using here
    subst target
    rw [there.unique held] at ready
    exact waiting ready
  unfold noted
  rw [away]
  exact unused other old held waiting

theorem ResourceCatalog.Sound.register (sound : catalog.Sound issued)
    (registration : Registration catalog request issued.length handle changed index dependency) :
    changed.Sound (issued ++ [handle]) where
  placed := registration.placed sound.placed
  counted := registration.counted sound.counted sound.placed.small
  linked := registration.linked sound
  unused := registration.unused sound.unused

end

/-! ## Marking a resource -/

structure Marked (catalog : ResourceCatalog) (handle : ResourceHandle) (resource : Resource)
    (changed : ResourceCatalog) (index : Nat) : Prop where
  holds : catalog.Holds index resource
  names : resource.entry.handle = handle
  unmarked : resource.entry.state ≠ .releasing
  consumers : resource.entry.consumerCount = 0
  dependents : resource.entry.dependentCount = 0
  slots : changed.slots = catalog.slots.set index (some (resource.withState .releasing))

theorem ResourceCatalog.Sound.releaseBegin (sound : catalog.Sound issued)
    (ran : releaseBegin catalog handle evict = .ok (resource, changed)) :
    changed.Sound issued ∧ ∃ index, Marked catalog handle resource changed index := by
  unfold Runtime.releaseBegin at ran
  split at ran
  · cases ran
  split at ran
  · cases ran
  rename_i index found located
  rcases sound.placed.slotLocked_eq_some.mp located with ⟨holds, names⟩
  dsimp only at ran
  split at ran
  · cases ran
  split at ran
  · cases ran
  rename_i free
  push Not at free
  rcases free with ⟨unmarked, consumers, dependents⟩
  cases ran
  refine ⟨sound.put holds ⟨rfl, rfl, rfl, rfl, rfl, rfl⟩ ⟨rfl, rfl, rfl, rfl⟩ rfl ?_ ?_ ?_,
    index, holds, names, unmarked, consumers, dependents, rfl⟩
  · exact fun _ => ⟨consumers, dependents⟩
  · dsimp only
    rw [sound.counted.ready]
    split
    · rename_i ready
      apply u64Pred_slotTotal holds
      simp [inState, Resource.withState, ready]
    · rename_i unready
      refine (slotTotal_set_same holds ?_).symm
      simp [inState, Resource.withState, unready]
  · dsimp only
    rw [sound.counted.failed]
    split
    · rename_i failed
      apply u64Pred_slotTotal holds
      simp [inState, Resource.withState, failed]
    · rename_i unfailed
      refine (slotTotal_set_same holds ?_).symm
      simp [inState, Resource.withState, unfailed]

theorem Marked.holds_iff (marked : Marked catalog handle resource changed index) :
    changed.Holds other new ↔ other = index ∧ resource.withState .releasing = new ∨
      other ≠ index ∧ catalog.Holds other new := by
  have put := @holds_put catalog index other new (some (resource.withState .releasing))
    marked.holds.lt
  unfold ResourceCatalog.Holds ResourceCatalog.put at put
  unfold ResourceCatalog.Holds
  rw [marked.slots, put, some.injEq]

/-! ## The answer of a callback -/

theorem ResourceCatalog.Sound.releaseRefused (sound : catalog.Sound issued)
    (holds : catalog.Holds index resource) (releasing : resource.entry.state = .releasing)
    (ran : releaseEnd catalog resource.entry.handle evict false = .ok changed) :
    changed.Sound issued ∧
      changed.slots = catalog.slots.set index (some (resource.withState .failed)) := by
  unfold releaseEnd at ran
  rw [sound.placed.slotLocked_eq_some.mpr ⟨holds, rfl⟩] at ran
  cases ran
  have unused := sound.unused index resource holds (by rw [releasing]; nofun)
  refine ⟨sound.put holds ⟨rfl, rfl, rfl, rfl, rfl, rfl⟩ ⟨rfl, rfl, rfl, rfl⟩ rfl ?_ ?_ ?_, rfl⟩
  · exact fun _ => unused
  · refine sound.counted.ready.trans (slotTotal_set_same holds ?_).symm
    simp [inState, Resource.withState, releasing]
  rw [sound.counted.failed]
  apply u64Succ_slotTotal (inState_le _) sound.placed.small holds
  simp [inState, Resource.withState, releasing]

section

variable (removed resource : Resource)

def unnoted : Resource :=
  if resource.entry.handle = removed.entry.dependency then
    resource.withDependents (u64Pred resource.entry.dependentCount)
  else resource

theorem sameResource_unnoted : SameResource resource (unnoted removed resource) := by
  unfold unnoted
  split <;> exact ⟨rfl, rfl, rfl, rfl, rfl, rfl⟩

theorem unnoted_state : (unnoted removed resource).entry.state = resource.entry.state := by
  unfold unnoted
  split <;> rfl

end

theorem Linked.dependentCount_pos (linked : Linked catalog) (holds : catalog.Holds index resource)
    (there : catalog.Holds other needed) (names : needed.entry.handle = resource.entry.dependency) :
    0 < needed.entry.dependentCount := by
  have counted := measure_le_slotTotal (naming needed.entry.handle) holds
  rw [← linked.dependents there] at counted
  have one : naming needed.entry.handle resource = 1 := by simp [naming, names]
  omega

section

variable (sound : catalog.Sound issued)

include sound

section

variable (holds : catalog.Holds index resource)

include holds

theorem resourceDependencyDrop_eq : resourceDependencyDrop catalog resource.entry = catalog ∧
        (∀ {place held}, catalog.Holds place held → held.entry.handle ≠ resource.entry.dependency) ∨
      ∃ place needed, place ≠ index ∧ catalog.Holds place needed ∧
        needed.entry.handle = resource.entry.dependency ∧
        resourceDependencyDrop catalog resource.entry =
          catalog.put place (some (unnoted resource needed)) := by
  unfold resourceDependencyDrop
  split
  · rename_i named
    rcases sound.linked.dependency holds named with ⟨place, needed, there, names, earlier⟩
    have counted := sound.linked.dependentCount_pos holds there names
    rw [sound.placed.slotLocked_eq_some.mpr ⟨there, names⟩]
    refine .inr ⟨place, needed, ?_, there, names, ?_⟩
    · rintro rfl
      rw [there.unique holds] at earlier
      exact lt_irrefl _ earlier
    · dsimp only
      rw [if_neg (ne_of_gt counted), unnoted, if_pos names]
  · rename_i absent
    refine .inl ⟨rfl, fun there same => ?_⟩
    rw [← same, sound.placed.handle there] at absent
    simp [ResourceHandle.present] at absent

theorem holds_removed : (resourceRemove catalog index resource evicted).Holds other new ↔
      other ≠ index ∧ ∃ old, catalog.Holds other old ∧ new = unnoted resource old := by
  have slots : (resourceRemove catalog index resource evicted).Holds other new ↔
      ((resourceDependencyDrop catalog resource.entry).put index none).Holds other new := Iff.rfl
  rw [slots]
  rcases resourceDependencyDrop_eq sound holds with
    ⟨same, unnamed⟩ | ⟨place, needed, apart, there, names, dropped⟩
  · rw [same, holds_put holds.lt]
    constructor
    · rintro (⟨_, made⟩ | ⟨away, held⟩)
      · cases made
      · exact ⟨away, new, held, by rw [unnoted, if_neg (unnamed held)]⟩
    rintro ⟨away, old, held, rfl⟩
    refine .inr ⟨away, ?_⟩
    rw [unnoted, if_neg (unnamed held)]
    exact held
  · have within : index < (catalog.put place (some (unnoted resource needed))).slots.length := by
      change index < (catalog.slots.set place _).length
      rw [length_set]
      exact holds.lt
    rw [dropped, holds_put within, holds_put there.lt]
    constructor
    · rintro (⟨_, made⟩ | ⟨away, ⟨rfl, made⟩ | ⟨elsewhere, held⟩⟩)
      · cases made
      · cases made
        exact ⟨away, needed, there, rfl⟩
      · refine ⟨away, new, held, ?_⟩
        rw [unnoted, if_neg]
        exact fun same => elsewhere (sound.placed.index_unique held there (same.trans names.symm))
    rintro ⟨away, old, held, rfl⟩
    refine .inr ⟨away, ?_⟩
    by_cases here : other = place
    · subst other
      rw [held.unique there]
      exact .inl ⟨rfl, rfl⟩
    refine .inr ⟨here, ?_⟩
    rw [unnoted, if_neg]
    · exact held
    · exact fun same => here (sound.placed.index_unique held there (same.trans names.symm))

theorem slotTotal_removed {measure : Resource → Nat} (blind : Blind measure) :
    slotTotal measure ((resourceDependencyDrop catalog resource.entry).slots.set index none) +
      measure resource = slotTotal measure catalog.slots := by
  rcases resourceDependencyDrop_eq sound holds with
    ⟨same, _⟩ | ⟨place, needed, apart, there, names, dropped⟩
  · rw [same]
    exact slotTotal_set measure holds none
  rw [dropped]
  have held : (catalog.slots.set place (some (unnoted resource needed)))[index]? =
      some (some resource) := by
    rw [getElem?_set_ne apart]
    exact holds
  have first : slotTotal measure (catalog.slots.set place (some (unnoted resource needed))) =
      slotTotal measure catalog.slots := by
    apply slotTotal_set_same there
    rw [unnoted, if_pos names]
    exact blind needed _
  rw [← first]
  exact slotTotal_set measure held none

theorem dependencyDrop_summary :
    (resourceDependencyDrop catalog resource.entry).summary = catalog.summary ∧
      (resourceDependencyDrop catalog resource.entry).nextGeneration = catalog.nextGeneration ∧
      (resourceDependencyDrop catalog resource.entry).slots.length = catalog.slots.length := by
  rcases resourceDependencyDrop_eq sound holds with ⟨same, _⟩ | ⟨place, needed, _, _, _, dropped⟩
  · rw [same]
    exact ⟨rfl, rfl, rfl⟩
  · rw [dropped]
    exact ⟨rfl, rfl, length_set⟩

theorem ResourceCatalog.Sound.remove (releasing : resource.entry.state = .releasing)
    (evicted : Bool) : (resourceRemove catalog index resource evicted).Sound issued := by
  rcases dependencyDrop_summary sound holds with ⟨summary, next, length⟩
  have unused := sound.unused index resource holds (by rw [releasing]; decide)
  have removed {measure : Resource → Nat} (blind : Blind measure) :=
    @slotTotal_removed _ _ _ _ sound holds _ blind
  have back : ∀ {other new}, (resourceRemove catalog index resource evicted).Holds other new →
      ∃ old, catalog.Holds other old ∧ SameResource old new := by
    intro other new held
    rcases (holds_removed sound holds).mp held with ⟨_, old, there, rfl⟩
    exact ⟨old, there, sameResource_unnoted resource old⟩
  -- No remaining resource names the removed one.
  have unnamed : ∀ {place held}, catalog.Holds place held →
      held.entry.dependency ≠ resource.entry.handle := by
    intro place held there same
    have none := sound.linked.dependents holds
    rw [unused.2] at none
    have counted := eq_zero_of_slotTotal none.symm there
    simp [naming, same] at counted
  refine ⟨sound.placed.carried ?_ ?_ next back, ⟨?_, ?_, ?_, ?_, ?_⟩, ⟨?_, ?_⟩, ?_⟩
  · simpa [resourceRemove, ResourceCatalog.put, length] using sound.placed.small
  · simp only [resourceRemove, summary]
  · intro field
    have total := @removed (fun resource => resource.entry.bytes field) fun _ _ => rfl
    simp only [resourceRemove, resourceBytesSubtract, ResourceCatalog.put, summary]
    rw [sound.counted.bytes, u64Sub_of_le (by omega)]
    omega
  · have total := @removed (fun _ => 1) fun _ _ => rfl
    simp only [resourceRemove, ResourceCatalog.put, summary]
    rw [sound.counted.resources, u64Pred_of_pos (by omega)]
    omega
  · intro kind
    have total := @removed (ofKind kind) fun _ _ => rfl
    simp only [resourceRemove, ResourceCatalog.put, summary, sound.counted.kinds]
    by_cases same : kind = resource.entry.kind
    · have one : ofKind kind resource = 1 := by simp [ofKind, same]
      rw [if_pos same, u64Pred_of_pos (by omega)]
      omega
    · have zero : ofKind kind resource = 0 := by simp [ofKind, Ne.symm same]
      rw [if_neg same]
      omega
  · have total := @removed (inState .ready) fun _ _ => rfl
    have zero : inState .ready resource = 0 := by simp [inState, releasing]
    simp only [resourceRemove, ResourceCatalog.put, summary, releasing, reduceCtorEq, if_false]
    rw [sound.counted.ready]
    omega
  · have total := @removed (inState .failed) fun _ _ => rfl
    have zero : inState .failed resource = 0 := by simp [inState, releasing]
    simp only [resourceRemove, ResourceCatalog.put, summary, releasing, reduceCtorEq, if_false]
    rw [sound.counted.failed]
    omega
  · intro other new held
    rcases (holds_removed sound holds).mp held with ⟨away, old, there, rfl⟩
    have total := @removed (naming old.entry.handle) fun _ _ => rfl
    have count := sound.linked.dependents there
    rw [(sameResource_unnoted resource old).handle]
    change _ = slotTotal _ ((resourceDependencyDrop catalog resource.entry).slots.set index none)
    unfold unnoted
    split
    · rename_i names
      have one : naming old.entry.handle resource = 1 := by simp [naming, names]
      change u64Pred old.entry.dependentCount = _
      rw [u64Pred_of_pos (by omega)]
      omega
    · rename_i other_
      have zero : naming old.entry.handle resource = 0 := by simp [naming, Ne.symm other_]
      omega
  · intro other new held
    rcases (holds_removed sound holds).mp held with ⟨away, old, there, rfl⟩
    refine sound.linked.carried there (sameResource_unnoted resource old) fun {place needed} at_
      names =>
      ⟨_, (holds_removed sound holds).mpr ⟨?_, needed, at_, rfl⟩,
        sameResource_unnoted resource needed⟩
    rintro rfl
    rw [at_.unique holds] at names
    exact unnamed there names.symm
  · intro other new held waiting
    rcases (holds_removed sound holds).mp held with ⟨away, old, there, rfl⟩
    rw [unnoted_state] at waiting
    rcases sound.unused other old there waiting with ⟨consumers, dependents⟩
    unfold unnoted
    split
    · rename_i names
      have counted := sound.linked.dependentCount_pos holds there names
      omega
    · exact ⟨consumers, dependents⟩

end

end

end

end Yvex.Runtime
