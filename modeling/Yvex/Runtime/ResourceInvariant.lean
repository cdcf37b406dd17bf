import Yvex.Foundation.Slots
import Yvex.Runtime.Resource

namespace Yvex.Runtime

open List

/-! # What holds of a catalog between two critical sections

The invariant has four parts: which resource is in which slot under which handle, the totals of
the summary, the links between dependents and their dependencies, and what a resource that is
not ready cannot have. Every critical section keeps each of them. -/

def slotTotal (measure : Resource → Nat) (slots : List (Option Resource)) : Nat :=
  total (fun slot => slot.elim 0 measure) slots

variable {slots : List (Option Resource)} {index : Nat}

theorem slotTotal_set (measure : Resource → Nat) (present : slots[index]? = some old)
    (new : Option Resource) : slotTotal measure (slots.set index new) + old.elim 0 measure =
      slotTotal measure slots + new.elim 0 measure :=
  total_set _ slots present new

theorem slotTotal_replicate (measure : Resource → Nat) (slots : List (Option Resource))
    (count : Nat) : slotTotal measure (slots ++ List.replicate count none) =
      slotTotal measure slots := by
  induction count with
  | zero => simp
  | succ count induction =>
    rw [replicate_succ', ← append_assoc, slotTotal, total_append]
    exact induction

variable {resource : Resource}

theorem measure_le_slotTotal (measure : Resource → Nat)
    (present : slots[index]? = some (some resource)) : measure resource ≤ slotTotal measure slots :=
  measure_le_total (fun slot => slot.elim 0 measure) slots present

variable {measure : Resource → Nat}

theorem slotTotal_le_length (small : ∀ resource, measure resource ≤ 1)
    (slots : List (Option Resource)) : slotTotal measure slots ≤ slots.length :=
  slotSum_le_length small slots

theorem eq_zero_of_slotTotal (none : slotTotal measure slots = 0)
    (present : slots[index]? = some (some resource)) : measure resource = 0 := by
  have bound := measure_le_slotTotal measure present
  omega

theorem slotTotal_eq_zero
    (none : ∀ (index : Nat) (resource : Resource), slots[index]? = some (some resource) →
      measure resource = 0) : slotTotal measure slots = 0 := by
  induction slots with
  | nil => rfl
  | cons slot slots induction => ?_
  have rest := induction fun index resource present =>
    none (index + 1) resource (by simpa using present)
  have first : slot.elim 0 measure = 0 := by
    cases slot with
    | none => rfl
    | some resource => exact none 0 resource (by simp)
  rw [slotTotal, total_cons]
  rw [slotTotal] at rest
  omega

def ResourceCatalog.Holds (catalog : ResourceCatalog) (index : Nat) (resource : Resource) : Prop :=
  catalog.slots[index]? = some (some resource)

structure SameResource (resource new : Resource) : Prop where
  handle : new.entry.handle = resource.entry.handle
  dependency : new.entry.dependency = resource.entry.dependency
  kind : new.entry.kind = resource.entry.kind
  bytes : new.entry.bytes = resource.entry.bytes
  release : new.release = resource.release
  serial : new.serial = resource.serial

theorem SameResource.refl (resource : Resource) : SameResource resource resource :=
  ⟨rfl, rfl, rfl, rfl, rfl, rfl⟩

structure Placed (catalog : ResourceCatalog) (issued : List ResourceHandle) : Prop where
  small : catalog.slots.length ≤ 1024
  handle : ∀ {index resource}, catalog.Holds index resource → resource.entry.handle =
    ⟨catalog.summary.engineGeneration, index + 1, generationOf resource.serial⟩
  issuedHandle : ∀ {index resource}, catalog.Holds index resource →
    issued[resource.serial]? = some resource.entry.handle
  latest : ∀ {index resource}, catalog.Holds index resource →
    ∀ (serial : Nat) (handle : ResourceHandle), issued[serial]? = some handle →
      handle.slot = index + 1 → serial ≤ resource.serial
  generation : ∀ (serial : Nat) (handle : ResourceHandle), issued[serial]? = some handle →
    handle.generation = generationOf serial
  next : generationAfter catalog.nextGeneration = generationOf issued.length

section

variable {catalog : ResourceCatalog} {issued : List ResourceHandle} {index other : Nat}
  {resource : Resource} {handle : ResourceHandle}

theorem ResourceCatalog.Holds.lt (holds : catalog.Holds index resource) :
    index < catalog.slots.length :=
  Occupies.lt holds

theorem ResourceCatalog.Holds.unique (holds : catalog.Holds index resource)
    (also : catalog.Holds index second) : resource = second :=
  Occupies.unique holds also

theorem holds_put {new : Option Resource} (bound : index < catalog.slots.length) :
    (catalog.put index new).Holds other resource ↔
      other = index ∧ new = some resource ∨ other ≠ index ∧ catalog.Holds other resource :=
  occupies_set bound

theorem put_related {related : Resource → Resource → Prop} (refl :
    ∀ resource, related resource resource)
    (holds : catalog.Holds index resource) {new : Resource} (here : related resource new) :
    (∀ {other held}, catalog.Holds other held →
      ∃ still, (catalog.put index (some new)).Holds other still ∧ related held still) ∧
    ∀ {other still}, (catalog.put index (some new)).Holds other still →
      ∃ held, catalog.Holds other held ∧ related held still := by
  constructor
  · intro other held there
    by_cases same : other = index
    · subst other
      rw [there.unique holds]
      exact ⟨new, (holds_put holds.lt).mpr (.inl ⟨rfl, rfl⟩), here⟩
    · exact ⟨held, (holds_put holds.lt).mpr (.inr ⟨same, there⟩), refl held⟩
  · intro other still there
    rcases (holds_put holds.lt).mp there with ⟨rfl, made⟩ | ⟨_, old⟩
    · cases made
      exact ⟨resource, holds, here⟩
    · exact ⟨still, old, refl still⟩

section

variable (placed : Placed catalog issued)

include placed

theorem Placed.slotLocked_eq_some : catalog.slotLocked handle = some (index, resource) ↔
      catalog.Holds index resource ∧ resource.entry.handle = handle := by
  unfold ResourceCatalog.slotLocked
  constructor
  · intro found
    split at found
    · cases found
    rename_i valid
    split at found
    · rename_i resource' present
      split at found
      · rename_i same
        cases found
        refine ⟨present, ?_⟩
        have named := placed.handle present
        rw [named] at same ⊢
        rcases handle with ⟨engine, slot, generation⟩
        simp only [ResourceHandle.mk.injEq] at same valid ⊢
        omega
      · cases found
    · cases found
  · rintro ⟨holds, rfl⟩
    have bound := holds.lt
    have named := placed.handle holds
    have nonzero := generationOf_ne_zero resource.serial
    rw [if_neg]
    · rw [named]
      rw [Nat.add_sub_cancel]
      rw [holds]
      simp [named]
    rw [named]
    rintro (engine | zero | large | generation)
    · exact engine rfl
    · exact Nat.succ_ne_zero index zero
    · exact not_lt.mpr bound large
    · exact nonzero generation

theorem Placed.index_unique (holds : catalog.Holds index resource)
    (also : catalog.Holds other second) (same : resource.entry.handle = second.entry.handle) :
    index = other := by
  rw [placed.handle holds, placed.handle also, ResourceHandle.mk.injEq] at same
  omega

theorem Placed.serial_unique (holds : catalog.Holds index resource)
    (also : catalog.Holds other second) (same : resource.serial = second.serial) :
    index = other := by
  grind [cases Placed]

theorem Placed.stale (given : issued[serial]? = some handle)
    (found : catalog.slotLocked handle = some (index, resource)) :
    resource.serial = serial ∨ serial + u64Max ≤ resource.serial := by
  rcases placed.slotLocked_eq_some.mp found with ⟨holds, rfl⟩
  have named := placed.handle holds
  have ordered := placed.latest holds serial _ given (by rw [named])
  have generation := placed.generation serial _ given
  rw [named] at generation
  exact eq_or_turn_of_generationOf ordered generation.symm

/-- A resource may be replaced by one of the same registration, and a summary by one of the
same engine. -/
theorem Placed.carried (small : changed.slots.length ≤ 1024)
    (engine : changed.summary.engineGeneration = catalog.summary.engineGeneration)
    (next : changed.nextGeneration = catalog.nextGeneration)
    (back : ∀ {index new}, changed.Holds index new →
      ∃ old, catalog.Holds index old ∧ SameResource old new) : Placed changed issued := by
  refine ⟨small, ?_, ?_, ?_, placed.generation, next ▸ placed.next⟩
  · intro index new holds
    rcases back holds with ⟨old, held, same⟩
    rw [same.handle, same.serial, engine]
    exact placed.handle held
  · intro index new holds
    rcases back holds with ⟨old, held, same⟩
    rw [same.handle, same.serial]
    exact placed.issuedHandle held
  intro index new holds
  rcases back holds with ⟨old, held, same⟩
  rw [same.serial]
  exact placed.latest held

end

end

def inState (state : ResourceState) (resource : Resource) : Nat :=
  if resource.entry.state = state then 1 else 0

def ofKind (kind : ResourceKind) (resource : Resource) : Nat :=
  if resource.entry.kind = kind then 1 else 0

def naming (handle : ResourceHandle) (resource : Resource) : Nat :=
  if resource.entry.dependency = handle then 1 else 0

theorem inState_le (state : ResourceState) (resource : Resource) : inState state resource ≤ 1 := by
  unfold inState
  split <;> decide

theorem ofKind_le (kind : ResourceKind) (resource : Resource) : ofKind kind resource ≤ 1 := by
  unfold ofKind
  split <;> decide

theorem naming_le (handle : ResourceHandle) (resource : Resource) : naming handle resource ≤ 1 := by
  unfold naming
  split <;> decide

structure Counted (catalog : ResourceCatalog) : Prop where
  bytes : ∀ field, catalog.summary.bytes field =
    slotTotal (fun resource => resource.entry.bytes field) catalog.slots
  resources : catalog.summary.resourceCount = slotTotal (fun _ => 1) catalog.slots
  kinds : ∀ kind, catalog.summary.countByKind kind = slotTotal (ofKind kind) catalog.slots
  ready : catalog.summary.readyCount = slotTotal (inState .ready) catalog.slots
  failed : catalog.summary.failedCount = slotTotal (inState .failed) catalog.slots

variable {new : Option Resource}

theorem u64Succ_slotTotal (unit : ∀ resource, measure resource ≤ 1) (small : slots.length ≤ 1024)
    (present : slots[index]? = some old) (rises : new.elim 0 measure = old.elim 0 measure + 1) :
    u64Succ (slotTotal measure slots) = slotTotal measure (slots.set index new) := by
  have bound := slotTotal_le_length unit slots
  have changed := slotTotal_set measure present new
  rw [u64Succ_of_le (by omega)]
  omega

theorem u64Pred_slotTotal (present : slots[index]? = some old)
    (falls : old.elim 0 measure = new.elim 0 measure + 1) :
    u64Pred (slotTotal measure slots) = slotTotal measure (slots.set index new) := by
  have changed := slotTotal_set measure present new
  rw [u64Pred_of_pos (by omega)]
  omega

theorem slotTotal_set_same (present : slots[index]? = some old)
    (same : new.elim 0 measure = old.elim 0 measure) :
    slotTotal measure (slots.set index new) = slotTotal measure slots := by
  have changed := slotTotal_set measure present new
  omega

section

variable {catalog : ResourceCatalog} {issued : List ResourceHandle} {index : Nat}
  {resource new : Resource}

theorem Counted.put (counted : Counted catalog) (holds : catalog.Holds index resource)
    (same : SameResource resource new) (bytes : summary.bytes = catalog.summary.bytes)
    (resources : summary.resourceCount = catalog.summary.resourceCount)
    (kinds : summary.countByKind = catalog.summary.countByKind)
    (ready : summary.readyCount = slotTotal (inState .ready) (catalog.slots.set index (some new)))
    (failed : summary.failedCount =
      slotTotal (inState .failed) (catalog.slots.set index (some new))) :
    Counted { catalog.put index (some new) with summary := summary } := by
  refine ⟨fun field => ?_, ?_, fun kind => ?_, ready, failed⟩
  · change summary.bytes field = slotTotal _ (catalog.slots.set index (some new))
    rw [bytes, counted.bytes, slotTotal_set_same holds]
    simp [same.bytes]
  · change summary.resourceCount = slotTotal _ (catalog.slots.set index (some new))
    rw [resources, counted.resources, slotTotal_set_same holds]
    rfl
  · change summary.countByKind kind = slotTotal _ (catalog.slots.set index (some new))
    rw [kinds, counted.kinds, slotTotal_set_same holds]
    simp [ofKind, same.kind]

end

/-- Dependents and dependencies agree, and a dependency is registered before its dependents. -/
structure Linked (catalog : ResourceCatalog) : Prop where
  dependents : ∀ {index resource}, catalog.Holds index resource →
    resource.entry.dependentCount = slotTotal (naming resource.entry.handle) catalog.slots
  dependency : ∀ {index resource}, catalog.Holds index resource →
    resource.entry.dependency.present = true → ∃ other needed,
      catalog.Holds other needed ∧ needed.entry.handle = resource.entry.dependency ∧
        needed.serial < resource.serial

def Unused (catalog : ResourceCatalog) : Prop :=
  ∀ index resource, catalog.Holds index resource → resource.entry.state ≠ .ready →
    resource.entry.consumerCount = 0 ∧ resource.entry.dependentCount = 0

structure ResourceCatalog.Sound (catalog : ResourceCatalog) (issued : List ResourceHandle) :
    Prop where
  placed : Placed catalog issued
  counted : Counted catalog
  linked : Linked catalog
  unused : Unused catalog

section

variable {catalog : ResourceCatalog} {issued : List ResourceHandle} {index : Nat}
  {resource new : Resource} {summary : ResourceSummary}

theorem Linked.carried {changed : ResourceCatalog} (linked : Linked catalog)
    (held : catalog.Holds index resource) (same : SameResource resource new)
    (kept : ∀ {place needed}, catalog.Holds place needed →
      needed.entry.handle = resource.entry.dependency →
      ∃ still, changed.Holds place still ∧ SameResource needed still)
    (named : new.entry.dependency.present = true) : ∃ other needed, changed.Holds other needed ∧
      needed.entry.handle = new.entry.dependency ∧ needed.serial < new.serial := by
  grind [cases SameResource, cases Linked]

theorem Linked.put (linked : Linked catalog) (holds : catalog.Holds index resource)
    (same : SameResource resource new)
    (dependents : new.entry.dependentCount = resource.entry.dependentCount) :
    Linked { catalog.put index (some new) with summary := summary } := by
  have alike := @put_related _ _ _ (fun old new => SameResource old new ∧
    new.entry.dependentCount = old.entry.dependentCount) (fun _ => ⟨.refl _, rfl⟩) holds _
    ⟨same, dependents⟩
  constructor
  · intro other second also
    rcases alike.2 also with ⟨old, held, alike, count⟩
    rw [count, linked.dependents held, alike.handle]
    refine (slotTotal_set_same holds ?_).symm
    simp [naming, same.dependency]
  · intro other second also
    rcases alike.2 also with ⟨old, held, there, _⟩
    exact linked.carried held there fun found _ =>
      (alike.1 found).imp fun _ still => ⟨still.1, still.2.1⟩

theorem Unused.put (unused : Unused catalog) (holds : catalog.Holds index resource)
    (settled : new.entry.state ≠ .ready →
      new.entry.consumerCount = 0 ∧ new.entry.dependentCount = 0) :
    Unused { catalog.put index (some new) with summary := summary } := by
  intro other second also
  rcases (holds_put holds.lt).mp also with ⟨rfl, made⟩ | ⟨_, old⟩
  · cases made
    exact settled
  · exact unused other second old

end

structure Steady (catalog changed : ResourceCatalog) : Prop where
  kept : ∀ {index resource}, catalog.Holds index resource → ∃ new, changed.Holds index new ∧
    SameResource resource new ∧
    (new.entry.state = .releasing ↔ resource.entry.state = .releasing) ∧
    (new.entry.state = .failed ↔ resource.entry.state = .failed)
  old : ∀ {index new}, changed.Holds index new → ∃ resource, catalog.Holds index resource ∧
    SameResource resource new ∧
    (new.entry.state = .releasing ↔ resource.entry.state = .releasing) ∧
    (new.entry.state = .failed ↔ resource.entry.state = .failed)

section

variable {catalog : ResourceCatalog} {issued : List ResourceHandle} {index : Nat}
  {handle : ResourceHandle} {resource new : Resource} {summary : ResourceSummary}

theorem steady_put (holds : catalog.Holds index resource) (same : SameResource resource new)
    (releasing : new.entry.state = .releasing ↔ resource.entry.state = .releasing)
    (failed : new.entry.state = .failed ↔ resource.entry.state = .failed) :
    Steady catalog { catalog.put index (some new) with summary := summary } := by
  have alike := @put_related _ _ _ (fun resource new => SameResource resource new ∧
    (new.entry.state = .releasing ↔ resource.entry.state = .releasing) ∧
    (new.entry.state = .failed ↔ resource.entry.state = .failed))
    (fun _ => ⟨.refl _, Iff.rfl, Iff.rfl⟩) holds _ ⟨same, releasing, failed⟩
  exact ⟨alike.1, alike.2⟩

structure SameSummary (old new : ResourceSummary) : Prop where
  engine : new.engineGeneration = old.engineGeneration
  bytes : new.bytes = old.bytes
  resources : new.resourceCount = old.resourceCount
  kinds : new.countByKind = old.countByKind

section

variable (sound : catalog.Sound issued)

include sound

section

variable (holds : catalog.Holds index resource) (same : SameResource resource new)
  (kept : SameSummary catalog.summary summary)
  (dependents : new.entry.dependentCount = resource.entry.dependentCount)

include holds same kept dependents

theorem ResourceCatalog.Sound.put
    (settled : new.entry.state ≠ .ready → new.entry.consumerCount = 0 ∧ new.entry.dependentCount = 0)
    (ready : summary.readyCount = slotTotal (inState .ready) (catalog.slots.set index (some new)))
    (failed : summary.failedCount = slotTotal (inState .failed)
      (catalog.slots.set index (some new))) :
    Sound { catalog.put index (some new) with summary := summary } issued where
  placed := sound.placed.carried (by simpa [ResourceCatalog.put] using sound.placed.small)
    kept.engine rfl (put_related .refl holds same).2
  counted := sound.counted.put holds same kept.bytes kept.resources kept.kinds ready failed
  linked := sound.linked.put holds same dependents
  unused := sound.unused.put holds settled

theorem ResourceCatalog.Sound.putConsumers (state : new.entry.state = resource.entry.state)
    (ready : resource.entry.state = .ready)
    (readyCount : summary.readyCount = catalog.summary.readyCount)
    (failedCount : summary.failedCount = catalog.summary.failedCount) :
    Sound { catalog.put index (some new) with summary := summary } issued ∧
      Steady catalog { catalog.put index (some new) with summary := summary } := by
  have counts (state' : ResourceState) :
      slotTotal (inState state') (catalog.slots.set index (some new)) =
        slotTotal (inState state') catalog.slots := by
    apply slotTotal_set_same holds
    simp only [Option.elim_some, inState, state]
  refine ⟨sound.put holds same kept dependents ?_ ?_ ?_, steady_put holds same ?_ ?_⟩
  · intro waiting
    exact absurd (state.trans ready) waiting
  · rw [readyCount, sound.counted.ready, counts]
  · rw [failedCount, sound.counted.failed, counts]
  · rw [state]
  · rw [state]

end

theorem ResourceCatalog.Sound.acquire
    (ran : runtimeResourceAcquire catalog handle = .ok (value, changed)) :
    changed.Sound issued ∧ Steady catalog changed := by
  unfold runtimeResourceAcquire at ran
  split at ran
  · cases ran
  rename_i index resource found
  rcases sound.placed.slotLocked_eq_some.mp found with ⟨holds, _⟩
  dsimp only at ran
  split at ran
  · cases ran
  rename_i free
  push Not at free
  cases ran
  exact sound.putConsumers holds ⟨rfl, rfl, rfl, rfl, rfl, rfl⟩ ⟨rfl, rfl, rfl, rfl⟩ rfl rfl
    free.2.1 rfl rfl

theorem ResourceCatalog.Sound.drop (ran : runtimeResourceDrop catalog handle = .ok changed) :
    changed.Sound issued ∧ Steady catalog changed := by
  unfold runtimeResourceDrop at ran
  split at ran
  · cases ran
  rename_i index resource found
  rcases sound.placed.slotLocked_eq_some.mp found with ⟨holds, _⟩
  split at ran
  · cases ran
  rename_i borrowed
  cases ran
  have ready : resource.entry.state = .ready := by
    by_contra waiting
    exact borrowed (sound.unused _ _ holds waiting).1
  exact sound.putConsumers holds ⟨rfl, rfl, rfl, rfl, rfl, rfl⟩
    (⟨rfl, rfl, rfl, rfl⟩ : SameSummary catalog.summary catalog.summary) rfl rfl ready rfl rfl

theorem ResourceCatalog.Sound.publishReady
    (ran : runtimeResourcePublishReady catalog handle = .ok changed) :
    changed.Sound issued ∧ Steady catalog changed := by
  unfold runtimeResourcePublishReady at ran
  split at ran
  · cases ran
  rename_i index resource found
  rcases sound.placed.slotLocked_eq_some.mp found with ⟨holds, _⟩
  split at ran
  · cases ran
  rename_i waiting
  push Not at waiting
  have declared := waiting.2
  cases ran
  have same : SameResource resource (resource.withState .ready) := ⟨rfl, rfl, rfl, rfl, rfl, rfl⟩
  refine ⟨sound.put holds same ⟨rfl, rfl, rfl, rfl⟩ rfl ?_ ?_ ?_, steady_put holds same ?_ ?_⟩
  · exact fun unready => absurd rfl unready
  · rw [sound.counted.ready]
    apply u64Succ_slotTotal (inState_le _) sound.placed.small holds
    simp [inState, Resource.withState, declared]
  · refine sound.counted.failed.trans (slotTotal_set_same holds ?_).symm
    simp [inState, Resource.withState, declared]
  · simp [Resource.withState, declared]
  · simp [Resource.withState, declared]

end

theorem holds_grown :
    (catalog.grown capacity).Holds index resource ↔ catalog.Holds index resource := by
  unfold ResourceCatalog.grown
  split
  · exact Iff.rfl
  unfold ResourceCatalog.Holds
  rw [getElem?_append, getElem?_replicate]
  split
  · exact Iff.rfl
  rename_i beyond
  rw [getElem?_eq_none (le_of_not_gt beyond)]
  split <;> simp

theorem slotTotal_grown (measure : Resource → Nat) (catalog : ResourceCatalog) (capacity : Nat) :
    slotTotal measure (catalog.grown capacity).slots = slotTotal measure catalog.slots := by
  unfold ResourceCatalog.grown
  split
  · rfl
  · exact slotTotal_replicate measure catalog.slots _

theorem grown_summary (catalog : ResourceCatalog) (capacity : Nat) :
    SameSummary catalog.summary (catalog.grown capacity).summary ∧
      (catalog.grown capacity).summary.readyCount = catalog.summary.readyCount ∧
      (catalog.grown capacity).summary.failedCount = catalog.summary.failedCount ∧
      (catalog.grown capacity).nextGeneration = catalog.nextGeneration := by
  unfold ResourceCatalog.grown
  split <;> exact ⟨⟨rfl, rfl, rfl, rfl⟩, rfl, rfl, rfl⟩

theorem ResourceCatalog.Sound.grown (sound : catalog.Sound issued) (bound : capacity ≤ 1024) :
    (catalog.grown capacity).Sound issued ∧ Steady catalog (catalog.grown capacity) := by
  rcases grown_summary catalog capacity with ⟨same, ready, failed, next⟩
  have small : (catalog.grown capacity).slots.length ≤ 1024 := by
    have held := sound.placed.small
    unfold ResourceCatalog.grown
    split
    · exact held
    · rw [length_append, length_replicate]
      omega
  refine ⟨⟨sound.placed.carried small same.engine next fun holds =>
    ⟨_, holds_grown.mp holds, .refl _⟩, ⟨?_, ?_, ?_, ?_, ?_⟩, ⟨?_, ?_⟩, ?_⟩, ?_, ?_⟩
  · intro field
    rw [same.bytes, slotTotal_grown]
    exact sound.counted.bytes field
  · rw [same.resources, slotTotal_grown]
    exact sound.counted.resources
  · intro kind
    rw [same.kinds, slotTotal_grown]
    exact sound.counted.kinds kind
  · rw [ready, slotTotal_grown]
    exact sound.counted.ready
  · rw [failed, slotTotal_grown]
    exact sound.counted.failed
  · intro index resource holds
    rw [slotTotal_grown]
    exact sound.linked.dependents (holds_grown.mp holds)
  · intro index resource holds
    exact sound.linked.carried (holds_grown.mp holds) (.refl _) fun there _ =>
      ⟨_, holds_grown.mpr there, .refl _⟩
  · intro index resource holds
    exact sound.unused index resource (holds_grown.mp holds)
  · intro index resource holds
    exact ⟨resource, holds_grown.mpr holds, SameResource.refl _, Iff.rfl, Iff.rfl⟩
  · intro index resource holds
    exact ⟨resource, holds_grown.mp holds, SameResource.refl _, Iff.rfl, Iff.rfl⟩

theorem runtimeResourceCatalogReserve_eq_ok
    (ran : runtimeResourceCatalogReserve host catalog capacity maximumHostBytes =
      .ok (retained, changed)) (small : catalog.slots.length ≤ 1024) :
    ∃ capacity ≤ 1024, changed = catalog.grown capacity := by
  unfold runtimeResourceCatalogReserve at ran
  simp only [Except.bind_eq_ok, require_eq_ok, Bool.and_eq_true, decide_eq_true_eq] at ran
  rcases ran with ⟨_, ⟨_, bound⟩, _, _, _, _, _, _, _, _, _, _, _, _, _, _, made⟩
  cases made
  refine ⟨_, ?_, rfl⟩
  split <;> assumption

theorem ResourceCatalog.Sound.reserve (sound : catalog.Sound issued)
    (ran : runtimeResourceCatalogReserve host catalog capacity maximumHostBytes =
      .ok (retained, changed)) : changed.Sound issued ∧ Steady catalog changed := by
  rcases runtimeResourceCatalogReserve_eq_ok ran sound.placed.small with ⟨capacity, bound, rfl⟩
  exact sound.grown bound

end

end Yvex.Runtime
