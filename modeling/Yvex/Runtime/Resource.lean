import Yvex.Foundation.Digest
import Yvex.Runtime.Generation

namespace Yvex.Runtime

/-! # The engine resource catalog

A catalog owns the resources of one live engine. Each occupies a slot and is named by a handle
with the generation of its registration. Consumers borrow a ready resource, resources may
depend on one another, and a resource without consumers and dependents is released by a
callback that runs while the lock of the catalog is dropped. -/

inductive ResourceKind where
  | packageMapping
  | preparedTensor
  | preparedGroup
  | preparedLayout
  | component
  | backendHandle
  | executableCache
  | sequenceState
  | workspace
  | temporary
deriving DecidableEq

inductive ResourceOwner where
  | package
  | specialization
  | engine
  | session
  | backend
  | execution

inductive ResourceLifetime where
  | engine
  | session
  | execution
  | request
  | condition
  | trajectory
  | quantum

inductive NumericClass where
  | none
  | canonicalPackage
  | exactSpecialization
  | equivalentPrepared
  | state
deriving DecidableEq

inductive ResourceState where
  | declared
  | ready
  | releasing
  | failed
deriving DecidableEq

/-- The fields of `yvex_engine_resource_bytes`. -/
inductive ByteField where
  | mappedPackage
  | hostResident
  | deviceResident
  | prepared
  | sequenceState
  | workspace
  | temporary

abbrev ResourceBytes := ByteField → Nat

def ByteField.all : List ByteField :=
  [.mappedPackage, .hostResident, .deviceResident, .prepared, .sequenceState, .workspace,
    .temporary]

structure ResourceHandle where
  engineGeneration : Nat
  slot : Nat
  generation : Nat
deriving DecidableEq

def ResourceHandle.present (handle : ResourceHandle) : Bool :=
  handle.engineGeneration != 0 || handle.slot != 0 || handle.generation != 0

def ResourceHandle.absent : ResourceHandle := ⟨0, 0, 0⟩

/-- `yvex_engine_resource_request`; a text that is not given is empty. -/
structure ResourceRequest where
  kind : ResourceKind
  owner : ResourceOwner
  lifetime : ResourceLifetime
  numericClass : NumericClass
  name : Text
  packageIdentity : Text
  specializationIdentity : Text
  admissionIdentity : Text
  dependency : ResourceHandle
  bytes : ResourceBytes
  preparationNanoseconds : Nat
  value : Nat
  release : Bool
  ready : Bool
  evictable : Bool

structure ResourceEntry where
  handle : ResourceHandle
  dependency : ResourceHandle
  kind : ResourceKind
  owner : ResourceOwner
  lifetime : ResourceLifetime
  numericClass : NumericClass
  state : ResourceState
  bytes : ResourceBytes
  consumerCount : Nat
  dependentCount : Nat
  acquisitionCount : Nat
  preparationNanoseconds : Nat
  name : Text
  packageIdentity : Text
  specializationIdentity : Text
  admissionIdentity : Text
  evictable : Bool

/-- A slot in use; `serial` counts the registrations before its own and is not in the source. -/
structure Resource where
  entry : ResourceEntry
  value : Nat
  release : Bool
  serial : Nat

/-- `yvex_engine_resource_summary` without the capacity, which is the number of slots. -/
structure ResourceSummary where
  engineGeneration : Nat
  resourceCount : Nat := 0
  generation : Nat := 0
  registrationCount : Nat := 0
  releaseCount : Nat := 0
  evictionCount : Nat := 0
  failedReleaseCount : Nat := 0
  acquisitionCount : Nat := 0
  preparationNanoseconds : Nat := 0
  readyCount : Nat := 0
  failedCount : Nat := 0
  countByKind : ResourceKind → Nat := fun _ => 0
  bytes : ResourceBytes := fun _ => 0
  engineIdentity : Text
  closing : Bool := false

structure ResourceCatalog where
  slots : List (Option Resource)
  summary : ResourceSummary
  nextGeneration : Nat := 0

def resourceBytesAdd (target value : ResourceBytes) : Option ResourceBytes :=
  if ByteField.all.all fun field => target field + value field ≤ u64Max then
    some fun field => target field + value field
  else none

def resourceBytesSubtract (target value : ResourceBytes) : ResourceBytes :=
  fun field => u64Sub (target field) (value field)

namespace ResourceCatalog

variable (catalog : ResourceCatalog)

/-- `resource_slot_locked`, with the index of the slot. -/
def slotLocked (handle : ResourceHandle) : Option (Nat × Resource) :=
  if handle.engineGeneration ≠ catalog.summary.engineGeneration ∨ handle.slot = 0 ∨
      catalog.slots.length < handle.slot ∨ handle.generation = 0 then none
  else
    match catalog.slots[handle.slot - 1]? with
    | some (some resource) =>
      if resource.entry.handle.generation = handle.generation then
        some (handle.slot - 1, resource)
      else none
    | _ => none

def put (index : Nat) (resource : Option Resource) : ResourceCatalog :=
  { catalog with slots := catalog.slots.set index resource }

end ResourceCatalog

def optionalIdentityValid (identity : Text) : Bool := identity.isEmpty || hexValid identity

def ResourceRequest.valid (request : ResourceRequest) : Bool :=
  let prepared := request.kind == .preparedTensor || request.kind == .preparedGroup ||
    request.kind == .preparedLayout
  !request.name.isEmpty && decide (request.name.length < 48) && hexValid request.packageIdentity &&
    optionalIdentityValid request.specializationIdentity &&
    optionalIdentityValid request.admissionIdentity &&
    !(prepared && (request.specializationIdentity.isEmpty || request.admissionIdentity.isEmpty)) &&
    !(request.numericClass == .canonicalPackage && !request.specializationIdentity.isEmpty) &&
    !(request.evictable && !request.release)

section

variable (catalog : ResourceCatalog) (request : ResourceRequest)

def requestDependency : Except Rejection (Option (Nat × Resource)) :=
  if request.dependency.present then
    match catalog.slotLocked request.dependency with
    | some found =>
      if found.2.entry.state = .ready then .ok (some found)
      else .error ⟨.state, "resource dependency is stale or not ready"⟩
    | none => .error ⟨.state, "resource dependency is stale or not ready"⟩
  else .ok none

def registered (handle : ResourceHandle) (serial : Nat) : Resource where
  entry := {
    handle := handle
    dependency := request.dependency
    kind := request.kind
    owner := request.owner
    lifetime := request.lifetime
    numericClass := request.numericClass
    state := if request.ready then .ready else .declared
    bytes := request.bytes
    consumerCount := 0
    dependentCount := 0
    acquisitionCount := 0
    preparationNanoseconds := request.preparationNanoseconds
    name := request.name
    packageIdentity := request.packageIdentity
    specializationIdentity := request.specializationIdentity
    admissionIdentity := request.admissionIdentity
    evictable := request.evictable }
  value := request.value
  release := request.release
  serial := serial

def Resource.withDependents (resource : Resource) (count : Nat) : Resource :=
  { resource with entry := { resource.entry with dependentCount := count } }

def Resource.withState (resource : Resource) (state : ResourceState) : Resource :=
  { resource with entry := { resource.entry with state := state } }

def noteDependent : Option (Nat × Resource) → ResourceCatalog
  | none => catalog
  | some (index, dependency) =>
    catalog.put index (some (dependency.withDependents
      (u64Succ dependency.entry.dependentCount)))

/-- `yvex_runtime_resource_register`; the serial is that of the registration. -/
def runtimeResourceRegister (serial : Nat) : Except Rejection
    (ResourceHandle × ResourceCatalog) := do
  require request.valid .invalidArgument "one complete engine resource declaration is required"
  require (!catalog.summary.closing) .state
    "closing engine resource catalog rejects registration"
  let dependency ← requestDependency catalog request
  let index ← orReject (catalog.slots.findIdx? Option.isNone) .noMemory
    "engine resource catalog capacity is exhausted"
  let totals ← orReject (resourceBytesAdd catalog.summary.bytes request.bytes) .bounds
    "engine resource accounting overflowed"
  let preparation ← orReject
    (u64Add catalog.summary.preparationNanoseconds request.preparationNanoseconds) .bounds
    "engine resource accounting overflowed"
  let generation := generationAfter catalog.nextGeneration
  let handle : ResourceHandle := ⟨catalog.summary.engineGeneration, index + 1, generation⟩
  let placed := noteDependent (catalog.put index (some (registered request handle serial)))
    dependency
  let summary := catalog.summary
  pure (handle, { placed with
    nextGeneration := generation
    summary := { summary with
      bytes := totals
      resourceCount := u64Succ summary.resourceCount
      registrationCount := u64Succ summary.registrationCount
      preparationNanoseconds := preparation
      generation := u64Succ summary.generation
      countByKind := fun kind =>
        if kind = request.kind then u64Succ (summary.countByKind kind) else summary.countByKind kind
      readyCount := if request.ready then u64Succ summary.readyCount else summary.readyCount } })

variable (handle : ResourceHandle)

def runtimeResourceAcquire : Except Rejection (Nat × ResourceCatalog) :=
  match catalog.slotLocked handle with
  | none => .error ⟨.state, "ready non-stale engine resource is required"⟩
  | some (index, resource) =>
    let entry := resource.entry
    if catalog.summary.closing ∨ entry.state ≠ .ready ∨ entry.consumerCount = u64Max ∨
        entry.acquisitionCount = u64Max ∨ catalog.summary.acquisitionCount = u64Max then
      .error ⟨.state, "ready non-stale engine resource is required"⟩
    else
      let borrowed := { resource with entry := { entry with
        consumerCount := u64Succ entry.consumerCount
        acquisitionCount := u64Succ entry.acquisitionCount } }
      .ok (resource.value, { catalog.put index (some borrowed) with
        summary := { catalog.summary with
          acquisitionCount := u64Succ catalog.summary.acquisitionCount } })

def runtimeResourcePublishReady : Except Rejection ResourceCatalog :=
  match catalog.slotLocked handle with
  | none => .error ⟨.state, "one declared resource in an open catalog is required"⟩
  | some (index, resource) =>
    if catalog.summary.closing ∨ resource.entry.state ≠ .declared then
      .error ⟨.state, "one declared resource in an open catalog is required"⟩
    else
      .ok { catalog.put index (some (resource.withState .ready)) with
        summary := { catalog.summary with
          readyCount := u64Succ catalog.summary.readyCount
          generation := u64Succ catalog.summary.generation } }

def runtimeResourceDrop : Except Rejection ResourceCatalog :=
  match catalog.slotLocked handle with
  | none => .error ⟨.state, "one exact borrowed resource generation is required"⟩
  | some (index, resource) =>
    if resource.entry.consumerCount = 0 then
      .error ⟨.state, "one exact borrowed resource generation is required"⟩
    else
      .ok (catalog.put index (some { resource with entry := { resource.entry with
        consumerCount := u64Pred resource.entry.consumerCount } }))

structure ReserveHost where
  slotBytes : Nat
  catalogBytes : Nat
  allocated : Bool

def ResourceCatalog.grown (capacity : Nat) : ResourceCatalog :=
  if capacity ≤ catalog.slots.length then catalog
  else { catalog with
    slots := catalog.slots ++ List.replicate (capacity - catalog.slots.length) none
    summary := { catalog.summary with
      -- The first slots of a catalog are not a change of a published one.
      generation := if catalog.slots.length = 0 then catalog.summary.generation
        else u64Succ catalog.summary.generation } }

/-- `yvex_runtime_resource_catalog_reserve`, with the retained metadata bytes. -/
def runtimeResourceCatalogReserve (host : ReserveHost) (catalog : ResourceCatalog)
    (capacity maximumHostBytes : Nat) : Except Rejection (Nat × ResourceCatalog) := do
  let held := catalog.slots.length
  require (capacity != 0 && decide (capacity ≤ 1024)) .invalidArgument
    "one bounded live resource catalog is required"
  require (!catalog.summary.closing) .state "closing resource catalog cannot reserve new capacity"
  let capacity := if capacity < held then held else capacity
  let slotBytes ← orReject (u64Mul capacity host.slotBytes) .bounds
    "resource catalog metadata overflowed"
  let retained ← orReject (u64Add slotBytes host.catalogBytes) .bounds
    "resource catalog metadata overflowed"
  let peak ← orReject
    (if held < capacity then u64Add retained (held * host.slotBytes) else some retained) .bounds
    "resource catalog relocation overflowed"
  require (maximumHostBytes == 0 || decide (peak ≤ maximumHostBytes)) .bounds
    "resource catalog metadata exceeds host budget"
  require (decide (capacity ≤ held) || catalog.summary.generation != u64Max) .bounds
    "resource catalog generation is exhausted"
  require (decide (capacity ≤ held) || host.allocated) .noMemory
    "resource catalog relocation allocation failed"
  pure (retained, catalog.grown capacity)

def runtimeResourceCatalogOpen (host : ReserveHost) (engineGeneration : Nat)
    (engineIdentity : Text) (capacity : Nat) : Except Rejection ResourceCatalog := do
  require (engineGeneration != 0 && hexValid engineIdentity && capacity != 0 &&
    decide (capacity ≤ 1024)) .invalidArgument "bounded engine generation and identity are required"
  require host.allocated .noMemory "engine resource catalog allocation failed"
  let opened ← runtimeResourceCatalogReserve host
    ⟨[], { engineGeneration := engineGeneration, engineIdentity := engineIdentity }, 0⟩ capacity 0
  pure opened.2

/-- The first critical section of `resource_release`: the resource is marked, and the answer
says whether it has a callback. -/
def releaseBegin (evict : Bool) : Except Rejection (Resource × ResourceCatalog) :=
  if handle.present = false then
    .error ⟨.invalidArgument, "one live engine resource handle is required"⟩
  else
    match catalog.slotLocked handle with
    | none => .error ⟨.invalidArgument, "resource is stale, referenced, or still has dependents"⟩
    | some (index, resource) =>
      let entry := resource.entry
      if evict && !entry.evictable then
        .error ⟨.state, "resource is not eligible for eviction"⟩
      else if entry.state = .releasing ∨ entry.consumerCount ≠ 0 ∨ entry.dependentCount ≠ 0 then
        .error ⟨.state, "resource is stale, referenced, or still has dependents"⟩
      else
        let summary := catalog.summary
        .ok (resource, { catalog.put index (some (resource.withState .releasing)) with
          summary := { summary with
            readyCount := if entry.state = .ready then u64Pred summary.readyCount
              else summary.readyCount
            failedCount := if entry.state = .failed then u64Pred summary.failedCount
              else summary.failedCount } })

def resourceDependencyDrop (entry : ResourceEntry) : ResourceCatalog :=
  if entry.dependency.present then
    match catalog.slotLocked entry.dependency with
    | some (index, dependency) =>
      if dependency.entry.dependentCount = 0 then catalog
      else catalog.put index (some (dependency.withDependents
        (u64Pred dependency.entry.dependentCount)))
    | none => catalog
  else catalog

def resourceRemove (index : Nat) (resource : Resource) (evicted : Bool) : ResourceCatalog :=
  let entry := resource.entry
  let dropped := resourceDependencyDrop catalog entry
  let summary := dropped.summary
  { dropped.put index none with
    summary := { summary with
      bytes := resourceBytesSubtract summary.bytes entry.bytes
      resourceCount := u64Pred summary.resourceCount
      countByKind := fun kind =>
        if kind = entry.kind then u64Pred (summary.countByKind kind) else summary.countByKind kind
      readyCount := if entry.state = .ready then u64Pred summary.readyCount
        else summary.readyCount
      failedCount := if entry.state = .failed then u64Pred summary.failedCount
        else summary.failedCount
      releaseCount := u64Succ summary.releaseCount
      evictionCount := if evicted then u64Succ summary.evictionCount else summary.evictionCount
      generation := u64Succ summary.generation } }

/-- The second critical section of `resource_release`, with the answer of the callback. -/
def releaseEnd (evict answered : Bool) : Except Rejection ResourceCatalog :=
  match catalog.slotLocked handle with
  | none => .error ⟨.state, "resource generation changed during release"⟩
  | some (index, resource) =>
    if answered then .ok (resourceRemove catalog index resource evict)
    else
      .ok { catalog.put index (some (resource.withState .failed)) with
        summary := { catalog.summary with
          failedCount := u64Succ catalog.summary.failedCount
          failedReleaseCount := u64Succ catalog.summary.failedReleaseCount } }

/-- The scan of `yvex_runtime_resource_catalog_close` for a resource to release, from the last
slot on. -/
def closeCandidate : Option ResourceHandle :=
  (catalog.slots.reverse.findSome? fun slot =>
    slot.filter fun resource =>
      resource.entry.consumerCount == 0 && resource.entry.dependentCount == 0).map
    fun resource => resource.entry.handle

end

/-! ## Threads

Each step is one critical section, or the call of a release callback while the lock is dropped.
Registrations, borrows and reservations are one critical section each and come from any thread,
a running callback included; a release and a close have several. -/

inductive Activity where
  | idle
  /-- The resource is marked and the lock dropped; `invoked` says the callback has been called. -/
  | releasing (handle : ResourceHandle) (resource : Resource) (evict inClose invoked : Bool)
  /-- A close has chosen a resource to release. -/
  | closing (candidate : ResourceHandle)
  /-- A close has released one and is about to look for the next. -/
  | rescanning

inductive ReleaseEvent where
  | called (serial : Nat)
  | succeeded (serial : Nat)
  | refused (serial : Nat)
deriving DecidableEq

/-- A catalog, until it is closed, with the threads that use it; the handles issued and the
events of the callbacks are a record of the run. -/
structure CatalogWorld where
  catalog : Option ResourceCatalog
  threads : Nat → Activity := fun _ => .idle
  issued : List ResourceHandle := []
  events : List ReleaseEvent := []

inductive CatalogStep where
  | register (request : ResourceRequest)
  | publishReady (handle : ResourceHandle)
  | acquire (handle : ResourceHandle)
  | drop (handle : ResourceHandle)
  | reserve (host : ReserveHost) (capacity maximumHostBytes : Nat)
  | evict (thread : Nat) (handle : ResourceHandle)
  | invoke (thread : Nat)
  | answer (thread : Nat) (answered : Bool)
  | close (thread : Nat)
  | closeRelease (thread : Nat)
  | closeScan (thread : Nat)

namespace CatalogWorld

variable (world : CatalogWorld)

def setThread (thread : Nat) (activity : Activity) : CatalogWorld :=
  { world with threads := Function.update world.threads thread activity }

def replace (outcome : Except Rejection ResourceCatalog) : CatalogWorld :=
  match outcome with
  | .ok catalog => { world with catalog := some catalog }
  | .error _ => world

section

variable (catalog : ResourceCatalog) (thread : Nat) (handle : ResourceHandle)

def begin (evict inClose : Bool) : CatalogWorld :=
  match releaseBegin catalog handle evict with
  | .ok (resource, marked) =>
    { world.setThread thread (.releasing handle resource evict inClose false) with
      catalog := some marked }
  | .error _ => world.setThread thread .idle

def finish (resource : Resource) (evict inClose answered : Bool) : CatalogWorld :=
  let events :=
    if resource.release then
      world.events ++ [if answered then .succeeded resource.serial else .refused resource.serial]
    else world.events
  let next : Activity :=
    match releaseEnd catalog handle evict answered with
    | .ok _ => if inClose && answered then .rescanning else .idle
    | .error _ => .idle
  ({ world.setThread thread next with events := events }).replace
    (releaseEnd catalog handle evict answered)

def scan : CatalogWorld :=
  match closeCandidate catalog with
  | some candidate => { world.setThread thread (.closing candidate) with catalog := some catalog }
  | none =>
    if catalog.summary.resourceCount ≠ 0 then
      { world.setThread thread .idle with catalog := some catalog }
    else { world.setThread thread .idle with catalog := none }

end

/-- One step; a step that its thread is not ready for, and a step after the close, is none. -/
def step (world : CatalogWorld) (step : CatalogStep) : CatalogWorld :=
  match world.catalog with
  | none => world
  | some catalog =>
    match step with
    | .register request =>
      match runtimeResourceRegister catalog request world.issued.length with
      | .ok (handle, catalog) =>
        { world with catalog := some catalog, issued := world.issued ++ [handle] }
      | .error _ => world
    | .publishReady handle => world.replace (runtimeResourcePublishReady catalog handle)
    | .acquire handle => world.replace (Prod.snd <$> runtimeResourceAcquire catalog handle)
    | .drop handle => world.replace (runtimeResourceDrop catalog handle)
    | .reserve host capacity maximumHostBytes =>
      world.replace
        (Prod.snd <$> runtimeResourceCatalogReserve host catalog capacity maximumHostBytes)
    | .evict thread handle =>
      match world.threads thread with
      | .idle => world.begin catalog thread handle true false
      | _ => world
    | .invoke thread =>
      match world.threads thread with
      | .releasing handle resource evict inClose false =>
        if resource.release then
          { world.setThread thread (.releasing handle resource evict inClose true) with
            events := world.events ++ [.called resource.serial] }
        else world
      | _ => world
    | .answer thread answered =>
      match world.threads thread with
      | .releasing handle resource evict inClose invoked =>
        if resource.release = invoked then
          world.finish catalog thread handle resource evict inClose
            (answered || !resource.release)
        else world
      | _ => world
    | .close thread =>
      match world.threads thread with
      | .idle =>
        world.scan { catalog with summary := { catalog.summary with closing := true } } thread
      | _ => world
    | .closeRelease thread =>
      match world.threads thread with
      | .closing candidate => world.begin catalog thread candidate false true
      | _ => world
    | .closeScan thread =>
      match world.threads thread with
      | .rescanning => world.scan catalog thread
      | _ => world

def run (steps : List CatalogStep) : CatalogWorld := steps.foldl CatalogWorld.step world

/-- The world after `yvex_runtime_resource_catalog_open`. -/
def opened (host : ReserveHost) (engineGeneration : Nat) (engineIdentity : Text)
    (capacity : Nat) : CatalogWorld where
  catalog := (runtimeResourceCatalogOpen host engineGeneration engineIdentity capacity).toOption

end CatalogWorld

end Yvex.Runtime
