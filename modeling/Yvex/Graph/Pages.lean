import Yvex.Foundation.Checked
import Yvex.Foundation.Bitmap

namespace Yvex.Graph

/-! # State pages

A page store reserves the virtual extent of one state component and commits it
page by page. Two granularities meet in a store: semantic pages, which the model
geometry fixes, and system pages, which the host protects. The pool owns the
physical budget that all stores of one provider draw from.

Host calls (allocation, `mmap`, `mprotect`) may fail; their outcomes are arguments.
The pool mutex is an initialised default mutex for as long as the pool is open, so
locking it succeeds. -/

/-- `yvex_model_state_class`, in the order of its enumeration. -/
inductive StateClass where
  | swaRing
  | compressedHistory
  | hcaHistory
  | indexerHistory
  | mainRolling
  | indexerRolling
  | residualMixing
  | draftPersistent
  | candidateDelta
  | prefixCheckpoint
  | recurrentSequence
deriving DecidableEq

structure PagePool where
  maximumBytes : Nat
  metadataBytes : Nat
  residentBytes : Nat
  virtualBytes : Nat
  pageCount : Nat
  residentPageCount : Nat
  pageCommitCount : Nat
  pageReleaseCount : Nat
  storeCount : Nat

def pagePoolOpen (maximumBytes : Nat) : PagePool :=
  { maximumBytes, metadataBytes := 0, residentBytes := 0, virtualBytes := 0,
    pageCount := 0, residentPageCount := 0, pageCommitCount := 0,
    pageReleaseCount := 0, storeCount := 0 }

section

variable (pool : PagePool)

def pagesPoolAdmit (metadata resident : Nat) : Bool :=
  let required := do
    let current ← u64Add pool.metadataBytes pool.residentBytes
    let added ← u64Add metadata resident
    u64Add current added
  match required with
  | none => false
  | some required => pool.maximumBytes = 0 || required ≤ pool.maximumBytes

def pagesPoolReserve (bytes : Nat) : Except Rejection Unit × PagePool :=
  match pagesPoolAdmit pool bytes 0, u64Add pool.metadataBytes bytes with
  | true, some metadata => (.ok (), { pool with metadataBytes := metadata })
  | _, _ => (.error ⟨.bounds, "state page-pool metadata exceeds its host budget"⟩, pool)

def pagePoolRelease (bytes : Nat) : PagePool :=
  if bytes ≤ pool.metadataBytes then
    { pool with metadataBytes := u64Sub pool.metadataBytes bytes }
  else pool

/-- The fields of `yvex_execution_capacity_plan` that bound the pool. -/
structure CapacityBudget where
  statePoolBytes : Nat
  candidateReserveBytes : Nat
  graphBytes : Nat

def pagePoolBindCapacity (capacity : Option CapacityBudget) : Except Rejection Unit × PagePool :=
  let totals := do
    let capacity ← capacity
    let stateBudget ← u64Add capacity.statePoolBytes capacity.candidateReserveBytes
    let budget ← u64Add stateBudget capacity.graphBytes
    let required ← u64Add pool.metadataBytes pool.residentBytes
    pure (budget, required)
  match totals with
  | none => (.error ⟨.invalidArgument, "state capacity budget is invalid"⟩, pool)
  | some (budget, required) =>
    if budget ≠ 0 ∧ required > budget then
      (.error ⟨.bounds, "state capacity is below committed page bytes"⟩, pool)
    else if budget ≠ 0 ∧ (pool.maximumBytes = 0 ∨ budget < pool.maximumBytes) then
      (.ok (), { pool with maximumBytes := budget })
    else (.ok (), pool)

end

/-- The extents of a store, all derived by `pages_geometry` from the element
count, the element width and the two page sizes. -/
structure PageGeometry where
  elementCount : Nat
  elementWidth : Nat
  pageElements : Nat
  systemPageBytes : Nat
  requestedBytes : Nat
  mappedBytes : Nat
  pageCount : Nat
  elementCount_pos : 0 < elementCount
  elementWidth_pos : 0 < elementWidth
  pageElements_pos : 0 < pageElements
  systemPageBytes_pos : 0 < systemPageBytes
  requestedBytes_eq : requestedBytes = elementCount * elementWidth
  mappedBytes_eq : mappedBytes = (requestedBytes + systemPageBytes - 1) -
    (requestedBytes + systemPageBytes - 1) % systemPageBytes
  pageCount_eq : pageCount = (elementCount + pageElements - 1) / pageElements
  mappedBytes_le : requestedBytes + systemPageBytes - 1 ≤ u64Max
  pageCount_le : elementCount + pageElements - 1 ≤ u64Max
deriving DecidableEq

namespace PageGeometry

variable (geometry : PageGeometry)

def systemPageCount : Nat := geometry.mappedBytes / geometry.systemPageBytes

def bitmapBytes : Nat := (geometry.pageCount + 7) / 8

def systemBitmapBytes : Nat := (geometry.systemPageCount + 7) / 8

end PageGeometry

/-- `pages_geometry`. The products and sums it checks are the bounds that the
geometry carries. -/
def pagesGeometry (elements width pageElements systemPage : Nat) : Option PageGeometry :=
  if positive : 0 < elements ∧ 0 < width ∧ 0 < pageElements ∧ 0 < systemPage then
    if bounded : elements * width ≤ u64Max ∧ elements + pageElements - 1 ≤ u64Max ∧
        elements * width + systemPage - 1 ≤ u64Max then
      some {
        elementCount := elements
        elementWidth := width
        pageElements
        systemPageBytes := systemPage
        requestedBytes := elements * width
        mappedBytes := (elements * width + systemPage - 1) -
          (elements * width + systemPage - 1) % systemPage
        pageCount := (elements + pageElements - 1) / pageElements
        elementCount_pos := positive.1
        elementWidth_pos := positive.2.1
        pageElements_pos := positive.2.2.1
        systemPageBytes_pos := positive.2.2.2
        requestedBytes_eq := rfl
        mappedBytes_eq := rfl
        pageCount_eq := rfl
        mappedBytes_le := bounded.2.2
        pageCount_le := bounded.2.1 }
    else none
  else none

/-- `state_shared_backing`: the immutable pages of a captured prefix. The file
that holds their bytes, its digest and its reference count are not part of the
accounting. -/
structure SharedBacking where
  geometry : PageGeometry
  committed : Bitmap
  systemCommitted : Bitmap
  committed_length : committed.length = geometry.bitmapBytes
  systemCommitted_length : systemCommitted.length = geometry.systemBitmapBytes

/-- `yvex_graph_state_page_store`. An unpaged store has no bitmaps, so only a
paged store fixes their lengths. -/
structure PageStore where
  geometry : PageGeometry
  paged : Bool
  shared : Option SharedBacking
  committed : Bitmap
  systemCommitted : Bitmap
  privateCommitted : Bitmap
  privateSystemCommitted : Bitmap
  residentSystemPages : Nat
  metadataCharge : Nat
  residentBytes : Nat
  residentPages : Nat
  committed_length : paged → committed.length = geometry.bitmapBytes
  systemCommitted_length : paged → systemCommitted.length = geometry.systemBitmapBytes
  privateCommitted_length : paged → privateCommitted.length = geometry.bitmapBytes
  privateSystemCommitted_length : paged → privateSystemCommitted.length = geometry.systemBitmapBytes

/-- `pages_store_register`: charge a freshly mapped store to the pool. -/
def pagesStoreRegister (pool : PagePool) (store : PageStore)
    (metadata resident : Nat) : Except Rejection Unit × PagePool :=
  let next : Option PagePool := do
    let metadataNext ← u64Add pool.metadataBytes metadata
    let residentNext ← u64Add pool.residentBytes resident
    ensure (pool.maximumBytes = 0 || (metadataNext ≤ pool.maximumBytes &&
      residentNext ≤ pool.maximumBytes - metadataNext))
    let virtualNext ← u64Add pool.virtualBytes store.geometry.requestedBytes
    let pageNext ← u64Add pool.pageCount store.geometry.pageCount
    let residentPageNext ← u64Add pool.residentPageCount
      (if store.paged then 0 else store.geometry.pageCount)
    let storesNext ← u64Add pool.storeCount 1
    pure { pool with
      metadataBytes := metadataNext
      residentBytes := residentNext
      virtualBytes := virtualNext
      pageCount := pageNext
      residentPageCount := residentPageNext
      storeCount := storesNext }
  match next with
  | some next => (.ok (), next)
  | none =>
    (.error ⟨.bounds, "state page store exceeds its pool budget or counters (metadata=" ++
      toString pool.metadataBytes ++ "+" ++ toString metadata ++ " resident=" ++
      toString pool.residentBytes ++ "+" ++ toString resident ++ " maximum=" ++
      toString pool.maximumBytes ++ " virtual=" ++
      toString store.geometry.requestedBytes ++ ")"⟩, pool)

/-- The host outcomes that `pages_store_open` depends on; a page size of zero
stands for a failed `sysconf`. -/
structure StoreOpenHost where
  systemPage : Nat
  ownerAllocated : Bool
  bitmapsAllocated : Bool
  mapped : Bool

/-- The store that `pages_store_open` has built when it asks for registration. -/
def PageStore.fresh (geometry : PageGeometry) (paged : Bool) (metadataCharge : Nat) : PageStore :=
  let bitmap (bytes : Nat) : Bitmap := if paged then .zeroed bytes else []
  { geometry
    paged
    shared := none
    committed := bitmap geometry.bitmapBytes
    systemCommitted := bitmap geometry.systemBitmapBytes
    privateCommitted := bitmap geometry.bitmapBytes
    privateSystemCommitted := bitmap geometry.systemBitmapBytes
    residentSystemPages := 0
    metadataCharge
    residentBytes := if paged then 0 else geometry.requestedBytes
    residentPages := if paged then 0 else geometry.pageCount
    committed_length := by intro paged; simp [bitmap, paged]
    systemCommitted_length := by intro paged; simp [bitmap, paged]
    privateCommitted_length := by intro paged; simp [bitmap, paged]
    privateSystemCommitted_length := by intro paged; simp [bitmap, paged] }

def PageGeometry.metadataCharge (geometry : PageGeometry) : Option Nat := do
  let charge ← u64Add geometry.bitmapBytes geometry.systemBitmapBytes
  let charge ← u64Add charge geometry.bitmapBytes
  u64Add charge geometry.systemBitmapBytes

/-- The part of `pages_store_open` that comes before registration. -/
def pagesStorePrepare (elementCount elementWidth pageElements : Nat) (paged : Bool)
    (host : StoreOpenHost) : Except Rejection PageStore := do
  require (elementCount ≠ 0 && elementWidth ≠ 0 && pageElements ≠ 0) .invalidArgument
    "complete state page-store geometry is required"
  require (host.systemPage ≠ 0) .state "host page geometry is unavailable"
  require host.ownerAllocated .noMemory "state page-store owner allocation failed"
  let geometry ← orReject
    (pagesGeometry elementCount elementWidth pageElements host.systemPage) .bounds
    "state page-store geometry overflowed"
  if paged then
    require (host.bitmapsAllocated && host.mapped) .noMemory
      "state virtual page reservation failed"
    let charge ← orReject geometry.metadataCharge .bounds
      "state page metadata extent overflowed"
    pure (.fresh geometry true charge)
  else
    require host.mapped .noMemory "reference state storage allocation failed"
    pure (.fresh geometry false 0)

def pagesStoreOpen (pool : PagePool) (elementCount elementWidth pageElements : Nat)
    (paged : Bool) (host : StoreOpenHost) : Except Rejection PageStore × PagePool :=
  match pagesStorePrepare elementCount elementWidth pageElements paged host with
  | .error rejection => (.error rejection, pool)
  | .ok store =>
    match pagesStoreRegister pool store store.metadataCharge store.residentBytes with
    | (.error rejection, pool) => (.error rejection, pool)
    | (.ok (), pool) => (.ok store, pool)

structure TouchSpan where
  first : Nat
  last : Nat
  systemFirst : Nat
  systemLast : Nat

namespace TouchSpan

def pages (span : TouchSpan) : Nat := span.last - span.first + 1

def systemPages (span : TouchSpan) : Nat := span.systemLast - span.systemFirst + 1

end TouchSpan

/-- The page arithmetic of `pages_store_touch`. -/
def touchSpan (geometry : PageGeometry) (elementStart finish : Nat) :
    Except Rejection TouchSpan := do
  let first := elementStart / geometry.pageElements
  let last := (finish - 1) / geometry.pageElements
  let (byteStart, byteEnd) ← orReject (do
      let byteStart ← u64Mul first geometry.pageElements
      let byteStart ← u64Mul byteStart geometry.elementWidth
      let byteEnd ← u64Add last 1
      let byteEnd ← u64Mul byteEnd geometry.pageElements
      let byteEnd ← u64Mul byteEnd geometry.elementWidth
      pure (byteStart, byteEnd))
    .bounds "state page protection range overflowed"
  let byteEnd := min byteEnd geometry.requestedBytes
  let protectStart := byteStart - byteStart % geometry.systemPageBytes
  let rounded ← orReject (u64Add byteEnd (geometry.systemPageBytes - 1)) .bounds
    "state page protection rounding overflowed"
  let protectEnd := rounded - rounded % geometry.systemPageBytes
  pure {
    first
    last
    systemFirst := protectStart / geometry.systemPageBytes
    systemLast := protectEnd / geometry.systemPageBytes - 1 }

def copyOnWriteCount (committed privateCommitted : Bitmap) (first count : Nat) : Nat :=
  (List.range' first count).countP fun page => committed.get page && !privateCommitted.get page

structure TouchPlan where
  span : TouchSpan
  poolResident : Nat
  poolPages : Nat
  commits : Nat
  storeResident : Nat
  storePages : Nat
  storeSystemPages : Nat

variable (pool : PagePool) (store : PageStore)

/-- Everything `pages_store_touch` checks under the pool lock before it calls the
host. -/
def touchPlan (span : TouchSpan) : Except Rejection TouchPlan := do
  let newPages := store.committed.vacancies span.first span.pages
  let cowPages := if store.shared.isSome then
    copyOnWriteCount store.committed store.privateCommitted span.first span.pages else 0
  require (newPages ≤ u64Max) .bounds "state page commitment accounting overflowed"
  require (cowPages ≤ u64Max) .bounds "state page COW accounting overflowed"
  let newSystemPages := store.systemCommitted.vacancies span.systemFirst span.systemPages
  let cowSystemPages := if store.shared.isSome then
    copyOnWriteCount store.systemCommitted store.privateSystemCommitted
      span.systemFirst span.systemPages else 0
  require (newSystemPages ≤ u64Max) .bounds "host page commitment accounting overflowed"
  require (cowSystemPages ≤ u64Max) .bounds "host page COW accounting overflowed"
  let additional ← orReject (do
      let systemPages ← u64Add newSystemPages cowSystemPages
      u64Mul systemPages store.geometry.systemPageBytes)
    .bounds "host page commitment byte extent overflowed"
  orReject (do
      ensure (pagesPoolAdmit pool 0 additional)
      let poolResident ← u64Add pool.residentBytes additional
      let pages ← u64Add newPages cowPages
      let poolPages ← u64Add pool.residentPageCount pages
      let commits ← u64Add pool.pageCommitCount pages
      let storeResident ← u64Add store.residentBytes additional
      let storePages ← u64Add store.residentPages pages
      let systemPages ← u64Add newSystemPages cowSystemPages
      let storeSystemPages ← u64Add store.residentSystemPages systemPages
      pure { span, poolResident, poolPages, commits, storeResident, storePages, storeSystemPages })
    .bounds "state page commitment exceeds its budget or counters"

/-- The stores of `pages_store_touch` after the host has granted the range. -/
def PageStore.commit (plan : TouchPlan) : PageStore :=
  let span := plan.span
  let own (bitmap : Bitmap) (first count : Nat) : Bitmap :=
    if store.shared.isSome then bitmap.fill first count else bitmap
  { store with
    committed := store.committed.fill span.first span.pages
    systemCommitted := store.systemCommitted.fill span.systemFirst span.systemPages
    privateCommitted := own store.privateCommitted span.first span.pages
    privateSystemCommitted := own store.privateSystemCommitted span.systemFirst span.systemPages
    residentBytes := plan.storeResident
    residentPages := plan.storePages
    residentSystemPages := plan.storeSystemPages
    committed_length := by
      intro paged
      rw [Bitmap.length_fill, store.committed_length paged]
    systemCommitted_length := by
      intro paged
      rw [Bitmap.length_fill, store.systemCommitted_length paged]
    privateCommitted_length := by
      intro paged
      dsimp only [own]
      split
      · rw [Bitmap.length_fill, store.privateCommitted_length paged]
      · exact store.privateCommitted_length paged
    privateSystemCommitted_length := by
      intro paged
      dsimp only [own]
      split
      · rw [Bitmap.length_fill, store.privateSystemCommitted_length paged]
      · exact store.privateSystemCommitted_length paged }

def PagePool.commit (plan : TouchPlan) : PagePool :=
  { pool with
    residentBytes := plan.poolResident
    residentPageCount := plan.poolPages
    pageCommitCount := plan.commits }

/-- `pages_store_touch`; `granted` is the outcome of `mprotect`. -/
def pagesStoreTouch (elementStart elementCount : Nat) (granted : Bool) :
    Except Rejection Unit × PagePool × PageStore :=
  let rejected (rejection : Rejection) := (Except.error rejection, pool, store)
  let inside := elementCount ≠ 0 ∧ elementStart < store.geometry.elementCount ∧
    elementStart + elementCount ≤ u64Max ∧
    elementStart + elementCount ≤ store.geometry.elementCount
  if ¬inside then
    rejected ⟨.bounds, "state page touch exceeds its virtual extent"⟩
  else if !store.paged && store.shared.isNone then (.ok (), pool, store)
  else
    match touchSpan store.geometry elementStart (elementStart + elementCount) >>=
        touchPlan pool store with
    | .error rejection => rejected rejection
    | .ok plan =>
      if granted then (.ok (), pool.commit plan, store.commit plan)
      else rejected ⟨.noMemory, "state page commitment failed"⟩

/-- Host outcomes of a shared installation: the file mapping, the protection of
its committed pages and the replacement of the store's mapping. -/
structure InstallHost where
  mapped : Bool
  pagesProtected : Bool
  replaced : Bool

def pagesStoreInstallShared (backing : SharedBacking) (host : InstallHost) :
    Except Rejection Unit × PagePool × PageStore :=
  let rejected (status : Status) (reason : String) :=
    (Except.error (Rejection.mk status reason), pool, store)
  if compatible : store.paged ∧ backing.geometry = store.geometry then
    if !host.mapped then
      rejected .noMemory "state prefix mapping installation failed"
    else if !host.pagesProtected then
      rejected .noMemory "state prefix page protection failed"
    else
      match u64Add pool.pageReleaseCount store.residentPages with
      | none => rejected .bounds "state prefix release accounting overflowed"
      | some releases =>
        if pool.residentBytes < store.residentBytes ∨
            pool.residentPageCount < store.residentPages then
          rejected .bounds "state prefix release accounting overflowed"
        else if !host.replaced then
          rejected .noMemory "state prefix mapping replacement failed"
        else
          (.ok (),
            { pool with
              residentBytes := u64Sub pool.residentBytes store.residentBytes
              residentPageCount := u64Sub pool.residentPageCount store.residentPages
              pageReleaseCount := releases },
            { store with
              shared := some backing
              committed := backing.committed
              systemCommitted := backing.systemCommitted
              privateCommitted := .zeroed store.geometry.bitmapBytes
              privateSystemCommitted := .zeroed store.geometry.systemBitmapBytes
              residentBytes := 0
              residentPages := 0
              residentSystemPages := 0
              committed_length := by
                intro _
                rw [backing.committed_length, compatible.2]
              systemCommitted_length := by
                intro _
                rw [backing.systemCommitted_length, compatible.2]
              privateCommitted_length := by simp
              privateSystemCommitted_length := by simp })
  else rejected .format "state prefix backing geometry is incompatible"

/-- The store of `pages_store_reset` once its mapping has been replaced. -/
def PageStore.cleared : PageStore :=
  { store with
    shared := none
    committed := .zeroed store.committed.length
    systemCommitted := .zeroed store.systemCommitted.length
    privateCommitted := .zeroed store.privateCommitted.length
    privateSystemCommitted := .zeroed store.privateSystemCommitted.length
    residentBytes := if store.paged then 0 else store.geometry.requestedBytes
    residentPages := if store.paged then 0 else store.geometry.pageCount
    residentSystemPages := 0
    committed_length := by simpa using store.committed_length
    systemCommitted_length := by simpa using store.systemCommitted_length
    privateCommitted_length := by simpa using store.privateCommitted_length
    privateSystemCommitted_length := by simpa using store.privateSystemCommitted_length }

/-- `pages_store_reset`; `replaced` is the outcome of the anonymous remapping. -/
def pagesStoreReset (replaced : Bool) : Except Rejection Unit × PagePool × PageStore :=
  let rejected (status : Status) (reason : String) :=
    (Except.error (Rejection.mk status reason), pool, store)
  if !store.paged && store.shared.isNone then (.ok (), pool, store)
  else
    let targetResident := if store.paged then 0 else store.geometry.requestedBytes
    let targetPages := if store.paged then 0 else store.geometry.pageCount
    if pool.residentBytes < store.residentBytes ∨ pool.residentPageCount < store.residentPages then
      rejected .state "state page reset accounting is inconsistent"
    else
      let next : Option (Nat × Nat × Nat) := do
        let releases ← u64Add pool.pageReleaseCount store.residentPages
        let resident ←
          u64Add (u64Sub pool.residentBytes store.residentBytes) targetResident
        let pages ←
          u64Add (u64Sub pool.residentPageCount store.residentPages) targetPages
        pure (releases, resident, pages)
      match next with
      | none => rejected .bounds "state page release counter overflowed"
      | some (releases, resident, pages) =>
        if pool.maximumBytes ≠ 0 ∧ (pool.metadataBytes > pool.maximumBytes ∨
            resident > pool.maximumBytes - pool.metadataBytes) then
          rejected .bounds "state page reset exceeds its host budget"
        else if !replaced then
          rejected .noMemory "state anonymous mapping replacement failed"
        else
          (.ok (),
            { pool with
              residentBytes := resident
              residentPageCount := pages
              pageReleaseCount := releases },
            store.cleared)

/-- `pages_store_close`: the release count keeps its value when it would wrap. -/
def pagesStoreClose : PagePool :=
  { pool with
    metadataBytes := u64Sub pool.metadataBytes store.metadataCharge
    residentBytes := u64Sub pool.residentBytes store.residentBytes
    virtualBytes := u64Sub pool.virtualBytes store.geometry.requestedBytes
    pageCount := u64Sub pool.pageCount store.geometry.pageCount
    residentPageCount := u64Sub pool.residentPageCount store.residentPages
    pageReleaseCount :=
      (u64Add pool.pageReleaseCount store.residentPages).getD pool.pageReleaseCount
    storeCount := u64Sub pool.storeCount 1 }

structure PointerTable where
  capacity : Nat
  bytes : Nat

variable (table : PointerTable)

/-- The growth that `yvex_graph_state_pointer_table_reserve` asks for. -/
def pointerTableGrowth (limit : Nat) : Except Rejection PointerTable := do
  require (limit ≠ 0) .invalidArgument "state pointer-table geometry is invalid"
  let doubled ← orReject
    (if table.capacity = 0 then some 8 else u64Mul table.capacity 2) .bounds
    "state pointer-table capacity overflowed"
  let capacity := min doubled limit
  let bytes ← orReject (do
      ensure (table.capacity < capacity)
      let bytes ← u64Mul capacity 8
      ensure (table.bytes ≤ bytes)
      pure bytes)
    .bounds "state pointer-table byte extent overflowed"
  pure ⟨capacity, bytes⟩

/-- `yvex_graph_state_pointer_table_reserve`; `resized` is the outcome of the
reallocation, and a failed one gives the reservation back. -/
def pointerTableReserve (limit : Nat) (resized : Bool) :
    Except Rejection Unit × PagePool × PointerTable :=
  match pointerTableGrowth table limit with
  | .error rejection => (.error rejection, pool, table)
  | .ok grown =>
    let delta := grown.bytes - table.bytes
    match pagesPoolReserve pool delta with
    | (.error rejection, pool) => (.error rejection, pool, table)
    | (.ok (), pool) =>
      if resized then (.ok (), pool, grown)
      else
        (.error ⟨.noMemory, "state pointer-table allocation failed"⟩,
          pagePoolRelease pool delta, table)

end Yvex.Graph
