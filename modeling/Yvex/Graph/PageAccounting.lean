import Yvex.Graph.Pages

namespace Yvex.Graph

open List Option Yvex.Except

/-! # Page-pool accounting

The pool, the stores that are open on it and the pointer tables it has been
charged for form one system. Every operation keeps the pool's counters equal to
the totals over the inventory. -/

/-! ## The system -/

structure PageSystem where
  pool : PagePool
  stores : List PageStore
  tables : List PointerTable

/-- One call on the pool. Stores and tables are named by their place in the
inventory; a place that holds nothing stands for a null owner. -/
inductive PageOperation where
  | storeOpen (elementCount elementWidth pageElements : Nat) (paged : Bool)
      (host : StoreOpenHost)
  | storeTouch (index elementStart elementCount : Nat) (granted : Bool)
  | storeReset (index : Nat) (replaced : Bool)
  | storeInstallShared (index : Nat) (backing : SharedBacking) (host : InstallHost)
  | storeClose (index : Nat)
  | tableOpen
  | tableReserve (index limit : Nat) (resized : Bool)
  | tableRelease (index : Nat)
  | bindCapacity (capacity : Option CapacityBudget)

namespace PageSystem

def opened (maximumBytes : Nat) : PageSystem := ⟨pagePoolOpen maximumBytes, [], []⟩

variable (system : PageSystem)

def onStore (index : Nat) (absent : Rejection)
    (act : PagePool → PageStore → Except Rejection Unit × PagePool × PageStore) :
    Except Rejection Unit × PageSystem :=
  match system.stores[index]? with
  | none => (.error absent, system)
  | some store =>
    let (result, pool, store) := act system.pool store
    (result, { system with pool, stores := system.stores.set index store })

def step : PageOperation → Except Rejection Unit × PageSystem
  | .storeOpen elementCount elementWidth pageElements paged host =>
    match pagesStoreOpen system.pool elementCount elementWidth pageElements paged
        host with
    | (.error rejection, pool) => (.error rejection, { system with pool })
    | (.ok store, pool) => (.ok (), { system with pool, stores := system.stores ++ [store] })
  | .storeTouch index elementStart elementCount granted =>
    system.onStore index ⟨.bounds, "state page touch exceeds its virtual extent"⟩
      fun pool store => pagesStoreTouch pool store elementStart elementCount granted
  | .storeReset index replaced =>
    system.onStore index ⟨.invalidArgument, "state page store is required"⟩
      fun pool store => pagesStoreReset pool store replaced
  | .storeInstallShared index backing host =>
    system.onStore index ⟨.format, "state prefix backing geometry is incompatible"⟩
      fun pool store => pagesStoreInstallShared pool store backing host
  | .storeClose index =>
    match system.stores[index]? with
    | none => (.ok (), system)
    | some store =>
      (.ok (), { system with
        pool := pagesStoreClose system.pool store
        stores := system.stores.eraseIdx index })
  | .tableOpen => (.ok (), { system with tables := system.tables ++ [⟨0, 0⟩] })
  | .tableReserve index limit resized =>
    match system.tables[index]? with
    | none => (.error ⟨.invalidArgument, "state pointer-table geometry is invalid"⟩, system)
    | some table =>
      let (result, pool, table) := pointerTableReserve system.pool table limit resized
      (result, { system with pool, tables := system.tables.set index table })
  | .tableRelease index =>
    match system.tables[index]? with
    | none => (.ok (), system)
    | some table =>
      (.ok (), { system with
        pool := pagePoolRelease system.pool table.bytes
        tables := system.tables.eraseIdx index })
  | .bindCapacity capacity =>
    let (result, pool) := pagePoolBindCapacity system.pool capacity
    (result, { system with pool })

def run (operations : List PageOperation) : PageSystem :=
  operations.foldl (fun system operation => (system.step operation).2) system

end PageSystem

/-! ## The invariant -/

namespace PageStore

def ownedPages (store : PageStore) : Nat :=
  (if store.shared.isSome then store.privateCommitted else store.committed).population
    store.geometry.pageCount

def ownedSystemPages (store : PageStore) : Nat :=
  (if store.shared.isSome then store.privateSystemCommitted
    else store.systemCommitted).population store.geometry.systemPageCount

structure Accounted (store : PageStore) : Prop where
  metadataCharge : store.metadataCharge = if store.paged then
    2 * (store.geometry.bitmapBytes + store.geometry.systemBitmapBytes) else 0
  residentBytes : store.residentBytes = if store.paged then
    store.geometry.systemPageBytes * store.ownedSystemPages
    else store.geometry.requestedBytes
  residentPages : store.residentPages = if store.paged then store.ownedPages
    else store.geometry.pageCount
  residentSystemPages : store.residentSystemPages = if store.paged then
    store.ownedSystemPages else 0
  shared_paged : store.shared.isSome → store.paged
  private_committed : store.shared.isSome →
    ∀ page, store.privateCommitted.get page → store.committed.get page
  private_systemCommitted : store.shared.isSome →
    ∀ page, store.privateSystemCommitted.get page → store.systemCommitted.get page

end PageStore

/-- Every counter of the pool is a value that its machine word can hold. -/
structure PagePool.Representable (pool : PagePool) : Prop where
  maximumBytes : pool.maximumBytes ≤ u64Max
  metadataBytes : pool.metadataBytes ≤ u64Max
  residentBytes : pool.residentBytes ≤ u64Max
  virtualBytes : pool.virtualBytes ≤ u64Max
  pageCount : pool.pageCount ≤ u64Max
  residentPageCount : pool.residentPageCount ≤ u64Max
  pageCommitCount : pool.pageCommitCount ≤ u64Max
  pageReleaseCount : pool.pageReleaseCount ≤ u64Max
  storeCount : pool.storeCount ≤ u64Max

structure PageSystem.Accounted (system : PageSystem) : Prop where
  representable : system.pool.Representable
  stores : ∀ store ∈ system.stores, store.Accounted
  residentBytes : system.pool.residentBytes = total PageStore.residentBytes system.stores
  residentPageCount : system.pool.residentPageCount = total PageStore.residentPages system.stores
  virtualBytes : system.pool.virtualBytes =
    total (fun store => store.geometry.requestedBytes) system.stores
  pageCount : system.pool.pageCount = total (fun store => store.geometry.pageCount) system.stores
  storeCount : system.pool.storeCount = system.stores.length
  metadataBytes : system.pool.metadataBytes =
    total PageStore.metadataCharge system.stores + total PointerTable.bytes system.tables
  budget : system.pool.maximumBytes ≠ 0 →
    system.pool.metadataBytes + system.pool.residentBytes ≤ system.pool.maximumBytes

/-! ## What a touch covers and charges -/

private theorem roundUp_div (value : Nat) (valuePositive : 0 < value)
    (unitPositive : 0 < unit) : (value + unit - 1) / unit = (value - 1) / unit + 1 := by
  have shifted : value + unit - 1 = (value - 1) + unit := by omega
  rw [shifted, Nat.add_div_right _ unitPositive]

private theorem sub_mod_div (value unit : Nat) : (value - value % unit) / unit = value / unit :=
  (Nat.div_eq_sub_mod_div).symm

structure TouchSpan.Within (span : TouchSpan) (geometry : PageGeometry) : Prop where
  first_le : span.first ≤ span.last
  last_lt : span.last < geometry.pageCount
  systemFirst_le : span.systemFirst ≤ span.systemLast
  systemLast_lt : span.systemLast < geometry.systemPageCount

variable {span : TouchSpan}

theorem touchSpan_within {geometry : PageGeometry}
    (nonempty : elementStart < finish) (inside : finish ≤ geometry.elementCount)
    (computed : touchSpan geometry elementStart finish = .ok span) : span.Within geometry := by
  have countPositive := geometry.elementCount_pos
  have widthPositive := geometry.elementWidth_pos
  have pagePositive := geometry.pageElements_pos
  have systemPositive := geometry.systemPageBytes_pos
  simp only [touchSpan, bind_eq_ok, orReject_eq_ok, bind_eq_some, u64Mul_eq_some, u64Add_eq_some]
    at computed
  obtain ⟨⟨byteStart, byteEnd⟩, ⟨_, ⟨rfl, _⟩, _, ⟨rfl, _⟩, _, ⟨rfl, _⟩, _, ⟨rfl, _⟩, _,
    ⟨rfl, _⟩, bytes⟩, rounded, ⟨roundedEq, _⟩, result⟩ := computed
  simp only [pure_eq_some, Prod.mk.injEq] at bytes
  obtain ⟨startEq, endEq⟩ := bytes
  have spanEq := Except.ok.inj result
  have pagesOrdered : elementStart / geometry.pageElements ≤ (finish - 1) / geometry.pageElements :=
    Nat.div_le_div_right (by omega)
  have requestedPositive : 0 < geometry.requestedBytes := by
    rw [geometry.requestedBytes_eq]
    exact Nat.mul_pos countPositive widthPositive
  have startInside : byteStart < geometry.requestedBytes := by
    rw [← startEq, geometry.requestedBytes_eq]
    have aligned : elementStart / geometry.pageElements * geometry.pageElements ≤
        elementStart := Nat.div_mul_le_self _ _
    exact Nat.mul_lt_mul_of_pos_right (by omega) widthPositive
  have endAfterStart : byteStart < byteEnd := by
    rw [← startEq, ← endEq]
    apply Nat.mul_lt_mul_of_pos_right _ widthPositive
    exact Nat.mul_lt_mul_of_pos_right (by omega) pagePositive
  have systemLastEq : (rounded - rounded % geometry.systemPageBytes) /
      geometry.systemPageBytes - 1 =
        (min byteEnd geometry.requestedBytes - 1) / geometry.systemPageBytes := by
    have roundedUp : rounded =
        min byteEnd geometry.requestedBytes + geometry.systemPageBytes - 1 := by omega
    rw [sub_mod_div, roundedUp, roundUp_div _ (by omega) systemPositive, Nat.add_sub_cancel]
  have systemCountEq : geometry.systemPageCount =
      (geometry.requestedBytes - 1) / geometry.systemPageBytes + 1 := by
    rw [PageGeometry.systemPageCount, geometry.mappedBytes_eq, sub_mod_div,
      roundUp_div _ requestedPositive systemPositive]
  subst span
  constructor
  · exact pagesOrdered
  · rw [geometry.pageCount_eq, roundUp_div _ countPositive pagePositive]
    exact Nat.lt_succ_of_le (Nat.div_le_div_right (by omega))
  · rw [systemLastEq]
    exact Nat.div_le_div_right (by omega)
  · rw [systemLastEq, systemCountEq]
    exact Nat.lt_succ_of_le (Nat.div_le_div_right (by omega))

def newlyOwned (isShared : Bool) (committed privateCommitted : Bitmap) (first count : Nat) : Nat :=
  committed.vacancies first count +
    if isShared then copyOnWriteCount committed privateCommitted first count else 0

variable {committed privateCommitted : Bitmap}

private theorem vacancies_add_copyOnWriteCount
    (contained : ∀ page, privateCommitted.get page → committed.get page) (first count : Nat) :
    committed.vacancies first count + copyOnWriteCount committed privateCommitted first count =
      privateCommitted.vacancies first count := by
  unfold Bitmap.vacancies copyOnWriteCount
  induction List.range' first count with
  | nil => rfl
  | cons page pages induction => ?_
  cases committedBit : committed.get page <;>
    cases privateBit : privateCommitted.get page <;>
    simp_all <;> omega

private theorem population_own {isShared : Bool}
    (contained : isShared → ∀ page, privateCommitted.get page → committed.get page)
    {first count pages : Nat} (inside : first + count ≤ pages)
    (stored : pages ≤ 8 * committed.length) (privateStored : pages ≤ 8 * privateCommitted.length) :
    (if isShared then
        (if isShared then privateCommitted.fill first count else privateCommitted)
      else committed.fill first count).population pages =
      (if isShared then privateCommitted else committed).population pages +
        newlyOwned isShared committed privateCommitted first count := by
  cases isShared with
  | false => exact Bitmap.population_fill committed inside stored
  | true => ?_
  simp only [newlyOwned, if_true]
  rw [Bitmap.population_fill privateCommitted inside privateStored,
    vacancies_add_copyOnWriteCount (contained rfl)]

namespace PageStore

def newPages (store : PageStore) (span : TouchSpan) : Nat :=
  newlyOwned store.shared.isSome store.committed store.privateCommitted
    span.first span.pages

def newSystemPages (store : PageStore) (span : TouchSpan) : Nat :=
  newlyOwned store.shared.isSome store.systemCommitted store.privateSystemCommitted
    span.systemFirst span.systemPages

end PageStore

structure TouchPlan.Charges (plan : TouchPlan) (pool : PagePool) (store : PageStore) :
    Prop where
  poolResident : plan.poolResident = pool.residentBytes +
    store.geometry.systemPageBytes * store.newSystemPages plan.span
  poolPages : plan.poolPages = pool.residentPageCount + store.newPages plan.span
  commits : plan.commits = pool.pageCommitCount + store.newPages plan.span
  storeResident : plan.storeResident = store.residentBytes +
    store.geometry.systemPageBytes * store.newSystemPages plan.span
  storePages : plan.storePages = store.residentPages + store.newPages plan.span
  storeSystemPages : plan.storeSystemPages =
    store.residentSystemPages + store.newSystemPages plan.span
  poolResident_le : plan.poolResident ≤ u64Max
  poolPages_le : plan.poolPages ≤ u64Max
  commits_le : plan.commits ≤ u64Max
  budget : pool.maximumBytes ≠ 0 → pool.metadataBytes + plan.poolResident ≤ pool.maximumBytes

variable {pool : PagePool}

theorem pagesPoolAdmit_iff : pagesPoolAdmit pool metadata resident = true ↔
      pool.metadataBytes + pool.residentBytes + (metadata + resident) ≤ u64Max ∧
      (pool.maximumBytes ≠ 0 → pool.metadataBytes + pool.residentBytes +
        (metadata + resident) ≤ pool.maximumBytes) := by
  by_cases fits : pool.metadataBytes + pool.residentBytes + (metadata + resident) ≤ u64Max
  · have currentFits : pool.metadataBytes + pool.residentBytes ≤ u64Max := by omega
    have addedFits : metadata + resident ≤ u64Max := by omega
    simp only [pagesPoolAdmit, u64Add, if_pos currentFits, if_pos addedFits,
      bind_eq_bind, bind_some, if_pos fits, Bool.or_eq_true,
      decide_eq_true_eq]
    omega
  have refused : pagesPoolAdmit pool metadata resident = false := by
    by_cases current : pool.metadataBytes + pool.residentBytes ≤ u64Max
    · by_cases added : metadata + resident ≤ u64Max
      · simp [pagesPoolAdmit, u64Add, current, added, fits]
      · simp [pagesPoolAdmit, u64Add, added]
    · simp [pagesPoolAdmit, u64Add, current]
  simp [refused, fits]

variable {store : PageStore}

theorem touchPlan_charges (computed : touchPlan pool store span = .ok plan) :
    plan.span = span ∧ plan.Charges pool store := by
  simp only [touchPlan, bind_eq_ok, orReject_eq_ok, bind_eq_some, u64Add_eq_some, u64Mul_eq_some,
    ensure_eq_some, pure_eq_some] at computed
  obtain ⟨_, _, _, _, _, _, _, _, additional,
    ⟨systemPages, ⟨systemPagesEq, _⟩, additionalEq, _⟩, _, admitted,
    poolResident, ⟨poolResidentEq, poolResidentLe⟩, pages, ⟨pagesEq, _⟩,
    poolPages, ⟨poolPagesEq, poolPagesLe⟩, commits, ⟨commitsEq, commitsLe⟩,
    storeResident, ⟨storeResidentEq, _⟩, storePages, ⟨storePagesEq, _⟩,
    _, ⟨systemPagesAgain, _⟩, storeSystemPages, ⟨storeSystemPagesEq, _⟩, result⟩ :=
    computed
  have newPagesEq : store.newPages span = pages := pagesEq
  have newSystemPagesEq : store.newSystemPages span = systemPages := systemPagesEq
  have chargedBytes : store.geometry.systemPageBytes * systemPages = additional := by
    rw [mul_comm, additionalEq]
  have admission := (pagesPoolAdmit_iff.mp admitted).2
  subst plan
  refine ⟨rfl, ?_⟩
  exact {
    poolResident := by
      dsimp only
      rw [newSystemPagesEq, chargedBytes, poolResidentEq]
    poolPages := by
      rw [newPagesEq, poolPagesEq]
    commits := by
      rw [newPagesEq, commitsEq]
    storeResident := by
      rw [newSystemPagesEq, chargedBytes, storeResidentEq]
    storePages := by
      rw [newPagesEq, storePagesEq]
    storeSystemPages := by
      rw [newSystemPagesEq, ← storeSystemPagesEq, ← systemPagesAgain, ← systemPagesEq]
    poolResident_le := poolResidentLe
    poolPages_le := poolPagesLe
    commits_le := commitsLe
    budget := by
      intro bounded
      dsimp only
      omega }

/-! ## Operations on one store -/

namespace PageStore.Accounted

variable (geometry : PageGeometry)

private theorem pages_stored :
    geometry.pageCount ≤ 8 * geometry.bitmapBytes := by
  unfold PageGeometry.bitmapBytes
  omega

private theorem systemPages_stored :
    geometry.systemPageCount ≤ 8 * geometry.systemBitmapBytes := by
  unfold PageGeometry.systemBitmapBytes
  omega

theorem fresh (paged : Bool) (charged : charge = if paged then
      2 * (geometry.bitmapBytes + geometry.systemBitmapBytes) else 0) :
    (PageStore.fresh geometry paged charge).Accounted := by
  cases paged with
  | false =>
    constructor <;> simp_all [PageStore.fresh]
  | true =>
    constructor <;> simp_all [PageStore.fresh, ownedPages, ownedSystemPages]

variable {store : PageStore}

theorem cleared (accounted : store.Accounted) : store.cleared.Accounted := by
  have charged := accounted.metadataCharge
  cases paged : store.paged with
  | false =>
    constructor <;> simp_all [PageStore.cleared]
  | true =>
    constructor <;> simp_all [PageStore.cleared, ownedPages, ownedSystemPages]

private theorem filled_contained {inner outer : Bitmap} {first count : Nat}
    (contained : ∀ page, inner.get page → outer.get page)
    (innerStored : first + count ≤ 8 * inner.length)
    (outerStored : first + count ≤ 8 * outer.length) :
    ∀ page, (inner.fill first count).get page → (outer.fill first count).get page := by
  intro page
  rw [Bitmap.get_fill _ innerStored, Bitmap.get_fill _ outerStored, Bool.or_eq_true,
    Bool.or_eq_true]
  rintro (member | filled)
  · exact .inl (contained page member)
  · exact .inr filled

theorem commit {pool : PagePool} (accounted : store.Accounted)
    (paged : store.paged) (within : plan.span.Within store.geometry)
    (charges : plan.Charges pool store) : (store.commit plan).Accounted := by
  have pagesInside : plan.span.first + plan.span.pages ≤ store.geometry.pageCount := by
    have := within.first_le
    have := within.last_lt
    unfold TouchSpan.pages
    omega
  have systemInside : plan.span.systemFirst + plan.span.systemPages ≤
      store.geometry.systemPageCount := by
    have := within.systemFirst_le
    have := within.systemLast_lt
    unfold TouchSpan.systemPages
    omega
  have stored := pages_stored store.geometry
  have systemStored := systemPages_stored store.geometry
  have owned : (store.commit plan).ownedPages = store.ownedPages + store.newPages plan.span :=
    population_own accounted.private_committed pagesInside
      (by rw [store.committed_length paged]; exact stored)
      (by rw [store.privateCommitted_length paged]; exact stored)
  have systemOwned : (store.commit plan).ownedSystemPages =
      store.ownedSystemPages + store.newSystemPages plan.span :=
    population_own accounted.private_systemCommitted systemInside
      (by rw [store.systemCommitted_length paged]; exact systemStored)
      (by rw [store.privateSystemCommitted_length paged]; exact systemStored)
  have residentBytes := accounted.residentBytes
  have residentPages := accounted.residentPages
  have residentSystemPages := accounted.residentSystemPages
  rw [if_pos paged] at residentBytes residentPages residentSystemPages
  constructor
  case metadataCharge => exact accounted.metadataCharge
  case residentBytes =>
    change plan.storeResident = if store.paged then store.geometry.systemPageBytes *
      (store.commit plan).ownedSystemPages else store.geometry.requestedBytes
    rw [if_pos paged, charges.storeResident, residentBytes, systemOwned, Nat.mul_add]
  case residentPages =>
    change plan.storePages = if store.paged then (store.commit plan).ownedPages
      else store.geometry.pageCount
    rw [if_pos paged, charges.storePages, residentPages, owned]
  case residentSystemPages =>
    change plan.storeSystemPages = if store.paged then
      (store.commit plan).ownedSystemPages else 0
    rw [if_pos paged, charges.storeSystemPages, residentSystemPages, systemOwned]
  case shared_paged => exact accounted.shared_paged
  case private_committed =>
    intro isShared
    change store.shared.isSome = true at isShared
    simp only [PageStore.commit, if_pos isShared]
    apply filled_contained (accounted.private_committed isShared)
    · rw [store.privateCommitted_length paged]
      omega
    · rw [store.committed_length paged]
      omega
  case private_systemCommitted =>
    intro isShared
    change store.shared.isSome = true at isShared
    simp only [PageStore.commit, if_pos isShared]
    apply filled_contained (accounted.private_systemCommitted isShared)
    · rw [store.privateSystemCommitted_length paged]
      omega
    · rw [store.systemCommitted_length paged]
      omega

end PageStore.Accounted

structure PagePool.Carries (pool : PagePool) (store : PageStore) : Prop where
  representable : pool.Representable
  accounted : store.Accounted
  residentBytes : store.residentBytes ≤ pool.residentBytes
  residentPages : store.residentPages ≤ pool.residentPageCount
  budget : pool.maximumBytes ≠ 0 → pool.metadataBytes + pool.residentBytes ≤ pool.maximumBytes

/-- An operation on one store moves the pool's resident counters by as much as the
store's, and touches no other total. -/
structure PagePool.Rebalanced (pool next : PagePool) (store settled : PageStore) :
    Prop where
  representable : next.Representable
  accounted : settled.Accounted
  geometry : settled.geometry = store.geometry
  metadataCharge : settled.metadataCharge = store.metadataCharge
  maximumBytes : next.maximumBytes = pool.maximumBytes
  metadataBytes : next.metadataBytes = pool.metadataBytes
  virtualBytes : next.virtualBytes = pool.virtualBytes
  pageCount : next.pageCount = pool.pageCount
  storeCount : next.storeCount = pool.storeCount
  residentBytes : next.residentBytes + store.residentBytes =
    pool.residentBytes + settled.residentBytes
  residentPageCount : next.residentPageCount + store.residentPages =
    pool.residentPageCount + settled.residentPages
  budget : next.maximumBytes ≠ 0 → next.metadataBytes + next.residentBytes ≤ next.maximumBytes
  commits_le : pool.pageCommitCount ≤ next.pageCommitCount
  releases_le : pool.pageReleaseCount ≤ next.pageReleaseCount

/-- A store operation either rebalances the pool or refuses and changes nothing. -/
def PagePool.Settles (pool : PagePool) (store : PageStore)
    (outcome : Except Rejection Unit × PagePool × PageStore) : Prop :=
  pool.Rebalanced outcome.2.1 store outcome.2.2 ∧
    ∀ rejection, outcome.1 = .error rejection → outcome.2 = (pool, store)

section

variable (carries : pool.Carries store)

include carries

theorem PagePool.Rebalanced.refl : pool.Rebalanced pool store store := by
  constructor <;> first | rfl | exact le_rfl | skip
  · exact carries.representable
  · exact carries.accounted
  · exact carries.budget

theorem PagePool.Settles.unchanged (result : Except Rejection Unit) :
    pool.Settles store (result, pool, store) :=
  ⟨.refl carries, fun _ _ => rfl⟩

theorem pagesStoreTouch_settles (elementStart elementCount : Nat) (granted : Bool) :
    pool.Settles store (pagesStoreTouch pool store elementStart elementCount granted) := by
  have accounted := carries.accounted
  unfold pagesStoreTouch
  dsimp only
  split
  · exact .unchanged carries _
  rename_i inside
  rw [not_not] at inside
  split
  · exact .unchanged carries _
  rename_i backed
  split
  · exact .unchanged carries _
  rename_i plan planned
  split
  swap
  · exact .unchanged carries _
  obtain ⟨span, spanned, charged⟩ := bind_eq_ok.mp planned
  obtain ⟨spanEq, charges⟩ := touchPlan_charges charged
  have paged : store.paged = true := by
    grind [cases PageStore.Accounted]
  have within : plan.span.Within store.geometry := by
    rw [spanEq]
    exact touchSpan_within (by omega) inside.2.2.2 spanned
  refine ⟨?_, by simp⟩
  exact { PagePool.Rebalanced.refl carries with
    representable := { carries.representable with
      residentBytes := charges.poolResident_le
      residentPageCount := charges.poolPages_le
      pageCommitCount := charges.commits_le }
    accounted := accounted.commit paged within charges
    residentBytes := by
      change plan.poolResident + store.residentBytes = pool.residentBytes + plan.storeResident
      rw [charges.poolResident, charges.storeResident]
      omega
    residentPageCount := by
      change plan.poolPages + store.residentPages = pool.residentPageCount + plan.storePages
      rw [charges.poolPages, charges.storePages]
      omega
    budget := charges.budget
    commits_le := by
      change pool.pageCommitCount ≤ plan.commits
      rw [charges.commits]
      exact Nat.le_add_right _ _ }

theorem pagesStoreInstallShared_settles (backing : SharedBacking) (host : InstallHost) :
    pool.Settles store (pagesStoreInstallShared pool store backing host) := by
  have accounted := carries.accounted
  have residentBound := carries.representable.residentBytes
  have pagesBound := carries.representable.residentPageCount
  unfold pagesStoreInstallShared
  split
  swap
  · exact .unchanged carries _
  rename_i compatible
  split
  · exact .unchanged carries _
  split
  · exact .unchanged carries _
  split
  · exact .unchanged carries _
  rename_i releases released
  split
  · exact .unchanged carries _
  split
  · exact .unchanged carries _
  obtain ⟨releasesEq, releasesLe⟩ := u64Add_eq_some.mp released
  have residentLeft := u64Sub_of_le carries.residentBytes
  have pagesLeft := u64Sub_of_le carries.residentPages
  refine ⟨?_, by simp⟩
  exact { PagePool.Rebalanced.refl carries with
    representable := { carries.representable with
      residentBytes := by
        dsimp only
        omega
      residentPageCount := by
        dsimp only
        omega
      pageReleaseCount := releasesLe }
    accounted := by
      constructor
      case metadataCharge => exact accounted.metadataCharge
      all_goals simp [compatible.1, PageStore.ownedPages, PageStore.ownedSystemPages]
    residentBytes := by
      dsimp only
      omega
    residentPageCount := by
      dsimp only
      omega
    budget := by
      intro bounded
      have required := carries.budget bounded
      dsimp only
      omega
    releases_le := by
      dsimp only
      omega }

theorem pagesStoreReset_settles (replaced : Bool) :
    pool.Settles store (pagesStoreReset pool store replaced) := by
  unfold pagesStoreReset
  dsimp only
  split
  · exact .unchanged carries _
  split
  · exact .unchanged carries _
  split
  · exact .unchanged carries _
  rename_i next nextEq
  split
  · exact .unchanged carries _
  rename_i funded
  split
  · exact .unchanged carries _
  rename_i releases resident pages _
  simp only [bind_eq_some, u64Add_eq_some] at nextEq
  obtain ⟨_, ⟨releasesEq, releasesLe⟩, _, ⟨residentEq, residentLe⟩, _,
    ⟨pagesEq, pagesLe⟩, rfl, rfl, rfl⟩ := nextEq
  have residentWithin := carries.residentBytes
  have pagesWithin := carries.residentPages
  rw [u64Sub_of_le residentWithin] at residentEq
  rw [u64Sub_of_le pagesWithin] at pagesEq
  refine ⟨?_, by simp⟩
  exact { PagePool.Rebalanced.refl carries with
    representable := { carries.representable with
      residentBytes := residentLe
      residentPageCount := pagesLe
      pageReleaseCount := releasesLe }
    accounted := carries.accounted.cleared
    residentBytes := by
      simp only [PageStore.cleared]
      omega
    residentPageCount := by
      simp only [PageStore.cleared]
      omega
    budget := by
      intro bounded
      dsimp only at bounded ⊢
      omega
    releases_le := by
      dsimp only
      omega }

end

/-! ## Operations on the system -/

namespace PageSystem

variable {system : PageSystem}

theorem Accounted.opened {maximumBytes : Nat} (representable : maximumBytes ≤ u64Max) :
    (PageSystem.opened maximumBytes).Accounted := by
  constructor
  case representable => constructor <;> simp [PageSystem.opened, pagePoolOpen, representable]
  all_goals simp [PageSystem.opened, pagePoolOpen]

variable {store : PageStore} {index : Nat}

theorem Accounted.carries (accounted : system.Accounted)
    (present : system.stores[index]? = some store) : system.pool.Carries store where
  representable := accounted.representable
  accounted := accounted.stores store (mem_of_getElem? present)
  residentBytes := by
    rw [accounted.residentBytes]
    exact measure_le_total PageStore.residentBytes system.stores present
  residentPages := by
    rw [accounted.residentPageCount]
    exact measure_le_total PageStore.residentPages system.stores present
  budget := accounted.budget

variable {pool : PagePool}

theorem Accounted.replace (accounted : system.Accounted)
    (present : system.stores[index]? = some store)
    (rebalanced : system.pool.Rebalanced pool store settled) :
    ({ system with pool, stores := system.stores.set index settled } : PageSystem).Accounted where
  representable := rebalanced.representable
  stores := by
    intro other member
    rcases mem_or_eq_of_mem_set member with member | equal
    · exact accounted.stores other member
    · subst other
      exact rebalanced.accounted
  residentBytes := total_of_set present accounted.residentBytes rebalanced.residentBytes
  residentPageCount := total_of_set present accounted.residentPageCount rebalanced.residentPageCount
  virtualBytes := by
    apply total_of_set present accounted.virtualBytes
    rw [rebalanced.geometry, rebalanced.virtualBytes]
  pageCount := by
    apply total_of_set present accounted.pageCount
    rw [rebalanced.geometry, rebalanced.pageCount]
  storeCount := by
    rw [length_set]
    exact rebalanced.storeCount.trans accounted.storeCount
  metadataBytes := by
    have replaced := total_set PageStore.metadataCharge system.stores present settled
    have before := accounted.metadataBytes
    have kept := rebalanced.metadataBytes
    have charge := rebalanced.metadataCharge
    dsimp only
    omega
  budget := rebalanced.budget

structure Sound (before : PageSystem) (outcome : Except Rejection Unit × PageSystem) :
    Prop where
  accounted : outcome.2.Accounted
  refused : ∀ rejection, outcome.1 = .error rejection → outcome.2 = before
  commits_le : before.pool.pageCommitCount ≤ outcome.2.pool.pageCommitCount
  releases_le : before.pool.pageReleaseCount ≤ outcome.2.pool.pageReleaseCount

theorem Sound.unchanged (accounted : system.Accounted) (result : Except Rejection Unit) :
    Sound system (result, system) :=
  ⟨accounted, fun _ _ => rfl, le_rfl, le_rfl⟩

theorem onStore_sound (accounted : system.Accounted) (index : Nat) (absent : Rejection)
    (settles : ∀ store, system.pool.Carries store →
      system.pool.Settles store (act system.pool store)) :
    Sound system (system.onStore index absent act) := by
  unfold onStore
  split
  · exact .unchanged accounted _
  rename_i store present
  have settled := settles store (accounted.carries present)
  revert settled
  rcases act system.pool store with ⟨result, pool, settled⟩
  intro ⟨rebalanced, refused⟩
  refine ⟨accounted.replace present rebalanced, ?_, rebalanced.commits_le, rebalanced.releases_le⟩
  intro rejection failed
  have same := refused rejection failed
  simp only [Prod.mk.injEq] at same
  obtain ⟨indexInside, stored⟩ := List.getElem?_eq_some_iff.mp present
  dsimp only
  rw [same.1, same.2, ← stored, set_getElem_self]

theorem pagesStorePrepare_accounted
    (prepared : pagesStorePrepare elementCount elementWidth pageElements paged host = .ok store) :
    store.Accounted ∧ store.paged = paged ∧
      store.residentPages = if paged then 0 else store.geometry.pageCount := by
  cases paged with
  | false =>
    simp only [pagesStorePrepare, bind_eq_ok, Bool.false_eq_true, if_false] at prepared
    obtain ⟨_, _, _, _, _, _, geometry, _, _, _, built⟩ := prepared
    have storeEq := Except.ok.inj built
    subst store
    exact ⟨.fresh geometry false rfl, rfl, rfl⟩
  | true =>
    simp only [pagesStorePrepare, bind_eq_ok, orReject_eq_ok,
      if_true, PageGeometry.metadataCharge, bind_eq_some, u64Add_eq_some] at prepared
    obtain ⟨_, _, _, _, _, _, geometry, _, _, _, charge,
      ⟨_, ⟨rfl, _⟩, _, ⟨rfl, _⟩, chargeEq, _⟩, built⟩ := prepared
    have storeEq := Except.ok.inj built
    subst store
    refine ⟨.fresh geometry true ?_, rfl, rfl⟩
    rw [if_pos rfl]
    omega

theorem pagesStoreRegister_cases (pool : PagePool) (store : PageStore) (metadata resident : Nat) :
    (∃ rejection, pagesStoreRegister pool store metadata resident = (.error rejection, pool)) ∨
    ∃ next, pagesStoreRegister pool store metadata resident = (.ok (), next) ∧
      next = { pool with
        metadataBytes := pool.metadataBytes + metadata
        residentBytes := pool.residentBytes + resident
        virtualBytes := pool.virtualBytes + store.geometry.requestedBytes
        pageCount := pool.pageCount + store.geometry.pageCount
        residentPageCount := pool.residentPageCount +
          if store.paged then 0 else store.geometry.pageCount
        storeCount := pool.storeCount + 1 } ∧
      (pool.Representable → next.Representable) ∧
      (next.maximumBytes ≠ 0 → next.metadataBytes + next.residentBytes ≤ next.maximumBytes) := by
  unfold pagesStoreRegister
  dsimp only
  split
  swap
  · exact .inl ⟨_, rfl⟩
  rename_i next nextEq
  simp only [bind_eq_some, u64Add_eq_some, ensure_eq_some, pure_eq_some] at nextEq
  obtain ⟨_, ⟨rfl, metadataLe⟩, _, ⟨rfl, residentLe⟩, _, funded, _, ⟨rfl, virtualLe⟩,
    _, ⟨rfl, pagesLe⟩, _, ⟨rfl, residentPagesLe⟩, _, ⟨rfl, storesLe⟩, rfl⟩ := nextEq
  refine .inr ⟨_, rfl, rfl, ?_, ?_⟩
  · intro representable
    exact { representable with
      metadataBytes := metadataLe
      residentBytes := residentLe
      virtualBytes := virtualLe
      pageCount := pagesLe
      residentPageCount := residentPagesLe
      storeCount := storesLe }
  · grind

theorem storeOpen_sound (accounted : system.Accounted)
    (elementCount elementWidth pageElements : Nat) (paged : Bool) (host : StoreOpenHost) :
    Sound system (system.step (.storeOpen elementCount elementWidth pageElements paged host)) := by
  simp only [step, pagesStoreOpen]
  cases prepared : pagesStorePrepare elementCount elementWidth pageElements paged host with
  | error rejection => exact .unchanged accounted _
  | ok store => ?_
  obtain ⟨storeAccounted, storePaged, storePages⟩ := pagesStorePrepare_accounted prepared
  rcases pagesStoreRegister_cases system.pool store store.metadataCharge
      store.residentBytes with ⟨rejection, refused⟩ |
    ⟨next, registered, nextEq, representable, budget⟩
  · simp only [refused]
    exact .unchanged accounted _
  simp only [registered]
  refine ⟨?_, by simp, le_of_eq (by rw [nextEq]), le_of_eq (by rw [nextEq])⟩
  refine {
    representable := representable accounted.representable
    stores := ?_
    residentBytes := ?_
    residentPageCount := ?_
    virtualBytes := ?_
    pageCount := ?_
    storeCount := ?_
    metadataBytes := ?_
    budget := budget }
  · grind [cases PageSystem.Accounted]
  · rw [nextEq, total_append, ← accounted.residentBytes]
  · rw [nextEq, total_append, ← accounted.residentPageCount, storePages, storePaged]
  · rw [nextEq, total_append, ← accounted.virtualBytes]
  · rw [nextEq, total_append, ← accounted.pageCount]
  · rw [nextEq, length_append, length_singleton, ← accounted.storeCount]
  · rw [nextEq, total_append]
    have before := accounted.metadataBytes
    dsimp only
    omega

theorem u64Sub_total {measure : PageStore → Nat} {index rest : Nat}
    (present : system.stores[index]? = some store)
    (bound : total measure system.stores + rest ≤ u64Max) :
    u64Sub (total measure system.stores + rest) (measure store) =
        total measure (system.stores.eraseIdx index) + rest ∧
      total measure (system.stores.eraseIdx index) + rest ≤ u64Max := by
  have erased := total_eraseIdx measure _ present
  rw [u64Sub_of_le (by omega)]
  omega

theorem storeClose_sound (accounted : system.Accounted) (index : Nat) :
    Sound system (system.step (.storeClose index)) := by
  simp only [step]
  split
  · exact .unchanged accounted _
  rename_i store present
  have representable := accounted.representable
  -- The release count either grows or, when it would wrap, stays as it is.
  have releases : ∃ next, (u64Add system.pool.pageReleaseCount store.residentPages).getD
      system.pool.pageReleaseCount = next ∧ system.pool.pageReleaseCount ≤ next ∧
      next ≤ u64Max := by
    cases released : u64Add system.pool.pageReleaseCount store.residentPages with
    | none => exact ⟨_, rfl, le_rfl, representable.pageReleaseCount⟩
    | some next =>
      obtain ⟨nextEq, nextLe⟩ := u64Add_eq_some.mp released
      exact ⟨next, rfl, by omega, nextLe⟩
  obtain ⟨releases, releasesEq, releasesGrow, releasesLe⟩ := releases
  have resident := @u64Sub_total _ _ PageStore.residentBytes _ 0 present
    (accounted.residentBytes ▸ representable.residentBytes)
  have pages := @u64Sub_total _ _ PageStore.residentPages _ 0 present
    (accounted.residentPageCount ▸ representable.residentPageCount)
  have reserved := @u64Sub_total _ _ (fun store => store.geometry.requestedBytes) _ 0 present
    (accounted.virtualBytes ▸ representable.virtualBytes)
  have counted := @u64Sub_total _ _ (fun store => store.geometry.pageCount) _ 0 present
    (accounted.pageCount ▸ representable.pageCount)
  have stores := @u64Sub_total _ _ (fun _ => 1) _ 0 present
    (by rw [total_one, ← accounted.storeCount]; exact representable.storeCount)
  have metadata := @u64Sub_total _ _ PageStore.metadataCharge _ _ present
    (accounted.metadataBytes ▸ representable.metadataBytes)
  simp only [add_zero, total_one] at resident pages reserved counted stores
  rw [← accounted.residentBytes] at resident
  rw [← accounted.residentPageCount] at pages
  rw [← accounted.virtualBytes] at reserved
  rw [← accounted.pageCount] at counted
  rw [← accounted.storeCount] at stores
  rw [← accounted.metadataBytes] at metadata
  rw [pagesStoreClose, resident.1, pages.1, reserved.1, counted.1, stores.1, metadata.1, releasesEq]
  refine ⟨⟨{ representable with
    metadataBytes := metadata.2
    residentBytes := resident.2
    virtualBytes := reserved.2
    pageCount := counted.2
    residentPageCount := pages.2
    pageReleaseCount := releasesLe
    storeCount := stores.2 }, fun other member => accounted.stores other
    (mem_of_mem_eraseIdx member),
    rfl, rfl, rfl, rfl, rfl, rfl, ?_⟩, by simp, le_rfl, releasesGrow⟩
  intro bounded
  have required := accounted.budget bounded
  have residentErased := total_eraseIdx PageStore.residentBytes _ present
  have metadataErased := total_eraseIdx PageStore.metadataCharge _ present
  have residentBytes := accounted.residentBytes
  have metadataBytes := accounted.metadataBytes
  dsimp only
  omega

theorem pagePoolRelease_eq (charged : bytes ≤ pool.metadataBytes) : pagePoolRelease pool bytes =
      { pool with metadataBytes := pool.metadataBytes - bytes } := by
  rw [pagePoolRelease, if_pos charged, u64Sub_of_le charged]

theorem Accounted.recharge (accounted : system.Accounted) {tables : List PointerTable}
    (moved : metadata + total PointerTable.bytes system.tables =
      system.pool.metadataBytes + total PointerTable.bytes tables) (bounded : metadata ≤ u64Max)
    (budget : system.pool.maximumBytes ≠ 0 →
      metadata + system.pool.residentBytes ≤ system.pool.maximumBytes) :
    ({ system with
      pool := { system.pool with metadataBytes := metadata }
      tables } : PageSystem).Accounted :=
  { accounted with
    representable := { accounted.representable with metadataBytes := bounded }
    metadataBytes := by
      have before := accounted.metadataBytes
      dsimp only
      omega
    budget }

theorem tableRelease_sound (accounted : system.Accounted) (index : Nat) :
    Sound system (system.step (.tableRelease index)) := by
  simp only [step]
  split
  · exact .unchanged accounted _
  rename_i table present
  have removed := total_eraseIdx PointerTable.bytes _ present
  have metadataBytes := accounted.metadataBytes
  have metadataBound := accounted.representable.metadataBytes
  rw [pagePoolRelease_eq (by omega)]
  refine ⟨accounted.recharge (by omega) (by omega) ?_, by simp, le_rfl, le_rfl⟩
  intro bounded
  have required := accounted.budget bounded
  omega

theorem pagesPoolReserve_cases (pool : PagePool) (bytes : Nat) :
    (∃ rejection, pagesPoolReserve pool bytes = (.error rejection, pool)) ∨
    (pagesPoolReserve pool bytes =
        (.ok (), { pool with metadataBytes := pool.metadataBytes + bytes }) ∧
      pool.metadataBytes + bytes ≤ u64Max ∧
      (pool.maximumBytes ≠ 0 →
        pool.metadataBytes + bytes + pool.residentBytes ≤ pool.maximumBytes)) := by
  unfold pagesPoolReserve
  split
  · rename_i metadata admitted added
    obtain ⟨metadataEq, metadataLe⟩ := u64Add_eq_some.mp added
    have admission := (pagesPoolAdmit_iff.mp admitted).2
    subst metadata
    refine .inr ⟨rfl, metadataLe, ?_⟩
    intro bounded
    omega
  · exact .inl ⟨_, rfl⟩

theorem pointerTableGrowth_bytes
    (growth : pointerTableGrowth table limit = .ok grown) : table.bytes ≤ grown.bytes := by
  simp only [pointerTableGrowth, bind_eq_ok, orReject_eq_ok, bind_eq_some, ensure_eq_some,
    decide_eq_true_eq, pure_eq_some] at growth
  obtain ⟨_, _, doubled, _, bytes, ⟨_, _, _, _, _, larger, rfl⟩, built⟩ := growth
  have grownEq := Except.ok.inj built
  subst grown
  exact larger

section

variable (accounted : system.Accounted)

include accounted

theorem tableReserve_sound (index limit : Nat)
    (resized : Bool) : Sound system (system.step (.tableReserve index limit resized)) := by
  simp only [step]
  split
  · exact .unchanged accounted _
  rename_i table present
  obtain ⟨indexInside, stored⟩ := List.getElem?_eq_some_iff.mp present
  have untouched : system.tables.set index table = system.tables := by
    rw [← stored, set_getElem_self]
  unfold pointerTableReserve
  cases growth : pointerTableGrowth table limit with
  | error rejection =>
    rw [untouched]
    exact .unchanged accounted _
  | ok grown => ?_
  have larger := pointerTableGrowth_bytes growth
  rcases pagesPoolReserve_cases system.pool (grown.bytes - table.bytes) with
    ⟨rejection, refused⟩ | ⟨reserved, bounded, budget⟩
  · simp only [refused]
    rw [untouched]
    exact .unchanged accounted _
  simp only [reserved]
  cases resized with
  | true =>
    have replaced := total_set PointerTable.bytes _ present grown
    simp only [if_true]
    exact ⟨accounted.recharge (by omega) bounded budget, by simp, le_rfl, le_rfl⟩
  | false => ?_
  simp only [Bool.false_eq_true, if_false]
  rw [pagePoolRelease_eq (Nat.le_add_left _ _), untouched]
  simp only [Nat.add_sub_cancel]
  exact .unchanged accounted _

theorem bindCapacity_sound
    (capacity : Option CapacityBudget) : Sound system (system.step (.bindCapacity capacity)) := by
  simp only [step, pagePoolBindCapacity]
  split
  · exact .unchanged accounted _
  rename_i budget required totals
  simp only [bind_eq_some, u64Add_eq_some] at totals
  obtain ⟨_, _, _, _, _, ⟨budgetEq, budgetLe⟩, _, ⟨requiredEq, _⟩, rfl, rfl⟩ := totals
  split
  · exact .unchanged accounted _
  rename_i covered
  split
  swap
  · exact .unchanged accounted _
  rename_i lowered
  refine ⟨?_, by simp, le_rfl, le_rfl⟩
  exact { accounted with
    representable := { accounted.representable with maximumBytes := budgetLe }
    budget := by
      intro _
      dsimp only
      omega }

theorem step_sound (operation : PageOperation) : Sound system (system.step operation) := by
  cases operation with
  | storeOpen elementCount elementWidth pageElements paged host =>
    exact storeOpen_sound accounted elementCount elementWidth pageElements paged host
  | storeTouch index elementStart elementCount granted =>
    rw [step]
    apply onStore_sound accounted index
    intro store carries
    exact pagesStoreTouch_settles carries elementStart elementCount granted
  | storeReset index replaced =>
    rw [step]
    apply onStore_sound accounted index
    intro store carries
    exact pagesStoreReset_settles carries replaced
  | storeInstallShared index backing host =>
    rw [step]
    apply onStore_sound accounted index
    intro store carries
    exact pagesStoreInstallShared_settles carries backing host
  | storeClose index => exact storeClose_sound accounted index
  | tableOpen =>
    have empty := total_append PointerTable.bytes system.tables ⟨0, 0⟩
    have tables := accounted.metadataBytes
    refine ⟨{ accounted with metadataBytes := ?_ }, by simp [step], le_rfl, le_rfl⟩
    simp only [step]
    dsimp only at empty
    omega
  | tableReserve index limit resized => exact tableReserve_sound accounted index limit resized
  | tableRelease index => exact tableRelease_sound accounted index
  | bindCapacity capacity => exact bindCapacity_sound accounted capacity

theorem run_accounted (operations : List PageOperation) : (system.run operations).Accounted := by
  induction operations generalizing system with
  | nil => exact accounted
  | cons operation rest induction => exact induction (step_sound accounted operation).accounted

end

/-- After every sequence of pool operations the counters are the totals over the
inventory, within the budget and without a wrap; and whatever operation comes next,
it keeps that, lets no cumulative counter fall, and changes nothing when refused. -/
theorem accounting_of_run {maximumBytes : Nat} (representable : maximumBytes ≤ u64Max)
    (operations : List PageOperation) : ((opened maximumBytes).run operations).Accounted ∧
      ∀ operation, Sound ((opened maximumBytes).run operations)
        (((opened maximumBytes).run operations).step operation) := by
  have accounted := run_accounted (Accounted.opened representable) operations
  exact ⟨accounted, step_sound accounted⟩

/-- A bounded pool with one paged store, touched twice and then reset. -/
theorem accounting_of_touched_store :
    ((opened 65536).run [.storeOpen 2048 4 256 true ⟨4096, true, true, true⟩,
        .storeTouch 0 0 256 true, .storeTouch 0 1024 512 true, .storeReset 0 true]).Accounted ∧
      ∀ operation, Sound ((opened 65536).run [.storeOpen 2048 4 256 true ⟨4096, true, true, true⟩,
            .storeTouch 0 0 256 true, .storeTouch 0 1024 512 true, .storeReset 0 true])
        (((opened 65536).run [.storeOpen 2048 4 256 true ⟨4096, true, true, true⟩,
            .storeTouch 0 0 256 true, .storeTouch 0 1024 512 true,
            .storeReset 0 true]).step operation) :=
  accounting_of_run (by decide) _

end PageSystem

end Yvex.Graph
