import Mathlib.Data.Nat.Bitwise
import Yvex.Foundation.Attempt
import Yvex.Foundation.Checked
import Yvex.Foundation.Frontier

namespace Yvex.Graph

/-! # Byte-budget allocation

Every weight group has two encodings, and an allocation chooses one for each group. The
search extends the kept rows group by group, drops the rows that cannot be completed within
the budget, and keeps the rows whose retained source elements rise with their bytes. -/

/-- `yvex_optimization_allocation_group`, indexed by the choice of its second option. -/
structure AllocationGroup where
  encodedBytes : Bool → Nat
  sourceElements : Bool → Nat

/-- `yvex_optimization_allocation_request`; `group_count` is the length of the list. -/
structure AllocationRequest where
  schemaVersion : Nat
  maximumStates : Nat
  fixedBytes : Nat
  maximumEncodedBytes : Nat
  groups : List AllocationGroup
  bounded : maximumEncodedBytes ≤ u64Max

structure Allocation where
  choices : Nat
  encodedBytes : Nat
  sourceElements : Nat

structure AllocationOutput where
  rows : List Allocation
  count : Nat

/-- `allocation_order` ascends by bytes, then descends by elements, then ascends by choices. -/
def allocationOrder : Objective Allocation where
  cost := Allocation.encodedBytes
  value := Allocation.sourceElements
  tag := Allocation.choices
  separated := by
    rintro ⟨_, _, _⟩ ⟨_, _, _⟩ rfl rfl rfl
    rfl

namespace AllocationGroup

variable (group : AllocationGroup)

def least : Nat :=
  if group.encodedBytes false < group.encodedBytes true then group.encodedBytes false
  else group.encodedBytes true

theorem least_le (option : Bool) : group.least ≤ group.encodedBytes option := by
  unfold least
  cases option <;> split <;> omega

theorem exists_eq_least : ∃ option, group.encodedBytes option = group.least := by
  unfold least
  split
  · exact ⟨false, rfl⟩
  · exact ⟨true, rfl⟩

end AllocationGroup

/-- The array `remaining`: the least bytes of the groups from each index on. -/
def allocationRemaining : List AllocationGroup → Except Rejection (List Nat)
  | [] => .ok [0]
  | group :: groups => do
    let remaining ← allocationRemaining groups
    let sum ← orReject
      (if group.least = 0 then none else u64Add (remaining.headD 0) group.least)
      .bounds "invalid group size or allocation overflow"
    pure (sum :: remaining)

def allocationExtend (request : AllocationRequest) (group : AllocationGroup)
    (index remaining : Nat) (row : Allocation) (option : Bool) :
    Except Rejection (Option Allocation) := do
  let encodedBytes ← orReject (u64Add row.encodedBytes (group.encodedBytes option))
    .bounds "candidate allocation overflow"
  let sourceElements ← orReject (u64Add row.sourceElements (group.sourceElements option))
    .bounds "candidate allocation overflow"
  let completeMinimum ← orReject (u64Add encodedBytes remaining)
    .bounds "candidate allocation overflow"
  pure (if completeMinimum > request.maximumEncodedBytes then none
    else some {
      choices := if option then row.choices ||| 1 <<< index else row.choices
      encodedBytes := encodedBytes
      sourceElements := sourceElements })

def allocationExpand (request : AllocationRequest) (group : AllocationGroup)
    (index remaining : Nat) : List Allocation → Except Rejection (List Allocation)
  | [] => .ok []
  | row :: rows => do
    let first ← allocationExtend request group index remaining row false
    let second ← allocationExtend request group index remaining row true
    let rest ← allocationExpand request group index remaining rows
    pure (first.toList ++ second.toList ++ rest)

def allocationKeep (maximumStates : Nat) :
    Nat → Option Nat → List Allocation → Except Rejection (List Allocation)
  | _, _, [] => .ok []
  | kept, last, row :: rows =>
    if last.any (row.sourceElements ≤ ·) then allocationKeep maximumStates kept last rows
    else if kept = maximumStates then
      .error ⟨.bounds, "exact allocation frontier exceeds search budget; increase maximum states"⟩
    else do
      let rest ← allocationKeep maximumStates (kept + 1) (some row.sourceElements) rows
      pure (row :: rest)

def allocationSearch (request : AllocationRequest) :
    Nat → List Allocation → List (AllocationGroup × Nat) → Except Rejection (List Allocation)
  | _, current, [] => .ok current
  | index, current, (group, remaining) :: groups => do
    let next ← allocationExpand request group index remaining current
    let kept ← allocationKeep request.maximumStates 0 none
      (next.insertionSort allocationOrder.Precedes)
    allocationSearch request (index + 1) kept groups

/-- The arguments `yvex_optimization_allocate` accepts. -/
def AllocationRequest.admitted (request : AllocationRequest) (capacity : Nat) : Bool :=
  request.schemaVersion == 1 && request.groups.length != 0 &&
    decide (request.groups.length ≤ 64) && request.maximumStates != 0 &&
    decide (request.maximumStates ≤ 65536) && request.maximumEncodedBytes != 0 &&
    capacity != 0

/-- The rows `yvex_optimization_allocate` finds; `stored` is the answer of the host to the
request for the working rows. -/
def allocationRows (stored : Bool) (request : AllocationRequest) (capacity : Nat) :
    Except Rejection (List Allocation) := do
  require (request.admitted capacity) .invalidArgument "bounded allocation request required"
  let remaining ← allocationRemaining request.groups
  let minimum ← orReject (u64Add request.fixedBytes (remaining.headD 0)) .bounds
    "fixed allocation overflow"
  require (minimum ≤ request.maximumEncodedBytes) .noMemory
    "no encoding satisfies the declared weight budget"
  require stored .noMemory "allocation frontier storage unavailable"
  let current ← allocationSearch request 0 [⟨0, request.fixedBytes, 0⟩]
    (request.groups.zip remaining.tail)
  require (current.length ≤ capacity) .bounds
    "output capacity cannot hold exact allocation frontier"
  pure current

def optimizationAllocate (stored : Bool) (request : AllocationRequest) (capacity : Nat) :
    Attempt Rejection AllocationOutput Unit := do
  let rows ← Attempt.check fun _ => allocationRows stored request capacity
  modify fun output => { rows := rows ++ output.rows.drop rows.length, count := rows.length }

theorem allocationKeep_eq_ok (held : kept ≤ maximumStates) :
    allocationKeep maximumStates kept last rows = .ok result ↔
      result = allocationOrder.rising last rows ∧ kept + result.length ≤ maximumStates := by
  induction rows generalizing kept last result with
  | nil =>
    simp only [allocationKeep, Except.ok.injEq]
    constructor
    · rintro rfl
      exact ⟨rfl, held⟩
    · rintro ⟨rfl, _⟩
      rfl
  | cons row rows induction =>
    rw [Objective.rising]
    change (if last.any (allocationOrder.value row ≤ ·) then _ else _) = _ ↔ _
    split
    · exact induction held
    split
    · rename_i full
      simp only [reduceCtorEq, false_iff, not_and]
      rintro rfl
      rw [List.length_cons]
      omega
    rename_i room
    rw [Except.bind_eq_ok]
    constructor
    · rintro ⟨rest, ran, made⟩
      cases made
      rcases (induction (by omega)).mp ran with ⟨rfl, fits⟩
      rw [List.length_cons]
      exact ⟨rfl, by omega⟩
    rintro ⟨rfl, fits⟩
    have room : kept + 1 + (allocationOrder.rising (some row.sourceElements) rows).length ≤
        maximumStates := by
      refine le_trans (le_of_eq ?_) fits
      rw [Nat.add_right_comm]
      rfl
    exact ⟨_, (induction (by omega)).mpr ⟨rfl, room⟩, rfl⟩

section

variable (request : AllocationRequest) (group : AllocationGroup) (index remaining : Nat)

def extension (option : Bool) (row : Allocation) : Option Allocation :=
  if row.encodedBytes + group.encodedBytes option + remaining ≤ request.maximumEncodedBytes
  then some {
    choices := if option then row.choices ||| 1 <<< index else row.choices
    encodedBytes := row.encodedBytes + group.encodedBytes option
    sourceElements := row.sourceElements + group.sourceElements option }
  else none

def Countable (row : Allocation) (option : Bool) : Prop :=
  row.encodedBytes + group.encodedBytes option + remaining ≤ u64Max ∧
    row.sourceElements + group.sourceElements option ≤ u64Max

instance (row : Allocation) (option : Bool) :
    Decidable (Countable group remaining row option) := by
  unfold Countable
  infer_instance

variable {request group index remaining}

theorem allocationExtend_eq_ok :
    allocationExtend request group index remaining row option = .ok result ↔
      Countable group remaining row option ∧
        result = extension request group index remaining option row := by
  unfold allocationExtend extension
  simp only [Except.bind_eq_ok, orReject_eq_ok, u64Add_eq_some, ← not_le, ite_not]
  constructor
  · rintro ⟨bytes, ⟨rfl, _⟩, elements, ⟨rfl, counted⟩, complete, ⟨rfl, completed⟩, made⟩
    cases made
    exact ⟨⟨completed, counted⟩, rfl⟩
  · rintro ⟨⟨completed, counted⟩, rfl⟩
    exact ⟨_, ⟨rfl, by omega⟩, _, ⟨rfl, counted⟩, _, ⟨rfl, completed⟩, rfl⟩

theorem allocationExpand_eq_ok : allocationExpand request group index remaining rows = .ok result ↔
      (∀ row ∈ rows, ∀ option, Countable group remaining row option) ∧
        result = rows.flatMap fun row =>
          (extension request group index remaining false row).toList ++
            (extension request group index remaining true row).toList := by
  induction rows generalizing result with
  | nil => simp [allocationExpand]
  | cons row rows induction => ?_
  rw [allocationExpand]
  simp only [Except.bind_eq_ok, allocationExtend_eq_ok, induction]
  simp only [List.forall_mem_cons, Bool.forall_bool]
  constructor
  · rintro ⟨_, ⟨low, rfl⟩, _, ⟨high, rfl⟩, _, ⟨rest, rfl⟩, made⟩
    cases made
    exact ⟨⟨⟨low, high⟩, rest⟩, rfl⟩
  · rintro ⟨⟨⟨low, high⟩, rest⟩, rfl⟩
    exact ⟨_, ⟨low, rfl⟩, _, ⟨high, rfl⟩, _, ⟨rest, rfl⟩, rfl⟩

end

end Yvex.Graph
