import Mathlib.Algebra.BigOperators.Group.List.Lemmas
import Mathlib.Algebra.BigOperators.Ring.List
import Yvex.Gguf.Layout
import Yvex.Ir.Core

namespace Yvex.Graph

open List Option Gguf Ir

/-! # Package tensors as parameters

A tensor of a package stands for a parameter of the program if the two differ in axes of extent
one only. -/

structure PhysicalValue where
  parameter : Bool
  type : LogicalType
  qtype : Nat

def PhysicalValue.extents (value : PhysicalValue) : List Nat := value.type.shape.map Extent.extent

structure ParameterView where
  rows : Nat
  width : Nat

def elementCount (count : Nat) : List Nat → Option Nat
  | [] => some count
  | extent :: rest => do
    ensure (extent != 0)
    let count ← u64Mul count extent
    elementCount count rest

/-- The loop with a cursor in each shape. -/
def sameAxes : List Nat → List Nat → Bool
  | 1 :: source, program => sameAxes source program
  | source, 1 :: program => sameAxes source program
  | extent :: source, other :: program => extent == other && sameAxes source program
  | source, program => source.isEmpty && program.isEmpty

def programPhysicalParameterView [QtypeTable] (value : PhysicalValue) (dims : List Nat)
    (qtype : Nat) (encodedBytes : UInt64) : Except Rejection ParameterView :=
  let view : Option ParameterView := do
    ensure (value.parameter && !dims.isEmpty && decide (dims.length ≤ 4) &&
      !value.extents.isEmpty && decide (value.extents.length ≤ 8) &&
      value.type.kind == .tensor && qtype == value.qtype)
    let geometry ← QtypeTable.geometryFind qtype
    ensure (geometry.blockSize != 0 && geometry.bytesPerBlock != 0)
    let sourceCount ← elementCount 1 dims
    ensure (value.type.shape.all Module.staticExtent)
    let count ← elementCount 1 value.extents
    ensure (sourceCount == count)
    ensure (sameAxes dims value.extents)
    let last := value.extents.getLastD 0
    ensure (dims.getLastD 0 % geometry.blockSize == 0 && last % geometry.blockSize == 0 &&
      (geometry.blockSize == 1 || dims.getLastD 0 == last))
    let bytes ← u64Mul (count / geometry.blockSize) geometry.bytesPerBlock
    ensure (bytes == encodedBytes.toNat)
    return ⟨count / last, last⟩
  orReject view .format "package parameter is not an exact singleton-axis view of the program"

variable {start result : Nat} {extents : List Nat}

theorem elementCount_eq_some (positive : start ≠ 0) (small : start ≤ u64Max) :
    elementCount start extents = some result ↔
      (∀ extent ∈ extents, extent ≠ 0) ∧ start * extents.prod = result ∧ result ≤ u64Max := by
  induction extents generalizing start with
  | nil =>
    simp only [elementCount, some.injEq, not_mem_nil, false_implies, prod_nil, mul_one]
    grind
  | cons extent rest induction => ?_
  simp only [elementCount, bind_eq_some, ensure_eq_some, bne_iff_ne, forall_mem_cons, prod_cons,
    ← mul_assoc]
  constructor
  · rintro ⟨_, nonzero, next, multiplied, counted⟩
    rw [u64Mul_eq_some] at multiplied
    rcases multiplied with ⟨rfl, fits⟩
    rw [induction (Nat.mul_ne_zero positive nonzero) fits] at counted
    exact ⟨⟨nonzero, counted.1⟩, counted.2⟩
  · rintro ⟨⟨nonzero, others⟩, product, bound⟩
    have whole : 0 < rest.prod := Nat.pos_of_ne_zero (prod_ne_zero fun zero => others 0 zero rfl)
    have fits : start * extent ≤ u64Max := (Nat.le_mul_of_pos_right _ whole).trans (product ▸ bound)
    refine ⟨(), nonzero, start * extent, u64Mul_eq_some.mpr ⟨rfl, fits⟩, ?_⟩
    exact (induction (Nat.mul_ne_zero positive nonzero) fits).mpr ⟨others, product, bound⟩

theorem sameAxes_iff (dims extents : List Nat) :
    sameAxes dims extents = true ↔ dims.filter (· ≠ 1) = extents.filter (· ≠ 1) := by
  fun_induction sameAxes dims extents with
  | case1 source program induction => simpa using induction
  | case2 source program _ induction => simpa using induction
  | case3 extent source other program long long' induction =>
    grind
  | case4 source program _ _ unequal =>
    cases source with
    | nil => cases program <;> simp_all
    | cons extent source =>
      cases program with
      | nil => simp_all
      | cons other program => exact absurd rfl (unequal _ _ _ _ rfl)

theorem prod_filter_ne_one (extents : List Nat) : (extents.filter (· ≠ 1)).prod = extents.prod := by
  induction extents with
  | nil => rfl
  | cons extent rest induction =>
    grind

variable [QtypeTable] (value : PhysicalValue) (dims : List Nat) (qtype : Nat) (encodedBytes : UInt64)

/-- The package tensor is the parameter up to axes of extent one. -/
def SingletonView : Prop :=
  (value.parameter = true ∧ value.type.kind = .tensor ∧ qtype = value.qtype) ∧
  (dims ≠ [] ∧ dims.length ≤ 4 ∧ value.extents ≠ [] ∧ value.extents.length ≤ 8) ∧
  ((∀ extent ∈ dims, extent ≠ 0) ∧ dims.prod ≤ u64Max) ∧
  ((∀ axis ∈ value.type.shape, axis.symbol = none ∧ axis.extent ≠ 0) ∧
    value.extents.prod ≤ u64Max) ∧
  dims.filter (· ≠ 1) = value.extents.filter (· ≠ 1) ∧
  ∃ geometry, QtypeTable.geometryFind qtype = some geometry ∧
    geometry.blockSize ≠ 0 ∧ geometry.bytesPerBlock ≠ 0 ∧
    geometry.blockSize ∣ dims.getLastD 0 ∧ geometry.blockSize ∣ value.extents.getLastD 0 ∧
    (geometry.blockSize ≠ 1 → dims.getLastD 0 = value.extents.getLastD 0) ∧
    encodedBytes.toNat = value.extents.prod / geometry.blockSize * geometry.bytesPerBlock

/-- A view is given exactly for such a tensor, and its rows have the width of the program's last
axis. -/
theorem programPhysicalParameterView_exact (view : ParameterView) :
    (programPhysicalParameterView value dims qtype encodedBytes = .ok view ↔
      SingletonView value dims qtype encodedBytes ∧
        ⟨value.extents.prod / value.extents.getLastD 0, value.extents.getLastD 0⟩ = view) ∧
    (SingletonView value dims qtype encodedBytes → value.extents.prod /
      value.extents.getLastD 0 * value.extents.getLastD 0 = value.extents.prod) := by
  constructor
  · have counted {result extents} :=
      @elementCount_eq_some 1 result extents Nat.one_ne_zero (by decide)
    have small := encodedBytes.toNat_lt
    simp only [programPhysicalParameterView, orReject_eq_ok, bind_eq_some, ensure_eq_some,
      pure_eq_some, counted, one_mul, u64Mul_eq_some, sameAxes_iff, Bool.and_eq_true,
      Bool.or_eq_true, bne_iff_ne, beq_iff_eq, decide_eq_true_eq, List.all_eq_true,
      Module.staticExtent, isNone_iff_eq_none, Bool.not_eq_true', List.isEmpty_eq_false_iff,
      SingletonView, Nat.dvd_iff_mod_eq_zero]
    constructor
    · grind
    · rintro ⟨⟨parameter, ranks, source, program, axes, geometry, found, encoded⟩, shown⟩
      have equal : dims.prod = value.extents.prod := by
        rw [← prod_filter_ne_one dims, axes, prod_filter_ne_one]
      have positive : ∀ extent ∈ value.extents, extent ≠ 0 := by
        grind [PhysicalValue.extents]
      refine ⟨(), ?_, geometry, found, (), ?_, _, ⟨source.1, rfl, source.2⟩, (), ?_, _,
        ⟨positive, rfl, program.2⟩, (), equal, (), axes, (), ?_, _, ⟨rfl, ?_⟩, (),
        encoded.2.2.2.2.2.symm, shown⟩ <;> grind [u64Max]
  · rintro ⟨_, ranks, _⟩
    apply Nat.div_mul_cancel
    rw [getLastD_eq_getLast?, getLast?_eq_some_getLast ranks.2.2.1]
    exact dvd_prod (getLast_mem _)

end Yvex.Graph
