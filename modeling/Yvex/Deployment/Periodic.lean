import Mathlib.Data.Nat.GCD.Basic
import Yvex.Deployment.Capacity

namespace Yvex.Deployment

open List

/-! # Periodic state

A class that several periodic states share holds one block for their common period, with the bytes
that each of them needs in it. -/

/-- One round of the loop in `capacity_gcd`. -/
theorem capacityGcd_eq (left right : Nat) :
    capacityGcd left right = if right = 0 then left else capacityGcd right (left % right) := by
  split
  · simp [capacityGcd, *]
  · rw [capacityGcd, capacityGcd, Nat.gcd_comm, Nat.gcd_rec, Nat.gcd_comm]

def capacityPeriodicAdd (state : StateClassRequest) (period bytes : Nat) :
    Option StateClassRequest := do
  ensure (period != 0 && bytes != 0)
  if state.bytesPerBlock = 0 then
    pure { state with extent := .context, logicalBlockTokens := period, bytesPerBlock := bytes }
  else
    ensure (state.extent == .context)
    let common ← capacityLcm state.logicalBlockTokens period
    let existing ← u64Mul state.bytesPerBlock (common / state.logicalBlockTokens)
    let added ← u64Mul bytes (common / period)
    let sum ← u64Add existing added
    pure { state with bytesPerBlock := sum, logicalBlockTokens := common }

def periodicAddAll (state : StateClassRequest) (pairs : List (Nat × Nat)) :
    Option StateClassRequest :=
  pairs.foldlM (fun state pair => capacityPeriodicAdd state pair.1 pair.2) state

def commonPeriod (pairs : List (Nat × Nat)) : Nat := (pairs.map Prod.fst).foldr Nat.lcm 1

def blockBytes (common : Nat) (pairs : List (Nat × Nat)) : Nat :=
  total (fun pair => pair.2 * (common / pair.1)) pairs

/-- The class of `pairs`, made from a class without bytes. -/
def periodicClass (empty : StateClassRequest) (pairs : List (Nat × Nat)) : StateClassRequest :=
  if pairs = [] then empty
  else { empty with
    extent := .context
    logicalBlockTokens := commonPeriod pairs
    bytesPerBlock := blockBytes (commonPeriod pairs) pairs }

def Fits (pairs : List (Nat × Nat)) : Prop :=
  commonPeriod pairs ≤ u64Max ∧ blockBytes (commonPeriod pairs) pairs ≤ u64Max

def Positive (pairs : List (Nat × Nat)) : Prop := ∀ pair ∈ pairs, 0 < pair.1 ∧ 0 < pair.2

theorem commonPeriod_pos (positive : Positive pairs) : 0 < commonPeriod pairs := by
  induction pairs with
  | nil => exact Nat.one_pos
  | cons pair pairs induction =>
    rw [Positive, forall_mem_cons] at positive
    exact Nat.lcm_pos positive.1.1 (induction positive.2)

theorem dvd_commonPeriod (member : pair ∈ pairs) : pair.1 ∣ commonPeriod pairs := by
  induction pairs with
  | nil => cases member
  | cons head pairs induction =>
    rcases mem_cons.mp member with rfl | member
    · exact Nat.dvd_lcm_left _ _
    · exact (induction member).trans (Nat.dvd_lcm_right _ _)

/-- A longer block holds the bytes of a shorter one as often as it fits. -/
theorem blockBytes_scale (divides : ∀ pair ∈ pairs, pair.1 ∣ common) (longer : common ∣ larger)
    (positive : 0 < common) :
    blockBytes larger pairs = blockBytes common pairs * (larger / common) := by
  obtain ⟨times, rfl⟩ := longer
  induction pairs with
  | nil => simp [blockBytes]
  | cons pair pairs induction =>
    rw [forall_mem_cons] at divides
    have rest := induction divides.2
    rw [blockBytes, blockBytes] at rest ⊢
    rw [total_cons, total_cons, rest, Nat.mul_div_right_comm divides.1,
      Nat.mul_div_cancel_left _ positive, Nat.add_mul, mul_assoc]

theorem commonPeriod_perm (same : order.Perm pairs) : commonPeriod order = commonPeriod pairs :=
  (same.map Prod.fst).foldr_eq' (fun left _ right _ rest => by
    rw [← Nat.lcm_assoc, Nat.lcm_comm right, Nat.lcm_assoc]) 1

theorem blockBytes_perm (same : order.Perm pairs) (common : Nat) :
    blockBytes common order = blockBytes common pairs :=
  (same.map _).sum_nat

variable {empty : StateClassRequest} {pairs : List (Nat × Nat)}

theorem commonPeriod_cons : commonPeriod (pair :: pairs) = pair.1.lcm (commonPeriod pairs) := rfl

theorem blockBytes_pos (positive : Positive pairs) (present : pairs ≠ []) :
    0 < blockBytes (commonPeriod pairs) pairs := by
  obtain ⟨head, tail, rfl⟩ := exists_cons_of_ne_nil present
  obtain ⟨period, bytes⟩ := positive head mem_cons_self
  have most := Nat.le_of_dvd (commonPeriod_pos positive) (dvd_commonPeriod mem_cons_self)
  exact Nat.add_pos_left (Nat.mul_pos bytes (Nat.div_pos most period)) _

theorem capacityLcm_eq_some (left right : Nat) (positive : 0 < left) (period : 0 < right) :
    capacityLcm left right = some common ↔ common = right.lcm left ∧ common ≤ u64Max := by
  have product : left / capacityGcd left right * right = right.lcm left := by
    rw [Nat.lcm_comm, Nat.lcm_eq_mul_div, capacityGcd, Nat.mul_div_right_comm (Nat.gcd_dvd_left _ _)]
  have admitted : (left != 0 && right != 0) = true := by simp; omega
  rw [capacityLcm, admitted, ← product]
  exact u64Mul_eq_some.trans (and_congr_left' eq_comm)

theorem blockBytes_cons (others : Positive pairs) :
    blockBytes (commonPeriod (pair :: pairs)) (pair :: pairs) =
      blockBytes (commonPeriod pairs) pairs * (commonPeriod (pair :: pairs) / commonPeriod pairs) +
        pair.2 * (commonPeriod (pair :: pairs) / pair.1) := by
  rw [commonPeriod_cons, ← blockBytes_scale (fun _ => dvd_commonPeriod) (Nat.dvd_lcm_right _ _)
    (commonPeriod_pos others)]
  exact (total_cons _ _ _).trans (add_comm _ _)

variable (isEmpty : empty.bytesPerBlock = 0)

section

variable (positive : Positive (pair :: pairs))

include positive

theorem Positive.tail : Positive pairs :=
  fun other member => positive other (mem_cons_of_mem _ member)

theorem Fits.tail (fits : Fits (pair :: pairs)) : Fits pairs := by
  have longer := Nat.le_of_dvd (commonPeriod_pos positive)
    (Nat.dvd_lcm_right pair.1 (commonPeriod pairs))
  have once := Nat.le_mul_of_pos_right (blockBytes (commonPeriod pairs) pairs)
    (Nat.div_pos longer (commonPeriod_pos positive.tail))
  have whole := @blockBytes_cons _ pair positive.tail
  obtain ⟨small, bytes⟩ := fits
  exact ⟨le_trans longer small, by omega⟩

include isEmpty

theorem capacityPeriodicAdd_eq :
    capacityPeriodicAdd (periodicClass empty pairs) pair.1 pair.2 = some state ↔
      state = periodicClass empty (pair :: pairs) ∧ (pairs ≠ [] → Fits (pair :: pairs)) := by
  obtain ⟨period, bytes⟩ := positive pair mem_cons_self
  have admitted : (pair.1 != 0 && pair.2 != 0) = true := by simp; omega
  rw [capacityPeriodicAdd, admitted]
  by_cases none : pairs = []
  · subst none
    simp [periodicClass, ensure, isEmpty, commonPeriod, blockBytes, Nat.div_self period, eq_comm]
  have others := positive.tail
  simp only [periodicClass, if_neg none, Fits, blockBytes_cons others]
  simp only [ensure, if_true, if_false, ne_of_gt (blockBytes_pos others none),
    beq_self_eq_true, Option.bind_eq_bind, Option.bind_some, Option.bind_eq_some_iff,
    u64Mul_eq_some, u64Add_eq_some, commonPeriod_cons,
    capacityLcm_eq_some _ _ (commonPeriod_pos others) period]
  constructor
  · grind
  · grind

end

/-- What is added to is part of what results. -/
theorem Positive.of_reverseAux (positive : Positive (reverseAux pairs done)) : Positive done :=
  fun pair member => positive pair (mem_reverseAux.mpr (.inr member))

theorem Fits.of_reverseAux (positive : Positive (reverseAux pairs done))
    (fits : Fits (reverseAux pairs done)) : Fits done := by
  induction pairs generalizing done with
  | nil => exact fits
  | cons pair pairs induction =>
    have positive : Positive (reverseAux pairs (pair :: done)) := positive
    exact (induction positive fits).tail positive.of_reverseAux

section

include isEmpty

theorem periodicAddAll_eq (positive : Positive (reverseAux pairs done))
    (added : periodicAddAll (periodicClass empty done) pairs = some state) :
    state = periodicClass empty (reverseAux pairs done) := by
  induction pairs generalizing done with
  | nil => exact (Option.some.inj added).symm
  | cons pair pairs induction =>
    have positive : Positive (reverseAux pairs (pair :: done)) := positive
    obtain ⟨next, first, rest⟩ := Option.bind_eq_some_iff.mp added
    rw [((capacityPeriodicAdd_eq isEmpty positive.of_reverseAux).mp first).1] at rest
    exact induction positive rest

theorem periodicAddAll_runs (positive : Positive (reverseAux pairs done))
    (fits : Fits (reverseAux pairs done)) :
    (periodicAddAll (periodicClass empty done) pairs).isSome = true := by
  induction pairs generalizing done with
  | nil => rfl
  | cons pair pairs induction =>
    have positive : Positive (reverseAux pairs (pair :: done)) := positive
    have first := (capacityPeriodicAdd_eq isEmpty positive.of_reverseAux).mpr
      ⟨rfl, fun _ => fits.of_reverseAux positive⟩
    rw [periodicAddAll, foldlM_cons, first]
    exact induction positive fits

end

theorem periodicClass_perm (same : order.Perm pairs) :
    periodicClass empty order = periodicClass empty pairs := by
  simp only [periodicClass, commonPeriod_perm same, blockBytes_perm same,
    ← length_eq_zero_iff, same.length_eq]

/-- Positive pairs that are added one after another to a class without bytes give one block of
their least common period, with the bytes of all of them, in every order; and every order is added
if that block fits. -/
theorem periodicAddAll_exact (empty : StateClassRequest) (pairs : List (Nat × Nat))
    (isEmpty : empty.bytesPerBlock = 0) (positive : Positive pairs) :
    (∀ order state, order.Perm pairs → periodicAddAll empty order = some state →
      state = periodicClass empty pairs) ∧
    (Fits pairs → ∀ order, order.Perm pairs → (periodicAddAll empty order).isSome = true) := by
  have each {order : List (Nat × Nat)} (same : order.Perm pairs) : order.reverse.Perm pairs :=
    (reverse_perm order).trans same
  have stays {order : List (Nat × Nat)} (same : order.Perm pairs) : Positive order.reverse :=
    fun pair member => positive pair ((each same).subset member)
  constructor
  · intro order state same added
    rw [← periodicClass_perm (each same)]
    exact @periodicAddAll_eq empty order isEmpty [] state (stays same) added
  · intro fits order same
    apply @periodicAddAll_runs empty order isEmpty [] (stays same)
    change Fits order.reverse
    rwa [Fits, commonPeriod_perm (each same), blockBytes_perm (each same)]

/-- Periods of two and three tokens in a block of six. -/
theorem periodicAddAll_exact_two :
    let empty : StateClassRequest := ⟨.swaRing, .fixed, 0, 0, 0, 0, 0, 0, 0, false, false⟩
    (periodicAddAll empty [(2, 5), (3, 7)]).map (·.bytesPerBlock) = some 29 ∧
      (periodicAddAll empty [(3, 7), (2, 5)]).isSome = true := by
  intro empty
  have exact := periodicAddAll_exact empty [(2, 5), (3, 7)] rfl (by simp [Positive])
  exact ⟨by decide, exact.2 (by rw [Fits]; decide) _ (.swap _ _ _)⟩

end Yvex.Deployment
