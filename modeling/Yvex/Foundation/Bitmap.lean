import Mathlib.Tactic.Common

namespace Yvex

open List

/-! # Byte-packed bitmaps

Bit `index` lives at position `index % 8` of byte `index / 8`. The development
needs three facts: what a set bit changes, what a filled range changes, and how
many bits a filled range adds to the population. -/

abbrev Bitmap := List (BitVec 8)

namespace Bitmap

def zeroed (bytes : Nat) : Bitmap := List.replicate bytes 0#8

variable (bitmap : Bitmap)

def get (index : Nat) : Bool := (bitmap.getD (index / 8) 0#8).getLsbD (index % 8)

def set (index : Nat) : Bitmap := bitmap.modify (index / 8) fun byte => byte ||| 1#8 <<< (index % 8)

variable (first count : Nat)

/-- Set `count` consecutive bits from `first` on. -/
def fill : Bitmap := (List.range' first count).foldl set bitmap

/-- The number of set bits among the first `count`. -/
def population (count : Nat) : Nat := (List.range count).countP bitmap.get

/-- The number of clear bits among `count` bits from `first` on. -/
def vacancies : Nat := (List.range' first count).countP fun index => !bitmap.get index

@[simp] theorem length_set (index : Nat) : (bitmap.set index).length = bitmap.length := by
  simp [set]

@[simp] theorem length_fill : (bitmap.fill first count).length = bitmap.length := by
  unfold fill
  generalize List.range' first count = indices
  induction indices generalizing bitmap with
  | nil => rfl
  | cons head tail induction => simp [induction]

@[simp] theorem length_zeroed (bytes : Nat) : (zeroed bytes).length = bytes := by simp [zeroed]

@[simp] theorem get_zeroed (bytes index : Nat) : (zeroed bytes).get index = false := by
  unfold get zeroed
  rw [getD_eq_getElem?_getD, getElem?_replicate]
  split <;> simp

private theorem byte_or_bit (byte : BitVec 8) (bound : bit < 8) (position : Nat) :
    (byte ||| 1#8 <<< bit).getLsbD position =
      (byte.getLsbD position || decide (position = bit)) := by
  by_cases same : position = bit
  · subst position
    simp [bound]
  by_cases below : position < bit
  · simp [same, below]
  · have positive : position - bit ≠ 0 := by omega
    simp [same, positive]

theorem get_set (inside : index < 8 * bitmap.length) (other : Nat) :
    (bitmap.set index).get other = (bitmap.get other || decide (other = index)) := by
  unfold get set
  have byteInside : index / 8 < bitmap.length := by omega
  simp only [getD_eq_getElem?_getD, getElem?_modify]
  by_cases sameByte : index / 8 = other / 8
  · rw [← sameByte, getElem?_eq_getElem byteInside]
    simp only [if_true, Option.map_eq_map, Option.map_some, Option.getD_some]
    rw [byte_or_bit _ (Nat.mod_lt _ (by decide))]
    congr 1
    apply decide_eq_decide.mpr
    omega
  · have different : other ≠ index := fun equal => sameByte (by rw [equal])
    simp [sameByte, different]

theorem fill_succ :
    bitmap.fill first (count + 1) = (bitmap.fill first count).set (first + count) := by
  simp [fill, range'_concat]

theorem get_fill {first count : Nat} (inside : first + count ≤ 8 * bitmap.length) (index : Nat) :
    (bitmap.fill first count).get index =
      (bitmap.get index || decide (first ≤ index ∧ index < first + count)) := by
  induction count with
  | zero =>
    have outside : ¬(first ≤ index ∧ index < first + 0) := by omega
    rw [decide_eq_false outside]
    simp [fill]
  | succ count induction => ?_
  rw [fill_succ, get_set _ (by rw [length_fill]; omega), induction (by omega), Bool.or_assoc]
  congr 1
  rw [← Bool.decide_or]
  apply decide_eq_decide.mpr
  omega

private theorem countP_range_or_eq (predicate : Nat → Bool) (inside : position < total) :
    (List.range total).countP (fun index => predicate index || decide (index = position)) =
      (List.range total).countP predicate + (!predicate position).toNat := by
  induction total with
  | zero => omega
  | succ total induction => ?_
  rw [range_succ, countP_append, countP_append]
  by_cases last : position = total
  · subst position
    have unaffected : (List.range total).countP
        (fun index => predicate index || decide (index = total)) =
        (List.range total).countP predicate := by
      apply countP_congr
      intro index member
      have different : index ≠ total := by
        have := mem_range.mp member
        omega
      simp [different]
    rw [unaffected]
    cases value : predicate total <;> simp [value]
  · have different : total ≠ position := fun equal => last equal.symm
    simp only [countP_singleton, different, decide_false, Bool.or_false]
    omega

theorem vacancies_succ : bitmap.vacancies first (count + 1) =
      bitmap.vacancies first count + (!bitmap.get (first + count)).toNat := by
  unfold vacancies
  rw [range'_concat]
  cases value : bitmap.get (first + count) <;> simp [value]

theorem population_fill {first count total : Nat} (inside : first + count ≤ total)
    (stored : total ≤ 8 * bitmap.length) : (bitmap.fill first count).population total =
      bitmap.population total + bitmap.vacancies first count := by
  induction count with
  | zero => simp [fill, vacancies]
  | succ count induction => ?_
  have step : (bitmap.fill first (count + 1)).population total =
      (bitmap.fill first count).population total +
        (!(bitmap.fill first count).get (first + count)).toNat := by
    unfold population
    rw [← countP_range_or_eq _ (show first + count < total by omega)]
    apply countP_congr
    intro index _
    rw [fill_succ, get_set _ (by rw [length_fill]; omega)]
  have unfilled : (bitmap.fill first count).get (first + count) = bitmap.get (first + count) := by
    rw [get_fill _ (by omega)]
    simp
  rw [step, induction (by omega), unfilled, vacancies_succ, Nat.add_assoc]

@[simp] theorem population_zeroed (bytes total : Nat) : (zeroed bytes).population total = 0 := by
  simp [population]

end Bitmap

end Yvex
