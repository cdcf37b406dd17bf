import Mathlib.Data.List.Nodup
import Yvex.Foundation.Wire

namespace Yvex

/-! # Enumerations on the wire

The values of a C enumeration are numbered in the order of their declaration. The same order
numbers the members of a record that travel in one array, and the truth values that travel as
the bits of one word. -/

/-- The values of a finite type in the order of their numbers. -/
class Enumerated (α : Type) [DecidableEq α] where
  values : List α
  nodup : values.Nodup
  complete : ∀ value, value ∈ values
  small : values.length ≤ 64

namespace Enumerated

variable {α : Type} [DecidableEq α] [Enumerated α]

def code (value : α) : Nat := (values (α := α)).idxOf value

variable (α) in
abbrev count : Nat := (values (α := α)).length

def ofCode (number : Nat) : Option α := (values (α := α))[number]?

theorem code_lt (value : α) : code value < count α := List.idxOf_lt_length_of_mem (complete value)

theorem ofCode_eq_some {value : α} : ofCode number = some value ↔ number = code value := by
  constructor
  · intro found
    obtain ⟨inside, rfl⟩ := List.getElem?_eq_some_iff.mp found
    exact (nodup.idxOf_getElem number inside).symm
  · rintro rfl
    exact List.getElem?_idxOf (complete value)

theorem toNat_ofNat_code (value : α) : (UInt64.ofNat (code value)).toNat = code value := by
  have bound := (code_lt value).trans_le small
  apply UInt64.toNat_ofNat_of_lt'
  exact lt_of_lt_of_le bound (by decide)

variable (flags : α → Int32)

def flagWord : UInt64 :=
  UInt64.ofNat (Nat.ofBits fun index : Fin (count α) => flags ((values (α := α)).get index) != 0)

def flagsOf (word : UInt64) (value : α) : Int32 :=
  if word.toNat.testBit (code value) then 1 else 0

theorem toNat_flagWord : (flagWord flags).toNat = Nat.ofBits fun index : Fin (count α) =>
      flags ((values (α := α)).get index) != 0 := by
  apply UInt64.toNat_ofNat_of_lt'
  apply lt_of_lt_of_le (Nat.ofBits_lt_two_pow _)
  exact Nat.pow_le_pow_right (by decide) small

theorem flagWord_lt : (flagWord flags).toNat < 2 ^ count α := by
  rw [toNat_flagWord]
  exact Nat.ofBits_lt_two_pow _

theorem flagsOf_flagWord {flags : α → Int32} (valid : ∀ value, flags value = 0 ∨ flags value = 1) :
    flagsOf (flagWord flags) = flags := by
  funext value
  rw [flagsOf, toNat_flagWord, Nat.testBit_ofBits_lt _ _ (code_lt value)]
  have named : (values (α := α)).get ⟨code value, code_lt value⟩ = value := by
    simp only [code, List.get_eq_getElem, List.getElem_idxOf]
  rw [named]
  rcases valid value with zero | one
  · rw [zero]
    rfl
  · rw [one]
    rfl

end Enumerated

end Yvex
