import Mathlib.Algebra.Ring.Nat

namespace Yvex

/-! # Doubles

A `double` is kept as its 64 bits: protocols copy the bits, and the checks of the sources only
compare finite values. -/

structure Binary64 where
  bits : UInt64
deriving DecidableEq

namespace Binary64

variable (value : Binary64)

def magnitude : Nat := value.bits.toNat % 2 ^ 63

def negative : Bool := decide (2 ^ 63 ≤ value.bits.toNat)

/-- `isfinite`: the exponent is not the largest one. -/
def isFinite : Bool := decide (value.magnitude / 2 ^ 52 < 2047)

/-- A finite value in units of the last place: the order of the finite values and their
equality, in which the two zeros are one. -/
def rank : Int :=
  if value.negative then -value.magnitude else value.magnitude

def zero : Binary64 := ⟨0⟩
def one : Binary64 := ⟨0x3ff0000000000000⟩
def two : Binary64 := ⟨0x4000000000000000⟩

/-- `<` of finite values. -/
def lt (first second : Binary64) : Bool := decide (first.rank < second.rank)

def within (value least greatest : Binary64) : Bool := !(value.lt least) && !(greatest.lt value)

def isZero : Bool := decide (value.rank = 0)

example : isFinite two = true ∧ lt one two = true ∧ isZero ⟨2 ^ 63⟩ = true := by decide +kernel

end Binary64

end Yvex
