import Yvex.Foundation.Checked

namespace Yvex.Runtime

/-! # Counters and generations

Owners of slots tag each use of a slot with a generation from one counter. The counter is
unsigned and leaves zero out, so the tags come round after a full turn. -/

def u64Succ (count : Nat) : Nat := (count + 1) % 2 ^ 64

def u64Pred (count : Nat) : Nat := u64Sub count 1

theorem u64Succ_of_le {count : Nat} (small : count ≤ 1024) : u64Succ count = count + 1 :=
  Nat.mod_eq_of_lt (by omega)

theorem u64Pred_of_pos {count : Nat} (positive : 0 < count) : u64Pred count = count - 1 :=
  u64Sub_of_le positive

def generationAfter (generation : Nat) : Nat :=
  if u64Succ generation = 0 then 1 else u64Succ generation

variable (serial : Nat)

def generationOf : Nat := serial % u64Max + 1

theorem generationOf_ne_zero : generationOf serial ≠ 0 := Nat.succ_ne_zero _

theorem generationAfter_generationOf :
    generationAfter (generationOf serial) = generationOf (serial + 1) := by
  have bound : serial % u64Max < u64Max := Nat.mod_lt _ (by decide)
  have large : u64Max + 1 = 2 ^ 64 := rfl
  unfold generationAfter u64Succ generationOf
  rw [Nat.add_mod serial 1]
  by_cases last : serial % u64Max + 1 = u64Max
  · have wraps : (serial % u64Max + 1 + 1) % 2 ^ 64 = 0 := by rw [last, large, Nat.mod_self]
    have again : (serial % u64Max + 1 % u64Max) % u64Max = 0 := by
      rw [Nat.mod_eq_of_lt (by decide : 1 < u64Max), last, Nat.mod_self]
    rw [if_pos wraps, again]
  have next : (serial % u64Max + 1 + 1) % 2 ^ 64 = serial % u64Max + 1 + 1 :=
    Nat.mod_eq_of_lt (by omega)
  have step : (serial % u64Max + 1 % u64Max) % u64Max = serial % u64Max + 1 := by
    rw [Nat.mod_eq_of_lt (by decide : 1 < u64Max), Nat.mod_eq_of_lt (by omega)]
  rw [next, if_neg (by omega), step]

theorem eq_or_turn_of_generationOf {serial later : Nat} (ordered : serial ≤ later)
    (same : generationOf serial = generationOf later) :
    later = serial ∨ serial + u64Max ≤ later := by
  unfold generationOf at same
  rcases lt_or_ge later (serial + u64Max) with near | far
  · left
    have first := Nat.div_add_mod serial u64Max
    have second := Nat.div_add_mod later u64Max
    have quotients : later / u64Max = serial / u64Max := by
      have low : serial / u64Max ≤ later / u64Max := Nat.div_le_div_right ordered
      have high : later / u64Max ≤ serial / u64Max := by
        by_contra more
        have := Nat.mul_le_mul_left u64Max (Nat.succ_le_of_lt (lt_of_not_ge more))
        rw [Nat.mul_succ] at this
        omega
      omega
    rw [quotients] at second
    omega
  · exact .inr far

end Yvex.Runtime
