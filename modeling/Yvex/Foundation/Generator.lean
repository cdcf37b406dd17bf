import Mathlib.Data.UInt
import Mathlib.Dynamics.PeriodicPts.Lemmas
import Mathlib.Tactic.LinearCombination
import Mathlib.Tactic.Ring

namespace Yvex.Generator

/-! # Generators

A generator gives one value after the other and keeps a state meanwhile. -/

section Draws

variable {σ ω : Type} (next : σ → ω × σ)

def outputs : Nat → σ → List ω
  | 0, _ => []
  | count + 1, state => (next state).1 :: outputs count (next state).2

def advance (count : Nat) (state : σ) : σ := (fun state => (next state).2)^[count] state

structure Draws (first : σ) (values : List ω) (last : σ) : Prop where
  values_eq : values = outputs next values.length first
  last_eq : last = advance next values.length first

variable {next}

theorem Draws.nil (state : σ) : Draws next state [] state := ⟨rfl, rfl⟩

theorem Draws.cons {state last : σ} {values : List ω} (rest :
    Draws next (next state).2 values last) :
    Draws next state ((next state).1 :: values) last where
  values_eq := congrArg _ rest.values_eq
  last_eq := rest.last_eq

theorem Draws.one (state : σ) : Draws next state [(next state).1] (next state).2 := .cons (.nil _)

theorem outputs_add (first second : Nat) (state : σ) : outputs next (first + second) state =
    outputs next first state ++ outputs next second (advance next first state) := by
  induction first generalizing state with
  | zero => rw [zero_add]; rfl
  | succ first induction =>
    rw [Nat.succ_add, outputs, induction]
    rfl

theorem Draws.append (earlier : Draws next first left middle)
    (later : Draws next middle right last) : Draws next first (left ++ right) last where
  values_eq := by
    rw [List.length_append, outputs_add, ← earlier.values_eq, ← earlier.last_eq, ← later.values_eq]
  last_eq := by
    rw [List.length_append, add_comm, advance, Function.iterate_add_apply, later.last_eq,
      earlier.last_eq]
    rfl

end Draws

section Affine

open scoped UInt64.CommRing

theorem affine_iterate_two_pow (half increment : UInt64) (exponent : Nat) :
    ∃ scale shift : UInt64, ∀ state, (fun state => state * (1 + 4 * half) + increment)^[2 ^ exponent]
      state = state * (1 + 2 ^ (exponent + 2) * scale) + 2 ^ exponent * shift := by
  induction exponent with
  | zero =>
    refine ⟨half, increment, fun state => ?_⟩
    rw [pow_zero, Function.iterate_one]
    ring
  | succ exponent induction => ?_
  obtain ⟨scale, shift, doubled⟩ := induction
  refine ⟨scale + 2 ^ (exponent + 1) * scale * scale,
    shift + 2 ^ (exponent + 1) * scale * shift, fun state => ?_⟩
  rw [pow_succ, Nat.mul_two, Function.iterate_add_apply, doubled, doubled]
  ring

theorem affine_periodic (half increment state : UInt64) :
    Function.IsPeriodicPt (fun state => state * (1 + 4 * half) + increment) (2 ^ 64) state := by
  obtain ⟨scale, shift, doubled⟩ := affine_iterate_two_pow half increment 64
  have full : (2 : UInt64) ^ 64 = 0 := by decide +kernel
  rw [Function.IsPeriodicPt, Function.IsFixedPt, doubled]
  linear_combination (4 * state * scale + shift) * full

end Affine

end Yvex.Generator
