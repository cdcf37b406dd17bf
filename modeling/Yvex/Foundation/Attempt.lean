import Mathlib.Tactic.Common

namespace Yvex

/-! # Attempts

An attempt changes a state and may be refused on the way; a refused attempt keeps what it
had already changed. `EStateM` is that monad, and this module adds the rules for reasoning
about its final states. -/

abbrev Attempt := EStateM

namespace Attempt

variable {ε σ α β ι : Type}

def final : EStateM.Result ε σ α → σ
  | .ok _ state => state
  | .error _ state => state

def check (condition : σ → Except ε α) : Attempt ε σ α := fun state =>
  match condition state with
  | .ok value => .ok value state
  | .error failure => .error failure state

variable {action : Attempt ε σ α} {next : α → Attempt ε σ β} {state last : σ}

theorem bind_eq_ok : (action >>= next) state = .ok result last ↔
      ∃ value middle, action state = .ok value middle ∧ next value middle = .ok result last := by
  change EStateM.bind action next state = _ ↔ _
  unfold EStateM.bind
  cases action state with
  | ok value middle => simp
  | error failure middle => simp

variable {failure : ε}

theorem bind_eq_error : (action >>= next) state = .error failure last ↔
      action state = .error failure last ∨ ∃ value middle, action state = .ok value middle ∧
          next value middle = .error failure last := by
  change EStateM.bind action next state = _ ↔ _
  unfold EStateM.bind
  cases action state with
  | ok value middle => simp
  | error failure middle => simp

variable {condition : σ → Except ε α}

theorem check_eq_ok :
    check condition state = .ok value last ↔ condition state = .ok value ∧ state = last := by
  unfold check
  cases condition state <;> simp

theorem check_eq_error : check condition state = .error failure last ↔
      condition state = .error failure ∧ state = last := by
  unfold check
  cases condition state <;> simp

end Attempt

end Yvex
