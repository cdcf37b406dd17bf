import Mathlib.Tactic.Common

namespace Yvex

/-! # Runs under a condition

A system takes one action after the other. A run keeps to a condition when each action is admitted
in the state where it is taken. -/

inductive Reaches {σ Action : Type} (step : σ → Action → σ) (admits : σ → Action → Prop)
    (first : σ) : σ → Prop
  | start : Reaches step admits first first
  | next {state : σ} (action : Action) : Reaches step admits first state → admits state action →
      Reaches step admits first (step state action)

theorem Reaches.kept {kept : σ → Prop} (reached : Reaches step admits first state)
    (begins : kept first)
    (each : ∀ {state action}, kept state → admits state action → kept (step state action)) :
    kept state := by
  induction reached with
  | start => exact begins
  | next action _ admitted induction => exact each induction admitted

end Yvex
