import Mathlib.Tactic.Common

namespace Yvex

/-! # Bisection with a partial probe

The search for the largest number of an interval that a probe accepts. The probe may have no
answer, which ends the search, and the lower end is stepped in numbers below a limit, so that
it wraps behind the last of them. -/

def halfway (low high : Nat) : Nat := low + (high - low) / 2

theorem le_halfway (low high : Nat) : low ≤ halfway low high := Nat.le_add_right _ _

theorem halfway_le (ordered : low ≤ high) : halfway low high ≤ high := by
  unfold halfway
  omega

theorem halfway_eq_high (ordered : low ≤ high)
    (last : high ≤ halfway low high) : halfway low high = high :=
  Nat.le_antisymm (halfway_le ordered) last

/-- The loop: `none` without enough fuel, `some none` where the probe has no answer, and
otherwise the last number accepted, or `found` if there is none. -/
def bisect (probe : Nat → Option Bool) (limit : Nat) :
    (fuel low high found : Nat) → Option (Option Nat)
  | 0, _, _, _ => none
  | fuel + 1, low, high, found =>
    if low ≤ high then
      match probe (halfway low high) with
      | none => some none
      | some true =>
        bisect probe limit fuel ((halfway low high + 1) % limit) high (halfway low high)
      | some false =>
        if halfway low high = 0 then some (some found)
        else bisect probe limit fuel low (halfway low high - 1) found
    else some (some found)

inductive Visited (probe : Nat → Option Bool) : (low high : Nat) → Nat → Prop
  | here {low high : Nat} : low ≤ high → Visited probe low high (halfway low high)
  | right {low high number : Nat} : low ≤ high → probe (halfway low high) = some true →
      Visited probe (halfway low high + 1) high number → Visited probe low high number
  | left {low high number : Nat} : low ≤ high → probe (halfway low high) = some false →
      halfway low high ≠ 0 → Visited probe low (halfway low high - 1) number →
      Visited probe low high number

def Falling (probe : Nat → Option Bool) : Prop :=
  ∀ {number larger}, number ≤ larger → probe number = some false → probe larger ≠ some true

def Largest (probe : Nat → Option Bool) (low high found result : Nat) : Prop :=
  (result = found ∧ ∀ number, low ≤ number → number ≤ high → probe number ≠ some true) ∨
    (low ≤ result ∧ result ≤ high ∧ probe result = some true ∧
      ∀ number, result < number → number ≤ high → probe number ≠ some true)

variable {probe : Nat → Option Bool} {limit fuel low high found : Nat}

theorem bisect_empty (empty : ¬low ≤ high) :
    bisect probe limit (fuel + 1) low high found = some (some found) := by
  rw [bisect, if_neg empty]

section

variable (ordered : low ≤ high)
include ordered

theorem bisect_unanswered (answer : probe (halfway low high) = none) :
    bisect probe limit (fuel + 1) low high found = some none := by
  rw [bisect, if_pos ordered, answer]

theorem bisect_accepted (answer : probe (halfway low high) = some true) :
    bisect probe limit (fuel + 1) low high found =
      bisect probe limit fuel ((halfway low high + 1) % limit) high (halfway low high) := by
  rw [bisect, if_pos ordered, answer]

theorem bisect_refused (answer : probe (halfway low high) = some false) :
    bisect probe limit (fuel + 1) low high found =
      if halfway low high = 0 then some (some found)
      else bisect probe limit fuel low (halfway low high - 1) found := by
  rw [bisect, if_pos ordered, answer]

theorem succ_halfway_mod (bounded : high < limit)
    (finite : high + 1 = limit → probe high ≠ some true)
    (answer : probe (halfway low high) = some true) :
    (halfway low high + 1) % limit = halfway low high + 1 := by
  have inside := halfway_le ordered
  apply Nat.mod_eq_of_lt
  by_contra large
  apply finite (by omega)
  rw [← halfway_eq_high ordered (by omega)]
  exact answer

end

theorem Falling.largest (falling : Falling probe) (bounded : high < limit)
    (ran : bisect probe limit fuel low high found = some (some result)) :
    Largest probe low high found result := by
  induction fuel generalizing low high found with
  | zero => cases ran
  | succ fuel induction => ?_
  by_cases ordered : low ≤ high
  · have above := le_halfway low high
    have inside := halfway_le ordered
    cases answer : probe (halfway low high) with
    | none =>
      rw [bisect_unanswered ordered answer] at ran
      cases ran
    | some accepted => ?_
    cases accepted with
    | true =>
      rw [bisect_accepted ordered answer] at ran
      rcases induction bounded ran with ⟨rfl, none⟩ | ⟨start, within, accepts, last⟩
      · refine .inr ⟨above, inside, answer, fun number larger below => ?_⟩
        exact none number (Nat.le_trans (Nat.mod_le _ _) larger) below
      refine .inr ⟨?_, within, accepts, last⟩
      -- Also where the lower end has wrapped, the number accepted here is a bound.
      by_contra small
      exact last (halfway low high) (by omega) inside answer
    | false =>
      have refused : ∀ number, halfway low high ≤ number →
          probe number ≠ some true := fun number larger => falling larger answer
      rw [bisect_refused ordered answer] at ran
      split at ran
      · cases ran
        exact .inl ⟨rfl, fun number _ _ => refused number (by omega)⟩
      rcases induction (by omega) ran with ⟨rfl, none⟩ | ⟨start, within, accepts, last⟩
      · refine .inl ⟨rfl, fun number start below => ?_⟩
        rcases Nat.lt_or_ge number (halfway low high) with small | large
        · exact none number start (by omega)
        · exact refused number large
      refine .inr ⟨start, by omega, accepts, fun number larger below => ?_⟩
      rcases Nat.lt_or_ge number (halfway low high) with small | large
      · exact last number larger (by omega)
      · exact refused number large
  · rw [bisect_empty ordered] at ran
    cases ran
    exact Or.inl ⟨rfl, fun number above below => absurd (Nat.le_trans above below) ordered⟩

theorem Falling.endless (falling : Falling probe) (accepts : probe last = some true)
    (start : low ≤ last) : bisect probe (last + 1) fuel low last found ≠ some (some result) := by
  induction fuel generalizing low found with
  | zero => nofun
  | succ fuel induction => ?_
  cases answer : probe (halfway low last) with
  | none =>
    rw [bisect_unanswered start answer]
    nofun
  | some accepted => ?_
  cases accepted with
  | true =>
    rw [bisect_accepted start answer]
    exact induction (Nat.le_of_lt_succ (Nat.mod_lt _ (Nat.succ_pos _)))
  | false => exact absurd accepts (falling (halfway_le start) answer)

theorem exists_bisect (found : Nat) (bounded : high < limit)
    (finite : high + 1 = limit → probe high ≠ some true)
    (answers : ∀ number, Visited probe low high number → probe number ≠ none) :
    ∃ fuel result, bisect probe limit fuel low high found = some (some result) := by
  induction size : high + 1 - low using Nat.strongRecOn generalizing low high found with
  | _ size induction =>
    by_cases ordered : low ≤ high
    · have above := le_halfway low high
      have inside := halfway_le ordered
      cases answer : probe (halfway low high) with
      | none => exact absurd answer (answers _ (.here ordered))
      | some accepted => ?_
      cases accepted with
      | true =>
        rcases induction _ (by omega) (halfway low high) bounded finite
          (fun number visited => answers number (.right ordered answer visited)) rfl
          with ⟨fuel, result, ran⟩
        refine ⟨fuel + 1, result, ?_⟩
        rw [bisect_accepted ordered answer, succ_halfway_mod ordered bounded finite answer]
        exact ran
      | false =>
        by_cases zero : halfway low high = 0
        · exact ⟨1, found, by rw [bisect_refused ordered answer, if_pos zero]⟩
        rcases induction _ (by omega) found (by omega) (by omega)
          (fun number visited => answers number (.left ordered answer zero visited)) rfl
          with ⟨fuel, result, ran⟩
        refine ⟨fuel + 1, result, ?_⟩
        rw [bisect_refused ordered answer, if_neg zero]
        exact ran
    · exact ⟨1, found, bisect_empty ordered⟩

theorem Visited.answered (visited : Visited probe low high number) (bounded : high < limit)
    (finite : high + 1 = limit → probe high ≠ some true)
    (ran : bisect probe limit fuel low high found = some (some result)) : probe number ≠ none := by
  induction visited generalizing fuel found with
  | here ordered =>
    cases fuel with
    | zero => cases ran
    | succ fuel => ?_
    intro answer
    rw [bisect_unanswered ordered answer] at ran
    cases ran
  | right ordered answer visited induction =>
    cases fuel with
    | zero => cases ran
    | succ fuel => ?_
    rw [bisect_accepted ordered answer, succ_halfway_mod ordered bounded finite answer] at ran
    exact induction bounded finite ran
  | left ordered answer positive visited induction =>
    have inside := halfway_le ordered
    cases fuel with
    | zero => cases ran
    | succ fuel =>
      rw [bisect_refused ordered answer, if_neg positive] at ran
      exact induction (by omega) (by omega) ran

end Yvex
