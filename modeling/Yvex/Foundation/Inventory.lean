import Mathlib.Algebra.Ring.Nat
import Mathlib.Tactic.Common

namespace Yvex

open List

/-! # Totals over an inventory

The total of a measure over a list of entries, when one entry is added, replaced
or removed. -/

def total (measure : α → Nat) (entries : List α) : Nat := (entries.map measure).sum

theorem index_lt {entries : List α} (present : entries[index]? = some entry) :
    index < entries.length :=
  (List.getElem?_eq_some_iff.mp present).1

section

variable (measure : α → Nat)

include measure

@[simp] theorem total_nil : total measure [] = 0 := rfl

@[simp] theorem total_cons (head : α) (tail : List α) :
    total measure (head :: tail) = measure head + total measure tail := by
  simp [total]

theorem total_append (entries : List α) (entry : α) :
    total measure (entries ++ [entry]) = total measure entries + measure entry := by
  simp [total]

variable {index : Nat} {entry : α}

section

variable (entries : List α) (present : entries[index]? = some entry)

include entries present

theorem total_eraseIdx :
    total measure (entries.eraseIdx index) + measure entry = total measure entries := by
  induction entries generalizing index with
  | nil => simp at present
  | cons head tail induction => ?_
  cases index with
  | zero =>
    simp only [getElem?_cons_zero, Option.some.injEq] at present
    subst head
    simp only [eraseIdx_cons_zero, total_cons]
    omega
  | succ index => ?_
  have tailTotal := induction (by simpa using present)
  simp only [eraseIdx_cons_succ, total_cons]
  omega

theorem total_set (replacement : α) :
    total measure (entries.set index replacement) + measure entry =
      total measure entries + measure replacement := by
  have placed : (entries.set index replacement)[index]? = some replacement :=
    getElem?_set_self (index_lt present)
  have replaced := total_eraseIdx measure _ placed
  have erased := total_eraseIdx measure _ present
  rw [eraseIdx_set_eq] at replaced
  omega

variable {measure entries}

/-- A counter that moves with an entry stays the total. -/
theorem total_of_set {counter next : Nat} (counted : counter = total measure entries)
    (moved : next + measure entry = counter + measure replacement) :
    next = total measure (entries.set index replacement) := by
  have replaced := total_set measure entries present replacement
  omega

variable (measure entries)

theorem measure_le_total : measure entry ≤ total measure entries := by
  have removed := total_eraseIdx measure entries present
  omega

end

end

theorem total_one (entries : List α) : total (fun _ => 1) entries = entries.length := by
  induction entries with
  | nil => rfl
  | cons head tail induction =>
    rw [total_cons, length_cons]
    omega

end Yvex
