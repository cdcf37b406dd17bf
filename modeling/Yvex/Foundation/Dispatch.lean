import Mathlib.Tactic.Common

namespace Yvex

open List

/-! # Taking entries out of order

A dispatcher takes the first entry of a queue that it may take and leaves the others in their
order. What it has taken, in order, followed by what is left keeps every order between entries
that cannot overtake each other. -/

variable {α β : Type} {queue : List α}

theorem split_findIdx (found : queue[queue.findIdx property]? = some element) :
    ∃ front rest, queue = front ++ element :: rest ∧ (∀ other ∈ front, property other = false) ∧
      property element = true ∧ queue.eraseIdx (queue.findIdx property) = front ++ rest := by
  induction queue with
  | nil => simp at found
  | cons first queue induction => ?_
  rw [findIdx_cons] at found ⊢
  cases holds : property first with
  | true =>
    simp only [holds, cond_true, getElem?_cons_zero, Option.some.injEq] at found
    subst found
    exact ⟨[], queue, rfl, by simp, holds, by simp⟩
  | false => ?_
  simp only [holds] at found
  rcases induction found with ⟨front, rest, equal, before, here, erased⟩
  refine ⟨first :: front, rest, by rw [equal]; rfl, ?_, here, ?_⟩
  · intro other member
    rcases mem_cons.mp member with rfl | member
    · exact holds
    · exact before other member
  · simp only [cond_false, eraseIdx_cons_succ, erased, cons_append]

theorem forall_of_findIdx_none (missing : queue[queue.findIdx property]? = none) :
    ∀ element ∈ queue, property element = false := by
  intro element member
  by_contra holds
  have bound := findIdx_lt_length_of_exists ⟨element, member, by simpa using holds⟩
  rw [getElem?_eq_none_iff] at missing
  omega

theorem pairwise_take (sorted : (taken ++ (front ++ element :: rest)).Pairwise ordered)
    (overtakes : ∀ other ∈ front, ordered element other) :
    (taken ++ [element] ++ (front ++ rest)).Pairwise ordered := by
  simp only [pairwise_append, pairwise_cons, mem_append, mem_cons] at sorted ⊢
  rcases sorted with ⟨takenSorted, ⟨frontSorted, ⟨elementFirst, restSorted⟩, across⟩, before⟩
  refine ⟨⟨takenSorted, by simp, ?_⟩, ⟨frontSorted, restSorted, ?_⟩, ?_⟩
  · rintro first member second (rfl | impossible)
    · exact before first member second (.inr (.inl rfl))
    · contradiction
  · exact fun first member second last => across first member second (.inr last)
  rintro first (member | rfl | impossible) second (inFront | inRest)
  · exact before first member second (.inl inFront)
  · exact before first member second (.inr (.inr inRest))
  · exact overtakes second inFront
  · exact elementFirst second inRest
  · contradiction
  · contradiction

theorem filterMap_set_perm (holds : α → Option β) {table : List α}
    (present : table[index]? = some old) (new : α) :
    ((holds old).toList ++ (table.set index new).filterMap holds).Perm
      ((holds new).toList ++ table.filterMap holds) := by
  induction table generalizing index with
  | nil => simp at present
  | cons first table induction => ?_
  cases index with
  | zero =>
    simp only [getElem?_cons_zero, Option.some.injEq] at present
    subst present
    simp only [set_cons_zero, filterMap_cons]
    cases holds first <;> cases holds new <;> simp [List.Perm.swap]
  | succ index => ?_
  have inner := induction (by simpa using present)
  simp only [set_cons_succ, filterMap_cons]
  cases here : holds first with
  | none => exact inner
  | some value =>
    exact perm_middle.trans ((inner.cons value).trans perm_middle.symm)

end Yvex
