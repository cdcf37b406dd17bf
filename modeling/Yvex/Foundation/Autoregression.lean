import Mathlib.Tactic.Common

namespace Yvex

/-! # Autoregressive decoding

A decoder extends a sequence by one element at a time, each chosen from what stands before it,
and ends behind the first element that stops it. What other procedures produce in larger
portions is compared with this one through `Follows`: every element of a portion is the one
the decoder would have chosen at its place. -/

variable {α : Type}

/-- At most `count` elements chosen one after the other behind `held`, up to and with the
first that stops. -/
def decode (next : List α → α) (stops : α → Bool) : Nat → List α → List α
  | 0, _ => []
  | count + 1, held =>
    if stops (next held) then [next held]
    else next held :: decode next stops count (held ++ [next held])

attribute [local simp] decode

/-- Each element is the choice made behind `held` and the elements before it. -/
def Follows (next : List α → α) : List α → List α → Prop
  | _, [] => True
  | held, first :: rest => first = next held ∧ Follows next (held ++ [first]) rest

variable {portion : List α}

theorem stops_take_of_le_findIdx (early : count ≤ portion.findIdx stops) :
    ∀ element ∈ portion.take count, stops element = false := by
  intro element member
  rw [List.mem_take_iff_getElem] at member
  rcases member with ⟨index, bound, rfl⟩
  have before : index < portion.findIdx stops := by omega
  simpa using List.not_of_lt_findIdx before

/-- A portion that follows the choices and is cut no later than behind its first stop is
decoded. -/
theorem Follows.take_eq_decode (follows : Follows next held portion)
    (within : count ≤ portion.length) (unstopped : count ≤ portion.findIdx stops + 1) :
    portion.take count = decode next stops count held := by
  induction portion generalizing held count with
  | nil =>
    have none : count = 0 := by simpa using within
    simp [none, decode]
  | cons first rest induction => ?_
  rcases count with _ | count
  · rfl
  rcases follows with ⟨rfl, follows⟩
  rw [List.findIdx_cons] at unstopped
  rw [decode]
  cases stopped : stops (next held) with
  | true =>
    have alone : count = 0 := by simpa [stopped] using unstopped
    simp [alone]
  | false =>
    have shorter : count ≤ rest.findIdx stops + 1 := by simpa [stopped] using unstopped
    simp [induction follows (by simpa using within) shorter]

theorem decode_add (more : Nat)
    (unstopped : ∀ element ∈ decode next stops count held, stops element = false)
    (full : (decode next stops count held).length = count) : decode next stops (count + more) held =
      decode next stops count held ++
        decode next stops more (held ++ decode next stops count held) := by
  induction count generalizing held with
  | zero => simp [decode]
  | succ count induction => ?_
  rw [Nat.add_right_comm, decode, decode]
  rw [decode] at unstopped full
  cases stopped : stops (next held) with
  | true => simp [stopped] at unstopped
  | false => ?_
  simp only [stopped, Bool.false_eq_true, if_false, List.mem_cons,
    forall_eq_or_imp, List.length_cons] at unstopped full
  simp [induction unstopped.2 (by omega)]

theorem decode_of_stopped (more : Nat)
    (member : element ∈ decode next stops count held) (stopped : stops element = true) :
    decode next stops (count + more) held = decode next stops count held := by
  induction count generalizing held with
  | zero => simp [decode] at member
  | succ count induction => ?_
  rw [Nat.add_right_comm, decode, decode]
  rw [decode] at member
  cases here : stops (next held) with
  | true => simp
  | false => ?_
  simp only [here, Bool.false_eq_true, if_false, List.mem_cons] at member
  rcases member with rfl | member
  · rw [here] at stopped
    contradiction
  · simp [induction member]

theorem decode_prefix (held : List α) (ordered : fewer ≤ more) :
    decode next stops fewer held <+: decode next stops more held := by
  induction fewer generalizing more held with
  | zero => exact List.nil_prefix
  | succ fewer induction => ?_
  rcases more with _ | more
  · omega
  rw [decode, decode]
  split
  · exact List.prefix_rfl
  · exact List.cons_prefix_cons.mpr ⟨rfl, induction _ (by omega)⟩

end Yvex
