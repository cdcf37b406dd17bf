import Yvex.Foundation.Inventory

namespace Yvex

open List Option Function

/-! # Tables of slots

A table has a fixed number of slots, each free or taken by an entry. Entries are told apart by
the serial of the admission that put them there; a record of the slots given to each admission
then says which entry a name of a slot can still mean. -/

def Occupies (slots : List (Option α)) (index : Nat) (entry : α) : Prop :=
  slots[index]? = some (some entry)

def slotSum (measure : α → Nat) (slots : List (Option α)) : Nat :=
  total (fun slot => slot.elim 0 measure) slots

section

theorem Occupies.lt (taken : Occupies slots index entry) : index < slots.length := index_lt taken

theorem Occupies.unique (taken : Occupies slots index entry)
    (also : Occupies slots index second) : entry = second := by
  unfold Occupies at also
  rw [taken, some.injEq, some.injEq] at also
  exact also

theorem occupies_set (bound : index < slots.length) : Occupies (slots.set index new) other entry ↔
      other = index ∧ new = some entry ∨ other ≠ index ∧ Occupies slots other entry := by
  unfold Occupies
  by_cases same : other = index
  · subst other
    simp [getElem?_set_self bound]
  · simp [getElem?_set_ne (Ne.symm same), same]

variable (measure : α → Nat)

theorem measure_le_slotSum (taken : Occupies slots index entry) :
    measure entry ≤ slotSum measure slots :=
  measure_le_total (fun slot => slot.elim 0 measure) slots taken

theorem slotSum_le_length {measure : α → Nat} (unit : ∀ entry, measure entry ≤ 1)
    (slots : List (Option α)) : slotSum measure slots ≤ slots.length := by
  induction slots with
  | nil => exact le_rfl
  | cons slot slots induction => ?_
  have one : slot.elim 0 measure ≤ 1 := by
    cases slot with
    | none => exact Nat.zero_le _
    | some entry => exact unit entry
  rw [slotSum, total_cons, length_cons]
  unfold slotSum at induction
  omega

theorem slotSum_replicate (count : Nat) : slotSum measure (List.replicate count none) = 0 := by
  induction count with
  | zero => rfl
  | succ count induction =>
    exact (zero_add _).trans induction

end

def serialAt (serial : α → Nat) (slots : List (Option α)) (index : Nat) : Option Nat :=
  (slots[index]?.join).map serial

theorem Occupies.serialAt (taken : Occupies slots index entry) :
    serialAt serial slots index = some (serial entry) := by
  rw [Yvex.serialAt, taken]
  rfl

theorem serialAt_eq_some : serialAt serial slots index = some value ↔
    ∃ entry, Occupies slots index entry ∧ serial entry = value := by
  unfold Yvex.serialAt Occupies
  cases slots[index]? with
  | none => simp
  | some slot => cases slot <;> simp

theorem serialAt_set (bound : index < slots.length) (new : Option α) :
    serialAt serial (slots.set index new) =
      update (serialAt serial slots) index (new.map serial) := by
  funext place
  by_cases same : place = index
  · subst place
    simp [Yvex.serialAt, getElem?_set_self bound]
  · simp [Yvex.serialAt, getElem?_set_ne (Ne.symm same), update_of_ne same]

theorem serialAt_set_same (taken : Occupies slots index entry) (same : serial new = serial entry) :
    serialAt serial (slots.set index (some new)) = serialAt serial slots := by
  rw [serialAt_set taken.lt, map_some, same, ← taken.serialAt, update_eq_self]

/-- The record of admissions agrees with the slots: it has each entry where it is, and no later
admission to that slot. -/
structure Tagged (serials : Nat → Option Nat) (issued : List Nat) : Prop where
  issuedAt : ∀ {index value}, serials index = some value → issued[value]? = some index
  latest : ∀ {index value}, serials index = some value →
    ∀ earlier : Nat, issued[earlier]? = some index → earlier ≤ value

section

variable (tagged : Tagged serials issued)

include tagged

theorem Tagged.unique (taken : serials index = some value)
    (also : serials other = some value) : index = other := by
  have first := tagged.issuedAt taken
  rw [tagged.issuedAt also, some.injEq] at first
  exact first.symm

theorem Tagged.lt (taken : serials index = some value) : value < issued.length :=
  index_lt (tagged.issuedAt taken)

theorem Tagged.vacate (index : Nat) : Tagged (Function.update serials index none) issued := by
  have before : ∀ {place value}, update serials index none place = some value →
      serials place = some value := by
    intro place value taken
    by_cases same : place = index
    · subst place
      rw [update_self] at taken
      cases taken
    · rwa [update_of_ne same] at taken
  exact ⟨fun taken => tagged.issuedAt (before taken), fun taken => tagged.latest (before taken)⟩

theorem Tagged.occupy (index : Nat) :
    Tagged (update serials index (some issued.length)) (issued ++ [index]) := by
  constructor
  · intro place value taken
    by_cases same : place = index
    · subst place
      rw [update_self, some.injEq] at taken
      subst value
      rw [getElem?_append_right le_rfl, Nat.sub_self]
      rfl
    · rw [update_of_ne same] at taken
      rw [getElem?_append_left (tagged.lt taken)]
      exact tagged.issuedAt taken
  intro place value taken earlier given
  by_cases same : place = index
  · subst place
    rw [update_self, some.injEq] at taken
    subst value
    have bound := index_lt given
    rw [length_append] at bound
    exact Nat.le_of_lt_succ bound
  rw [update_of_ne same] at taken
  rcases lt_or_ge earlier issued.length with below | above
  · rw [getElem?_append_left below] at given
    exact tagged.latest taken earlier given
  rw [getElem?_append_right above] at given
  have last := index_lt given
  rw [length_singleton, Nat.lt_one_iff] at last
  rw [last] at given
  exact absurd (some.inj given).symm same

end

end Yvex
