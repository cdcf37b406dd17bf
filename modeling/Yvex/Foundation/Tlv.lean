import Yvex.Foundation.Wire

namespace Yvex.Tlv

open List Option

/-! # Tagged fields

A frame is a sequence of fields, each with a tag, a reserved word of zero, a length and a payload.
A reader hands the fields one after the other to a handler that knows the tags of a record, and
refuses a frame in which a tag comes twice. -/

structure Field where
  tag : Nat
  payload : Bytes

def Field.Fits (field : Field) : Prop := field.tag < 256 ^ 2 ∧ field.payload.length ≤ 256 ^ 4 - 1

def Field.wire (field : Field) : Bytes :=
  bigEndian 2 field.tag ++ bigEndian 2 0 ++ writeSpan 4 field.payload

def readField : Reader Field := do
  let tag ← Reader.number 2
  let reserved ← Reader.number 2
  Reader.ensure (reserved == 0)
  let payload ← Reader.span 4 (256 ^ 4 - 1)
  return { tag, payload }

theorem reads_field : Reads readField Field.Fits Field.wire := by
  have span : Reads (Reader.span 4 (256 ^ 4 - 1)) (fun bytes => bytes.length ≤ 256 ^ 4 - 1)
      (writeSpan 4) := reads_span (by decide)
  intro input field rest
  simp only [readField, Reader.run_bind_eq_some, reads_number _ _ _ _, Reader.run_ensure,
    span _ _ _, Reads.pure _ _ _ _, beq_iff_eq, nil_append]
  constructor
  · intro read
    obtain ⟨tag, afterTag, ⟨small, tagRead⟩, reserved, afterZero, ⟨-, zeroRead⟩, _, body,
      ⟨zero, same⟩, payload, last, ⟨fits, payloadRead⟩, equal, finish⟩ := read
    subst equal zero
    refine ⟨⟨small, fits⟩, ?_⟩
    rw [tagRead, zeroRead, ← same, payloadRead, finish]
    simp only [Field.wire, append_assoc]
  · intro read
    obtain ⟨⟨small, fits⟩, written⟩ := read
    exact ⟨_, _, ⟨small, written⟩, 0, _, ⟨by decide, rfl⟩, (), _, ⟨rfl, rfl⟩, _, _, ⟨fits, rfl⟩,
      rfl, rfl⟩

@[simp] theorem Field.length_wire (field : Field) :
    field.wire.length = 8 + field.payload.length := by
  simp only [wire, writeSpan, length_append, length_bigEndian]
  omega

def frame (fields : List Field) : Bytes := fields.flatMap Field.wire

def run {σ : Type} (handle : Field → σ → Option σ) (fields : List Field) (state : σ) : Option σ :=
  fields.foldlM (fun state field => handle field state) state

/-- Reads a frame with a set of the tags below `tracked` that have come. The fuel is the length
of the input, of which every field takes some. -/
def scan {σ : Type} (tracked : Nat) (handle : Field → σ → Option σ) :
    Nat → List Nat → σ → Bytes → Option σ
  | _, _, state, [] => some state
  | 0, _, _, _ :: _ => none
  | fuel + 1, seen, state, byte :: input => do
    let (field, rest) ← readField.run (byte :: input)
    ensure (decide (tracked ≤ field.tag) || !seen.contains field.tag)
    let state ← handle field state
    scan tracked handle fuel (field.tag :: seen) state rest

def Fresh (tracked : Nat) (seen : List Nat) : List Field → Prop
  | [] => True
  | field :: fields =>
    (field.tag < tracked → field.tag ∉ seen) ∧ Fresh tracked (field.tag :: seen) fields

section Scan

variable {σ : Type}

theorem frame_eq_nil : frame fields = [] ↔ fields = [] := by
  cases fields with
  | nil => simp [frame]
  | cons field fields => ?_
  have length := field.length_wire
  constructor
  · intro empty
    rw [frame, flatMap_cons, append_eq_nil_iff] at empty
    rw [empty.1, length_nil] at length
    omega
  · nofun

theorem frame_injective (fit : ∀ field ∈ fields, field.Fits)
    (fit' : ∀ field ∈ others, field.Fits) (same : frame fields = frame others) :
    fields = others := by
  induction fields generalizing others with
  | nil => exact (frame_eq_nil.mp same.symm).symm
  | cons field fields induction => ?_
  cases others with
  | nil => exact frame_eq_nil.mp same
  | cons other others => ?_
  rw [forall_mem_cons] at fit fit'
  obtain ⟨rfl, rest⟩ := reads_field.delimited fit.1 fit'.1 same
  rw [induction fit.2 fit'.2 rest]

theorem scan_nil_eq_some : scan tracked handle fuel seen state [] = some result ↔
      ∃ fields, (∀ field ∈ fields, field.Fits) ∧ [] = frame fields ∧
        Fresh tracked seen fields ∧ run handle fields state = some result := by
  have scanned : scan tracked handle fuel seen state [] = some state := by
    cases fuel <;> rfl
  rw [scanned]
  constructor
  · intro same
    exact ⟨[], nofun, rfl, trivial, same⟩
  · rintro ⟨fields, -, empty, -, ran⟩
    cases frame_eq_nil.mp empty.symm
    exact ran

theorem scan_eq_some (enough : input.length ≤ fuel) :
    scan tracked handle fuel seen state input = some result ↔
      ∃ fields, (∀ field ∈ fields, field.Fits) ∧ input = frame fields ∧
        Fresh tracked seen fields ∧ run handle fields state = some result := by
  induction fuel generalizing seen state input with
  | zero =>
    cases eq_nil_of_length_eq_zero (Nat.le_zero.mp enough)
    exact scan_nil_eq_some
  | succ fuel induction => ?_
  cases input with
  | nil => exact scan_nil_eq_some
  | cons byte input => ?_
  simp only [scan, bind_eq_some, Prod.exists,
    reads_field _ _ _, ensure_eq_some, Bool.or_eq_true, decide_eq_true_eq,
    Bool.not_eq_true', contains_eq_mem, decide_eq_false_iff_not]
  constructor
  · rintro ⟨field, rest, ⟨fits, equal⟩, _, fresh, next, handled, scanned⟩
    have shorter : rest.length ≤ fuel := by
      have lengths := congrArg List.length equal
      rw [length_append, field.length_wire] at lengths
      omega
    obtain ⟨fields, allFit, split, distinct, ran⟩ := (induction shorter).mp scanned
    refine ⟨field :: fields, forall_mem_cons.mpr ⟨fits, allFit⟩, ?_, ⟨?_, distinct⟩, ?_⟩
    · rw [equal, split, frame, frame, flatMap_cons]
    · intro small
      exact fresh.resolve_left (not_le.mpr small)
    · simp only [run, foldlM_cons, handled]
      exact ran
  rintro ⟨fields, allFit, equal, distinct, ran⟩
  cases fields with
  | nil => cases equal
  | cons field fields => ?_
  rw [forall_mem_cons] at allFit
  simp only [run, foldlM_cons, bind_eq_some] at ran
  obtain ⟨next, handled, ran⟩ := ran
  rw [frame, flatMap_cons] at equal
  have shorter : (frame fields).length ≤ fuel := by
    have lengths := congrArg List.length equal
    rw [length_append, field.length_wire] at lengths
    rw [frame]
    omega
  refine ⟨field, frame fields, ⟨allFit.1, equal⟩, (), ?_, next, handled, ?_⟩
  · exact (lt_or_ge field.tag tracked).symm.imp id distinct.1
  · exact (induction shorter).mpr ⟨fields, allFit.2, rfl, distinct.2, ran⟩

theorem fresh_of_nodup (distinct : (fields.map Field.tag).Nodup)
    (unseen : ∀ field ∈ fields, field.tag ∉ seen) : Fresh tracked seen fields := by
  induction fields generalizing seen with
  | nil => trivial
  | cons field fields induction => ?_
  rw [map_cons, nodup_cons] at distinct
  rw [forall_mem_cons] at unseen
  refine ⟨fun _ => unseen.1, induction distinct.2 ?_⟩
  intro other member
  rw [mem_cons, not_or]
  refine ⟨?_, unseen.2 other member⟩
  intro same
  exact distinct.1 (mem_map.mpr ⟨other, member, same⟩)

theorem Fresh.nodup (fresh : Fresh tracked seen fields)
    (small : ∀ field ∈ fields, field.tag < tracked) :
    (fields.map Field.tag).Nodup ∧ ∀ field ∈ fields, field.tag ∉ seen := by
  induction fields generalizing seen with
  | nil => simp
  | cons field fields induction => ?_
  rw [forall_mem_cons] at small
  obtain ⟨distinct, unseen⟩ := induction fresh.2 small.2
  constructor
  · grind
  · rw [forall_mem_cons]
    exact ⟨fresh.1 small.1, fun other member => fun old =>
      unseen other member (mem_cons_of_mem _ old)⟩

end Scan

def collect {Slot : Type} (emit : Slot → Option (Option Field)) (slots : List Slot) :
    Option (List Field) :=
  if slots.all fun slot => (emit slot).isSome then
    some (slots.filterMap fun slot => (emit slot).join)
  else none

theorem collect_eq_some {emit : Slot → Option (Option Field)} {slots : List Slot}
    : collect emit slots = some fields ↔ (∀ slot ∈ slots, ∃ emitted, emit slot = some emitted) ∧
        fields = slots.filterMap fun slot => (emit slot).join := by
  rw [collect]
  split
  · rename_i written
    rw [List.all_eq_true] at written
    rw [Option.some.injEq]
    constructor
    · intro same
      exact ⟨fun slot member => isSome_iff_exists.mp (written slot member), same.symm⟩
    · exact fun given => given.2.symm
  rename_i refused
  constructor
  · nofun
  intro given
  refine absurd ?_ refused
  rw [List.all_eq_true]
  exact fun slot member => isSome_iff_exists.mpr (given.1 slot member)

/-- How the members of a record travel in tagged fields. A slot stands for what one field carries;
`get` is what a record has there, `read` is what a field says, and `store` is the effect of a
field on a record in which the slot still has its first value. -/
structure Layout (ρ Slot : Type) where
  Value : Slot → Type
  get : ρ → (slot : Slot) → Value slot
  blank : (slot : Slot) → Value slot
  slotOf : Nat → Option Slot
  read : (slot : Slot) → Field → Option (Value slot)
  store : Slot → Field → ρ → Option ρ
  Sound : ρ → Prop
  store_other : ∀ {slot other : Slot} {field : Field} {record next : ρ},
    store slot field record = some next → other ≠ slot → get next other = get record other
  store_read : ∀ {slot : Slot} {field : Field} {record : ρ} {value : Value slot},
    Sound record → get record slot = blank slot → read slot field = some value →
      ∃ next, store slot field record = some next ∧ get next slot = value ∧ Sound next

namespace Layout

variable {ρ Slot : Type} (layout : Layout ρ Slot)

def handle (field : Field) (record : ρ) : Option ρ :=
  (layout.slotOf field.tag).bind fun slot => layout.store slot field record

def Emits (record : ρ) (slot : Slot) : Option Field → Prop
  | some field =>
    layout.slotOf field.tag = some slot ∧ layout.read slot field = some (layout.get record slot)
  | none => layout.get record slot = layout.blank slot

variable {layout}

theorem known_of_run (ran : run layout.handle fields record = some result) :
    ∀ field ∈ fields, ∃ slot, layout.slotOf field.tag = some slot := by
  induction fields generalizing record with
  | nil => nofun
  | cons field fields induction => ?_
  simp only [run, foldlM_cons, handle, bind_eq_bind, bind_eq_some_iff] at ran
  obtain ⟨next, ⟨slot, owned, -⟩, ran⟩ := ran
  rw [forall_mem_cons]
  exact ⟨⟨slot, owned⟩, induction ran⟩

/-- Fields of different slots are stored one after the other, in any order. -/
theorem run_stored (sound : layout.Sound record) (known : ∀ field ∈ fields, ∃ slot value,
      layout.slotOf field.tag = some slot ∧ layout.read slot field = some value)
    (distinct : (fields.map fun field => layout.slotOf field.tag).Nodup)
    (unset : ∀ field ∈ fields, ∀ slot, layout.slotOf field.tag = some slot →
      layout.get record slot = layout.blank slot) :
    ∃ result, run layout.handle fields record = some result ∧ layout.Sound result ∧
      (∀ field ∈ fields, ∀ slot, layout.slotOf field.tag = some slot →
        layout.read slot field = some (layout.get result slot)) ∧
      ∀ slot, (∀ field ∈ fields, layout.slotOf field.tag ≠ some slot) →
        layout.get result slot = layout.get record slot := by
  induction fields generalizing record with
  | nil => exact ⟨record, rfl, sound, nofun, fun _ _ => rfl⟩
  | cons field fields induction => ?_
  rw [map_cons, nodup_cons] at distinct
  rw [forall_mem_cons] at known unset
  obtain ⟨⟨slot, value, owned, readable⟩, known⟩ := known
  obtain ⟨next, stored, has, sound'⟩ := layout.store_read sound (unset.1 slot owned) readable
  have apart : ∀ other ∈ fields, layout.slotOf other.tag ≠ some slot := by
    intro other member same
    exact distinct.1 (mem_map.mpr ⟨other, member, same.trans owned.symm⟩)
  have unset' : ∀ other ∈ fields, ∀ slot', layout.slotOf other.tag = some slot' →
      layout.get next slot' = layout.blank slot' := by
    intro other member slot' owned'
    have different : slot' ≠ slot := by
      rintro rfl
      exact apart other member owned'
    rw [layout.store_other stored different]
    exact unset.2 other member slot' owned'
  obtain ⟨result, ran, kept, reads, others⟩ := induction sound' known distinct.2 unset'
  refine ⟨result, ?_, kept, ?_, ?_⟩
  · simp only [run, foldlM_cons, handle, owned, bind_some, stored]
    exact ran
  · grind
  intro slot' unowned
  rw [forall_mem_cons] at unowned
  have different : slot' ≠ slot := by
    rintro rfl
    exact unowned.1 owned
  rw [others slot' unowned.2, layout.store_other stored different]

section Emission

variable {slots : List Slot}

theorem mem_emitted (emits : ∀ slot ∈ slots, layout.Emits record slot (emit slot))
    (member : field ∈ slots.filterMap emit) :
    ∃ slot ∈ slots, emit slot = some field ∧ layout.slotOf field.tag = some slot ∧
      layout.read slot field = some (layout.get record slot) := by
  obtain ⟨slot, inside, emitted⟩ := mem_filterMap.mp member
  have carried := emits slot inside
  rw [emitted] at carried
  exact ⟨slot, inside, emitted, carried.1, carried.2⟩

theorem nodup_emitted (distinct : slots.Nodup)
    (emits : ∀ slot ∈ slots, layout.Emits record slot (emit slot)) :
    ((slots.filterMap emit).map fun field => layout.slotOf field.tag).Nodup := by
  induction slots with
  | nil => simp
  | cons slot slots induction => ?_
  rw [nodup_cons] at distinct
  rw [forall_mem_cons] at emits
  have others := induction distinct.2 emits.2
  cases emitted : emit slot with
  | none => rwa [filterMap_cons_none emitted]
  | some field => ?_
  have carried := emits.1
  rw [emitted] at carried
  rw [filterMap_cons_some emitted, map_cons, nodup_cons, carried.1]
  refine ⟨?_, others⟩
  intro member
  obtain ⟨other, inside, same⟩ := mem_map.mp member
  obtain ⟨slot', inside', -, owned, -⟩ := mem_emitted emits.2 inside
  cases same.symm.trans owned
  exact distinct.1 inside'

/-- The fields of a record, in any order, put its members into an empty record. -/
theorem run_emitted (distinct : slots.Nodup)
    (emits : ∀ slot ∈ slots, layout.Emits record slot (emit slot))
    (order : fields.Perm (slots.filterMap emit)) (sound : layout.Sound start)
    (unset : ∀ slot ∈ slots, layout.get start slot = layout.blank slot) :
    ∃ result, run layout.handle fields start = some result ∧ layout.Sound result ∧
      (∀ slot ∈ slots, layout.get result slot = layout.get record slot) ∧
      ∀ slot, slot ∉ slots → layout.get result slot = layout.get start slot := by
  have origin : ∀ field ∈ fields, ∃ slot ∈ slots, emit slot = some field ∧
      layout.slotOf field.tag = some slot ∧
      layout.read slot field = some (layout.get record slot) :=
    fun field member => mem_emitted emits (order.mem_iff.mp member)
  have known : ∀ field ∈ fields, ∃ slot value,
      layout.slotOf field.tag = some slot ∧ layout.read slot field = some value := by
    grind
  have apart : (fields.map fun field => layout.slotOf field.tag).Nodup :=
    ((order.map _).nodup_iff).mpr (nodup_emitted distinct emits)
  have empty : ∀ field ∈ fields, ∀ slot, layout.slotOf field.tag = some slot →
      layout.get start slot = layout.blank slot := by
    grind
  obtain ⟨result, ran, kept, reads, others⟩ := run_stored sound known apart empty
  refine ⟨result, ran, kept, ?_, ?_⟩
  · intro slot inside
    cases emitted : emit slot with
    | none =>
      have carried := emits slot inside
      rw [emitted] at carried
      rw [carried, ← unset slot inside]
      apply others
      intro field member owned
      obtain ⟨slot', -, emitted', owned', -⟩ := origin field member
      cases owned.symm.trans owned'
      cases emitted.symm.trans emitted'
    | some field =>
      have carried := emits slot inside
      rw [emitted] at carried
      have member : field ∈ fields := order.mem_iff.mpr (mem_filterMap.mpr ⟨slot, inside, emitted⟩)
      have stored := reads field member slot carried.1
      rw [carried.2, Option.some.injEq] at stored
      exact stored.symm
  · grind

end Emission

end Layout

end Yvex.Tlv
